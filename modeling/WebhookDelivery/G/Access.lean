/-
The token gate of the `g` service.

`require_token` stands before every route but `/healthz`.  With `API_TOKEN` set to a
text that is not empty, a request passes if its first `x-api-token` is that text, byte for
byte; a token that is not visible ASCII is never met, and shuts the routes for good.
Behind the gate the service runs as before, so whatever it stores, sends or requeues goes
back to a request that has passed.
-/
import WebhookDelivery.Run.Gate
import WebhookDelivery.Text.Header
import WebhookDelivery.G.Ledger

namespace WebhookDelivery
namespace G

open Run Text

variable {J : Json}

/-! ## The check -/

/-- The loop gathers in `diff` the bits in which two bytes differ. -/
def constantTimeEq (a b : List UInt8) : Bool :=
  if a.length ≠ b.length then false
  else (a.zip b).foldl (fun diff xy => diff ||| (xy.1 ^^^ xy.2)) 0 = 0

/-- `api_token` of `Config::from_env`; `var` is `API_TOKEN`, if it is set and Unicode. -/
def apiToken (var : Option String) : Option String := var.filter fun s => !s.isEmpty

/-- `provided` are the values of `x-api-token`; the error is the text of the 401. -/
def requireToken (apiToken : Option String) (provided : List (List UInt8)) :
    Except String Unit :=
  match apiToken with
  | none => .ok ()
  | some expected =>
    match provided.head?.bind headerText with
    | none => .error "missing or invalid API token"
    | some p =>
      if constantTimeEq (utf8 p) (utf8 expected) then .ok ()
      else .error "missing or invalid API token"

/-- No bit is left if there was none and the bytes agree. -/
theorem foldl_diff (pairs : List (UInt8 × UInt8)) (diff : UInt8) :
    pairs.foldl (fun diff xy => diff ||| (xy.1 ^^^ xy.2)) diff = 0 ↔
      diff = 0 ∧ ∀ xy ∈ pairs, xy.1 = xy.2 := by
  induction pairs generalizing diff with
  | nil => simp
  | cons xy pairs ih =>
    rw [List.foldl_cons, ih, UInt8.or_eq_zero_iff, UInt8.xor_eq_zero_iff, List.forall_mem_cons,
      and_assoc]

theorem zip_eq_iff {a b : List UInt8} (hlen : a.length = b.length) :
    (∀ xy ∈ a.zip b, xy.1 = xy.2) ↔ a = b := by
  induction a generalizing b with
  | nil =>
    cases b with
    | nil => simp
    | cons y b => cases hlen
  | cons x a ih =>
    cases b with
    | nil => cases hlen
    | cons y b =>
      rw [List.zip_cons_cons, List.forall_mem_cons, ih (Nat.succ.inj hlen), List.cons.injEq]

theorem constantTimeEq_iff (a b : List UInt8) : constantTimeEq a b = true ↔ a = b := by
  unfold constantTimeEq
  by_cases hlen : a.length = b.length
  · rw [if_neg (not_not.2 hlen), decide_eq_true_eq, foldl_diff, and_iff_right rfl,
      zip_eq_iff hlen]
  · rw [if_pos hlen]
    constructor
    · intro h
      cases h
    · rintro rfl
      exact absurd rfl hlen

/-- The values of `x-api-token` that open the routes under the setting of `API_TOKEN`. -/
def Opens (var : Option String) (provided : List (List UInt8)) : Prop :=
  ∀ token, var = some token → token ≠ "" →
    provided.head? = some (utf8 token) ∧ (utf8 token).all isVisibleAscii = true

theorem requireToken_some_iff (expected : String) (provided : List (List UInt8)) :
    requireToken (some expected) provided = .ok () ↔
      provided.head? = some (utf8 expected) ∧ (utf8 expected).all isVisibleAscii = true := by
  unfold requireToken
  cases hp : provided.head?.bind headerText with
  | none =>
    simp only [reduceCtorEq, false_iff]
    rintro ⟨hhead, hall⟩
    rw [hhead, Option.bind_some] at hp
    rw [headerText_iff.2 ⟨rfl, hall⟩] at hp
    cases hp
  | some p =>
    obtain ⟨value, hhead, htext⟩ := Option.bind_eq_some_iff.1 hp
    obtain ⟨hbytes, hall⟩ := headerText_iff.1 htext
    by_cases heq : utf8 p = utf8 expected
    · simp only [if_pos ((constantTimeEq_iff _ _).2 heq), true_iff]
      exact ⟨by rw [hhead, ← hbytes, heq], heq ▸ hall⟩
    · have hne : ¬constantTimeEq (utf8 p) (utf8 expected) = true :=
        fun h => heq ((constantTimeEq_iff _ _).1 h)
      simp only [if_neg hne, reduceCtorEq, false_iff]
      rintro ⟨hhead', -⟩
      rw [hhead, Option.some.injEq] at hhead'
      exact heq (hbytes.trans hhead')

def admits (var : Option String) (provided : List (List UInt8)) : Bool :=
  (requireToken (apiToken var) provided).isOk

theorem admits_iff (var : Option String) (provided : List (List UInt8)) :
    admits var provided = true ↔ Opens var provided := by
  have hok : admits var provided = true ↔ requireToken (apiToken var) provided = .ok () := by
    unfold admits
    cases requireToken (apiToken var) provided with
    | ok u => exact ⟨fun _ => rfl, fun _ => rfl⟩
    | error e => exact ⟨(fun h => by cases h), fun h => by cases h⟩
  rw [hok]
  unfold Opens
  cases var with
  | none => exact ⟨(fun _ token h => by cases h), fun _ => rfl⟩
  | some token =>
    by_cases hempty : token = ""
    · subst hempty
      refine ⟨fun _ token' h hne => ?_, fun _ => rfl⟩
      exact absurd (Option.some.inj h).symm hne
    · have hkept : apiToken (some token) = some token := by
        unfold apiToken
        rw [Option.filter_some, if_pos]
        simpa using hempty
      rw [hkept, requireToken_some_iff]
      constructor
      · rintro h token' htoken -
        exact Option.some.inj htoken ▸ h
      · exact fun h => h token rfl hempty

/-! ## The service behind it -/

/-- The labels that a request asks for.  `requeueUpdate` goes on with a request that has
passed. -/
def Label.Asked : Label J → Prop
  | .createWebhook .. | .requeueCheck .. => True
  | _ => False

variable (J) in
/-- The setting is `API_TOKEN`, which may be another at each start. -/
def served : System (State × Option String) (Visit (List (List UInt8)) (Option String) (Label J)) :=
  (system J).gated Label.Asked admits

/-- A request that opened the routes, as they were then, has asked for the step. -/
def AskedWithToken (h : List (Visit (List (List UInt8)) (Option String) (Label J)))
    (l : Label J) : Prop :=
  ∃ h₁ provided h₀ s var, h = h₁ ++ .passed provided l :: h₀ ∧
    (served J).Reaches h₀ (s, var) ∧ Opens var provided

theorem askedWithToken {h : List (Visit (List (List UInt8)) (Option String) (Label J))}
    {x : State × Option String} (hx : (served J).Reaches h x) {l : Label J}
    (hl : l ∈ h.filterMap Visit.label) (hask : l.Asked) : AskedWithToken h l := by
  obtain ⟨h₁, provided, h₀, ⟨s, var⟩, rfl, hx₀, hadm⟩ := System.Reaches.askedFor hx hl hask
  exact ⟨h₁, provided, h₀, s, var, rfl, hx₀, (admits_iff var provided).1 hadm⟩

/-- A requeue that has still to update has passed its check. -/
theorem checked_of_requeues {h : List (Label J)} {s : State} (hs : (system J).Reaches h s) :
    ∀ id ∈ s.requeues, .requeueCheck id (.ok ()) ∈ h := by
  refine hs.invariant (I := fun h s => ∀ id ∈ s.requeues, .requeueCheck id (.ok ()) ∈ h)
    (fun s hinit id hid => ?_) (fun h s l t _ hI hst id hid => ?_)
  · rw [hinit.2.2.2] at hid
    cases hid
  · have hkept : id ∈ s.requeues → .requeueCheck id (.ok ()) ∈ l :: h :=
      fun hid => List.mem_cons_of_mem l (hI id hid)
    cases hst with
    | requeueCheck id' =>
      cases hcheck : requeueCheck id' s.table with
      | error e =>
        simp only [hcheck, afterCheck] at hid ⊢
        exact List.mem_cons_of_mem _ (hI id hid)
      | ok u =>
        simp only [hcheck, afterCheck] at hid ⊢
        rcases List.mem_cons.1 hid with rfl | hid
        · exact List.mem_cons_self
        · exact List.mem_cons_of_mem _ (hI id hid)
    | requeueUpdate id' now hmem => exact hkept (List.mem_of_mem_erase hid)
    | requeueFailed id' hmem => exact hkept (List.mem_of_mem_erase hid)
    | restart cfg now => cases hid
    | createWebhook | reclaim | claim | tickFailed | deliverOnce | finish | finishFailed =>
      exact hkept hid

/-- What holds of everything the service stores, sends and requeues behind the gate. -/
structure TokenGuarded (h : List (Visit (List (List UInt8)) (Option String) (Label J)))
    (s : State) : Prop where
  rows : ∀ id r, s.table.get? id = some r → ∃ cfg req now status,
    AskedWithToken h (.createWebhook cfg (.ok req) now (.ok { id := id, status := status })) ∧
      r.destination = req.destination ∧ r.payload = J.toString req.data
  calls : ∀ h₁ h₀ job now res, h = h₁ ++ .own (.deliverOnce job now res) :: h₀ →
    ∃ cfg req t status,
      AskedWithToken h₀ (.createWebhook cfg (.ok req) t (.ok { id := job.id, status := status })) ∧
        job.destination = req.destination ∧ job.payload = J.toString req.data
  requeues : ∀ h₁ h₀ id now, h = h₁ ++ .own (.requeueUpdate id now) :: h₀ →
    AskedWithToken h₀ (.requeueCheck id (.ok ()))

/-- In every run behind the gate, whatever requests come with whatever headers and however
the token changes from one start to the next, each row, each call and each requeue goes
back to a request that showed the token in force when it came. -/
theorem guarded_by_token {h : List (Visit (List (List UInt8)) (Option String) (Label J))}
    {s : State} {var : Option String} (hx : (served J).Reaches h (s, var)) :
    TokenGuarded h s where
  rows id r hr := by
    obtain ⟨cfg, req, now, status, hmem, hsub⟩ := created_of_row hx.of_gated hr
    exact ⟨cfg, req, now, status, askedWithToken hx hmem trivial,
      congrArg Submitted.destination hsub, congrArg Submitted.payload hsub⟩
  calls h₁ h₀ job now res hh := by
    subst hh
    obtain ⟨x₀, x₁, hx₀, -, -⟩ := hx.cut
    have hrun := hx.of_gated
    rw [filterMap_own] at hrun
    obtain ⟨cfg, req, t, status, hcreated, hdest, hpay⟩ := accepted_before_call hrun
    exact ⟨cfg, req, t, status, askedWithToken hx₀ hcreated trivial, hdest, hpay⟩
  requeues h₁ h₀ id now hh := by
    subst hh
    obtain ⟨⟨s₀, var₀⟩, x₁, hx₀, hst, -⟩ := hx.cut
    cases hst with
    | own _ t a l hno hst =>
      cases hst with
      | requeueUpdate _ _ hid =>
        exact askedWithToken hx₀ (checked_of_requeues hx₀.of_gated id hid) trivial

/-- A client that shows the token has its hook accepted, and the service calls it. -/
theorem guarded_by_token_hook : TokenGuarded
    [.own (.deliverOnce (hookRow 3).job 5 (.ok ())), .own (.claim 0 [(hookRow 3).job]),
      .own (.reclaim 0), .passed [utf8 "s3cret"] (hookAccepted 3), .configured (some "s3cret")]
    (one (asClaimed 0 (hookRow 3)) none [⟨(hookRow 3).job, 0, .called 5 (.ok ())⟩] []) := by
  have h₀ : (served Json.text).Reaches [] (fresh 3, none) := .init ⟨rfl, rfl, rfl, rfl⟩
  have h₁ := h₀.step (.configured (fresh 3) none (some "s3cret"))
  have hadm : admits (some "s3cret") [utf8 "s3cret"] = true := by decide
  have hcreate : Step (fresh 3) (hookAccepted 3) (one (hookRow 3) none [] []) :=
    .createWebhook (fresh 3) (.ok hookRequest) (.ok ()) "a" 0 none _ _ rfl
  have hreclaim : Step (J := Json.text) (one (hookRow 3) none [] []) (.reclaim 0)
      (one (hookRow 3) (some 0) [] []) := .reclaim _ 0 rfl
  have hsel : SelectsDue (one (hookRow 3) (some 0) [] []).table 0 50 [hookRow 3] :=
    ⟨[hookRow 3], List.Perm.refl _, List.pairwise_singleton _ _, rfl⟩
  have hclaim : Step (J := Json.text) (one (hookRow 3) (some 0) [] [])
      (.claim 0 [(hookRow 3).job])
      (one (asClaimed 0 (hookRow 3)) none [.spawn 0 (hookRow 3).job] []) :=
    .claim _ 0 [hookRow 3] _ rfl hsel (List.Perm.refl _)
  have hcall := Step.deliverOnce (J := Json.text)
    (one (asClaimed 0 (hookRow 3)) none [.spawn 0 (hookRow 3).job] []) [] [] (hookRow 3).job 0 5
    (.ok ()) (.status 200 "" "") rfl (by decide)
  have h₂ := h₁.step (.passed _ _ _ _ (hookAccepted 3) hadm trivial hcreate)
  have h₃ := (h₂.step (.own _ _ _ _ id hreclaim)).step (.own _ _ _ _ id hclaim)
  exact guarded_by_token (h₃.step (.own _ _ _ _ id hcall))

end G
end WebhookDelivery
