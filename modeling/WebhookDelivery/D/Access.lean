/-
The key gate of the `d` service.

`require_api_key` stands before every route and compares the first `x-api-key` with the
key of `Config`, which is `dev-secret` where `API_KEY` is not set.  What the service holds
goes from place to place after that, through dead letters and redeliveries, and still
every copy goes back to a submission made with the key.
-/
import WebhookDelivery.Run.Gate
import WebhookDelivery.Text.Header
import WebhookDelivery.D.Origin
import WebhookDelivery.D.Redeliver

namespace WebhookDelivery
namespace D

open Sql Run Text

variable {F : Formats} {κ : Type}

/-! ## The check -/

/-- `api_key` of `Config::from_env`; `var` is `API_KEY`, if it is set and Unicode. -/
def apiKey (var : Option String) : String := var.getD "dev-secret"

/-- `key` is what `set_api_key` has stored, and `provided` the values of `x-api-key`. -/
def requireApiKey (key : Option String) (provided : List (List UInt8)) : Bool :=
  match provided.head?.bind headerText with
  | some k => k = key.getD ""
  | none => false

/-- `main` stores the key before it serves. -/
def admits (var : Option String) (provided : List (List UInt8)) : Bool :=
  requireApiKey (some (apiKey var)) provided

/-- The values of `x-api-key` that show the key. -/
def ShowsKey (var : Option String) (provided : List (List UInt8)) : Prop :=
  provided.head? = some (utf8 (apiKey var)) ∧ (utf8 (apiKey var)).all isVisibleAscii = true

theorem admits_iff (var : Option String) (provided : List (List UInt8)) :
    admits var provided = true ↔ ShowsKey var provided := by
  unfold admits requireApiKey ShowsKey
  rw [Option.getD_some]
  cases hp : provided.head?.bind headerText with
  | none =>
    simp only [Bool.false_eq_true, false_iff]
    rintro ⟨hhead, hall⟩
    rw [hhead, Option.bind_some, headerText_iff.2 ⟨rfl, hall⟩] at hp
    cases hp
  | some k =>
    obtain ⟨value, hhead, htext⟩ := Option.bind_eq_some_iff.1 hp
    obtain ⟨hbytes, hall⟩ := headerText_iff.1 htext
    rw [decide_eq_true_eq, hhead, ← hbytes]
    constructor
    · rintro rfl
      exact ⟨rfl, hall⟩
    · rintro ⟨hsame, -⟩
      exact utf8_inj (Option.some.inj hsame)

/-! ## The service behind it -/

/-- The labels that a request asks for: a submission, and the lookup with which a
redelivery begins. -/
def Label.Asked : Label F κ → Prop
  | .enqueue _ | .getDlq .. => True
  | _ => False

variable [DecidableEq κ]

variable (F κ) in
/-- The setting is `API_KEY`, which may be another at each start. -/
def served : System (State F κ × Option String)
    (Visit (List (List UInt8)) (Option String) (Label F κ)) :=
  (system F κ).gated Label.Asked admits

/-- A request that showed the key, as it was then, has asked for the step. -/
def AskedWithKey (h : List (Visit (List (List UInt8)) (Option String) (Label F κ)))
    (l : Label F κ) : Prop :=
  ∃ h₁ provided h₀ s var, h = h₁ ++ .passed provided l :: h₀ ∧
    (served F κ).Reaches h₀ (s, var) ∧ ShowsKey var provided

theorem askedWithKey {h : List (Visit (List (List UInt8)) (Option String) (Label F κ))}
    {x : State F κ × Option String} (hx : (served F κ).Reaches h x) {l : Label F κ}
    (hl : l ∈ h.filterMap Visit.label) (hask : l.Asked) : AskedWithKey h l := by
  obtain ⟨h₁, provided, h₀, ⟨s, var⟩, rfl, hx₀, hadm⟩ := System.Reaches.askedFor hx hl hask
  exact ⟨h₁, provided, h₀, s, var, rfl, hx₀, (admits_iff var provided).1 hadm⟩

/-- A call that has found its entry has looked it up. -/
theorem lookup_of_found {h : List (Label F κ)} {s : State F κ} (hs : (system F κ).Reaches h s) :
    ∀ k e entry, s.call k = .found e entry → .getDlq k e true ∈ h := by
  refine hs.invariant (I := fun h s => ∀ k e entry, s.call k = .found e entry →
    .getDlq k e true ∈ h) (fun s hinit k e entry hk => ?_)
    (fun h s l t _ hI hst k e entry hk => ?_)
  · rw [hinit.2.2.2.2 k] at hk
    cases hk
  · -- A call that is put elsewhere has found nothing since.
    have hset : ∀ {s' : State F κ} {k' : κ} {call : Call F}, s'.call = s.call →
        (∀ e entry, call ≠ .found e entry) → (s'.setCall k' call).call k = .found e entry →
        .getDlq k e true ∈ l :: h := by
      intro s' k' call hsame hno hk
      by_cases hkk : k = k'
      · rw [hkk, State.setCall_self] at hk
        exact absurd hk (hno e entry)
      · rw [State.setCall_ne _ _ hkk, hsame] at hk
        exact List.mem_cons_of_mem l (hI k e entry hk)
    cases hst with
    | getDlq k' entryId entry' hidle hlock hget =>
      by_cases hkk : k = k'
      · rw [hkk, State.setCall_self] at hk
        cases hk
        exact hkk ▸ List.mem_cons_self
      · rw [State.setCall_ne _ _ hkk] at hk
        exact List.mem_cons_of_mem _ (hI k e entry hk)
    | insertJob k' entryId entry' id now db hcall hlock hnew hins =>
      exact hset rfl (fun _ _ h => by cases h) hk
    | deleteDlq k' entryId job hcall => exact hset rfl (fun _ _ h => by cases h) hk
    | callFailed k' => exact hset rfl (fun _ _ h => by cases h) hk
    | restart cfg => cases hk
    | enqueue | fetchDue | block | send | markDelivered | recordAttempt | insertDlq | deleteJob
    | workerFailed | endPass | notFound => exact List.mem_cons_of_mem _ (hI k e entry hk)

/-- What holds of everything the service stores, sends and redelivers behind the gate. -/
structure KeyGuarded (h : List (Visit (List (List UInt8)) (Option String) (Label F κ)))
    (s : State F κ) : Prop where
  places : ∀ x c, s.db.content x = some c → ∃ job : WebhookJob F,
    AskedWithKey h (.enqueue job) ∧
      Descends (copies (h.filterMap Visit.label)) (.job job.id) x ∧ job.content = c
  sent : ∀ h₁ h₀ job resp, h = h₁ ++ .own (.send job resp) :: h₀ → ∃ job₀ : WebhookJob F,
    AskedWithKey h₀ (.enqueue job₀) ∧
      Descends (copies (h₀.filterMap Visit.label)) (.job job₀.id) (.job job.id) ∧
      job₀.content = job.content
  redelivered : ∀ h₁ h₀ k e job, h = h₁ ++ .own (.insertJob k e job) :: h₀ →
    AskedWithKey h₀ (.getDlq k e true)

/-- In every run behind the gate, whatever requests come with whatever headers and however
the key changes from one start to the next, what is stored and what is sent was submitted,
and what is redelivered was asked for, by requests that showed the key in force when they
came.  `hparse` is about the payloads: their text reads back. -/
theorem guarded_by_key (hparse : ∀ v : F.Value, F.fromStr (F.toString v) = some v)
    {h : List (Visit (List (List UInt8)) (Option String) (Label F κ))} {s : State F κ}
    {var : Option String} (hx : (served F κ).Reaches h (s, var)) : KeyGuarded h s where
  places x c hc := by
    obtain ⟨job, hjob, hdesc, hcontent⟩ := (traced hparse hx.of_gated).places x c hc
    exact ⟨job, askedWithKey hx hjob trivial, hdesc, hcontent⟩
  sent h₁ h₀ job resp hh := by
    subst hh
    obtain ⟨⟨s₀, var₀⟩, x₁, hx₀, hst, -⟩ := hx.cut
    cases hst with
    | own _ t a l hno hst =>
      obtain ⟨job₀, hjob, hdesc, hcontent⟩ := (traced hparse hx₀.of_gated).jobs job hst.sends
      exact ⟨job₀, askedWithKey hx₀ hjob trivial, hdesc, hcontent⟩
  redelivered h₁ h₀ k e job hh := by
    subst hh
    obtain ⟨⟨s₀, var₀⟩, x₁, hx₀, hst, -⟩ := hx.cut
    cases hst with
    | own _ t a l hno hst =>
      cases hst with
      | insertJob _ _ entry id now db hcall =>
        exact askedWithKey hx₀ (lookup_of_found hx₀.of_gated k e entry hcall) trivial

/-- Where `API_KEY` is not set, the key of the source opens the routes: for the hook, which is
refused and buried, and for the redelivery of it. -/
theorem guarded_by_key_default : KeyGuarded
    [.own (.insertJob false 2 (remade 3)), .passed [utf8 "dev-secret"] (.getDlq false 2 true),
      .own (.deleteJob (hookJob 1)), .own (.insertDlq (hookJob 1) 2),
      .own (.block (hookJob 1) "no host"), .own (.fetchDue 0 [hookJob 1]),
      .passed [utf8 "dev-secret"] (.enqueue (hookJob 1))]
    (pairAt stored [3, 2, 1] (some (.call false)) (.batch []) (.inserted 2 (remade 3)) .idle) := by
  let empty : State mini Bool := pairAt Db.empty [] none .fetching .idle .idle
  have hadm : admits none [utf8 "dev-secret"] = true := by decide
  have hfetch : FetchesDue mini accepted 0 10 (some [hookJob 1]) :=
    ⟨[(hookJob 1).row], ⟨_, List.Perm.refl _, List.pairwise_singleton _ _, rfl⟩, rfl⟩
  have h₀ : (served mini Bool).Reaches [] (empty, none) :=
    .init ⟨rfl, rfl, rfl, rfl, fun k => by cases k <;> rfl⟩
  have h₁ := h₀.step (.passed _ _ _ _ (Label.enqueue (hookJob 1)) hadm trivial
    (Step.enqueue empty hook 1 0 accepted rfl (by decide) rfl))
  have h₂ := h₁.step (.own _ _ _ _ id (Step.fetchDue _ 0 [hookJob 1] rfl rfl hfetch))
  have h₃ := h₂.step (.own _ _ _ _ id (Step.block _ (hookJob 1) [] "no host" rfl))
  have h₄ := h₃.step (.own _ _ _ _ id
    (Step.insertDlq _ (hookJob 1) _ [] 2 0 copied rfl rfl (by decide) rfl))
  have h₅ := h₄.step (.own _ _ _ _ id (Step.deleteJob _ (hookJob 1) 2 [] rfl))
  have h₆ := h₅.step (.passed _ _ _ _ (Label.getDlq false 2 true) hadm trivial
    (Step.getDlq _ false 2 hookRead rfl rfl rfl))
  have h₇ := h₆.step (.own _ _ _ _ id
    (Step.insertJob _ false 2 hookRead 3 0 stored rfl rfl (by decide) rfl))
  exact guarded_by_key mini_parse (h₇.of_eq
    (congrArg (·, none) (pairAt_ext rfl rfl rfl rfl rfl rfl rfl)))

end D
end WebhookDelivery
