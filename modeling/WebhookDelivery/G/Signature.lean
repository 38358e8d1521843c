/-
What a delivery signs.

HMAC is any function of a key and a message, so all that a signature is known to
bind is its message: the text of a clock reading, a dot and the body.  The text
of an integer has no dot in it, so the first dot of the message is that one,
whatever the body has.

The runs of the service leave open what a call sends.  Here a step comes with
what the call sees, and the request it makes can be read off it.
-/
import WebhookDelivery.G.Ownership
import WebhookDelivery.Text.Ascii
import WebhookDelivery.Text.Hex
import WebhookDelivery.Text.Numeral

namespace WebhookDelivery
namespace G

open Run
open Text (utf8 asciiString hexEncode)

/-! ## The message -/

/-- A key and a message, to a code. -/
abbrev Hmac := List UInt8 → List UInt8 → List UInt8

def signedMessage (timestamp : String) (body : List UInt8) : List UInt8 :=
  utf8 timestamp ++ utf8 "." ++ body

def signPayload (hmac : Hmac) (secret timestamp body : String) : String :=
  "v1=" ++ asciiString (hexEncode (hmac (utf8 secret) (signedMessage timestamp (utf8 body))))

/-- The recomputation of a receiver, from the headers and the body it got. -/
def verify (hmac : Hmac) (secret timestamp : String) (body : List UInt8) (signature : String) :
    Bool :=
  let expected :=
    "v1=" ++ asciiString (hexEncode (hmac (utf8 secret) (utf8 (timestamp ++ ".") ++ body)))
  expected = signature

theorem verify_signPayload (hmac : Hmac) (secret timestamp body : String) :
    verify hmac secret timestamp (utf8 body) (signPayload hmac secret timestamp body) = true := by
  simp [verify, signPayload, signedMessage, Text.utf8_append]

/-- There is no dot in the text of an integer. -/
theorem dot_notMem_timestamp (a : Int) : (46 : UInt8) ∉ utf8 (toString a) := by
  rw [← String.ofList_toList (s := toString a),
    Text.utf8_ascii fun c hc => (Text.toString_ascii hc).1]
  intro hmem
  obtain ⟨c, hc, hbyte⟩ := List.mem_map.1 hmem
  obtain ⟨hlt, hne⟩ := Text.toString_ascii hc
  have hnat := congrArg UInt8.toNat hbyte
  rw [UInt8.toNat_ofNat_of_lt' (Nat.lt_trans hlt (by decide))] at hnat
  exact hne (Char.toNat_inj.1 hnat)

/-- The first dot of a message ends its timestamp. -/
theorem signedMessage_inj {a b : Int} {body body' : List UInt8}
    (h : signedMessage (toString a) body = signedMessage (toString b) body') :
    a = b ∧ body = body' := by
  have hdot : utf8 "." = [46] := by decide
  unfold signedMessage at h
  rw [hdot, List.append_assoc, List.append_assoc] at h
  obtain ⟨htime, hbody⟩ :=
    Text.append_sep_inj (dot_notMem_timestamp a) (dot_notMem_timestamp b) h
  exact ⟨Text.toString_int_inj (Text.utf8_inj htime), hbody⟩

/-! ## The request of a call -/

structure Request where
  url : String
  contentType : String
  webhookId : String
  webhookTimestamp : String
  webhookSignature : String
  body : List UInt8

/-- The request that `deliver_once` makes at a clock reading in seconds. -/
def request (hmac : Hmac) (secret : String) (seconds : Int) (job : ClaimedJob) : Request :=
  let timestamp := toString seconds
  let signature := signPayload hmac secret timestamp job.payload
  { url := job.destination
    contentType := "application/json"
    webhookId := job.id
    webhookTimestamp := timestamp
    webhookSignature := signature
    body := utf8 job.payload }

/-- `deliver_once` with the request it makes, if the destination passes.  `respond`
is what the client reports of a request. -/
def sendOnce (hmac : Hmac) (secret : String) (check : Except String Unit) (seconds : Int)
    (respond : Request → Response) (job : ClaimedJob) :
    Option Request × Except String Unit :=
  match check with
  | .error reason => (none, .error s!"destination rejected: {reason}")
  | .ok _ =>
    let req := request hmac secret seconds job
    match respond req with
    | .status code shown body =>
      if 200 ≤ code ∧ code < 300 then (some req, .ok ())
      else (some req, .error s!"destination responded with HTTP {shown}: {truncate body 200}")
    | .failed e => (some req, .error s!"request failed: {e}")

/-- What comes back is what the runs of the service know of the call. -/
theorem sendOnce_result (hmac : Hmac) (secret : String) (check : Except String Unit)
    (seconds : Int) (respond : Request → Response) (job : ClaimedJob) :
    (sendOnce hmac secret check seconds respond job).2 =
      deliverOnce check (respond (request hmac secret seconds job)) := by
  unfold sendOnce deliverOnce
  cases check with
  | error reason => rfl
  | ok _ =>
    dsimp only
    cases respond (request hmac secret seconds job) with
    | failed e => rfl
    | status code shown body =>
      dsimp only
      split <;> rfl

theorem sendOnce_request {hmac : Hmac} {secret : String} {check : Except String Unit}
    {seconds : Int} {respond : Request → Response} {job : ClaimedJob} {req : Request}
    (h : (sendOnce hmac secret check seconds respond job).1 = some req) :
    req = request hmac secret seconds job := by
  unfold sendOnce at h
  cases check with
  | error reason => cases h
  | ok _ =>
    dsimp only at h
    split at h
    · split at h
      · exact (Option.some.inj h).symm
      · exact (Option.some.inj h).symm
    · exact (Option.some.inj h).symm

/-! ## Where a payload comes from -/

variable {J : Json}

/-- The payload that an accepted request leaves in the row of `id`. -/
def Label.stores (id : String) : Label J → Option String
  | .createWebhook _ (.ok req) _ (.ok resp) =>
    if resp.id = id then some (J.toString req.data) else none
  | _ => none

theorem Step.stores {s t : State} {l : Label J} (hst : Step s l t) {id payload : String}
    (h : l.stores id = some payload) :
    s.table.get? id = none ∧ (t.table.get? id).map DeliveryRow.payload = some payload := by
  cases hst with
  | createWebhook req check id' now fault res t' hcreate =>
    rcases createWebhook_spec _ _ _ _ _ _ _ hcreate with ⟨e, rfl, -⟩ | ⟨req, rfl, rfl, hins⟩
    · cases req <;> cases h
    · simp only [Label.stores] at h
      split at h
      · rename_i hid
        obtain rfl := Option.some.inj h
        subst hid
        refine ⟨Sql.Table.get?_of_insert? hins, ?_⟩
        exact congrArg (Option.map DeliveryRow.payload)
          ((Sql.Table.get?_insert? hins id').trans (if_pos rfl))
      · cases h
  | _ => cases h

theorem Step.payload_kept {s t : State} {l : Label J} (hst : Step s l t) {id : String}
    (h : l.stores id = none) :
    (t.table.get? id).map DeliveryRow.payload = (s.table.get? id).map DeliveryRow.payload := by
  rcases hst.row id with ⟨cfg, req, now, rfl, -, -⟩ | ⟨f, hf, hrow⟩
  · simp [Label.stores] at h
  · rw [hrow, Option.map_map]
    exact congrArg (fun g => (s.table.get? id).map g) (funext fun r => (hf r).payload)

/-- A delivery was accepted once if it has a row, with the payload of the row. -/
def Origin (h : List (Label J)) (s : State) : Prop :=
  ∀ id, h.filterMap (Label.stores id) = ((s.table.get? id).map DeliveryRow.payload).toList

theorem Origin.step {h : List (Label J)} {s t : State} {l : Label J} (hs : Origin h s)
    (hst : Step s l t) : Origin (l :: h) t := by
  intro id
  cases hl : l.stores id with
  | none => rw [List.filterMap_cons_none hl, hs id, hst.payload_kept hl]
  | some payload =>
    obtain ⟨hnone, hrow⟩ := hst.stores hl
    rw [List.filterMap_cons_some hl, hs id, hnone, hrow]
    rfl

theorem origin {h : List (Label J)} {s : State} (hs : (system J).Reaches h s) : Origin h s := by
  refine hs.invariant (I := Origin) (fun s hinit id => ?_) fun _ _ _ _ _ hI hst => hI.step hst
  rw [hinit.1]
  rfl

/-- A call is that of a waiting task, and its result comes of a check and a response. -/
theorem Step.calls {s t : State} {job : ClaimedJob} {now : Int} {res : Except String Unit}
    (hst : Step s (.deliverOnce job now res : Label J) t) :
    (∃ claimedAt, ⟨job, claimedAt, .waiting⟩ ∈ s.tasks) ∧
      ∃ check resp, res = G.deliverOnce check resp := by
  cases hst with
  | deliverOnce pre post job claimedAt now check resp htasks hpermit =>
    exact ⟨⟨claimedAt, htasks ▸ by simp⟩, check, resp, rfl⟩

/-! ## The service and what it sends -/

variable (J) in
/-- A step and what it sees: for a call of `deliver_once` the answer of the check, the
clock and the destination, for a start the secret of its configuration. -/
structure Event where
  label : Label J
  check : Except String Unit
  seconds : Int
  respond : Request → Response
  signingSecret : String

structure Sender where
  service : State
  signingSecret : String

/-- The request of the step, if it makes one. -/
def Event.sent (hmac : Hmac) (secret : String) (e : Event J) : Option Request :=
  match e.label with
  | .deliverOnce job _ _ => (sendOnce hmac secret e.check e.seconds e.respond job).1
  | _ => none

/-- The result of the step comes of what it sees. -/
def Event.Fits (hmac : Hmac) (secret : String) (e : Event J) : Prop :=
  match e.label with
  | .deliverOnce job _ res => (sendOnce hmac secret e.check e.seconds e.respond job).2 = res
  | _ => True

def Event.secretAfter (secret : String) (e : Event J) : String :=
  match e.label with
  | .restart .. => e.signingSecret
  | _ => secret

variable (J) in
/-- The service with its secret, every step of which goes with what it sees. -/
def signing (hmac : Hmac) : System Sender (Event J) where
  init s := (system J).init s.service
  step s e t :=
    Step s.service e.label t.service ∧ e.Fits hmac s.signingSecret ∧
      t.signingSecret = e.secretAfter s.signingSecret

section Runs

variable {hmac : Hmac}

theorem service_of_signing {h : List (Event J)} {s : Sender} (hs : (signing J hmac).Reaches h s) :
    (system J).Reaches (h.map Event.label) s.service :=
  hs.map (g := Sender.service) (fun _ h0 => h0) fun _ _ _ hst => hst.1

/-- Every run of the service is one in which its steps see something. -/
theorem signing_of_service {h : List (Label J)} {s : State} (hs : (system J).Reaches h s)
    (secret : String) :
    ∃ h', h'.map Event.label = h ∧
      (signing J hmac).Reaches h' { service := s, signingSecret := secret } := by
  induction hs with
  | init h0 => exact ⟨[], rfl, .init h0⟩
  | @step h s l t _ hst ih =>
    obtain ⟨h', rfl, hr⟩ := ih
    cases l with
    | deliverOnce job now res =>
      obtain ⟨-, check, resp, rfl⟩ := hst.calls
      refine ⟨⟨.deliverOnce job now (deliverOnce check resp), check, 0, fun _ => resp, secret⟩ ::
        h', rfl, hr.step ⟨hst, ?_, rfl⟩⟩
      exact sendOnce_result hmac secret check 0 (fun _ => resp) job
    | _ =>
      exact ⟨⟨_, .ok (), 0, fun _ => .failed "", secret⟩ :: h', rfl, hr.step ⟨hst, trivial, rfl⟩⟩

/-- The body of a request is the payload of the one acceptance of its delivery, which
the row still has. -/
theorem sent_body {h : List (Event J)} {s t : Sender} {e : Event J} {req : Request}
    (hs : (signing J hmac).Reaches h s) (hst : (signing J hmac).step s e t)
    (hsent : e.sent hmac s.signingSecret = some req) :
    ∃ payload, (h.map Event.label).filterMap (Label.stores req.webhookId) = [payload] ∧
      (s.service.table.get? req.webhookId).map DeliveryRow.payload = some payload ∧
      req.body = utf8 payload := by
  have hrun := service_of_signing hs
  obtain ⟨hstep, -, -⟩ := hst
  unfold Event.sent at hsent
  split at hsent
  · rename_i job now res hlabel
    rw [hlabel] at hstep
    obtain rfl := sendOnce_request hsent
    obtain ⟨⟨claimedAt, htask⟩, -⟩ := hstep.calls
    obtain ⟨r, hr, -, hpayload, -⟩ := snapshots hrun _ htask
    have hrow : (s.service.table.get? job.id).map DeliveryRow.payload = some job.payload :=
      (congrArg _ hr).trans (congrArg some hpayload)
    exact ⟨job.payload, (origin hrun job.id).trans (congrArg Option.toList hrow), hrow, rfl⟩
  · cases hsent

end Runs

/-- The signature of a request is the one its receiver computes, its body is the payload
that was accepted, and its message has one reading. -/
theorem signature_binds (hmac : Hmac) :
    (∀ secret check seconds respond job req,
      (sendOnce hmac secret check seconds respond job).1 = some req →
        req.webhookTimestamp = toString seconds ∧
          verify hmac secret req.webhookTimestamp req.body req.webhookSignature = true) ∧
    (∀ h s e t, (signing J hmac).Reaches h s → (signing J hmac).step s e t →
      ∀ req, e.sent hmac s.signingSecret = some req →
        ∃ payload, (h.map Event.label).filterMap (Label.stores req.webhookId) = [payload] ∧
          (s.service.table.get? req.webhookId).map DeliveryRow.payload = some payload ∧
          req.body = utf8 payload) ∧
    ∀ (a b : Int) (body body' : List UInt8), (a, body) ≠ (b, body') →
      signedMessage (toString a) body ≠ signedMessage (toString b) body' := by
  refine ⟨fun secret check seconds respond job req h => ?_, fun h s e t hs hst req hsent =>
    sent_body hs hst hsent, fun a b body body' hne h => ?_⟩
  · obtain rfl := sendOnce_request h
    exact ⟨rfl, verify_signPayload hmac secret (toString seconds) job.payload⟩
  · obtain ⟨rfl, rfl⟩ := signedMessage_inj h
    exact hne rfl

def lengthMac : Hmac := fun key message => [UInt8.ofNat key.length, UInt8.ofNat message.length]

/-- The hook is called at second 7. -/
def hookCall : Event Json.text where
  label := .deliverOnce (hookRow 3).job 5 (.ok ())
  check := .ok ()
  seconds := 7
  respond _ := .status 200 "200 OK" ""
  signingSecret := ""

/-- The hook is sent the payload it was accepted with, under a signature it can verify. -/
theorem signature_binds_hook :
    (∃ req, hookCall.sent lengthMac "key" = some req ∧
      verify lengthMac "key" req.webhookTimestamp req.body req.webhookSignature = true ∧
      (claiming 3).filterMap (Label.stores req.webhookId) = ["{}"] ∧ req.body = utf8 "{}") ∧
    signedMessage (toString (7 : Int)) (utf8 ".1") ≠ signedMessage (toString (-7 : Int)) [] := by
  obtain ⟨hverify, hbody, hmessage⟩ := signature_binds (J := Json.text) lengthMac
  obtain ⟨h, hh, hr⟩ : ∃ h', h'.map Event.label = claiming 3 ∧
      (signing Json.text lengthMac).Reaches h'
        ⟨one (asClaimed 0 (hookRow 3)) none [.spawn 0 (hookRow 3).job] [], "key"⟩ :=
    signing_of_service
      (claimed_reached 3 (C := fun _ _ => True) trivial trivial trivial).of_restrict "key"
  have hst : (signing Json.text lengthMac).step
      ⟨one (asClaimed 0 (hookRow 3)) none [.spawn 0 (hookRow 3).job] [], "key"⟩ hookCall
      ⟨one (asClaimed 0 (hookRow 3)) none [⟨(hookRow 3).job, 0, .called 5 (.ok ())⟩] [], "key"⟩ :=
    ⟨Step.deliverOnce _ [] [] (hookRow 3).job 0 5 (.ok ()) (.status 200 "200 OK" "") rfl
      (by decide), rfl, rfl⟩
  refine ⟨⟨request lengthMac "key" 7 (hookRow 3).job, rfl, ?_⟩, hmessage 7 (-7) _ _ (by decide)⟩
  obtain ⟨payload, haccepted, hrow, hsent⟩ := hbody h _ hookCall _ hr hst _ rfl
  obtain rfl : "{}" = payload := Option.some.inj hrow
  exact ⟨(hverify "key" (.ok ()) 7 hookCall.respond (hookRow 3).job _ rfl).2,
    hh ▸ haccepted, hsent⟩

end G
end WebhookDelivery
