/-
What the rate limiter grants the clients.

The bucket of a request is its bearer token, but a request that is authorised by
its signature may carry any token at all, and a new token is a new bucket.  The
quota of all clients together is bounded while signed requests keep to the
tokens of `WEBHOOK_API_KEYS`.
-/
import Mathlib.Algebra.Order.Group.Nat
import WebhookDelivery.Run.System
import WebhookDelivery.Q.Webhook

namespace WebhookDelivery
namespace Q

open Run

/-- The window of the limiter that `run` builds, 60 seconds. -/
def minute : Nat := 60 * 10 ^ 9

/-- The limiter, and the latest reading of the clock it has seen. -/
structure Front where
  limiter : RateLimiter
  last : Nat

/-- A request that comes to the limiter, or a call of the housekeeping task. -/
inductive Visit
  | request (headers : HeaderMap) (body : List UInt8) (now : Nat) (passed : Bool)
  | prune (now : Nat)

def Visit.now : Visit → Nat
  | .request _ _ now _ | .prune now => now

/-- The bucket of a visit. -/
def Visit.key : Visit → String
  | .request headers _ _ _ => rlKey headers
  | .prune _ => "anonymous"

/-- The time at which a visit passes, if it does. -/
def Visit.passedAt : Visit → Option Nat
  | .request _ _ now true => some now
  | .request _ _ _ false | .prune _ => none

/-- The visit passes in the window from `t`. -/
def Visit.passesIn (t : Nat) (v : Visit) : Bool :=
  v.passedAt.any fun now => decide (t ≤ now ∧ now < t + minute)

/-- The times at which `key` passed, oldest first. -/
def times (key : String) (h : List Visit) : List Nat :=
  (h.filterMap fun v => if v.key = key then v.passedAt else none).reverse

inductive FrontStep (env : Env) (cfg : ApiConfig) : Front → Visit → Front → Prop
  | request (s : Front) (headers : HeaderMap) (body : List UInt8) (now : Nat) :
      FrontStep env cfg s
        (.request headers body now (admitted env cfg s.limiter headers body now).1.toBool)
        { limiter := (admitted env cfg s.limiter headers body now).2, last := max s.last now }
  | prune (s : Front) (now : Nat) :
      FrontStep env cfg s (.prune now)
        { limiter := s.limiter.prune now, last := max s.last now }

/-- The limiter of one process, with the limit it is configured for. -/
def front (env : Env) (cfg : ApiConfig) (limit : UInt32) : System Front Visit where
  init s := s.limiter = RateLimiter.new limit minute
  step := FrontStep env cfg

/-- The lock is taken in the order of the clock readings. -/
def InOrder (s : Front) (v : Visit) : Prop := s.last ≤ v.now

/-- A request that is authorised by its signature carries no bearer token, or
one that belongs to a client. -/
def KnownToken (env : Env) (cfg : ApiConfig) : Visit → Prop
  | .request headers body _ _ =>
    headers.containsKey .xWebhookSignature = true →
      authorized env.hmac headers body cfg.hmacSecret cfg.apiKeys = true →
        rlKey headers ∈ "anonymous" :: cfg.apiKeys
  | .prune _ => True

/-- The conditions under which the quota holds. -/
def Fair (env : Env) (cfg : ApiConfig) (s : Front) (v : Visit) : Prop :=
  InOrder s v ∧ KnownToken env cfg v

/-- What the history says of the limiter. -/
structure Counted (cfg : ApiConfig) (limit : UInt32) (h : List Visit) (s : Front) : Prop where
  limit_eq : s.limiter.limit = limit
  window_eq : s.limiter.window = minute
  logs : s.limiter.Logs s.last fun k => times k h
  atMost : ∀ k, AtMost limit.toNat minute (times k h)
  known : ∀ v ∈ h, v.passedAt.isSome → v.key ∈ "anonymous" :: cfg.apiKeys

/-- A request without a signature is authorised by a token that is a key. -/
theorem rlKey_mem {env : Env} {cfg : ApiConfig} {headers : HeaderMap} {body : List UInt8}
    {now : Nat} {passed : Bool} (hknown : KnownToken env cfg (.request headers body now passed))
    (hauth : authorized env.hmac headers body cfg.hmacSecret cfg.apiKeys = true) :
    rlKey headers ∈ "anonymous" :: cfg.apiKeys := by
  by_cases hsig : headers.containsKey .xWebhookSignature = true
  · exact hknown hsig hauth
  · have hbearer : checkBearer headers cfg.apiKeys = true := by
      unfold authorized at hauth
      cases hsecret : cfg.hmacSecret with
      | none => simpa [hsecret] using hauth
      | some secret => simpa [hsecret, hsig] using hauth
    obtain ⟨k, hk, htoken⟩ := checkBearer_iff.1 hbearer
    rw [rlKey, htoken, Option.getD_some]
    exact List.mem_cons_of_mem _ hk

theorem times_cons (k : String) (v : Visit) (h : List Visit) :
    times k (v :: h) = times k h ++ if v.key = k then v.passedAt.toList else [] := by
  unfold times
  by_cases hk : v.key = k
  · cases hp : v.passedAt with
    | none => simp [hk, hp]
    | some now => simp [hk, hp]
  · simp [hk]

theorem times_request (k : String) (headers : HeaderMap) (body : List UInt8) (now : Nat)
    (h : List Visit) : times k (.request headers body now true :: h) =
      if k = rlKey headers then times k h ++ [now] else times k h := by
  rw [times_cons]
  by_cases hk : k = rlKey headers
  · simp [hk, Visit.key, Visit.passedAt]
  · have hk' : ¬rlKey headers = k := fun e => hk e.symm
    simp [hk, hk', Visit.key]

/-- A visit that does not pass leaves the counts as they were. -/
theorem Counted.skip {cfg : ApiConfig} {limit : UInt32} {h : List Visit} {s t : Front} {v : Visit}
    (hs : Counted cfg limit h s) (hv : v.passedAt = none)
    (hlimit : t.limiter.limit = s.limiter.limit) (hwindow : t.limiter.window = s.limiter.window)
    (hlogs : t.limiter.Logs t.last fun k => times k h) : Counted cfg limit (v :: h) t := by
  have htimes : ∀ k, times k (v :: h) = times k h := by
    intro k
    rw [times_cons, hv]
    simp
  refine ⟨hlimit.trans hs.limit_eq, hwindow.trans hs.window_eq, ?_, fun k => ?_,
    fun v' hv' hp => ?_⟩
  · simpa only [htimes] using hlogs
  · rw [htimes]
    exact hs.atMost k
  · rcases List.mem_cons.1 hv' with rfl | hv'
    · rw [hv] at hp
      cases hp
    · exact hs.known v' hv' hp

theorem Counted.step {env : Env} {cfg : ApiConfig} {limit : UInt32} {h : List Visit}
    {s t : Front} {v : Visit} (hs : Counted cfg limit h s) (hst : FrontStep env cfg s v t)
    (hfair : Fair env cfg s v) : Counted cfg limit (v :: h) t := by
  obtain ⟨hle, hknown⟩ := hfair
  cases hst with
  | prune now =>
    have hle : s.last ≤ now := hle
    refine hs.skip rfl rfl rfl ?_
    show (s.limiter.prune now).Logs (max s.last now) _
    rw [max_eq_right hle]
    exact hs.logs.prune hle
  | request headers body now =>
    have hle : s.last ≤ now := hle
    by_cases hauth : authorized env.hmac headers body cfg.hmacSecret cfg.apiKeys = true
    case neg =>
      rw [admitted_unauthorized s.limiter now (Bool.eq_false_iff.2 hauth)]
      refine hs.skip rfl rfl rfl ?_
      show s.limiter.Logs (max s.last now) _
      rw [max_eq_right hle]
      exact hs.logs.later hle
    case pos =>
      have hkey := rlKey_mem hknown hauth
      obtain ⟨hpass, hlogs⟩ := hs.logs.check hle (rlKey headers)
      rw [admitted_authorized s.limiter now hauth]
      cases hp : (s.limiter.check (rlKey headers) now).1 with
      | false =>
        refine hs.skip rfl (s.limiter.check_limit _ _) (s.limiter.check_window _ _) ?_
        show (s.limiter.check _ _).2.Logs (max s.last now) _
        rw [max_eq_right hle]
        simpa [hp] using hlogs
      | true =>
        have hroom := hpass.1 hp
        rw [hs.window_eq, hs.limit_eq] at hroom
        refine ⟨(s.limiter.check_limit _ _).trans hs.limit_eq,
          (s.limiter.check_window _ _).trans hs.window_eq, ?_, fun k => ?_, fun v' hv' hv'p => ?_⟩
        · show (s.limiter.check _ _).2.Logs (max s.last now) _
          rw [max_eq_right hle]
          simpa [hp, times_request, Except.toBool] using hlogs
        · show AtMost _ _ (times k (.request headers body now true :: h))
          rw [times_request]
          by_cases hk : k = rlKey headers
          · rw [if_pos hk]
            subst hk
            have hkept := (hs.logs.kept (rlKey headers)).later hle
            rw [hs.window_eq] at hkept
            exact (hs.atMost _).push hkept hroom
          · rw [if_neg hk]
            exact hs.atMost k
        · rcases List.mem_cons.1 hv' with rfl | hv'
          · exact hkey
          · exact hs.known v' hv' hv'p

theorem counted {env : Env} {cfg : ApiConfig} {limit : UInt32} {h : List Visit} {s : Front}
    (hs : ((front env cfg limit).restrict (Fair env cfg)).Reaches h s) :
    Counted cfg limit h s := by
  apply hs.invariant (I := Counted cfg limit)
  · intro s hinit
    have hnew : s.limiter = RateLimiter.new limit minute := hinit
    refine ⟨by rw [hnew]; rfl, by rw [hnew]; rfl, ?_, fun k t => Nat.zero_le _,
      fun v hv => absurd hv List.not_mem_nil⟩
    rw [hnew]
    exact RateLimiter.Logs.new limit minute s.last
  · intro h s v t _ hI hst
    exact hI.step hst.2 hst.1

/-- All the passes of a bucket are among its times. -/
theorem countP_key (t : Nat) (k : String) (h : List Visit) :
    h.countP (fun v => v.passesIn t && decide (v.key = k)) =
      (times k h).countP fun x => decide (t ≤ x ∧ x < t + minute) := by
  unfold times
  rw [List.countP_reverse, List.countP_filterMap]
  apply List.countP_congr
  intro v _
  by_cases hk : v.key = k
  · cases hp : v.passedAt <;> simp [Visit.passesIn, hk, hp]
  · simp [hk]

/-- With `n` keys the requests that pass in a minute are at most `limit` for
each key and `limit` for the requests without one. -/
theorem quota {env : Env} {cfg : ApiConfig} {limit : UInt32} {h : List Visit} {s : Front}
    (hs : ((front env cfg limit).restrict (Fair env cfg)).Reaches h s) (t : Nat) :
    h.countP (Visit.passesIn t) ≤ limit.toNat * (cfg.apiKeys.length + 1) := by
  have hcounted := counted hs
  refine countP_le_of_buckets Visit.key ("anonymous" :: cfg.apiKeys)
    (fun v hv hp => hcounted.known v hv ?_) (fun k _ => ?_)
  · cases hnow : v.passedAt with
    | none => simp [Visit.passesIn, hnow] at hp
    | some now => rfl
  · rw [countP_key]
    exact hcounted.atMost k t

/-! ## Signed requests with tokens of their own -/

/-- `hmac` is the HMAC-SHA256 of `{}` under `s3cret`. -/
def signing : Env where
  hmac _ _ := [173, 189, 225, 206, 64, 200, 156, 20, 33, 86, 135, 213, 215, 98, 164, 125,
    246, 223, 174, 252, 250, 214, 30, 46, 134, 113, 143, 252, 132, 152, 87, 27]
  fromSlice _ := none
  parseUrl _ := none
  showIp _ := ""
  showDbError _ := ""

def oneKey : ApiConfig := { apiKeys := ["key-1"], hmacSecret := some "s3cret", maxAttempts := 8 }

def signedBody : List UInt8 := asBytes "{}"

/-- A signed request with a bearer token, if any. -/
def signed (token : Option String) : HeaderMap
  | .authorization => (token.map fun t => HeaderValue.text ("Bearer " ++ t)).toList
  | .xWebhookSignature =>
    [.text "sha256=adbde1ce40c89c14215687d5d762a47df6dfaefcfad61e2e86718ffc8498571b"]
  | .idempotencyKey => []

def fresh : Front := { limiter := RateLimiter.new 1 minute, last := 0 }

/-- The front after a signed request. -/
def afterSigned (s : Front) (token : Option String) (now : Nat) : Front :=
  { limiter := (admitted signing oneKey s.limiter (signed token) signedBody now).2
    last := max s.last now }

theorem signed_step {C : Front → Visit → Prop} {h : List Visit} {s : Front}
    (token : Option String) (now : Nat) (passed : Bool)
    (hs : ((front signing oneKey 1).restrict C).Reaches h s)
    (hC : C s (.request (signed token) signedBody now passed))
    (hpass : (admitted signing oneKey s.limiter (signed token) signedBody now).1.toBool = passed) :
    ((front signing oneKey 1).restrict C).Reaches
      (.request (signed token) signedBody now passed :: h) (afterSigned s token now) := by
  refine hs.step ⟨hC, ?_⟩
  have hst : FrontStep signing oneKey s _ (afterSigned s token now) :=
    FrontStep.request s (signed token) signedBody now
  rw [hpass] at hst
  exact hst

/-- Two requests with the key and two without one, each second one too early. -/
def rush : List Visit :=
  [.request (signed none) signedBody 30 false, .request (signed none) signedBody 20 true,
    .request (signed (some "key-1")) signedBody 10 false,
    .request (signed (some "key-1")) signedBody 0 true]

/-- The two buckets are used up. -/
theorem quota_signed : rush.countP (Visit.passesIn 0) = 2 ∧
    rush.countP (Visit.passesIn 0) ≤ 1 * (1 + 1) := by
  have r₀ : ((front signing oneKey 1).restrict (Fair signing oneKey)).Reaches [] fresh := .init rfl
  have r₁ := signed_step (some "key-1") 0 true r₀ ⟨Nat.le_refl 0, fun _ _ => by decide⟩ (by decide)
  have r₂ := signed_step (some "key-1") 10 false r₁ ⟨Nat.zero_le 10, fun _ _ => by decide⟩
    (by decide)
  have r₃ := signed_step none 20 true r₂ ⟨(by decide : 10 ≤ 20), fun _ _ => by decide⟩ (by decide)
  have r₄ := signed_step none 30 false r₃ ⟨(by decide : 20 ≤ 30), fun _ _ => by decide⟩ (by decide)
  exact ⟨by decide, quota r₄ 0⟩

/-- One key and a limit of 1, and yet three requests pass at once. -/
theorem quota_exceeded : ¬∀ env cfg limit h s, cfg.hmacSecret.isSome = true →
    ((front env cfg limit).restrict InOrder).Reaches h s → ∀ t,
      h.countP (Visit.passesIn t) ≤ limit.toNat * (cfg.apiKeys.length + 1) := by
  intro hall
  have r₀ : ((front signing oneKey 1).restrict InOrder).Reaches [] fresh := .init rfl
  have r₁ := signed_step (some "a") 0 true r₀ (Nat.le_refl 0) (by decide)
  have r₂ := signed_step (some "b") 0 true r₁ (Nat.le_refl 0) (by decide)
  have r₃ := signed_step (some "c") 0 true r₂ (Nat.le_refl 0) (by decide)
  have hle := hall signing oneKey 1 _ _ rfl r₃ 0
  revert hle
  decide

end Q
end WebhookDelivery
