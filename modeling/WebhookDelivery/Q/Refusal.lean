/-
What a request leaves behind.

A request touches two states, the limiter's when it is admitted and the store's
at the very end.  Each exit of the handler comes before or after either.  A check
that is refused does rewrite the queue of its key, but a queue that still fills
the limit had nothing to drop.
-/
import WebhookDelivery.Q.Acceptance
import WebhookDelivery.Q.Idempotency
import WebhookDelivery.Q.Sliding

namespace WebhookDelivery
namespace Q

/-! ## The limiter by its queues -/

namespace RateLimiter

variable {l l' : RateLimiter}

/-- Each call reads and writes queues. -/
theorem queue_check (l : RateLimiter) (key : String) (now : Nat) (k : String) :
    (l.check key now).2.queue k =
      if k = key then
        l.live now (l.queue key) ++ if (l.check key now).1 = true then [now] else []
      else l.queue k := by
  unfold check
  dsimp only
  split
  · rw [queue_entry]
    simp
  · rw [queue_nonempty { l with hits := entry l.hits key _ }, queue_entry]
    simp

theorem queue_prune (l : RateLimiter) (now : Nat) (k : String) :
    (l.prune now).queue k = if recent l.window now (l.queue k) then l.queue k else [] :=
  queue_retain l _ k

theorem check_fst (l : RateLimiter) (key : String) (now : Nat) :
    (l.check key now).1 = true ↔
      (l.live now (l.queue key)).length % 2 ^ 32 < l.limit.toNat := by
  unfold check
  dsimp only
  split
  · rename_i h
    simpa using h
  · rename_i h
    simpa using h

/-- Two limiters that differ, if at all, in keys with an empty queue. -/
structure Alike (l l' : RateLimiter) : Prop where
  limit : l.limit = l'.limit
  window : l.window = l'.window
  queue : ∀ k, l.queue k = l'.queue k

theorem Alike.check (h : Alike l l') (key : String) (now : Nat) :
    (l.check key now).1 = (l'.check key now).1 ∧
      Alike (l.check key now).2 (l'.check key now).2 := by
  have hlive : l.live now (l.queue key) = l'.live now (l'.queue key) := by
    unfold live
    rw [h.queue, h.window]
  have hfst : (l.check key now).1 = (l'.check key now).1 := by
    rw [Bool.eq_iff_iff, check_fst, check_fst, hlive, h.limit]
  refine ⟨hfst, ?_, ?_, fun k => ?_⟩
  · rw [check_limit, check_limit, h.limit]
  · rw [check_window, check_window, h.window]
  · rw [queue_check, queue_check, hlive, hfst, h.queue]

theorem Alike.prune (h : Alike l l') (now : Nat) : Alike (l.prune now) (l'.prune now) where
  limit := h.limit
  window := h.window
  queue k := by rw [queue_prune, queue_prune, h.queue, h.window]

/-- They answer alike, whatever is asked of them and when. -/
theorem Alike.answers (h : Alike l l') (cs : List Call) : l.answers cs = l'.answers cs := by
  induction cs generalizing l l' with
  | nil => rfl
  | cons c cs ih =>
    cases c with
    | check key now =>
      obtain ⟨hfst, halike⟩ := h.check key now
      simp only [RateLimiter.answers]
      rw [hfst, ih halike]
    | prune now => exact ih (h.prune now)

/-- A queue never outgrows the limit. -/
def Bounded (l : RateLimiter) : Prop := ∀ k, (l.queue k).length ≤ l.limit.toNat

theorem length_live_le (l : RateLimiter) (now : Nat) (hits : List Nat) :
    (l.live now hits).length ≤ hits.length := (List.dropWhile_sublist _).length_le

theorem Bounded.call (h : l.Bounded) (c : Call) : (l.call c).Bounded := by
  intro k
  cases c with
  | check key now =>
    show ((l.check key now).2.queue k).length ≤ (l.check key now).2.limit.toNat
    rw [queue_check, check_limit]
    by_cases hk : k = key
    · subst hk
      have hlen := (l.length_live_le now (l.queue k)).trans (h k)
      have hmod : (l.live now (l.queue k)).length % 2 ^ 32 = (l.live now (l.queue k)).length :=
        Nat.mod_eq_of_lt (hlen.trans_lt l.limit.toNat_lt)
      rw [if_pos rfl, List.length_append]
      by_cases hpass : (l.check k now).1 = true
      · have hlt := (check_fst l k now).1 hpass
        rw [hmod] at hlt
        rw [if_pos hpass, List.length_singleton]
        omega
      · rw [if_neg hpass, List.length_nil]
        omega
    · rw [if_neg hk]
      exact h k
  | prune now =>
    show ((l.prune now).queue k).length ≤ l.limit.toNat
    rw [queue_prune]
    split
    · exact h k
    · exact Nat.zero_le _

theorem Bounded.calls (h : l.Bounded) (cs : List Call) : (l.calls cs).Bounded := by
  induction cs generalizing l with
  | nil => exact h
  | cons c cs ih => exact ih (h.call c)

/-- A check is refused when its queue fills the limit with times that count, so it
drops none. -/
theorem Bounded.refused (h : l.Bounded) {key : String} {now : Nat}
    (hrefused : (l.check key now).1 = false) : Alike (l.check key now).2 l where
  limit := check_limit l key now
  window := check_window l key now
  queue k := by
    rw [queue_check]
    by_cases hk : k = key
    · subst hk
      have hfull : ¬(l.live now (l.queue k)).length % 2 ^ 32 < l.limit.toNat := by
        rw [← check_fst, hrefused]
        exact Bool.false_ne_true
      have hmod := Nat.mod_le (l.live now (l.queue k)).length (2 ^ 32)
      have hsub : (l.live now (l.queue k)).Sublist (l.queue k) := List.dropWhile_sublist _
      have hall : l.live now (l.queue k) = l.queue k :=
        hsub.eq_of_length_le (by have := h k; omega)
      rw [if_pos rfl, hrefused, hall]
      simp
    · rw [if_neg hk]

/-- The bucket of the key has one more use, and nothing else has changed. -/
structure UsesSlot (key : String) (now : Nat) (l l' : RateLimiter) : Prop where
  limit : l'.limit = l.limit
  window : l'.window = l.window
  bucket : l'.queue key = l.live now (l.queue key) ++ [now]
  others : ∀ k, k ≠ key → l'.queue k = l.queue k

theorem usesSlot_check {key : String} {now : Nat} (hpass : (l.check key now).1 = true) :
    UsesSlot key now l (l.check key now).2 where
  limit := check_limit l key now
  window := check_window l key now
  bucket := by rw [queue_check, if_pos rfl, if_pos hpass]
  others k hk := by rw [queue_check, if_neg hk]

end RateLimiter

/-! ## The handler, exit by exit -/

/-- The answer is a 401 or a 429. -/
def TurnedAway (answer : Except ApiError Reply) : Prop :=
  ∃ e, answer = .error e ∧ (e.status = .unauthorized ∨ e.status = .tooManyRequests)

/-- `db'` has one row more than `db`: pending, not tried, due at once, and under the
id `i`. -/
def AddsRow (i : Uuid) (now : Int) (db db' : Db) : Prop :=
  ∃ r, db'.deliveries.rows = db.deliveries.rows ++ [r] ∧ db'.deadLetters = db.deadLetters ∧
    r.id = i ∧ r.status = .pending ∧ r.attempts = 0 ∧ r.nextRetryAt = now

theorem not_turnedAway_ok (r : Reply) : ¬TurnedAway (.ok r) := by
  rintro ⟨e, h, -⟩
  cases h

theorem error_not_accepted (e : ApiError) (i : Uuid) (status : String) :
    (.error e : Except ApiError Reply) ≠ .ok (.accepted i status) := by
  intro h
  cases h

theorem duplicate_not_accepted (existing : Uuid) (text : String) (i : Uuid) (status : String) :
    (.ok (.duplicate existing text) : Except ApiError Reply) ≠ .ok (.accepted i status) := by
  intro h
  cases h

section Handler

variable {env : Env} {cfg : ApiConfig} {policy : SsrfPolicy} {headers : HeaderMap}
  {body : List UInt8} {instant : Nat} {id : Uuid} {dns : Dns} {now : Int} {fault : Bool}
  {later db db' : Db} {limiter limiter' : RateLimiter} {answer : Except ApiError Reply}

theorem readInput_error {e : ApiError} (h : readInput env cfg headers body id = .error e) :
    e.status = .badRequest := by
  unfold readInput at h
  split at h
  · cases h
    rfl
  · split at h
    · cases h
      rfl
    · cases h

theorem ssrfError_status (display : IpAddr → String) (e : SsrfError) :
    (ssrfError display e).status = .badRequest ∨ (ssrfError display e).status = .forbidden := by
  cases e with
  | badScheme | missingHost => exact .inl rfl
  | userinfo | badPort | privateIp | resolutionFailed => exact .inr rfl

/-- The store has changed if a row was created, and only then. -/
theorem ingestSync_spec {input : IngestInput} {res : Except ApiError IngestOutcome}
    (h : ingestSync env policy dns input now fault later db = (res, db')) :
    (res = .ok .created ∧ insert db input.newDelivery now = .ok db') ∨
    (db' = db ∧ ((∃ existing status, res = .ok (.duplicate existing status)) ∨
      ∃ e, res = .error e ∧ e.status ≠ .unauthorized ∧ e.status ≠ .tooManyRequests)) := by
  have hssrf : ∀ e : SsrfError, (ssrfError env.showIp e).status ≠ .unauthorized ∧
      (ssrfError env.showIp e).status ≠ .tooManyRequests := by
    intro e
    rcases ssrfError_status env.showIp e with hst | hst <;> rw [hst] <;> decide
  unfold ingestSync at h
  split at h
  · cases h
    exact .inr ⟨rfl, .inr ⟨_, rfl, hssrf _⟩⟩
  · split at h
    · rename_i db₁ hins
      cases h
      cases fault with
      | true => cases hins
      | false => exact .inl ⟨rfl, hins⟩
    · cases h
      exact .inr ⟨rfl, .inl ⟨_, _, rfl⟩⟩
    · cases h
      have hst : ∀ message, (ApiError.internal message).status = .internalServerError :=
        fun _ => rfl
      exact .inr ⟨rfl, .inr ⟨_, rfl, by rw [hst]; decide, by rw [hst]; decide⟩⟩

/-- The three ways a request can go: it is not authorised, it is over its limit, or
it takes a slot of its bucket and comes to one of the other answers. -/
theorem webhookHandler_cases
    (h : webhookHandler env cfg policy headers body instant id dns now fault later limiter db =
      (answer, limiter', db')) :
    (answer = .error .unauthorized ∧ limiter' = limiter ∧ db' = db) ∨
    (answer = .error .tooManyRequests ∧ (limiter.check (rlKey headers) instant).1 = false ∧
      limiter' = (limiter.check (rlKey headers) instant).2 ∧ db' = db) ∨
    ((limiter.check (rlKey headers) instant).1 = true ∧
      limiter' = (limiter.check (rlKey headers) instant).2 ∧ ¬TurnedAway answer ∧
      ((∃ status, answer = .ok (.accepted id status)) ∧ AddsRow id now db db' ∨
        (∀ i status, answer ≠ .ok (.accepted i status)) ∧ db' = db)) := by
  unfold webhookHandler at h
  by_cases hauth : authorized env.hmac headers body cfg.hmacSecret cfg.apiKeys = true
  case neg =>
    rw [admitted_unauthorized limiter instant (Bool.eq_false_iff.2 hauth)] at h
    cases h
    exact .inl ⟨rfl, rfl, rfl⟩
  case pos =>
    rw [admitted_authorized limiter instant hauth] at h
    by_cases hpass : (limiter.check (rlKey headers) instant).1 = true
    case neg =>
      rw [if_neg hpass] at h
      cases h
      exact .inr (.inl ⟨rfl, Bool.eq_false_iff.2 hpass, rfl, rfl⟩)
    case pos =>
      rw [if_pos hpass] at h
      dsimp only at h
      have hstays : ∀ e : ApiError, e.status ≠ .unauthorized → e.status ≠ .tooManyRequests →
          ¬TurnedAway (.error e) := by
        rintro e hauth' hmany ⟨e', he, hst⟩
        cases he
        exact hst.elim hauth' hmany
      split at h
      · rename_i e hread
        cases h
        have hst := readInput_error hread
        exact .inr (.inr ⟨hpass, rfl, hstays e (by rw [hst]; decide) (by rw [hst]; decide),
          .inr ⟨error_not_accepted e, rfl⟩⟩)
      · rename_i input hread
        obtain ⟨req, -, -, hnew⟩ := readInput_ok hread
        split at h
        · rename_i db₁ hingest
          cases h
          rcases ingestSync_spec hingest with ⟨-, hins⟩ | ⟨-, ⟨_, _, h⟩ | ⟨_, h, -⟩⟩
          · obtain ⟨-, hrows, hentries⟩ := insert_ok hins
            refine .inr (.inr ⟨hpass, rfl, not_turnedAway_ok _, .inl ⟨⟨_, rfl⟩, ?_⟩⟩)
            exact ⟨_, hrows, hentries, by rw [hnew]; rfl, rfl, rfl, rfl⟩
          · cases h
          · cases h
        · rename_i existing status db₁ hingest
          cases h
          rcases ingestSync_spec hingest with ⟨h, -⟩ | ⟨hdb, -⟩
          · cases h
          · exact .inr (.inr ⟨hpass, rfl, not_turnedAway_ok _,
              .inr ⟨duplicate_not_accepted existing status, hdb⟩⟩)
        · rename_i e db₁ hingest
          cases h
          rcases ingestSync_spec hingest with ⟨h, -⟩ | ⟨hdb, ⟨_, _, h⟩ | ⟨_, he, hauth', hmany⟩⟩
          · cases h
          · cases h
          · cases he
            exact .inr (.inr ⟨hpass, rfl, hstays e hauth' hmany,
              .inr ⟨error_not_accepted e, hdb⟩⟩)

end Handler

/-- A 202 adds one row under its id, due at once, and every other answer leaves both
tables alone.  A 401 or a 429 changes no answer that the limiter will give, and
every other answer takes one slot of its bucket. -/
theorem refused_leaves_no_trace {env : Env} {cfg : ApiConfig} {policy : SsrfPolicy}
    {headers : HeaderMap} {body : List UInt8} {instant : Nat} {id : Uuid} {dns : Dns} {now : Int}
    {fault : Bool} {later db db' : Db} {limit : UInt32} {window : Nat} {cs : List Call}
    {limiter limiter' : RateLimiter} {answer : Except ApiError Reply}
    (hlimiter : limiter = (RateLimiter.new limit window).calls cs)
    (h : webhookHandler env cfg policy headers body instant id dns now fault later limiter db =
      (answer, limiter', db')) :
    (∀ i status, answer = .ok (.accepted i status) → AddsRow i now db db') ∧
      ((∀ i status, answer ≠ .ok (.accepted i status)) → db' = db) ∧
      (TurnedAway answer → ∀ calls, limiter'.answers calls = limiter.answers calls) ∧
      (¬TurnedAway answer → RateLimiter.UsesSlot (rlKey headers) instant limiter limiter') := by
  have hbounded : limiter.Bounded := by
    rw [hlimiter]
    exact RateLimiter.Bounded.calls (fun _ => Nat.zero_le _) cs
  rcases webhookHandler_cases h with ⟨rfl, rfl, rfl⟩ | ⟨rfl, hrefused, rfl, rfl⟩ |
    ⟨hpass, rfl, hstays, hdb⟩
  · refine ⟨fun i status h => absurd h (error_not_accepted _ i status), fun _ => rfl,
      fun _ _ => rfl, fun hno => ?_⟩
    exact absurd ⟨_, rfl, .inl rfl⟩ hno
  · refine ⟨fun i status h => absurd h (error_not_accepted _ i status), fun _ => rfl,
      fun _ calls => ?_, fun hno => ?_⟩
    · exact (hbounded.refused hrefused).answers calls
    · exact absurd ⟨_, rfl, .inr rfl⟩ hno
  · refine ⟨fun i status hi => ?_, fun hno => ?_, fun hyes => absurd hyes hstays, fun _ => ?_⟩
    · rcases hdb with ⟨⟨status', hid⟩, hadds⟩ | ⟨hno, -⟩
      · rw [hi] at hid
        cases hid
        exact hadds
      · exact absurd hi (hno i status)
    · rcases hdb with ⟨⟨status, hid⟩, -⟩ | ⟨-, hdb⟩
      · exact absurd hid (hno id status)
      · exact hdb
    · exact RateLimiter.usesSlot_check hpass

/-- The limiter after one use of the key, of which it allows one a minute. -/
def usedOnce : RateLimiter := (RateLimiter.new 1 60000000000).calls [.check "key-1" 0]

/-- A second request with the key. -/
def noteRefused : Except ApiError Reply × RateLimiter × Db :=
  webhookHandler noteEnv noteCfg .default noteHeaders noteBody 1 2 publicDns 0 false Db.empty
    usedOnce Db.empty

theorem refused_leaves_no_trace_note :
    noteRefused.1 = .error .tooManyRequests ∧ noteRefused.2.2 = Db.empty ∧
      ∀ calls, noteRefused.2.1.answers calls = usedOnce.answers calls := by
  have h : noteRefused = (.error .tooManyRequests, noteRefused.2.1, noteRefused.2.2) :=
    Prod.ext rfl rfl
  obtain ⟨-, hdb, haway, -⟩ := refused_leaves_no_trace rfl h
  exact ⟨rfl, hdb (error_not_accepted _), haway ⟨_, rfl, .inr rfl⟩⟩

end Q
end WebhookDelivery
