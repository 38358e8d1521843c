/-
The spacing of retries.

`process_job` reads the clock, sends, and then writes that reading plus a delay
as the time of the next attempt.  The delay is at least half of the capped
backoff, and so is counted from before the send: what the send takes is gone from
it.  Arithmetic on `f64` is exact here, times are milliseconds, and the sum is one of
`i64`.
-/
import Mathlib.Data.Rat.Floor
import WebhookDelivery.G.Db

namespace WebhookDelivery
namespace G

open Sql Run

/-- The settings that `backoff_ms` reads. -/
structure RetryConfig where
  retryBaseMs : Int
  retryMaxMs : Int

/-- What `backoff_ms` caps, before its jitter. -/
def RetryConfig.capped (cfg : RetryConfig) (attempt : Int) : Int :=
  let exp := min (max attempt 1 - 1).toNat 16
  min (max cfg.retryBaseMs 1 * 2 ^ exp) (max cfg.retryMaxMs 1)

/-- A number that `gen_range` may draw. -/
structure Draw (cfg : RetryConfig) (attempt : Int) where
  x : ℚ
  low : (cfg.capped attempt : ℚ) / 2 ≤ x
  high : x ≤ cfg.capped attempt

def backoffMs {cfg : RetryConfig} {attempt : Int} (draw : Draw cfg attempt) : Int := ⌊draw.x⌋

/-- `process_job` after its permit: it has read the clock as `now`, and
`deliver_once` has answered `res`. -/
def processJob {cfg : RetryConfig} (job : ClaimedJob) (now : Int) (res : Except String Unit)
    (draw : Draw cfg (job.attempts + 1)) (t : Deliveries) : Deliveries :=
  finish job now (backoffMs draw) res t

/-! ## The documented backoff -/

/-- `min(base * 2^min(n-1,16), cap)`. -/
def RetryConfig.backoff (cfg : RetryConfig) (n : Nat) : Int :=
  min (cfg.retryBaseMs * 2 ^ min (n - 1) 16) cfg.retryMaxMs

theorem RetryConfig.capped_eq {cfg : RetryConfig} (hbase : 0 < cfg.retryBaseMs)
    (hmax : 0 < cfg.retryMaxMs) {n : Nat} (hn : 0 < n) : cfg.capped n = cfg.backoff n := by
  have hexp : (max (n : Int) 1 - 1).toNat = n - 1 := by omega
  rw [capped, backoff, hexp, max_eq_left (by omega), max_eq_left (by omega)]

theorem RetryConfig.capped_pos (cfg : RetryConfig) (attempt : Int) : 0 < cfg.capped attempt := by
  have hpow : (0 : Int) < 2 ^ min (max attempt 1 - 1).toNat 16 := by positivity
  have hbase : 0 < max cfg.retryBaseMs 1 := by omega
  exact lt_min (mul_pos hbase hpow) (by omega)

theorem floor_half (n : Int) : ⌊(n : ℚ) / 2⌋ = n / 2 := Rat.floor_intCast_div_natCast n 2

/-- A delay is at least half of the capped backoff, rounded down, and at most all
of it. -/
theorem backoffMs_range {cfg : RetryConfig} {attempt : Int} (draw : Draw cfg attempt) :
    cfg.capped attempt / 2 ≤ backoffMs draw ∧ backoffMs draw ≤ cfg.capped attempt := by
  constructor
  · rw [← floor_half]
    exact Int.floor_mono draw.low
  · exact_mod_cast (Int.floor_le draw.x).trans draw.high

/-- The least delay that may be drawn. -/
def Draw.least (cfg : RetryConfig) (attempt : Int) : Draw cfg attempt where
  x := (cfg.capped attempt : ℚ) / 2
  low := le_refl _
  high := by
    have hpos : (0 : ℚ) < cfg.capped attempt := by exact_mod_cast cfg.capped_pos attempt
    linarith

/-- The greatest. -/
def Draw.greatest (cfg : RetryConfig) (attempt : Int) : Draw cfg attempt where
  x := cfg.capped attempt
  low := by
    have hpos : (0 : ℚ) < cfg.capped attempt := by exact_mod_cast cfg.capped_pos attempt
    linarith
  high := le_refl _

theorem backoffMs_greatest (cfg : RetryConfig) (attempt : Int) :
    backoffMs (.greatest cfg attempt) = cfg.capped attempt := Int.floor_intCast _

theorem backoffMs_least (cfg : RetryConfig) (attempt : Int) :
    backoffMs (.least cfg attempt) = cfg.capped attempt / 2 := floor_half _

/-! ## What is written -/

/-- A failed attempt that is not the last leaves the clock reading before the send
plus the delay, as an `i64`. -/
theorem processJob_failed {cfg : RetryConfig} {job : ClaimedJob} {t : Deliveries}
    {r : DeliveryRow} (hr : t.get? job.id = some r) (hleft : job.attempts + 1 < job.maxAttempts)
    (now : Int) (err : String) (draw : Draw cfg (job.attempts + 1)) :
    ∃ r', (processJob job now (.error err) draw t).get? job.id = some r' ∧
      r'.nextAttemptAt = wrapI64 (now + backoffMs draw) := by
  refine ⟨_, get?_finish_self hr now (backoffMs draw) (.error err), ?_⟩
  simp only [asFinished]
  rw [if_neg (by omega)]

/-- The next attempt is at least half of the backoff after the send has ended. -/
def Spaced (cfg : RetryConfig) (job : ClaimedJob) (t' : Deliveries) (ended : Int) : Prop :=
  ∃ r', t'.get? job.id = some r' ∧
    ended + cfg.backoff (job.attempts + 1).toNat / 2 ≤ r'.nextAttemptAt

/-- For one draw, the retry is spaced if and only if the time that is written is. -/
theorem spaced_iff {cfg : RetryConfig} {job : ClaimedJob}
    (hleft : job.attempts + 1 < job.maxAttempts) {t : Deliveries} {r : DeliveryRow}
    (hr : t.get? job.id = some r) (now ended : Int) (err : String)
    (draw : Draw cfg (job.attempts + 1)) :
    Spaced cfg job (processJob job now (.error err) draw t) ended ↔
      ended + cfg.backoff (job.attempts + 1).toNat / 2 ≤ wrapI64 (now + backoffMs draw) := by
  obtain ⟨r', hr', hnext⟩ := processJob_failed hr hleft now err draw
  rw [← hnext]
  constructor
  · rintro ⟨r'', hr'', hle⟩
    rw [hr', Option.some.injEq] at hr''
    rw [hr'']
    exact hle
  · exact fun hle => ⟨r', hr', hle⟩

/-- Whatever is drawn, the retry is spaced: that is so if and only if the send takes no
time and the longest delay does not take the clock out of its range. -/
theorem retry_spacing_iff (cfg : RetryConfig) (hbase : 0 < cfg.retryBaseMs)
    (hmax : 0 < cfg.retryMaxMs) (hfits : cfg.retryMaxMs < 2 ^ 63) (job : ClaimedJob)
    (hattempts : 0 ≤ job.attempts) (hleft : job.attempts + 1 < job.maxAttempts)
    {t : Deliveries} {r : DeliveryRow} (hr : t.get? job.id = some r) {now ended : Int}
    (hnow : 0 ≤ now) (hclock : now < 2 ^ 63) (hended : 0 ≤ ended) (err : String) :
    (∀ draw : Draw cfg (job.attempts + 1),
      Spaced cfg job (processJob job now (.error err) draw t) ended) ↔
      ended ≤ now ∧ now + cfg.backoff (job.attempts + 1).toNat < 2 ^ 63 := by
  have hn : ((job.attempts + 1).toNat : Int) = job.attempts + 1 := by omega
  have hcapped : cfg.capped (job.attempts + 1) = cfg.backoff (job.attempts + 1).toNat := by
    rw [← cfg.capped_eq hbase hmax (by omega), hn]
  have hpos := cfg.capped_pos (job.attempts + 1)
  have hcap : cfg.backoff (job.attempts + 1).toNat ≤ cfg.retryMaxMs := min_le_right _ _
  simp only [spaced_iff hleft hr]
  rw [hcapped] at hpos
  constructor
  · intro hall
    -- The greatest draw shows that the sum is in range, the least that no time has passed.
    have hgreatest := hall (.greatest cfg (job.attempts + 1))
    have hleast := hall (.least cfg (job.attempts + 1))
    rw [backoffMs_greatest, hcapped] at hgreatest
    rw [backoffMs_least, hcapped] at hleast
    have hrange : now + cfg.backoff (job.attempts + 1).toNat < 2 ^ 63 := by
      by_contra hover
      rw [wrapI64_of_ge (by omega) (by omega)] at hgreatest
      omega
    rw [wrapI64_of_fits ⟨by omega, by omega⟩] at hleast
    exact ⟨by omega, hrange⟩
  · rintro ⟨hle, hrange⟩ draw
    obtain ⟨hlow, hhigh⟩ := backoffMs_range draw
    rw [hcapped] at hlow hhigh
    rw [wrapI64_of_fits ⟨by omega, by omega⟩]
    omega

/-! ## A destination that times out -/

/-- The settings of `Config::default`. -/
def defaultRetry : RetryConfig := { retryBaseMs := 1000, retryMaxMs := 300000 }

def slowJob : ClaimedJob where
  id := "a"
  destination := "http://a.test"
  payload := "{}"
  attempts := 0
  maxAttempts := 10

def slowRow : DeliveryRow := asClaimed 0 (newRow "a" "http://a.test" "{}" 10 0)

def slowTable : Deliveries := ⟨[slowRow], List.nodup_singleton _⟩

theorem slowTable_row : slowTable.get? slowJob.id = some slowRow :=
  Table.get?_of_mem (t := slowTable) (r := slowRow) (List.mem_singleton_self slowRow)

/-- A send that has failed at once is spaced, and one that takes ten milliseconds is not
for every draw. -/
theorem retry_spacing_iff_default :
    (∀ draw : Draw defaultRetry (slowJob.attempts + 1),
      Spaced defaultRetry slowJob (processJob slowJob 5 (.error "refused") draw slowTable) 5) ∧
      ¬∀ draw : Draw defaultRetry (slowJob.attempts + 1),
        Spaced defaultRetry slowJob (processJob slowJob 5 (.error "refused") draw slowTable)
          15 := by
  have hat (ended : Int) (hended : 0 ≤ ended) :
      (∀ draw : Draw defaultRetry (slowJob.attempts + 1),
        Spaced defaultRetry slowJob (processJob slowJob 5 (.error "refused") draw slowTable)
          ended) ↔ ended ≤ 5 ∧ 5 + defaultRetry.backoff (slowJob.attempts + 1).toNat < 2 ^ 63 :=
    retry_spacing_iff defaultRetry (by decide) (by decide) (by decide) slowJob (by decide)
      (by decide) slowTable_row (by decide) (by decide) hended "refused"
  refine ⟨(hat 5 (by decide)).2 (by decide), fun hall => ?_⟩
  exact absurd ((hat 15 (by decide)).1 hall).1 (by decide)

/-- A send that takes ten seconds to time out is due again before it has ended,
whatever delay is drawn. -/
theorem retry_spacing_timeout :
    ¬∀ (cfg : RetryConfig) (job : ClaimedJob) (t : Deliveries) (r : DeliveryRow)
      (now ended : Int) (err : String) (draw : Draw cfg (job.attempts + 1)),
      0 < cfg.retryBaseMs → 0 < cfg.retryMaxMs → 0 ≤ job.attempts →
      job.attempts + 1 < job.maxAttempts → t.get? job.id = some r → now ≤ ended →
      Spaced cfg job (processJob job now (.error err) draw t) ended := by
  intro h
  obtain ⟨r', hr', hle⟩ := h defaultRetry slowJob slowTable _ 0 10000 "timed out"
    (.least defaultRetry (slowJob.attempts + 1)) (by decide) (by decide) (by decide) (by decide)
    slowTable_row (by decide)
  obtain ⟨r'', hr'', hnext⟩ := processJob_failed slowTable_row (by decide) 0 "timed out"
    (.least defaultRetry (slowJob.attempts + 1))
  rw [hr', Option.some.injEq] at hr''
  subst hr''
  rw [hnext, backoffMs_least] at hle
  exact absurd hle (by decide)

end G
end WebhookDelivery
