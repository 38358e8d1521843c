/-
Time arithmetic with the settings of the process.

A delay and the stale threshold are unsigned settings of 64 bits, and are cast to
`i64` before they meet the clock.  The cast turns the larger half of them negative,
and `from_env` lets that half through.  Where the subtraction of the reset leaves the
64 bits SQLite goes on with a real number, which is above every clock reading, so the
comparison is the exact one.
-/
import WebhookDelivery.Q.Backoff
import WebhookDelivery.Q.Config
import WebhookDelivery.Q.Ownership

namespace WebhookDelivery
namespace Q

open Sql Run

/-! ## The retry time -/

/-- Whatever the generator draws, the sum does not overflow, and the retry time is
between now and the longest delay from now. -/
def RetryInTime (cfg : Config) (now : Int) (attempt : UInt32) : Prop :=
  ∀ (rnd : UInt64) (c : Draw), c.rnd = rnd.toNat → c.clock = now →
    FitsI64 (retrySum cfg c attempt.toNat) ∧ now ≤ retryAt cfg c attempt.toNat ∧
      retryAt cfg c attempt.toNat ≤ now + cfg.maxRetryDelayMs

/-- A delay is in time if it does not take the clock out of its range. -/
theorem delay_in_time_iff {now : Int} {d maxMs : Nat} (hnow : 0 ≤ now) (hd : d ≤ maxMs)
    (hmax : maxMs < 2 ^ 64) :
    (FitsI64 (now + asI64 d) ∧ now ≤ wrapI64 (now + asI64 d) ∧
      wrapI64 (now + asI64 d) ≤ now + maxMs) ↔ now + d < 2 ^ 63 := by
  by_cases hsmall : d < 2 ^ 63
  · rw [asI64_of_lt hsmall]
    constructor
    · rintro ⟨hfits, -, -⟩
      exact hfits.2
    · intro hlt
      have hfits : FitsI64 (now + d) := ⟨by omega, hlt⟩
      rw [wrapI64_of_fits hfits]
      exact ⟨hfits, by omega, by omega⟩
  · rw [asI64_of_ge (by omega) (by omega)]
    constructor
    · rintro ⟨hfits, hle, -⟩
      rw [wrapI64_of_fits hfits] at hle
      omega
    · intro hlt
      omega

theorem retryInTime_iff {cfg : Config} {now : Int} {attempt : UInt32} (hnow : 0 ≤ now)
    (hmax : cfg.maxRetryDelayMs < 2 ^ 64) :
    RetryInTime cfg now attempt ↔
      now + shiftedCap attempt.toNat cfg.baseRetryDelayMs cfg.maxRetryDelayMs < 2 ^ 63 := by
  have hcap : shiftedCap attempt.toNat cfg.baseRetryDelayMs cfg.maxRetryDelayMs ≤
      cfg.maxRetryDelayMs := Nat.min_le_right _ _
  constructor
  · intro h
    obtain ⟨rnd, hrnd⟩ := (exists_uniformInclusive (Nat.lt_of_le_of_lt hcap hmax)).2
      (Nat.le_refl (shiftedCap attempt.toNat cfg.baseRetryDelayMs cfg.maxRetryDelayMs))
    have htime := h rnd ⟨rnd.toNat, 0, now, now⟩ rfl rfl
    rw [retryAt, retrySum, nextDelayMs_eq, hrnd] at htime
    exact (delay_in_time_iff hnow hcap hmax).1 htime
  · rintro hlt rnd c hrnd rfl
    have hdelay : nextDelayMs attempt.toNat cfg.baseRetryDelayMs cfg.maxRetryDelayMs c.rnd ≤
        shiftedCap attempt.toNat cfg.baseRetryDelayMs cfg.maxRetryDelayMs := by
      rw [nextDelayMs_eq, hrnd]
      exact (exists_uniformInclusive (Nat.lt_of_le_of_lt hcap hmax)).1 ⟨rnd, rfl⟩
    exact (delay_in_time_iff hnow (hdelay.trans hcap) hmax).2 (by omega)

/-! ## The reset -/

/-- The reset leaves a row in flight alone that was updated within the threshold. -/
def ResetSpares (cfg : Config) (now : Int) : Prop :=
  ∀ (db : Db) (id : Uuid) (r : DeliveryRow), db.row id = some r → r.status = .inFlight →
    now - cfg.staleInFlightMs < r.updatedAt → r.updatedAt ≤ now →
    (resetStaleInFlight db now (asI64 cfg.staleInFlightMs)).row id = some r

theorem resetSpares_iff {cfg : Config} {now : Int} (hpos : 0 < cfg.staleInFlightMs)
    (hlt : cfg.staleInFlightMs < 2 ^ 64) :
    ResetSpares cfg now ↔ cfg.staleInFlightMs < 2 ^ 63 := by
  constructor
  · intro h
    by_contra hbig
    -- A negative threshold makes a row stale that was updated just now.
    have hstale : isStale now (asI64 cfg.staleInFlightMs) (asClaimed now (newRow hook 0)) =
        true := by
      rw [isStale_iff, asI64_of_ge (by omega) hlt]
      refine ⟨rfl, ?_⟩
      show now ≤ _
      omega
    have hrow : (stored (asClaimed now (newRow hook 0)) [] List.nodup_nil).row 1 =
        some (asClaimed now (newRow hook 0)) := rfl
    have hspared := h _ 1 _ hrow rfl (by show now - _ < now; omega) (Int.le_refl now)
    rw [row_resetStaleInFlight, hrow, Option.map_some, if_pos hstale, Option.some.injEq] at hspared
    have hstatus : DeliveryStatus.pending = .inFlight := congrArg DeliveryRow.status hspared
    cases hstatus
  · intro hsmall db id r hr _ hfresh _
    have hnot : ¬isStale now (asI64 cfg.staleInFlightMs) r = true := by
      rw [isStale_iff, asI64_of_lt hsmall]
      omega
    rw [row_resetStaleInFlight, hr, Option.map_some, if_neg hnot]

/-! ## Accepted settings -/

/-- A setting of 64 bits is at least 1 and keeps to its width. -/
theorem fromEnv_wide {std : Std} {env : Environment} {cfg : EnvConfig std.SocketAddr}
    (h : EnvConfig.fromEnv std env = .ok cfg) {s : Setting std.SocketAddr} (hs : s ∈ settings std)
    (hbits : s.bits = 64) : 0 < s.get cfg ∧ s.get cfg < 2 ^ 64 := by
  obtain ⟨n, hn, hget⟩ := fromEnv_numbers h s hs
  obtain ⟨hpos, hlt⟩ := settings_lawful std s hs
  rw [hbits] at hget hlt
  have hrange : 0 < n ∧ n < 2 ^ 64 := by
    rcases parseU64_ok hn with ⟨v, -, -, -, hlt, hpos⟩ | ⟨rfl, -⟩
    · exact ⟨hpos, hlt⟩
    · exact ⟨hpos, hlt⟩
  rw [hget, Nat.mod_eq_of_lt hrange.2]
  exact hrange

/-- With accepted settings the retry times of an attempt are in time if and only if
its cap does not take the clock out of its range, and the reset spares what it should
if and only if the threshold has not the highest bit. -/
theorem time_arithmetic_iff {std : Std} {env : Environment} {cfg : EnvConfig std.SocketAddr}
    (h : EnvConfig.fromEnv std env = .ok cfg) {now : Int} (hnow : 0 ≤ now) :
    (∀ attempt : UInt32, RetryInTime cfg.worker now attempt ↔
      now + (min (cfg.baseRetryDelayMs * 2 ^ min (attempt.toNat - 1) 20 % 2 ^ 64)
        cfg.maxRetryDelayMs : Nat) < 2 ^ 63) ∧
      (ResetSpares cfg.worker now ↔ cfg.staleInFlightMs < 2 ^ 63) := by
  have hmax : (⟨"MAX_RETRY_DELAY_MS", 3600000, 64, EnvConfig.maxRetryDelayMs⟩ : Setting _) ∈
      settings std := by simp [settings]
  have hstale : (⟨"STALE_IN_FLIGHT_MS", 300000, 64, EnvConfig.staleInFlightMs⟩ : Setting _) ∈
      settings std := by simp [settings]
  obtain ⟨hpos, hlt⟩ := fromEnv_wide h hstale rfl
  exact ⟨fun attempt => retryInTime_iff hnow (fromEnv_wide h hmax rfl).2, resetSpares_iff hpos hlt⟩

/-- The default settings at the last clock reading there is a promise for. -/
theorem time_arithmetic_iff_defaults :
    RetryInTime defaults.worker (2 ^ 62) 3 ∧ ResetSpares defaults.worker (2 ^ 62) := by
  have hcfg : EnvConfig.fromEnv std64 (withVars []) = .ok defaults := rfl
  have hnow : (0 : Int) ≤ 2 ^ 62 := by decide
  obtain ⟨hretry, hreset⟩ := time_arithmetic_iff hcfg hnow
  exact ⟨(hretry 3).2 (by decide +kernel), hreset.2 (by decide)⟩

/-- The longest delays that are no negative numbers, and a threshold that is one. -/
def longest : EnvConfig String :=
  { defaults with
    baseRetryDelayMs := 2 ^ 63 - 1, maxRetryDelayMs := 2 ^ 63 - 1, staleInFlightMs := 2 ^ 63 }

/-- The first retry overflows, and a start resets rows that were just claimed. -/
theorem settings_past_i64 :
    EnvConfig.fromEnv std64 (withVars [("BASE_RETRY_DELAY_MS", "9223372036854775807"),
        ("MAX_RETRY_DELAY_MS", "9223372036854775807"),
        ("STALE_IN_FLIGHT_MS", "9223372036854775808")]) = .ok longest ∧
      ¬RetryInTime longest.worker 1 1 ∧ ¬ResetSpares longest.worker 1 := by
  refine ⟨rfl, ?_, ?_⟩
  · rw [retryInTime_iff (by decide) (by decide)]
    decide +kernel
  · rw [resetSpares_iff (by decide) (by decide)]
    decide

end Q
end WebhookDelivery
