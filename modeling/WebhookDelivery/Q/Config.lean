/-
The settings of the process.

`env::var` reports a variable that is not set and one that is not Unicode as errors,
and the settings with a default take either for not set.  The numbers are checked on
64 bits, and then cast to the width of their field.
-/
import WebhookDelivery.Q.Webhook
import WebhookDelivery.Text.Numeral

namespace WebhookDelivery
namespace Q

open Text (trim Numeral parseUnsigned)

/-- `env::VarError`. -/
inductive VarError
  | notPresent
  | notUnicode
  deriving DecidableEq

/-- What `env::var` answers for each variable. -/
abbrev Environment := String → Except VarError String

inductive ConfigError
  | missing (var : String)
  | empty (var : String)
  | invalid (var value reason : String)
  deriving DecidableEq

/-- The variable an error is about. -/
def ConfigError.var : ConfigError → String
  | .missing var | .empty var | .invalid var .. => var

def ConfigError.text : ConfigError → String
  | .missing var => s!"missing required environment variable: {var}"
  | .empty var => s!"environment variable {var} must not be empty"
  | .invalid var value reason => s!"invalid value for {var} = '{value}': {reason}"

/-- What `from_env` takes from the standard library and the target as it is. -/
structure Std where
  SocketAddr : Type
  parseSocketAddr : String → Except String SocketAddr
  toLowercase : String → String
  usizeBits : Nat
  usizeBits_ge : 16 ≤ usizeBits

/-- `Config`, with all its fields. -/
structure EnvConfig (SocketAddr : Type) where
  listenAddr : SocketAddr
  apiKeys : List String
  adminKey : String
  hmacSecret : Option String
  databasePath : String
  workerCount : Nat
  pollIntervalMs : Nat
  maxAttempts : Nat
  baseRetryDelayMs : Nat
  maxRetryDelayMs : Nat
  requestTimeoutMs : Nat
  maxPayloadBytes : Nat
  allowPrivateDestinations : Bool
  rateLimitPerMin : Nat
  staleInFlightMs : Nat

/-- The fields the workers read. -/
def EnvConfig.worker {A : Type} (cfg : EnvConfig A) : Config where
  baseRetryDelayMs := cfg.baseRetryDelayMs
  maxRetryDelayMs := cfg.maxRetryDelayMs
  staleInFlightMs := cfg.staleInFlightMs

/-- The fields the ingestion endpoint reads. -/
def EnvConfig.api {A : Type} (cfg : EnvConfig A) : ApiConfig where
  apiKeys := cfg.apiKeys
  hmacSecret := cfg.hmacSecret
  maxAttempts := cfg.maxAttempts

/-! ## Reading a variable -/

/-- `v.trim().is_empty()`. -/
def isBlank (v : String) : Bool := trim v.toList = []

def trimmed (v : String) : String := String.ofList (trim v.toList)

def required (env : Environment) (var : String) : Except ConfigError String :=
  match env var with
  | .ok v => if isBlank v then .error (.empty var) else .ok v
  | .error _ => .error (.missing var)

def optional (env : Environment) (var : String) : Option String :=
  match env var with
  | .ok v => if v = "" then none else some v
  | .error _ => none

/-- `env::var(var).unwrap_or_else(|_| default)`. -/
def varOr (env : Environment) (var default : String) : String :=
  match env var with
  | .ok v => v
  | .error _ => default

def parseListenAddr (std : Std) (env : Environment) (var : String) :
    Except ConfigError std.SocketAddr :=
  let raw := varOr env var "127.0.0.1:8080"
  match std.parseSocketAddr raw with
  | .ok addr => .ok addr
  | .error e => .error (.invalid var raw s!"not a valid socket address ({e})")

def parseApiKeys (env : Environment) (var : String) : Except ConfigError (List String) :=
  match env var with
  | .error _ => .error (.missing var)
  | .ok raw =>
    let keys := ((raw.toList.splitOn ',').map trim).filter (· ≠ [])
    if keys = [] then .error (.empty var) else .ok (keys.map String.ofList)

def parseU64 (env : Environment) (var : String) (default : Nat) : Except ConfigError Nat :=
  match env var with
  | .ok v =>
    if isBlank v then .ok default
    else
      match parseUnsigned 64 (trim v.toList) with
      | .error e => .error (.invalid var v s!"not a valid unsigned integer ({e.text})")
      | .ok n => if n = 0 then .error (.invalid var v "must be greater than 0") else .ok n
  | .error _ => .ok default

def parseBool (std : Std) (env : Environment) (var : String) (default : Bool) :
    Except ConfigError Bool :=
  match env var with
  | .ok v =>
    if isBlank v then .ok default
    else
      let other := std.toLowercase (trimmed v)
      if other = "true" then .ok true
      else if other = "false" then .ok false
      else .error (.invalid var v s!"expected 'true' or 'false', got '{other}'")
  | .error _ => .ok default

/-- The casts keep the last bits of a number. -/
def EnvConfig.fromEnv (std : Std) (env : Environment) :
    Except ConfigError (EnvConfig std.SocketAddr) := do
  return {
    listenAddr := ← parseListenAddr std env "LISTEN_ADDR"
    apiKeys := ← parseApiKeys env "WEBHOOK_API_KEYS"
    adminKey := ← required env "WEBHOOK_ADMIN_KEY"
    hmacSecret := optional env "HMAC_SECRET"
    databasePath := varOr env "DATABASE_PATH" "./data/webhook.db"
    workerCount := (← parseU64 env "WORKER_COUNT" 4) % 2 ^ std.usizeBits
    pollIntervalMs := ← parseU64 env "POLL_INTERVAL_MS" 500
    maxAttempts := (← parseU64 env "MAX_ATTEMPTS" 8) % 2 ^ 32
    baseRetryDelayMs := ← parseU64 env "BASE_RETRY_DELAY_MS" 5000
    maxRetryDelayMs := ← parseU64 env "MAX_RETRY_DELAY_MS" 3600000
    requestTimeoutMs := ← parseU64 env "REQUEST_TIMEOUT_MS" 10000
    maxPayloadBytes := ← parseU64 env "MAX_PAYLOAD_BYTES" 1048576
    allowPrivateDestinations := ← parseBool std env "ALLOW_PRIVATE_DESTINATIONS" false
    rateLimitPerMin := (← parseU64 env "RATE_LIMIT_PER_MIN" 120) % 2 ^ 32
    staleInFlightMs := ← parseU64 env "STALE_IN_FLIGHT_MS" 300000 }

/-! ## Refusals -/

/-- The variables that `from_env` may refuse. -/
def checkedVars : List String :=
  ["LISTEN_ADDR", "WEBHOOK_API_KEYS", "WEBHOOK_ADMIN_KEY", "WORKER_COUNT", "POLL_INTERVAL_MS",
    "MAX_ATTEMPTS", "BASE_RETRY_DELAY_MS", "MAX_RETRY_DELAY_MS", "REQUEST_TIMEOUT_MS",
    "MAX_PAYLOAD_BYTES", "ALLOW_PRIVATE_DESTINATIONS", "RATE_LIMIT_PER_MIN", "STALE_IN_FLIGHT_MS"]

/-- An error is about one of the variables. -/
def Blames {α : Type} (vars : List String) (x : Except ConfigError α) : Prop :=
  ∀ e, x = .error e → e.var ∈ vars

section Blames

variable {α β : Type} {vars : List String} {env : Environment} {var : String}

theorem Blames.ok (a : α) : Blames vars (.ok a) := by
  intro e h
  cases h

theorem Blames.error {e : ConfigError} (h : e.var ∈ vars) :
    Blames vars (.error e : Except ConfigError α) := by
  intro e' he
  cases he
  exact h

theorem Blames.bind {x : Except ConfigError α} {f : α → Except ConfigError β} (hx : Blames vars x)
    (hf : ∀ a, Blames vars (f a)) : Blames vars (x >>= f) := by
  cases x with
  | error e => exact Blames.error (hx e rfl)
  | ok a => exact hf a

theorem required_blames (h : var ∈ vars) : Blames vars (required env var) := by
  unfold required
  split
  · split
    · exact .error h
    · exact .ok _
  · exact .error h

theorem parseListenAddr_blames (std : Std) (h : var ∈ vars) :
    Blames vars (parseListenAddr std env var) := by
  unfold parseListenAddr
  dsimp only
  split
  · exact .ok _
  · exact .error h

theorem parseApiKeys_blames (h : var ∈ vars) : Blames vars (parseApiKeys env var) := by
  unfold parseApiKeys
  split
  · exact .error h
  · dsimp only
    split
    · exact .error h
    · exact .ok _

theorem parseU64_blames (h : var ∈ vars) (default : Nat) :
    Blames vars (parseU64 env var default) := by
  unfold parseU64
  split
  · split
    · exact .ok _
    · split
      · exact .error h
      · split
        · exact .error h
        · exact .ok _
  · exact .ok _

theorem parseBool_blames (std : Std) (h : var ∈ vars) (default : Bool) :
    Blames vars (parseBool std env var default) := by
  unfold parseBool
  split
  · split
    · exact .ok _
    · dsimp only
      split
      · exact .ok _
      · split
        · exact .ok _
        · exact .error h
  · exact .ok _

end Blames

/-- A refusal names a variable that was checked. -/
theorem fromEnv_blames (std : Std) (env : Environment) :
    Blames checkedVars (EnvConfig.fromEnv std env) := by
  unfold EnvConfig.fromEnv
  refine .bind (parseListenAddr_blames std (by decide)) fun _ => ?_
  refine .bind (parseApiKeys_blames (by decide)) fun _ => ?_
  refine .bind (required_blames (by decide)) fun _ => ?_
  refine .bind (parseU64_blames (by decide) 4) fun _ => ?_
  refine .bind (parseU64_blames (by decide) 500) fun _ => ?_
  refine .bind (parseU64_blames (by decide) 8) fun _ => ?_
  refine .bind (parseU64_blames (by decide) 5000) fun _ => ?_
  refine .bind (parseU64_blames (by decide) 3600000) fun _ => ?_
  refine .bind (parseU64_blames (by decide) 10000) fun _ => ?_
  refine .bind (parseU64_blames (by decide) 1048576) fun _ => ?_
  refine .bind (parseBool_blames std (by decide) false) fun _ => ?_
  refine .bind (parseU64_blames (by decide) 120) fun _ => ?_
  exact .bind (parseU64_blames (by decide) 300000) fun _ => .ok _

theorem bind_ok {ε α β : Type} {x : Except ε α} {f : α → Except ε β} {b : β}
    (h : (x >>= f) = .ok b) : ∃ a, x = .ok a ∧ f a = .ok b := by
  cases x with
  | error e => cases h
  | ok a => exact ⟨a, rfl, h⟩

/-! ## The keys -/

theorem isBlank_iff {v : String} :
    isBlank v = true ↔ ∀ c ∈ v.toList, Text.isWhitespace c = true := by
  rw [isBlank, decide_eq_true_eq, Text.trim_eq_nil_iff]

/-- The keys are pieces of the variable, without their blanks, and none is blank. -/
theorem parseApiKeys_ok {env : Environment} {var : String} {keys : List String}
    (h : parseApiKeys env var = .ok keys) : keys ≠ [] ∧ ∀ key ∈ keys, isBlank key = false := by
  unfold parseApiKeys at h
  split at h
  · cases h
  · rename_i raw hraw
    dsimp only at h
    split at h
    · cases h
    · rename_i hne
      obtain rfl := Except.ok.inj h
      refine ⟨fun hnil => hne (List.map_eq_nil_iff.1 hnil), fun key hkey => ?_⟩
      obtain ⟨piece, hpiece, rfl⟩ := List.mem_map.1 hkey
      obtain ⟨hmem, hfilled⟩ := List.mem_filter.1 hpiece
      obtain ⟨cs, -, rfl⟩ := List.mem_map.1 hmem
      obtain ⟨c, hc, hchar⟩ := Text.exists_mem_trim (of_decide_eq_true hfilled)
      rw [Bool.eq_false_iff, ne_eq, isBlank_iff, String.toList_ofList]
      intro hall
      rw [hall c hc] at hchar
      cases hchar

theorem required_ok {env : Environment} {var v : String} (h : required env var = .ok v) :
    isBlank v = false := by
  unfold required at h
  split at h
  · split at h
    · cases h
    · rename_i hfilled
      obtain rfl := Except.ok.inj h
      exact Bool.eq_false_iff.2 hfilled
  · cases h

/-! ## The numbers -/

/-- A number that `from_env` reads: its variable, its default, the width of its
field, and the field. -/
structure Setting (A : Type) where
  var : String
  default : Nat
  bits : Nat
  get : EnvConfig A → Nat

def settings (std : Std) : List (Setting std.SocketAddr) :=
  [⟨"WORKER_COUNT", 4, std.usizeBits, EnvConfig.workerCount⟩,
    ⟨"POLL_INTERVAL_MS", 500, 64, EnvConfig.pollIntervalMs⟩,
    ⟨"MAX_ATTEMPTS", 8, 32, EnvConfig.maxAttempts⟩,
    ⟨"BASE_RETRY_DELAY_MS", 5000, 64, EnvConfig.baseRetryDelayMs⟩,
    ⟨"MAX_RETRY_DELAY_MS", 3600000, 64, EnvConfig.maxRetryDelayMs⟩,
    ⟨"REQUEST_TIMEOUT_MS", 10000, 64, EnvConfig.requestTimeoutMs⟩,
    ⟨"MAX_PAYLOAD_BYTES", 1048576, 64, EnvConfig.maxPayloadBytes⟩,
    ⟨"RATE_LIMIT_PER_MIN", 120, 32, EnvConfig.rateLimitPerMin⟩,
    ⟨"STALE_IN_FLIGHT_MS", 300000, 64, EnvConfig.staleInFlightMs⟩]

section Numbers

variable {A : Type} {env : Environment} {s : Setting A} {cfg : EnvConfig A} {n : Nat}

/-- The field holds what the variable says, or the default if it says nothing. -/
def Setting.AtFaceValue (env : Environment) (s : Setting A) (cfg : EnvConfig A) : Prop :=
  0 < s.get cfg ∧
    match env s.var with
    | .ok v => if isBlank v then s.get cfg = s.default else Numeral (trim v.toList) (s.get cfg)
    | .error .notPresent => s.get cfg = s.default
    | .error .notUnicode => False

/-- The variable is Unicode if it is set, and a number in it has no more bits than
the field. -/
def Setting.Fits (env : Environment) (s : Setting A) : Prop :=
  env s.var ≠ .error .notUnicode ∧
    ∀ v n, env s.var = .ok v → Numeral (trim v.toList) n → n < 2 ^ s.bits

/-- The default is a value the variable could have had. -/
def Setting.Lawful (s : Setting A) : Prop := 0 < s.default ∧ s.default < 2 ^ s.bits

theorem settings_lawful (std : Std) : ∀ s ∈ settings std, s.Lawful := by
  have hworker : 4 < 2 ^ std.usizeBits :=
    Nat.lt_of_lt_of_le (by decide) (Nat.pow_le_pow_right (by decide) std.usizeBits_ge)
  simp [settings, Setting.Lawful, hworker]

theorem parseU64_ok {var : String} {default : Nat} (h : parseU64 env var default = .ok n) :
    (∃ v, env var = .ok v ∧ isBlank v = false ∧ Numeral (trim v.toList) n ∧ n < 2 ^ 64 ∧ 0 < n) ∨
      n = default ∧ ∀ v, env var = .ok v → isBlank v = true := by
  unfold parseU64 at h
  cases hv : env var with
  | error e =>
    rw [hv] at h
    cases h
    exact .inr ⟨rfl, fun v hv' => by cases hv'⟩
  | ok v =>
    rw [hv] at h
    dsimp only at h
    cases hb : isBlank v with
    | true =>
      rw [hb, if_pos rfl] at h
      cases h
      exact .inr ⟨rfl, fun v' hv' => by cases hv'; exact hb⟩
    | false =>
      rw [hb, if_neg Bool.false_ne_true] at h
      cases hp : parseUnsigned 64 (trim v.toList) with
      | error e =>
        rw [hp] at h
        cases h
      | ok m =>
        rw [hp] at h
        dsimp only at h
        obtain ⟨hnum, hlt⟩ := Text.parseUnsigned_ok_iff.1 hp
        by_cases hm : m = 0
        · rw [if_pos hm] at h
          cases h
        · rw [if_neg hm] at h
          cases h
          exact .inl ⟨v, rfl, hb, hnum, hlt, Nat.pos_of_ne_zero hm⟩

/-- A cast number is at its face value exactly if the cast has nothing to drop. -/
theorem Setting.atFaceValue_iff (hs : s.Lawful) (h : parseU64 env s.var s.default = .ok n)
    (hget : s.get cfg = n % 2 ^ s.bits) : s.AtFaceValue env cfg ↔ s.Fits env := by
  unfold AtFaceValue Fits
  rw [hget]
  rcases parseU64_ok h with ⟨v, hv, hb, hnum, -, hpos⟩ | ⟨rfl, hblank⟩
  · have hfits : (∀ v' n', env s.var = .ok v' → Numeral (trim v'.toList) n' → n' < 2 ^ s.bits) ↔
        n < 2 ^ s.bits := by
      constructor
      · exact fun hall => hall v n hv hnum
      · rintro hlt v' n' hv' hnum'
        rw [hv] at hv'
        cases hv'
        rwa [hnum'.unique hnum]
    rw [hfits, hv]
    simp only [hb, Bool.false_eq_true, if_false, ne_eq, reduceCtorEq, not_false_eq_true, true_and]
    constructor
    · rintro ⟨-, hmod⟩
      rw [hnum.unique hmod]
      exact Nat.mod_lt _ (Nat.two_pow_pos s.bits)
    · intro hlt
      rw [Nat.mod_eq_of_lt hlt]
      exact ⟨hpos, hnum⟩
  · rw [Nat.mod_eq_of_lt hs.2]
    cases hv : env s.var with
    | ok v =>
      have hb := hblank v hv
      have hnil : trim v.toList = [] := by simpa [isBlank] using hb
      simp only [hb, if_true, and_true, ne_eq, reduceCtorEq, not_false_eq_true, true_and]
      refine iff_of_true hs.1 ?_
      rintro v' n' hv' ⟨ds, hds, hne, -⟩
      cases hv'
      rw [hnil] at hds
      rcases hds with hds | hds
      · exact absurd hds.symm hne
      · cases hds
    | error e =>
      cases e with
      | notPresent => simp [hs.1]
      | notUnicode => simp

end Numbers

/-- The required fields of an accepted configuration are what was read for them, and
each number is what `parse_u64` read, cast to its field. -/
theorem fromEnv_ok {std : Std} {env : Environment} {cfg : EnvConfig std.SocketAddr}
    (h : EnvConfig.fromEnv std env = .ok cfg) :
    parseApiKeys env "WEBHOOK_API_KEYS" = .ok cfg.apiKeys ∧
      required env "WEBHOOK_ADMIN_KEY" = .ok cfg.adminKey ∧
      ∀ s ∈ settings std,
        ∃ n, parseU64 env s.var s.default = .ok n ∧ s.get cfg = n % 2 ^ s.bits := by
  have hwide : ∀ {var : String} {default n : Nat}, parseU64 env var default = .ok n →
      default < 2 ^ 64 → ∃ m, parseU64 env var default = .ok m ∧ n = m % 2 ^ 64 := by
    intro var default n hn hlt
    refine ⟨n, hn, (Nat.mod_eq_of_lt ?_).symm⟩
    rcases parseU64_ok hn with ⟨v, -, -, -, hn, -⟩ | ⟨rfl, -⟩
    · exact hn
    · exact hlt
  unfold EnvConfig.fromEnv at h
  obtain ⟨listenAddr, -, h⟩ := bind_ok h
  obtain ⟨apiKeys, hkeys, h⟩ := bind_ok h
  obtain ⟨adminKey, hadmin, h⟩ := bind_ok h
  obtain ⟨workerCount, hworker, h⟩ := bind_ok h
  obtain ⟨pollIntervalMs, hpoll, h⟩ := bind_ok h
  obtain ⟨maxAttempts, hattempts, h⟩ := bind_ok h
  obtain ⟨baseRetryDelayMs, hbase, h⟩ := bind_ok h
  obtain ⟨maxRetryDelayMs, hmax, h⟩ := bind_ok h
  obtain ⟨requestTimeoutMs, htimeout, h⟩ := bind_ok h
  obtain ⟨maxPayloadBytes, hpayload, h⟩ := bind_ok h
  obtain ⟨allowPrivate, -, h⟩ := bind_ok h
  obtain ⟨rateLimitPerMin, hrate, h⟩ := bind_ok h
  obtain ⟨staleInFlightMs, hstale, h⟩ := bind_ok h
  cases h
  refine ⟨hkeys, hadmin, ?_⟩
  simp only [settings, List.forall_mem_cons]
  exact ⟨⟨_, hworker, rfl⟩, hwide hpoll (by decide), ⟨_, hattempts, rfl⟩,
    hwide hbase (by decide), hwide hmax (by decide), hwide htimeout (by decide),
    hwide hpayload (by decide), ⟨_, hrate, rfl⟩, hwide hstale (by decide),
    fun s hs => absurd hs List.not_mem_nil⟩

theorem fromEnv_numbers {std : Std} {env : Environment} {cfg : EnvConfig std.SocketAddr}
    (h : EnvConfig.fromEnv std env = .ok cfg) :
    ∀ s ∈ settings std, ∃ n, parseU64 env s.var s.default = .ok n ∧ s.get cfg = n % 2 ^ s.bits :=
  (fromEnv_ok h).2.2

/-- An accepted configuration has a key for its API and one for its admin, and none of
its keys is blank. -/
theorem fromEnv_keys {std : Std} {env : Environment} {cfg : EnvConfig std.SocketAddr}
    (h : EnvConfig.fromEnv std env = .ok cfg) :
    cfg.api.apiKeys ≠ [] ∧ (∀ key ∈ cfg.api.apiKeys, isBlank key = false) ∧
      isBlank cfg.adminKey = false := by
  obtain ⟨hkeys, hadmin, -⟩ := fromEnv_ok h
  obtain ⟨hne, hfilled⟩ := parseApiKeys_ok hkeys
  exact ⟨hne, hfilled, required_ok hadmin⟩

/-- The numbers of an accepted configuration are at their face value if and only if
each variable that is set is Unicode and its number fits its field. -/
theorem fromEnv_numbers_iff {std : Std} {env : Environment} {cfg : EnvConfig std.SocketAddr}
    (h : EnvConfig.fromEnv std env = .ok cfg) :
    (∀ s ∈ settings std, s.AtFaceValue env cfg) ↔ ∀ s ∈ settings std, s.Fits env := by
  refine forall₂_congr fun s hs => ?_
  obtain ⟨n, hn, hget⟩ := fromEnv_numbers h s hs
  exact Setting.atFaceValue_iff (settings_lawful std s hs) hn hget

/-! ## Two environments -/

/-- The standard library of a 64-bit target, for addresses that are taken as text. -/
def std64 : Std where
  SocketAddr := String
  parseSocketAddr := .ok
  toLowercase s := String.ofList (s.toList.map Char.toLower)
  usizeBits := 64
  usizeBits_ge := by decide

/-- The keys are set, and the variables of the list. -/
def withVars (vars : List (String × String)) : Environment := fun var =>
  match (("WEBHOOK_API_KEYS", "k1") :: ("WEBHOOK_ADMIN_KEY", "admin") :: vars).lookup var with
  | some v => .ok v
  | none => .error .notPresent

def defaults : EnvConfig String where
  listenAddr := "127.0.0.1:8080"
  apiKeys := ["k1"]
  adminKey := "admin"
  hmacSecret := none
  databasePath := "./data/webhook.db"
  workerCount := 4
  pollIntervalMs := 500
  maxAttempts := 8
  baseRetryDelayMs := 5000
  maxRetryDelayMs := 3600000
  requestTimeoutMs := 10000
  maxPayloadBytes := 1048576
  allowPrivateDestinations := false
  rateLimitPerMin := 120
  staleInFlightMs := 300000

theorem fits_of_unset {A : Type} {env : Environment} {s : Setting A}
    (h : env s.var = .error .notPresent) : s.Fits env := by
  constructor
  · rw [h]
    simp
  · intro v n hv
    rw [h] at hv
    cases hv

/-- `MAX_ATTEMPTS=" 5 "`, and no other number. -/
theorem fromEnv_numbers_iff_five :
    EnvConfig.fromEnv std64 (withVars [("MAX_ATTEMPTS", " 5 ")]) =
        .ok { defaults with maxAttempts := 5 } ∧
      ∀ s ∈ settings std64, s.AtFaceValue (withVars [("MAX_ATTEMPTS", " 5 ")])
        { defaults with maxAttempts := 5 } := by
  have hcfg : EnvConfig.fromEnv std64 (withVars [("MAX_ATTEMPTS", " 5 ")]) =
      .ok { defaults with maxAttempts := 5 } := rfl
  refine ⟨hcfg, (fromEnv_numbers_iff hcfg).2 ?_⟩
  have hfive : Numeral (trim " 5 ".toList) 5 :=
    ⟨['5'], .inl rfl, List.cons_ne_nil _ _, List.forall_mem_singleton.2 rfl, rfl⟩
  have hattempts : (⟨"MAX_ATTEMPTS", 8, 32, EnvConfig.maxAttempts⟩ : Setting String).Fits
      (withVars [("MAX_ATTEMPTS", " 5 ")]) := by
    refine ⟨by decide, fun v n hv hn => ?_⟩
    cases hv
    rw [hn.unique hfive]
    decide
  simp only [settings, List.forall_mem_cons]
  exact ⟨fits_of_unset rfl, fits_of_unset rfl, hattempts, fits_of_unset rfl, fits_of_unset rfl,
    fits_of_unset rfl, fits_of_unset rfl, fits_of_unset rfl, fits_of_unset rfl,
    fun s hs => absurd hs List.not_mem_nil⟩

/-- `MAX_ATTEMPTS=4294967296` is accepted, and is taken for no attempts. -/
theorem attempts_narrowed :
    ¬∀ (env : Environment) (cfg : EnvConfig String), EnvConfig.fromEnv std64 env = .ok cfg →
      ∀ s ∈ settings std64, s.AtFaceValue env cfg := by
  intro h
  have hcfg : EnvConfig.fromEnv std64 (withVars [("MAX_ATTEMPTS", "4294967296")]) =
      .ok { defaults with maxAttempts := 0 } := rfl
  have hmem : (⟨"MAX_ATTEMPTS", 8, 32, EnvConfig.maxAttempts⟩ : Setting String) ∈
      settings std64 := .tail _ (.tail _ (.head _))
  exact absurd (h _ _ hcfg _ hmem).1 (Nat.lt_irrefl 0)

end Q
end WebhookDelivery
