/-
What `authorized` accepts.

A header value is received as bytes, and `to_str` reads it only if all of them
are visible ASCII.  `hex_decode` takes an even number of digits of either case,
and what it does not take is compared as an empty code, which no code of 32 bytes
is equal to.
-/
import WebhookDelivery.Q.Auth
import WebhookDelivery.Text.Hex

namespace WebhookDelivery
namespace Q

open Text

/-! ## Header values as bytes -/

/-- What `to_str` asks of a byte. -/
def visible (b : UInt8) : Bool := 32 ≤ b && b < 127 || b = 9

def HeaderValue.ofBytes (value : List UInt8) : HeaderValue :=
  if value.all visible then .text (asciiString value) else .bytes value

/-- The values of each header as they come in. -/
abbrev RawHeaders := HeaderName → List (List UInt8)

namespace RawHeaders

def headers (raw : RawHeaders) : HeaderMap := fun name => (raw name).map HeaderValue.ofBytes

def first (raw : RawHeaders) (name : HeaderName) : Option (List UInt8) := (raw name).head?

theorem get_headers (raw : RawHeaders) (name : HeaderName) :
    raw.headers.get name = (raw.first name).map HeaderValue.ofBytes := by
  unfold HeaderMap.get headers first
  exact List.head?_map

theorem containsKey_headers (raw : RawHeaders) (name : HeaderName) :
    raw.headers.containsKey name = (raw.first name).isSome := by
  rw [HeaderMap.containsKey, get_headers, Option.isSome_map]

end RawHeaders

theorem visible_lt {b : UInt8} (h : visible b = true) : b.toNat < 128 := by
  unfold visible at h
  simp only [Bool.or_eq_true, Bool.and_eq_true, decide_eq_true_eq] at h
  rcases h with ⟨-, h⟩ | rfl
  · have hlt : b.toNat < 127 := UInt8.lt_iff_toNat_lt.1 h
    omega
  · decide

theorem visible_of_range {b : UInt8} (hle : 32 ≤ b.toNat) (hlt : b.toNat < 127) :
    visible b = true := by
  have hle : (32 : UInt8) ≤ b := UInt8.le_iff_toNat_le.2 hle
  have hlt : b < (127 : UInt8) := UInt8.lt_iff_toNat_lt.2 hlt
  simp [visible, hle, hlt]

theorem asBytes_asciiString {value : List UInt8} (h : value.all visible = true) :
    asBytes (asciiString value) = value :=
  asciiString_bytes fun b hb => visible_lt (List.all_eq_true.1 h b hb)

theorem toStr_ofBytes {value : List UInt8} {s : String} :
    (HeaderValue.ofBytes value).toStr = some s ↔ value.all visible = true ∧ asBytes s = value := by
  unfold HeaderValue.ofBytes
  by_cases h : value.all visible = true
  · rw [if_pos h]
    constructor
    · rintro ⟨⟩
      exact ⟨h, asBytes_asciiString h⟩
    · rintro ⟨-, hs⟩
      exact congrArg some (asBytes_inj ((asBytes_asciiString h).trans hs.symm))
  · rw [if_neg h]
    exact ⟨fun e => absurd e (by simp [HeaderValue.toStr]), fun e => absurd e.1 h⟩

/-! ## Prefixes -/

theorem asBytes_append (s t : String) : asBytes (s ++ t) = asBytes s ++ asBytes t :=
  Text.utf8_append s t

theorem stripPrefix_eq_some {pre s t : String} : stripPrefix pre s = some t ↔ s = pre ++ t := by
  unfold stripPrefix
  constructor
  · intro h
    split at h
    · rename_i hpre
      obtain ⟨rest, hrest⟩ := List.isPrefixOf_iff_prefix.1 hpre
      cases h
      rw [← hrest, List.drop_left, ← String.toList_inj]
      simpa using hrest.symm
    · cases h
  · rintro rfl
    simp

theorem stripPrefix_bytes {pre s t : String} :
    stripPrefix pre s = some t ↔ asBytes s = asBytes pre ++ asBytes t := by
  rw [stripPrefix_eq_some, ← asBytes_append]
  exact ⟨fun h => congrArg asBytes h, fun h => asBytes_inj h⟩

/-! ## Bearer tokens -/

/-- The first `Authorization` value is a scheme followed by the token. -/
def Bears (raw : RawHeaders) (token : String) : Prop :=
  ∃ value, raw.first .authorization = some value ∧
    (value = asBytes "Bearer " ++ asBytes token ∨ value = asBytes "bearer " ++ asBytes token)

theorem bearer_ne {s t : List UInt8} : asBytes "bearer " ++ s ≠ asBytes "Bearer " ++ t := by
  have hlower : asBytes "bearer " = 98 :: asBytes "earer " := by decide
  have hupper : asBytes "Bearer " = 66 :: asBytes "earer " := by decide
  intro h
  rw [hlower, hupper] at h
  exact absurd (List.cons.inj h).1 (by decide)

theorem visible_append {scheme token : List UInt8} (h : scheme.all visible = true) :
    (scheme ++ token).all visible = token.all visible := by
  rw [List.all_append, h, Bool.true_and]

theorem bearerToken_text {headers : HeaderMap} {s token : String}
    (hs : (headers.get .authorization).bind HeaderValue.toStr = some s) :
    bearerToken headers = some token ↔
      asBytes s = asBytes "Bearer " ++ asBytes token ∨
        asBytes s = asBytes "bearer " ++ asBytes token := by
  unfold bearerToken
  simp only [hs]
  cases hstrip : stripPrefix "Bearer " s with
  | some t =>
    have hst := stripPrefix_bytes.1 hstrip
    constructor
    · intro h
      cases h
      exact .inl hst
    · rintro (h | h)
      · rw [hst] at h
        exact congrArg some (asBytes_inj (List.append_cancel_left h))
      · exact absurd (h.symm.trans hst) bearer_ne
  | none =>
    constructor
    · exact fun h => .inr (stripPrefix_bytes.1 h)
    · rintro (h | h)
      · rw [stripPrefix_bytes.2 h] at hstrip
        cases hstrip
      · exact stripPrefix_bytes.2 h

/-- `bearer_token` finds the token of the first value, which has to be visible. -/
theorem bearerToken_eq_some {raw : RawHeaders} {token : String} :
    bearerToken raw.headers = some token ↔
      Bears raw token ∧ (asBytes token).all visible = true := by
  have hscheme : ∀ {value}, (value = asBytes "Bearer " ++ asBytes token ∨
      value = asBytes "bearer " ++ asBytes token) →
      value.all visible = (asBytes token).all visible := by
    rintro value (rfl | rfl)
    · exact visible_append (by decide)
    · exact visible_append (by decide)
  have hget := raw.get_headers .authorization
  cases hs : (raw.headers.get .authorization).bind HeaderValue.toStr with
  | none =>
    have hnone : bearerToken raw.headers = none := by
      unfold bearerToken
      simp only [hs]
    rw [hnone]
    refine ⟨fun h => absurd h (by simp), ?_⟩
    rintro ⟨⟨value, hvalue, htoken⟩, hvisible⟩
    rw [hget, hvalue, Option.map_some, Option.bind_some] at hs
    rw [← hscheme htoken] at hvisible
    rw [toStr_ofBytes.2 ⟨hvisible, asBytes_asciiString hvisible⟩] at hs
    cases hs
  | some s =>
    rw [bearerToken_text hs]
    rw [hget] at hs
    obtain ⟨v, hv, hstr⟩ := Option.bind_eq_some_iff.1 hs
    obtain ⟨value, hvalue, rfl⟩ := Option.map_eq_some_iff.1 hv
    obtain ⟨hall, rfl⟩ := toStr_ofBytes.1 hstr
    constructor
    · exact fun h => ⟨⟨asBytes s, hvalue, h⟩, by rw [← hscheme h, hall]⟩
    · rintro ⟨⟨value, hvalue', htoken⟩, -⟩
      rw [hvalue] at hvalue'
      cases hvalue'
      exact htoken

/-! ## Hexadecimal codes -/

/-- A byte less another that is not above it, plus a third. -/
theorem sub_eq_iff {c a v : UInt8} (h : a.toNat ≤ c.toNat) :
    some (c - a) = some v ↔ v.toNat = c.toNat - a.toNat := by
  rw [Option.some.injEq, ← UInt8.toNat_inj, UInt8.toNat_sub_of_le _ _ (UInt8.le_iff_toNat_le.2 h)]
  exact eq_comm

theorem sub_add_eq_iff {c a b v : UInt8} (h : a.toNat ≤ c.toNat)
    (hlt : c.toNat - a.toNat + b.toNat < 256) :
    some (c - a + b) = some v ↔ v.toNat = c.toNat - a.toNat + b.toNat := by
  rw [Option.some.injEq, ← UInt8.toNat_inj, UInt8.toNat_add,
    UInt8.toNat_sub_of_le _ _ (UInt8.le_iff_toNat_le.2 h), Nat.mod_eq_of_lt hlt]
  exact eq_comm

theorem hexNib_eq_some {c v : UInt8} : hexNib c = some v ↔ HexDigit c v.toNat := by
  have hc := c.toNat_lt
  have h48 : (48 : UInt8).toNat = 48 := rfl
  have h57 : (57 : UInt8).toNat = 57 := rfl
  have h97 : (97 : UInt8).toNat = 97 := rfl
  have h102 : (102 : UInt8).toNat = 102 := rfl
  have h65 : (65 : UInt8).toNat = 65 := rfl
  have h70 : (70 : UInt8).toNat = 70 := rfl
  have h10 : (10 : UInt8).toNat = 10 := rfl
  unfold hexNib HexDigit
  simp only [UInt8.le_iff_toNat_le, h48, h57, h97, h102, h65, h70]
  split_ifs with hdigit hlower hupper
  · rw [sub_eq_iff (by omega)]
    omega
  · rw [sub_add_eq_iff (by omega) (by omega)]
    omega
  · rw [sub_add_eq_iff (by omega) (by omega)]
    omega
  · simp only [false_iff]
    omega

theorem toNat_nibbles {h l : UInt8} (hh : h.toNat < 16) (hl : l.toNat < 16) :
    (h <<< 4 ||| l).toNat = 16 * h.toNat + l.toNat := by
  have hshift : (h <<< 4).toNat = h.toNat <<< 4 := by
    rw [UInt8.toNat_shiftLeft]
    have hlt : h.toNat <<< 4 < 2 ^ 8 := by
      rw [Nat.shiftLeft_eq]
      omega
    exact Nat.mod_eq_of_lt hlt
  rw [UInt8.toNat_or, hshift, ← Nat.shiftLeft_add_eq_or_of_lt (by omega : l.toNat < 2 ^ 4),
    Nat.shiftLeft_eq]
  omega

/-- The loop takes digits, two for each byte. -/
theorem hexPairs_eq_some {ds bs : List UInt8} (heven : ds.length % 2 = 0) :
    hexPairs ds = some bs ↔ Spells ds bs := by
  induction ds using hexPairs.induct generalizing bs with
  | case1 hi lo rest h l out hout hlo hhi ih =>
    have hrest : rest.length % 2 = 0 := by
      simp only [List.length_cons] at heven
      omega
    have hspells : Spells (hi :: lo :: rest) ((h <<< 4 ||| l) :: out) := by
      have hhi := hexNib_eq_some.1 hhi
      have hlo := hexNib_eq_some.1 hlo
      exact .pair hhi hlo (toNat_nibbles hhi.lt hlo.lt) ((ih hrest).1 hout)
    simp only [hexPairs, hhi, hlo, hout, Option.some.injEq]
    exact ⟨fun e => e ▸ hspells, fun hbs => hspells.unique hbs⟩
  | case2 hi lo rest hnone ih =>
    have hrest : rest.length % 2 = 0 := by
      simp only [List.length_cons] at heven
      omega
    have heq : hexPairs (hi :: lo :: rest) = none := by
      unfold hexPairs
      split
      · rename_i h l out hhi hlo hout
        exact (hnone h l out hhi hlo hout).elim
      · rfl
    rw [heq]
    refine ⟨fun e => absurd e (by simp), fun hbs => ?_⟩
    cases hbs with
    | @pair _ _ b h l _ bs hhi hlo hb hbs =>
      have hh : h = (UInt8.ofNat h).toNat := (UInt8.toNat_ofNat_of_lt' (by
        have := hhi.lt; simp only [UInt8.size]; omega)).symm
      have hl : l = (UInt8.ofNat l).toNat := (UInt8.toNat_ofNat_of_lt' (by
        have := hlo.lt; simp only [UInt8.size]; omega)).symm
      rw [hh] at hhi
      rw [hl] at hlo
      exact (hnone _ _ bs (hexNib_eq_some.2 hhi) (hexNib_eq_some.2 hlo) ((ih hrest).2 hbs)).elim
  | case3 ds hshort =>
    have hnil : ds = [] := by
      match ds, hshort, heven with
      | [], _, _ => rfl
      | [_], _, h => exact absurd h (by simp)
      | hi :: lo :: rest, hshort, _ => exact (hshort hi lo rest rfl).elim
    subst hnil
    simp only [hexPairs, Option.some.injEq]
    constructor
    · rintro rfl
      exact .nil
    · intro h
      cases h
      rfl

theorem hexDecode_eq_some {s : String} {bs : List UInt8} :
    hexDecode s = some bs ↔ Spells (asBytes s) bs := by
  unfold hexDecode
  split
  · rename_i heven
    exact hexPairs_eq_some heven
  · rename_i hodd
    refine ⟨fun e => absurd e (by simp), fun h => absurd ?_ hodd⟩
    rw [h.length]
    omega

/-- What is not a code decodes to nothing, and is not equal to one either. -/
theorem hexDecode_getD {s : String} {mac : List UInt8} (hmac : mac ≠ []) :
    constantTimeEq ((hexDecode s).getD []) mac = true ↔ Spells (asBytes s) mac := by
  rw [← hexDecode_eq_some, constantTimeEq, decide_eq_true_eq]
  cases hexDecode s with
  | none => simp [hmac.symm]
  | some bs => simp

/-! ## Signatures -/

theorem HexDigit.visible {c : UInt8} {v : Nat} (h : HexDigit c v) : Q.visible c = true := by
  unfold HexDigit at h
  exact visible_of_range (by omega) (by omega)

theorem Spells.visible {ds bs : List UInt8} (h : Spells ds bs) : ds.all Q.visible = true := by
  induction h with
  | nil => rfl
  | pair hhi hlo _ _ ih =>
    rw [List.all_cons, List.all_cons, HexDigit.visible hhi, HexDigit.visible hlo, ih]
    rfl

/-- HMAC-SHA256 is any function to 32 bytes. -/
abbrev Hmac := List UInt8 → List UInt8 → Vector UInt8 32

def Hmac.bytes (hmac : Hmac) (secret body : List UInt8) : List UInt8 := (hmac secret body).toList

/-- The first signature is `sha256=` and the 64 digits of the code, in either
case. -/
def Signed (hmac : Hmac) (raw : RawHeaders) (rawBody : List UInt8) (secret : String) : Prop :=
  ∃ digits, raw.first .xWebhookSignature = some (asBytes "sha256=" ++ digits) ∧
    digits.length = 64 ∧ Spells digits (hmac.bytes (asBytes secret) rawBody)

theorem checkHmac_text {mac : List UInt8 → List UInt8 → List UInt8} {headers : HeaderMap}
    {rawBody : List UInt8} {secret : String} :
    checkHmac mac headers rawBody secret = true ↔ ∃ header provided,
      (headers.get .xWebhookSignature).bind HeaderValue.toStr = some header ∧
        stripPrefix "sha256=" header = some provided ∧
          constantTimeEq ((hexDecode provided).getD []) (mac (asBytes secret) rawBody) = true := by
  unfold checkHmac
  cases hget : headers.get .xWebhookSignature with
  | none => simp
  | some value =>
    cases hstr : value.toStr with
    | none => simp [hstr]
    | some header =>
      cases hstrip : stripPrefix "sha256=" header with
      | none => simp [hstr, hstrip]
      | some provided => simp [hstr, hstrip]

/-- `check_hmac` accepts the codes in either case, and nothing else. -/
theorem checkHmac_iff {hmac : Hmac} {raw : RawHeaders} {rawBody : List UInt8} {secret : String} :
    checkHmac hmac.bytes raw.headers rawBody secret = true ↔ Signed hmac raw rawBody secret := by
  have hlength : (hmac.bytes (asBytes secret) rawBody).length = 32 := Vector.length_toList
  have hne : hmac.bytes (asBytes secret) rawBody ≠ [] := by
    intro e
    rw [e] at hlength
    cases hlength
  rw [checkHmac_text, RawHeaders.get_headers]
  constructor
  · rintro ⟨header, provided, hheader, hstrip, hcode⟩
    obtain ⟨v, hv, hstr⟩ := Option.bind_eq_some_iff.1 hheader
    obtain ⟨value, hvalue, rfl⟩ := Option.map_eq_some_iff.1 hv
    obtain ⟨-, rfl⟩ := toStr_ofBytes.1 hstr
    have hspells := (hexDecode_getD hne).1 hcode
    rw [stripPrefix_bytes] at hstrip
    exact ⟨asBytes provided, hstrip ▸ hvalue, by rw [hspells.length, hlength], hspells⟩
  · rintro ⟨digits, hvalue, -, hspells⟩
    have hdigits := Spells.visible hspells
    have hall : (asBytes "sha256=" ++ digits).all visible = true :=
      (visible_append (by decide)).trans hdigits
    refine ⟨asciiString (asBytes "sha256=" ++ digits), asciiString digits, ?_, ?_, ?_⟩
    · rw [hvalue, Option.map_some, Option.bind_some]
      exact toStr_ofBytes.2 ⟨hall, asBytes_asciiString hall⟩
    · rw [stripPrefix_bytes, asBytes_asciiString hall, asBytes_asciiString hdigits]
    · rw [hexDecode_getD hne, asBytes_asciiString hdigits]
      exact hspells

/-! ## What the worker sends -/

/-- The `X-Webhook-Signature` of `send`, with its digits by `format!("{b:02x}")`. -/
def sendSignature (hmac : Hmac) (payload : List UInt8) (secret : String) : List UInt8 :=
  asBytes "sha256=" ++ hexEncode (hmac.bytes (asBytes secret) payload)

theorem sendSignature_signed {hmac : Hmac} {raw : RawHeaders} {payload : List UInt8}
    {secret : String}
    (hraw : raw.first .xWebhookSignature = some (sendSignature hmac payload secret)) :
    Signed hmac raw payload secret := by
  have hspells := hexEncode_spells (hmac.bytes (asBytes secret) payload)
  exact ⟨_, hraw, by rw [hspells.length, Hmac.bytes, Vector.length_toList], hspells⟩

/-! ## The rule -/

/-- The signature decides if there is one and a secret is configured, and else
the token has to be one of the keys. -/
def Allowed (hmac : Hmac) (raw : RawHeaders) (rawBody : List UInt8) (hmacSecret : Option String)
    (bears : String → Prop) (apiKeys : List String) : Prop :=
  (∃ secret, hmacSecret = some secret ∧ Signed hmac raw rawBody secret) ∨
    ((raw.first .xWebhookSignature = none ∨ hmacSecret = none) ∧ ∃ key ∈ apiKeys, bears key)

/-- `authorized` decides the rule, with the keys that a header can be read to
hold.  A signature that `send` writes is accepted. -/
theorem authorized_exact (hmac : Hmac) :
    (∀ raw rawBody hmacSecret apiKeys,
      (authorized hmac.bytes (RawHeaders.headers raw) rawBody hmacSecret apiKeys = true ↔
        Allowed hmac raw rawBody hmacSecret
          (fun key => Bears raw key ∧ (asBytes key).all visible = true) apiKeys)) ∧
    ∀ (raw : RawHeaders) payload secret,
      raw.first .xWebhookSignature = some (sendSignature hmac payload secret) →
        checkHmac hmac.bytes raw.headers payload secret = true := by
  refine ⟨fun raw rawBody hmacSecret apiKeys => ?_,
    fun raw payload secret hraw => checkHmac_iff.2 (sendSignature_signed hraw)⟩
  have hbearer : checkBearer raw.headers apiKeys = true ↔
      ∃ key ∈ apiKeys, Bears raw key ∧ (asBytes key).all visible = true := by
    simp only [checkBearer_iff, bearerToken_eq_some]
  unfold Allowed authorized
  cases hmacSecret with
  | none => simp [hbearer]
  | some secret =>
    simp only [RawHeaders.containsKey_headers]
    cases hsig : raw.first .xWebhookSignature with
    | none =>
      have hunsigned : ¬Signed hmac raw rawBody secret := by
        rintro ⟨digits, hvalue, -⟩
        rw [hsig] at hvalue
        cases hvalue
      simp [hbearer, hunsigned]
    | some value => simp [checkHmac_iff]

def zeroMac : Hmac := fun _ _ => Vector.replicate 32 0

/-- The headers of a delivery of an empty payload. -/
def delivered : RawHeaders
  | .xWebhookSignature => [sendSignature zeroMac [] "s"]
  | _ => []

/-- The signature of a delivery authorises its payload, without a key. -/
theorem authorized_exact_delivered :
    authorized zeroMac.bytes delivered.headers [] (some "s") [] = true ∧
      checkHmac zeroMac.bytes delivered.headers [] "s" = true :=
  ⟨((authorized_exact zeroMac).1 delivered [] (some "s") []).2
      (.inl ⟨"s", rfl, sendSignature_signed rfl⟩),
    (authorized_exact zeroMac).2 delivered [] "s" rfl⟩

/-- A request that names its key in full. -/
def accented : RawHeaders
  | .authorization => [asBytes "Bearer clé"]
  | _ => []

/-- A key that is not ASCII cannot be used: `to_str` does not read the header. -/
theorem authorized_refuses_accented :
    ¬∀ (hmac : Hmac) (raw : RawHeaders) (rawBody : List UInt8) (hmacSecret : Option String)
      (apiKeys : List String),
      (authorized hmac.bytes raw.headers rawBody hmacSecret apiKeys = true ↔
        Allowed hmac raw rawBody hmacSecret (Bears raw) apiKeys) := by
  intro h
  have hbears : Bears accented "clé" := ⟨_, rfl, .inl (asBytes_append "Bearer " "clé")⟩
  have hauth : checkBearer accented.headers ["clé"] = true := (h zeroMac accented [] none ["clé"]).2
    (.inr ⟨.inl rfl, "clé", List.mem_singleton_self _, hbears⟩)
  obtain ⟨key, hkey, htoken⟩ := checkBearer_iff.1 hauth
  obtain rfl := List.mem_singleton.1 hkey
  exact absurd (bearerToken_eq_some.1 htoken).2 (by decide)

end Q
end WebhookDelivery
