/-
The host of an http or https URL, as the URL standard reads it.

Control characters and spaces around the URL are dropped, and tabs and line breaks
inside it.  What follows the scheme begins with slashes of either kind; the authority
goes on up to the next slash, `?` or `#`.  Userinfo ends at the last `@`, and the
text of the host at the first `:` outside brackets, which a port follows.  What a
host parser makes of that text is a parameter.
-/
import Mathlib.Data.List.DropRight
import WebhookDelivery.Text.Decimal

namespace WebhookDelivery
namespace Text

/-! ## Case -/

/-- `to_ascii_lowercase`. -/
def lower (cs : List Char) : List Char := cs.map Char.toLower

/-- A character that is changed is a letter, and becomes one. -/
theorem toLower_cases (c : Char) :
    c.toLower = c ∨ 65 ≤ c.toNat ∧ c.toNat ≤ 90 ∧ 97 ≤ c.toLower.toNat ∧ c.toLower.toNat ≤ 122 := by
  unfold Char.toLower
  split
  · rename_i h
    have hlow : 65 ≤ c.toNat := UInt32.le_iff_toNat_le.1 h.1
    have hhigh : c.toNat ≤ 90 := UInt32.le_iff_toNat_le.1 h.2
    have hsmall : c.val.toNat + 32 < 2 ^ 32 := Nat.lt_of_le_of_lt (Nat.add_le_add_right hhigh 32)
      (by decide)
    have hval : (c.val + ('a'.val - 'A'.val)).toNat = c.val.toNat + 32 :=
      (UInt32.toNat_add _ _).trans (Nat.mod_eq_of_lt hsmall)
    refine .inr ⟨hlow, hhigh, ?_⟩
    show 97 ≤ (c.val + ('a'.val - 'A'.val)).toNat ∧ (c.val + ('a'.val - 'A'.val)).toNat ≤ 122
    have hc : c.toNat = c.val.toNat := rfl
    omega
  · exact .inl rfl

/-- Only a letter has another case. -/
theorem toLower_eq_iff {c d : Char} (hlow : d.toNat < 65) : c.toLower = d ↔ c = d := by
  rcases toLower_cases c with hsame | ⟨hc, -, hl, -⟩
  · rw [hsame]
  · constructor
    · rintro rfl
      omega
    · rintro rfl
      omega

theorem lower_eq_iff {cs ds : List Char} (hlow : ∀ d ∈ ds, d.toNat < 65) :
    lower cs = ds ↔ cs = ds := by
  induction cs generalizing ds with
  | nil => rfl
  | cons c cs ih =>
    cases ds with
    | nil => simp [lower]
    | cons d ds =>
      have hhead := toLower_eq_iff (c := c) (hlow d List.mem_cons_self)
      have htail := ih fun e he => hlow e (List.mem_cons_of_mem d he)
      have hcons : lower (c :: cs) = c.toLower :: lower cs := rfl
      rw [hcons, List.cons.injEq, List.cons.injEq, hhead, htail]

/-! ## The last occurrence of a character -/

/-- What stands before the last `c`, and what stands after it. -/
def rsplitOnce (c : Char) : List Char → Option (List Char × List Char)
  | [] => none
  | d :: cs =>
    match rsplitOnce c cs with
    | some (before, after) => some (d :: before, after)
    | none => if d = c then some ([], cs) else none

theorem rsplitOnce_none {c : Char} {cs : List Char} (h : c ∉ cs) : rsplitOnce c cs = none := by
  induction cs with
  | nil => rfl
  | cons d cs ih =>
    have hd : d ≠ c := fun e => h (e ▸ List.mem_cons_self)
    rw [rsplitOnce, ih fun hc => h (List.mem_cons_of_mem d hc)]
    exact if_neg hd

theorem rsplitOnce_append {c : Char} {after : List Char} (h : c ∉ after) (before : List Char) :
    rsplitOnce c (before ++ c :: after) = some (before, after) := by
  induction before with
  | nil =>
    rw [List.nil_append, rsplitOnce, rsplitOnce_none h]
    exact if_pos rfl
  | cons d before ih => rw [List.cons_append, rsplitOnce, ih]

theorem rsplitOnce_some {c : Char} {cs before after : List Char}
    (h : rsplitOnce c cs = some (before, after)) : cs = before ++ c :: after := by
  induction cs generalizing before with
  | nil => cases h
  | cons d cs ih =>
    rw [rsplitOnce] at h
    split at h
    · rename_i before' after' hcs
      cases h
      rw [ih hcs, List.cons_append]
    · rw [Option.ite_none_right_eq_some] at h
      obtain ⟨rfl, h⟩ := h
      cases h
      rfl

/-! ## The parser -/

def isC0OrSpace (c : Char) : Bool := c.toNat ≤ 32

def isTabOrNewline (c : Char) : Bool := c = '\t' || c = '\n' || c = '\r'

def isSlash (c : Char) : Bool := c = '/' || c = '\\'

def endsAuthority (c : Char) : Bool := isSlash c || c = '?' || c = '#'

/-- The URL without what the parser ignores. -/
def stripped (url : List Char) : List Char :=
  ((url.dropWhile isC0OrSpace).rdropWhile isC0OrSpace).filter fun c => !isTabOrNewline c

/-- What follows the colon of the scheme, if that is http or https. -/
def afterScheme (url : List Char) : Option (List Char) :=
  if lower (url.takeWhile (· ≠ ':')) ∈ ["http".toList, "https".toList] then
    (url.dropWhile (· ≠ ':')).tail?
  else none

def authority (rest : List Char) : List Char :=
  (rest.dropWhile isSlash).takeWhile fun c => !endsAuthority c

def dropUserinfo (authority : List Char) : List Char :=
  match rsplitOnce '@' authority with
  | some (_, hostPort) => hostPort
  | none => authority

/-- The host text of an authority without userinfo, and what follows it. -/
def splitHost : Bool → List Char → List Char × List Char
  | _, [] => ([], [])
  | inside, c :: cs =>
    if c = ':' ∧ inside = false then ([], c :: cs)
    else
      let (text, port) :=
        splitHost (if c = '[' then true else if c = ']' then false else inside) cs
      (c :: text, port)

/-- What follows the host text is nothing, or a colon and a port, which may be empty. -/
def isPort : List Char → Bool
  | [] => true
  | _ :: cs => cs.all Char.isDigit && decide (value cs < 2 ^ 16)

/-- The host text of a URL. -/
def hostText (url : List Char) : Option (List Char) :=
  match afterScheme (stripped url) with
  | none => none
  | some rest =>
    let (text, port) := splitHost false (dropUserinfo (authority rest))
    if text ≠ [] ∧ isPort port = true then some text else none

/-! ## Authorities that need no reading -/

/-- The character neither ends an authority nor is dropped from one. -/
def isHostChar (c : Char) : Bool := decide (32 < c.toNat) && c ≠ '@' && !endsAuthority c

theorem isHostChar_iff {c : Char} :
    isHostChar c = true ↔
      32 < c.toNat ∧ c.toNat ≠ 64 ∧ c.toNat ≠ 47 ∧ c.toNat ≠ 92 ∧ c.toNat ≠ 63 ∧ c.toNat ≠ 35 := by
  have hcode : ∀ d : Char, c = d ↔ c.toNat = d.toNat := fun d => Char.toNat_inj.symm
  simp only [isHostChar, endsAuthority, isSlash, hcode, Bool.and_eq_true, Bool.not_eq_true',
    Bool.or_eq_false_iff, decide_eq_true_eq, decide_eq_false_iff_not, Ne, and_assoc]
  exact Iff.rfl

@[simp] theorem isHostChar_toLower (c : Char) : isHostChar c.toLower = isHostChar c := by
  rcases toLower_cases c with hsame | ⟨hc, hc', hl, hl'⟩
  · rw [hsame]
  · have hold : isHostChar c = true := isHostChar_iff.2 (by omega)
    have hnew : isHostChar c.toLower = true := isHostChar_iff.2 (by omega)
    rw [hold, hnew]

theorem isHostChar_digit {c : Char} (h : c.isDigit = true) : isHostChar c = true := by
  simp only [Char.isDigit, Bool.and_eq_true, decide_eq_true_eq, UInt32.le_iff_toNat_le] at h
  have hlow : 48 ≤ c.toNat := h.1
  have hhigh : c.toNat ≤ 57 := h.2
  rw [isHostChar_iff]
  omega

/-- An authority with no part that a parser drops, but for its port. -/
structure Plain (auth : List Char) : Prop where
  ne_nil : auth ≠ []
  chars : ∀ c ∈ auth, isHostChar c = true
  port : auth.getLast? ≠ some ':'

/-- Nothing is dropped from the front of a URL that begins in characters of its own. -/
theorem stripped_append {xs : List Char} (hne : xs ≠ []) (hxs : ∀ c ∈ xs, 32 < c.toNat)
    (ys : List Char) : ∃ zs, stripped (xs ++ ys) = xs ++ zs ∧ (ys = [] → zs = []) := by
  have hkeep : ∀ c ∈ xs, isC0OrSpace c = false := by
    intro c hc
    have hlow := hxs c hc
    exact decide_eq_false (by omega)
  have hfront : (xs ++ ys).dropWhile isC0OrSpace = xs ++ ys := by
    cases xs with
    | nil => exact absurd rfl hne
    | cons c xs => exact List.dropWhile_cons_of_neg (by simp [hkeep c List.mem_cons_self])
  have hback : (xs ++ ys).rdropWhile isC0OrSpace = xs ++ ys.rdropWhile isC0OrSpace := by
    have hxs' : (xs.reverse.dropWhile isC0OrSpace) = xs.reverse := by
      cases hrev : xs.reverse with
      | nil => rfl
      | cons c cs =>
        have hc : c ∈ xs := List.mem_reverse.1 (hrev ▸ List.mem_cons_self)
        exact List.dropWhile_cons_of_neg (by simp [hkeep c hc])
    rw [List.rdropWhile, List.rdropWhile, List.reverse_append, List.dropWhile_append]
    split
    · rename_i hempty
      rw [hxs', List.isEmpty_iff.1 hempty]
      simp
    · simp
  have hlines : xs.filter (fun c => !isTabOrNewline c) = xs := by
    refine List.filter_eq_self.2 fun c hc => ?_
    have hlow := hxs c hc
    have hother : ∀ d : Char, d.toNat ≤ 32 → c ≠ d := by
      rintro d hd rfl
      omega
    simp [isTabOrNewline, hother]
  refine ⟨(ys.rdropWhile isC0OrSpace).filter fun c => !isTabOrNewline c, ?_, ?_⟩
  · rw [stripped, hfront, hback, List.filter_append, hlines]
  · rintro rfl
    rfl

theorem splitHost_append (inside : Bool) (cs : List Char) :
    (splitHost inside cs).1 ++ (splitHost inside cs).2 = cs := by
  induction cs generalizing inside with
  | nil => rfl
  | cons c cs ih =>
    rw [splitHost]
    split
    · rfl
    · exact congrArg (c :: ·) (ih _)

/-- What follows the host text begins with the colon of a port. -/
theorem splitHost_port (inside : Bool) (cs : List Char) :
    (splitHost inside cs).2 = [] ∨ ∃ ds, (splitHost inside cs).2 = ':' :: ds := by
  induction cs generalizing inside with
  | nil => exact .inl rfl
  | cons c cs ih =>
    rw [splitHost]
    split
    · rename_i h
      exact .inr ⟨cs, by rw [h.1]⟩
    · exact ih _

theorem isHostChar_not {c : Char} (h : isHostChar c = true) :
    32 < c.toNat ∧ c ≠ '@' ∧ isSlash c = false ∧ endsAuthority c = false := by
  simp only [isHostChar, Bool.and_eq_true, decide_eq_true_eq, Bool.not_eq_true'] at h
  obtain ⟨⟨hlow, hat⟩, hends⟩ := h
  refine ⟨hlow, hat, ?_, hends⟩
  simp only [endsAuthority, Bool.or_eq_false_iff] at hends
  exact hends.1.1

/-- The letters of a scheme are read as they stand. -/
theorem scheme_chars {scheme : List Char} (h : lower scheme ∈ ["http".toList, "https".toList]) :
    ∀ c ∈ scheme, isHostChar c = true ∧ c ≠ ':' := by
  have hall : (["http".toList, "https".toList].all fun cs =>
      cs.all fun d => isHostChar d && d ≠ ':') = true := by decide
  intro c hc
  have hletter := List.all_eq_true.1 (List.all_eq_true.1 hall _ h) c.toLower
    (List.mem_map_of_mem hc)
  simp only [isHostChar_toLower, Bool.and_eq_true, decide_eq_true_eq] at hletter
  exact ⟨hletter.1, fun e => hletter.2 ((toLower_eq_iff (by decide)).2 e)⟩

theorem afterScheme_append {scheme : List Char}
    (h : lower scheme ∈ ["http".toList, "https".toList]) (rest : List Char) :
    afterScheme (scheme ++ ':' :: rest) = some rest := by
  have hcolon : ∀ c ∈ scheme, decide (c ≠ ':') = true := fun c hc =>
    decide_eq_true (scheme_chars h c hc).2
  have htake : (scheme ++ ':' :: rest).takeWhile (· ≠ ':') = scheme := by
    rw [List.takeWhile_append_of_pos hcolon]
    simp
  have hdrop : (scheme ++ ':' :: rest).dropWhile (· ≠ ':') = ':' :: rest := by
    rw [List.dropWhile_append_of_pos hcolon]
    simp
  rw [afterScheme, htake, hdrop, if_pos h]
  rfl

theorem authority_plain {auth : List Char} (hauth : Plain auth) {tail : List Char}
    (htail : tail = [] ∨ ∃ cs, tail = '/' :: cs) :
    authority ('/' :: '/' :: (auth ++ tail)) = auth := by
  have hdrop : ('/' :: '/' :: (auth ++ tail)).dropWhile isSlash = auth ++ tail := by
    rw [List.dropWhile_cons_of_pos rfl, List.dropWhile_cons_of_pos rfl]
    cases hcs : auth with
    | nil => exact absurd hcs hauth.ne_nil
    | cons c cs =>
      have hslash := (isHostChar_not (hauth.chars c (hcs ▸ List.mem_cons_self))).2.2.1
      exact List.dropWhile_cons_of_neg (by simp [hslash])
  have hkeep : ∀ c ∈ auth, (!endsAuthority c) = true := fun c hc => by
    rw [(isHostChar_not (hauth.chars c hc)).2.2.2]
    rfl
  rw [authority, hdrop, List.takeWhile_append_of_pos hkeep]
  rcases htail with rfl | ⟨cs, rfl⟩
  · simp
  · rw [List.takeWhile_cons_of_neg (by decide), List.append_nil]

/-- A URL with a plain authority has the host text of that. -/
theorem hostText_plain {scheme auth tail : List Char}
    (hscheme : lower scheme ∈ ["http".toList, "https".toList]) (hauth : Plain auth)
    (htail : tail = [] ∨ ∃ cs, tail = '/' :: cs) :
    hostText (scheme ++ ':' :: '/' :: '/' :: (auth ++ tail)) =
      if (splitHost false auth).1 ≠ [] ∧ isPort (splitHost false auth).2 = true then
        some (splitHost false auth).1
      else none := by
  have hfront : ∀ c ∈ scheme ++ ':' :: '/' :: '/' :: auth, 32 < c.toNat := by
    intro c hc
    simp only [List.mem_append, List.mem_cons] at hc
    rcases hc with hc | rfl | rfl | rfl | hc
    · exact (isHostChar_not (scheme_chars hscheme c hc).1).1
    · decide
    · decide
    · decide
    · exact (isHostChar_not (hauth.chars c hc)).1
  have hstrip : ∃ tail', stripped (scheme ++ ':' :: '/' :: '/' :: (auth ++ tail)) =
      scheme ++ ':' :: '/' :: '/' :: (auth ++ tail') ∧
        (tail' = [] ∨ ∃ cs, tail' = '/' :: cs) := by
    rcases htail with rfl | ⟨cs, rfl⟩
    · obtain ⟨zs, hzs, hnil⟩ := stripped_append (by simp) hfront []
      refine ⟨zs, ?_, .inl (hnil rfl)⟩
      simpa using hzs
    · have hslash : ∀ c ∈ (scheme ++ ':' :: '/' :: '/' :: auth) ++ ['/'], 32 < c.toNat := by
        intro c hc
        rcases List.mem_append.1 hc with hc | hc
        · exact hfront c hc
        · rw [List.mem_singleton.1 hc]
          decide
      obtain ⟨zs, hzs, -⟩ := stripped_append (by simp) hslash cs
      refine ⟨'/' :: zs, ?_, .inr ⟨zs, rfl⟩⟩
      simpa using hzs
  obtain ⟨tail', hstrip, htail'⟩ := hstrip
  have hat : '@' ∉ auth := fun hc => (isHostChar_not (hauth.chars '@' hc)).2.1 rfl
  rw [hostText, hstrip, afterScheme_append hscheme]
  dsimp only
  rw [authority_plain hauth htail', dropUserinfo, rsplitOnce_none hat]

/-! ## Host parsers -/

/-- What a parser makes of the host text.  The host it returns is a name without
delimiters, or an address; only an IPv6 address has a colon, and it is in brackets in
the URL and as it is returned. -/
structure HostParser where
  parse : List Char → Option (List Char)
  ne_nil : ∀ {text host}, parse text = some host → host ≠ []
  chars : ∀ {text host}, parse text = some host → ∀ c ∈ host, isHostChar c = true
  bracketed : ∀ {text host}, parse text = some host → ':' ∈ text ∨ ':' ∈ host →
    text.getLast? = some ']' ∧ host.getLast? = some ']'

/-- The host of a URL. -/
def HostParser.urlHost (P : HostParser) (url : List Char) : Option (List Char) :=
  match hostText url with
  | none => none
  | some text => P.parse text

/-- The parser that knows one name. -/
def HostParser.only (name : List Char) (hne : name ≠ [])
    (hchars : name.all (fun c => isHostChar c && c ≠ ':') = true) : HostParser where
  parse text := if lower text = name then some name else none
  ne_nil h := by
    rw [Option.ite_none_right_eq_some] at h
    exact Option.some.inj h.2 ▸ hne
  chars h := by
    rw [Option.ite_none_right_eq_some] at h
    obtain ⟨-, h⟩ := h
    cases h
    intro c hc
    have hc := List.all_eq_true.1 hchars c hc
    simp only [Bool.and_eq_true] at hc
    exact hc.1
  bracketed h hcolon := by
    rw [Option.ite_none_right_eq_some] at h
    obtain ⟨rfl, h⟩ := h
    cases h
    have hno : ∀ c ∈ _, c ≠ ':' := fun c hc => by
      have hc := List.all_eq_true.1 hchars c hc
      simp only [Bool.and_eq_true, decide_eq_true_eq] at hc
      exact hc.2
    rcases hcolon with hc | hc
    · exact absurd rfl (hno _ (List.mem_map_of_mem hc))
    · exact absurd rfl (hno _ hc)

end Text
end WebhookDelivery
