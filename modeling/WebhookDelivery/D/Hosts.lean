/-
The host that is checked and the host that is contacted.

The client parses the destination again.  Where the text up to the first slash has no
part that a URL parser drops but for a port, both find the same text; everywhere else
they find different hosts.
-/
import WebhookDelivery.D.Destination

namespace WebhookDelivery
namespace D

open Text (lower rsplitOnce splitHost isPort isHostChar Plain HostParser hostText)

/-- The text that `host_from_url` looks for a port in. -/
def withoutPath (authority : String) : List Char := authority.toList.takeWhile (· ≠ '/')

/-- `host_from_url` takes all of it, or drops a colon and digits. -/
theorem hostFromUrl_cases (authority : String) :
    (hostFromUrl authority).toList = withoutPath authority ∨
      ∃ port, port ≠ [] ∧ port.all Char.isDigit = true ∧
        withoutPath authority = (hostFromUrl authority).toList ++ ':' :: port := by
  unfold hostFromUrl withoutPath
  dsimp only
  split
  · rename_i host port hsplit
    split
    · rename_i hport
      refine .inr ⟨port, hport.1, hport.2, ?_⟩
      rw [String.toList_ofList]
      exact Text.rsplitOnce_some hsplit
    · exact .inl String.toList_ofList
  · exact .inl String.toList_ofList

theorem getLast?_digits {port : List Char} (hne : port ≠ []) (hport : port.all Char.isDigit = true)
    (front : List Char) : ∃ c, (front ++ ':' :: port).getLast? = some c ∧ c.isDigit = true := by
  refine ⟨port.getLast hne, ?_, List.all_eq_true.1 hport _ (List.getLast_mem hne)⟩
  rw [List.getLast?_append, List.getLast?_cons, List.getLast?_eq_some_getLast hne]
  rfl

/-- A host without delimiters comes from a plain text. -/
theorem plain_of_host {authority : String} (hne : (hostFromUrl authority).toList ≠ [])
    (hchars : ∀ c ∈ (hostFromUrl authority).toList, isHostChar c = true)
    (hcolon : (hostFromUrl authority).toList.getLast? ≠ some ':') :
    Plain (withoutPath authority) := by
  rcases hostFromUrl_cases authority with hall | ⟨port, hpne, hport, hall⟩
  · exact hall ▸ ⟨hne, hchars, hcolon⟩
  · rw [hall]
    refine ⟨by simp, fun c hc => ?_, fun hlast => ?_⟩
    · rcases List.mem_append.1 hc with hc | hc
      · exact hchars c hc
      · rcases List.mem_cons.1 hc with rfl | hc
        · decide
        · exact Text.isHostChar_digit (List.all_eq_true.1 hport c hc)
    · obtain ⟨c, hc, hdigit⟩ := getLast?_digits hpne hport (hostFromUrl authority).toList
      rw [hlast, Option.some.injEq] at hc
      subst hc
      exact absurd hdigit (by decide)

/-- In a plain text both find the same host. -/
theorem hostFromUrl_plain {authority : String} (hplain : Plain (withoutPath authority))
    (hport : isPort (splitHost false (withoutPath authority)).2 = true)
    (hbr : ':' ∈ (splitHost false (withoutPath authority)).1 →
      (splitHost false (withoutPath authority)).1.getLast? = some ']') :
    (hostFromUrl authority).toList = (splitHost false (withoutPath authority)).1 := by
  have happ := Text.splitHost_append false (withoutPath authority)
  generalize htext : (splitHost false (withoutPath authority)).1 = text at *
  rcases Text.splitHost_port false (withoutPath authority) with hnil | ⟨port, hcons⟩
  · -- no port: a colon in the text is inside the brackets that end it
    rw [hnil, List.append_nil] at happ
    rcases hostFromUrl_cases authority with hall | ⟨port, hpne, hdigits, hall⟩
    · rw [hall, happ]
    · obtain ⟨c, hc, hdigit⟩ := getLast?_digits hpne hdigits (hostFromUrl authority).toList
      rw [← hall, ← happ, hbr (by rw [happ, hall]; simp), Option.some.injEq] at hc
      subst hc
      exact absurd hdigit (by decide)
  · -- a port of digits: its colon is the last one
    rw [hcons] at happ hport
    have hport : port.all Char.isDigit = true := by
      simp only [isPort, Bool.and_eq_true] at hport
      exact hport.1
    have hpne : port ≠ [] := by
      rintro rfl
      refine hplain.port ?_
      rw [← happ]
      simp
    have hcolon : ':' ∉ port := fun hc =>
      absurd (List.all_eq_true.1 hport ':' hc) (by decide)
    have hsplit : rsplitOnce ':' (withoutPath authority) = some (text, port) := by
      rw [← happ]
      exact Text.rsplitOnce_append hcolon text
    unfold withoutPath at hsplit
    unfold hostFromUrl
    dsimp only
    rw [hsplit]
    dsimp only
    rw [if_pos ⟨hpne, hport⟩, String.toList_ofList]

/-! ## Both parsers -/

section Parsers

variable {P : HostParser} {url : String} {parsed : Parsed} {host : List Char}

theorem urlHost_some (h : P.urlHost url.toList = some host) :
    ∃ text, hostText url.toList = some text ∧ P.parse text = some host := by
  unfold HostParser.urlHost at h
  split at h
  · cases h
  · rename_i text htext
    exact ⟨text, htext, h⟩

/-- In a plain destination the client finds the host text that is checked. -/
theorem hostText_checked (hval : validateDestination url = .ok parsed)
    (hhost : P.urlHost url.toList = some host) (hplain : Plain (withoutPath parsed.host)) :
    hostText url.toList = some (hostFromUrl parsed.host).toList := by
  obtain ⟨scheme, hscheme, hurl, -⟩ := validateDestination_ok hval
  obtain ⟨text, htext, hparse⟩ := urlHost_some hhost
  have hsplit : withoutPath parsed.host ++ parsed.host.toList.dropWhile (· ≠ '/') =
      parsed.host.toList := List.takeWhile_append_dropWhile
  have htail : parsed.host.toList.dropWhile (· ≠ '/') = [] ∨
      ∃ cs, parsed.host.toList.dropWhile (· ≠ '/') = '/' :: cs := by
    cases hdrop : parsed.host.toList.dropWhile (· ≠ '/') with
    | nil => exact .inl rfl
    | cons c cs =>
      have hne : parsed.host.toList.dropWhile (· ≠ '/') ≠ [] := by
        rw [hdrop]
        exact List.cons_ne_nil c cs
      have hc := List.head_dropWhile_not _ hne
      simp only [hdrop, List.head_cons, decide_eq_false_iff_not, not_not] at hc
      exact .inr ⟨cs, by rw [hc]⟩
  have hread := Text.hostText_plain hscheme hplain htail
  rw [hsplit, ← hurl, htext] at hread
  split at hread
  · rename_i hport
    cases hread
    have hbr : ':' ∈ (splitHost false (withoutPath parsed.host)).1 →
        (splitHost false (withoutPath parsed.host)).1.getLast? = some ']' :=
      fun hc => (P.bracketed hparse (.inl hc)).1
    rw [htext, hostFromUrl_plain hplain hport.2 hbr]
  · cases hread

/-- The host that is checked is the host that is contacted, up to case, exactly where the
text up to the first slash is plain and its host is written as the client writes it. -/
theorem checked_host_iff (P : HostParser) {url : String} {parsed : Parsed} {host : List Char}
    (hval : validateDestination url = .ok parsed) (hhost : P.urlHost url.toList = some host) :
    lower (hostFromUrl parsed.host).toList = lower host ↔
      Plain (withoutPath parsed.host) ∧
        ∃ text, hostText url.toList = some text ∧ lower text = lower host := by
  constructor
  · intro h
    obtain ⟨text, -, hparse⟩ := urlHost_some hhost
    have hne : (hostFromUrl parsed.host).toList ≠ [] := by
      intro hnil
      rw [hnil] at h
      exact P.ne_nil hparse (List.map_eq_nil_iff.1 h.symm)
    have hchars : ∀ c ∈ (hostFromUrl parsed.host).toList, isHostChar c = true := by
      intro c hc
      have hmem : c.toLower ∈ lower host := h ▸ List.mem_map_of_mem hc
      obtain ⟨d, hd, hcd⟩ := List.mem_map.1 hmem
      rw [← Text.isHostChar_toLower, ← hcd, Text.isHostChar_toLower]
      exact P.chars hparse d hd
    have hcolon : (hostFromUrl parsed.host).toList.getLast? ≠ some ':' := by
      intro hlast
      have hlow : (lower host).getLast? = some ':' := by
        rw [← h, lower, List.getLast?_map, hlast]
        rfl
      rw [lower, List.getLast?_map, Option.map_eq_some_iff] at hlow
      obtain ⟨c, hc, hcl⟩ := hlow
      have hc' : c = ':' := (Text.toLower_eq_iff (by decide)).1 hcl
      subst hc'
      have hbr := (P.bracketed hparse (.inr (List.mem_of_getLast? hc))).2
      rw [hc, Option.some.injEq] at hbr
      exact absurd hbr (by decide)
    have hplain := plain_of_host hne hchars hcolon
    exact ⟨hplain, _, hostText_checked hval hhost hplain, h⟩
  · rintro ⟨hplain, text, htext, hlow⟩
    rw [hostText_checked hval hhost hplain, Option.some.injEq] at htext
    rw [htext, hlow]

end Parsers

/-- `a.test` is checked for `HTTP://A.test:8080/hook`. -/
theorem checked_host_iff_upper :
    lower (hostFromUrl "A.test:8080/hook").toList = lower "a.test".toList := by
  have hval : validateDestination "HTTP://A.test:8080/hook" =
      .ok { host := "A.test:8080/hook" } := rfl
  have hhost : (HostParser.only "a.test".toList (by decide) (by decide)).urlHost
      "HTTP://A.test:8080/hook".toList = some "a.test".toList := by decide
  have hchars : (withoutPath "A.test:8080/hook").all isHostChar = true := by decide
  have hplain : Plain (withoutPath "A.test:8080/hook") :=
    ⟨by decide, List.all_eq_true.1 hchars, by decide⟩
  exact (checked_host_iff _ hval hhost).2 ⟨hplain, "A.test".toList, by decide, by decide⟩

/-- For `http://user@127.0.0.1/` the check is about `user@127.0.0.1`. -/
theorem userinfo_checked : ¬∀ (P : HostParser) (url : String) (parsed : Parsed) (host : List Char),
    validateDestination url = .ok parsed → P.urlHost url.toList = some host →
    lower (hostFromUrl parsed.host).toList = lower host := by
  intro hall
  have h := hall (.only "127.0.0.1".toList (by decide) (by decide)) "http://user@127.0.0.1/"
    { host := "user@127.0.0.1/" } "127.0.0.1".toList rfl (by decide)
  exact absurd h (by decide)

end D
end WebhookDelivery
