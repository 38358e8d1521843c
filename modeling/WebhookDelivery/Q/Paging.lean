/-
Reading the dead letters page by page.

Each page is a query of its own, and between two of them the service goes on.
Entries come in at any place of the order, since a worker's clock is read before
its entry is stored and ids are random, but none is ever taken out or moved.
-/
import Mathlib.Data.Prod.Lex
import WebhookDelivery.Q.Completeness
import WebhookDelivery.Sql.Paging

namespace WebhookDelivery
namespace Q

open Sql Run

/-! ## The query -/

/-- `ORDER BY dead_lettered_at ASC, id ASC`.  The texts of ids are ordered as the
ids are. -/
def DlqRow.order (e : DlqRow) : Int ×ₗ Nat := toLex (e.deadLetteredAt, e.id.toNat)

/-- `for row in rows { out.push(row?) }`. -/
def mapEntries : List DlqRow → Except DbError (List DlqEntry)
  | [] => .ok []
  | e :: rows =>
    match getI32 e.attempts with
    | .error err => .error err
    | .ok _ =>
      match mapEntries rows with
      | .error err => .error err
      | .ok es => .ok (e.entry :: es)

/-- `list_dead_letters`. -/
def listDeadLetters (db : Db) (limit offset : Nat) : Except DbError (List DlqEntry) :=
  let limit : Int := if limit < 2 ^ 63 then limit else 2 ^ 63 - 1
  let offset : Int := if offset < 2 ^ 63 then offset else 0
  mapEntries (page DlqRow.order limit offset db.deadLetters.rows)

structure DlqQuery where
  limit : Option UInt32
  offset : Option UInt32

def defaultLimit : UInt32 := 50

def maxLimit : UInt32 := 1000

def DlqQuery.pageSize (q : DlqQuery) : Nat := min (q.limit.getD defaultLimit).toNat maxLimit.toNat

/-- The handler of `GET /admin/dead-letters`, before the entries are rendered. -/
def listDeadLettersHandler (text : DbError → String) (headers : HeaderMap) (adminKey : String)
    (db : Db) (q : DlqQuery) : Except ApiError (List DlqEntry) :=
  match requireAdmin headers adminKey with
  | .error e => .error e
  | .ok _ =>
    match listDeadLetters db q.pageSize (q.offset.getD 0).toNat with
    | .error e => .error (dbErr text e)
    | .ok entries => .ok entries

theorem order_injective {e e' : DlqRow} (h : e.order = e'.order) : e.id = e'.id := by
  have hpair : (e.deadLetteredAt, e.id.toNat) = (e'.deadLetteredAt, e'.id.toNat) :=
    toLex.injective h
  exact BitVec.eq_of_toNat_eq (Prod.mk.inj hpair).2

/-- The sort leaves no two entries level. -/
theorem order_nodup (db : Db) : (db.deadLetters.rows.map DlqRow.order).Nodup := by
  have hids : (db.deadLetters.rows.map DlqRow.id).Nodup := db.deadLetters.nodup
  refine List.Nodup.map_on (fun e he e' he' h => ?_) (List.Nodup.of_map _ hids)
  exact List.inj_on_of_nodup_map hids he he' (order_injective h)

theorem mapEntries_ok {rows : List DlqRow} {es : List DlqEntry} (h : mapEntries rows = .ok es) :
    es = rows.map DlqRow.entry := by
  induction rows generalizing es with
  | nil =>
    cases h
    rfl
  | cons e rows ih =>
    unfold mapEntries at h
    cases he : getI32 e.attempts with
    | error err => simp [he] at h
    | ok n =>
      cases hrest : mapEntries rows with
      | error err => simp [he, hrest] at h
      | ok es₀ =>
        simp only [he, hrest, Except.ok.injEq] at h
        subst h
        rw [ih hrest, List.map_cons]

/-- Entries that can be read back are all listed. -/
theorem mapEntries_readable {rows : List DlqRow}
    (h : ∀ e ∈ rows, ∃ n, getI32 e.attempts = .ok n) :
    mapEntries rows = .ok (rows.map DlqRow.entry) := by
  induction rows with
  | nil => rfl
  | cons e rows ih =>
    obtain ⟨n, hn⟩ := h e List.mem_cons_self
    rw [mapEntries, ih fun x hx => h x (List.mem_cons_of_mem e hx)]
    simp only [hn, List.map_cons]

theorem pageSize_le (q : DlqQuery) : q.pageSize ≤ 1000 := Nat.min_le_right _ _

theorem pageSize_pos {q : DlqQuery} (h : q.limit ≠ some 0) : 0 < q.pageSize := by
  have hlimit : 0 < (q.limit.getD defaultLimit).toNat := by
    rcases hq : q.limit with - | n
    · decide
    · refine Nat.pos_of_ne_zero fun hzero => h ?_
      rw [Option.getD_some] at hzero
      rw [hq, UInt32.toNat_inj.1 (hzero.trans UInt32.toNat_zero.symm)]
  exact Nat.lt_min.2 ⟨hlimit, by decide⟩

/-- The numbers of a request are in the range of `i64`. -/
theorem listDeadLetters_eq (db : Db) (q : DlqQuery) :
    listDeadLetters db q.pageSize (q.offset.getD 0).toNat =
      mapEntries (page DlqRow.order q.pageSize (q.offset.getD 0).toNat db.deadLetters.rows) := by
  have hsize : q.pageSize < 2 ^ 63 := Nat.lt_of_le_of_lt (pageSize_le q) (by decide)
  have hoff : (q.offset.getD 0).toNat < 2 ^ 63 :=
    Nat.lt_trans (q.offset.getD 0).toNat_lt (by decide)
  simp only [listDeadLetters, if_pos hsize, if_pos hoff]

/-- What the handler answers with is the page at the offset. -/
theorem listDeadLettersHandler_ok {text : DbError → String} {headers : HeaderMap}
    {adminKey : String} {db : Db} {q : DlqQuery} {es : List DlqEntry}
    (h : listDeadLettersHandler text headers adminKey db q = .ok es) :
    es = (page DlqRow.order q.pageSize (q.offset.getD 0).toNat db.deadLetters.rows).map
      DlqRow.entry := by
  unfold listDeadLettersHandler at h
  split at h
  · cases h
  · split at h
    · cases h
    · rename_i entries hlist
      cases h
      rw [listDeadLetters_eq] at hlist
      exact mapEntries_ok hlist

/-! ## A reader of the pages -/

/-- An admin who pages through the dead letters of a running service: the entries
read so far, the offset of the next page, and once a page has been read what
there was then.  `done` is the empty page. -/
structure Reader where
  db : Db
  offset : Nat
  seen : List DlqEntry
  first : Option (List DlqRow)
  done : Bool

/-- The reader takes a page. -/
def Reader.turn (p : Reader) (es : List DlqEntry) : Reader where
  db := p.db
  offset := p.offset + es.length
  seen := p.seen ++ es
  first := some (p.first.getD p.db.deadLetters.rows)
  done := es.isEmpty

inductive ReaderLabel
  | op (op : Op)
  | page (es : List DlqEntry)

section Reader

variable (text : DbError → String) (headers : HeaderMap) (adminKey : String)
  (limit : Option UInt32)

/-- The callers of `Db` act in any order, and the pages come in between. -/
inductive ReaderStep : Reader → ReaderLabel → Reader → Prop
  | op (p : Reader) (op : Op) : ReaderStep p (.op op) { p with db := op.run p.db }
  | page (p : Reader) (offset : UInt32) (es : List DlqEntry) :
      p.done = false → offset.toNat = p.offset →
      listDeadLettersHandler text headers adminKey p.db ⟨limit, some offset⟩ = .ok es →
      ReaderStep p (.page es) (p.turn es)

/-- A reader about to read the first page of any database. -/
def reading : System Reader ReaderLabel where
  init p := p.offset = 0 ∧ p.seen = [] ∧ p.first = none ∧ p.done = false
  step := ReaderStep text headers adminKey limit

end Reader

/-- Every entry of the first page's time is there, and read or still to come. -/
structure Reader.Sound (p : Reader) : Prop where
  unread : p.first = none → p.offset = 0 ∧ p.done = false
  kept : ∀ rows, p.first = some rows → rows <+: p.db.deadLetters.rows
  covered : ∀ rows, p.first = some rows → ∀ e ∈ rows,
    Sql.Covered DlqRow.order DlqRow.entry p.db.deadLetters.rows p.offset p.seen e
  finished : p.done = true → ∀ rows, p.first = some rows → ∀ e ∈ rows, e.entry ∈ p.seen

theorem Reader.Sound.op {p : Reader} (hp : p.Sound) (op : Op) :
    Reader.Sound { p with db := op.run p.db } where
  unread := hp.unread
  kept rows h := (hp.kept rows h).trans (op.entries p.db)
  covered rows h e he := (hp.covered rows h e he).grow (op.entries p.db).sublist
  finished := hp.finished

/-- A page shows its part of what is left, and an empty one leaves nothing. -/
theorem Reader.Sound.page {p : Reader} (hp : p.Sound) {n : Nat} (hn : 0 < n) {es : List DlqEntry}
    (hes : es = (Sql.page DlqRow.order n p.offset p.db.deadLetters.rows).map DlqRow.entry) :
    (p.turn es).Sound := by
  have hkept : p.first.getD p.db.deadLetters.rows <+: p.db.deadLetters.rows := by
    cases hf : p.first with
    | none => exact List.prefix_rfl
    | some rows => exact hp.kept rows hf
  have hcovered : ∀ e ∈ p.first.getD p.db.deadLetters.rows,
      Sql.Covered DlqRow.order DlqRow.entry p.db.deadLetters.rows p.offset p.seen e := by
    intro e he
    cases hf : p.first with
    | none => exact .inr (by rw [(hp.unread hf).1]; exact Nat.zero_le _)
    | some rows => exact hp.covered rows hf e (by simpa [hf] using he)
  have hlen : es.length = (Sql.page DlqRow.order n p.offset p.db.deadLetters.rows).length := by
    rw [hes, List.length_map]
  refine ⟨fun h => (by cases h), fun rows h => ?_, fun rows h e he => ?_,
    fun hdone rows h e he => ?_⟩
  · cases h
    exact hkept
  · cases h
    have hturn := (hcovered e he).turn (order_nodup p.db) (hkept.subset he) (Int.natCast_nonneg n)
    rwa [← hlen, ← hes] at hturn
  · cases h
    have hempty : es = [] := List.isEmpty_iff.1 hdone
    have hpage : Sql.page DlqRow.order n p.offset p.db.deadLetters.rows = [] :=
      List.eq_nil_of_length_eq_zero (by rw [← hlen, hempty]; rfl)
    have hseen := (hcovered e he).done (hkept.subset he) (Int.natCast_pos.2 hn) hpage
    exact List.mem_append_left _ hseen

section Runs

variable {text : DbError → String} {headers : HeaderMap} {adminKey : String}
  {limit : Option UInt32}

theorem reader_sound (hlimit : limit ≠ some 0) {h : List ReaderLabel} {p : Reader}
    (hp : (reading text headers adminKey limit).Reaches h p) : p.Sound := by
  apply hp.invariant (I := fun _ p => p.Sound)
  · rintro p ⟨hoff, -, hfirst, hdone⟩
    refine ⟨fun _ => ⟨hoff, hdone⟩, fun rows h => ?_, fun rows h => ?_, fun h => ?_⟩
    · rw [hfirst] at h
      cases h
    · rw [hfirst] at h
      cases h
    · rw [hdone] at h
      cases h
  · intro h p l t _ hI hst
    cases hst with
    | op op => exact hI.op op
    | page offset es _ hoff hes =>
      have hpage := listDeadLettersHandler_ok hes
      rw [Option.getD_some, hoff] at hpage
      exact hI.page (pageSize_pos (q := ⟨limit, some offset⟩) hlimit) hpage

/-- Whatever comes between the pages, an admin who reads up to the empty page has
been shown every entry there was at the first. -/
theorem pages_skip_nothing (hlimit : limit ≠ some 0) {h : List ReaderLabel} {p : Reader}
    (hp : (reading text headers adminKey limit).Reaches h p) (hdone : p.done = true) :
    ∃ rows, p.first = some rows ∧ ∀ e ∈ rows, e.entry ∈ p.seen := by
  have hsound := reader_sound hlimit hp
  cases hf : p.first with
  | none =>
    rw [(hsound.unread hf).2] at hdone
    cases hdone
  | some rows => exact ⟨rows, rfl, hsound.finished hdone rows hf⟩

/-- While the attempts of every entry can be read back, an admin's page is answered. -/
theorem page_answered {db : Db} (hdb : db.Complete)
    (hadmin : requireAdmin headers adminKey = .ok ()) (q : DlqQuery) :
    listDeadLettersHandler text headers adminKey db q =
      .ok ((page DlqRow.order q.pageSize (q.offset.getD 0).toNat db.deadLetters.rows).map
        DlqRow.entry) := by
  have hread : ∀ e ∈ page DlqRow.order q.pageSize (q.offset.getD 0).toNat db.deadLetters.rows,
      ∃ n, getI32 e.attempts = .ok n := fun e he => hdb.readable e (page_subset he)
  simp only [listDeadLettersHandler, hadmin, listDeadLetters_eq, mapEntries_readable hread]

end Runs

/-- The headers of an admin with the key `k`. -/
def adminHeaders : HeaderMap := fun name =>
  if name = .authorization then [.text "Bearer k"] else []

theorem adminHeaders_ok : requireAdmin adminHeaders "k" = .ok () := by decide +kernel

/-- The hook is dead-lettered at time 0, replayed, and dead-lettered again at time 5. -/
def againDb : Db :=
  Op.run (Op.run refusedDb (.replayDeadLetter 1 3)) (.deadLetter 1 lookupError 8 5)

/-- It is replayed once more, and dead-lettered by a worker that has read its clock at
time 0 and draws an id below the first. -/
def lateDb : Db :=
  Op.run (Op.run againDb (.replayDeadLetter 1 6)) (.deadLetter 1 lookupError 3 0)

/-- The entry with this id and time. -/
def hookEntry (entryId : Uuid) (now : Int) : DlqRow :=
  dlqRow entryId (newRow hook 0) 0 lookupError now

theorem hook_page {db : Db} (hdb : db.Complete) (sorted : List DlqRow)
    (hperm : db.deadLetters.rows.Perm sorted)
    (hsorted : sorted.Pairwise fun a b => a.order < b.order) (offset : UInt32) :
    listDeadLettersHandler (fun _ => "") adminHeaders "k" db ⟨some 1, some offset⟩ =
      .ok (((sorted.drop offset.toNat).take 1).map DlqRow.entry) := by
  have hrows : page DlqRow.order 1 offset.toNat db.deadLetters.rows =
      (sorted.drop offset.toNat).take 1 := page_eq hperm hsorted
  rw [← hrows]
  exact page_answered hdb adminHeaders_ok ⟨some 1, some offset⟩

/-- Two dead letters read in pages of one.  A third comes in before them after the first
page, so that the first is shown twice, and the second still is. -/
theorem pages_skip_nothing_late : ∃ h p,
    (reading (fun _ => "") adminHeaders "k" (some 1)).Reaches h p ∧
      p.first = some [hookEntry 7 0, hookEntry 8 5] ∧
      p.seen.map DlqEntry.id = [7, 7, 8] ∧ (hookEntry 8 5).entry ∈ p.seen := by
  have hagain : againDb.Complete := ((complete refused_reached).run _).run _
  have hlate : lateDb.Complete := (hagain.run _).run _
  have hpage := hook_page hagain [hookEntry 7 0, hookEntry 8 5] (List.Perm.refl _) (by decide)
  have hlast : lateDb.deadLetters.rows.Perm ([hookEntry 3 0] ++ [hookEntry 7 0, hookEntry 8 5]) :=
    List.perm_append_comm
  have hpages := hook_page hlate [hookEntry 3 0, hookEntry 7 0, hookEntry 8 5] hlast (by decide)
  have hstart : (reading (fun _ => "") adminHeaders "k" (some 1)).Reaches []
      ⟨againDb, 0, [], none, false⟩ := .init ⟨rfl, rfl, rfl, rfl⟩
  have h₁ := hstart.step (.page _ 0 _ rfl rfl (hpage 0))
  have h₂ := (h₁.step (.op _ (.replayDeadLetter 1 6))).step (.op _ (.deadLetter 1 lookupError 3 0))
  have h₃ := h₂.step (.page _ 1 _ rfl rfl (hpages 1))
  have h₄ := h₃.step (.page _ 2 _ rfl rfl (hpages 2))
  have h₅ := h₄.step (.page _ 3 _ rfl rfl (hpages 3))
  obtain ⟨rows, hrows, hall⟩ := pages_skip_nothing (by decide) h₅ rfl
  cases hrows
  exact ⟨_, _, h₅, rfl, rfl, hall (hookEntry 8 5) (List.mem_cons_of_mem _ List.mem_cons_self)⟩

end Q
end WebhookDelivery
