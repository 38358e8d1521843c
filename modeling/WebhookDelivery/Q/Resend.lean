/-
Why the `q` service sends a delivery twice.

After a send with a 2xx status the worker marks the delivery, and the row it leaves
behind is claimed by nobody.  While the checks of the destinations pass and no reset
touches a claimed row, a delivery is sent again only if the mark was lost: its
statement failed, or the process died before it.
-/
import WebhookDelivery.Run.Progress
import WebhookDelivery.Q.Exclusion

namespace WebhookDelivery
namespace Q

open Sql Run

variable {ω : Type}

/-- The label keeps the worker from marking a delivery. -/
def Label.interrupts (w : ω) : Label ω → Prop
  | .dbFail v => v = w
  | .restart _ => True
  | _ => False

def IsDelivered (id : Uuid) (s : State ω) : Prop :=
  ∃ r, s.db.row id = some r ∧ r.status = .delivered

/-- A send of `id` by `w` has succeeded, and `w` marks it next or has marked it. -/
structure Settling (w : ω) (id : Uuid) (s : State ω) : Prop where
  owned : Owned (fun _ _ => True) s
  marked : (∃ d rest, s.pc w = .sent d .delivered rest ∧ d.id = id) ∨ IsDelivered id s

variable [DecidableEq ω]

/-- A delivered row is final in an undisturbed run. -/
theorem IsDelivered.step {id : Uuid} {s t : State ω} {l : Label ω} (hd : IsDelivered id s)
    (howned : Owned (fun _ _ => True) s) (hl : Undisturbed s l) (hst : Step s l t) :
    IsDelivered id t := by
  obtain ⟨r, hr, hdel⟩ := hd
  have hkeep : t.db.row id = s.db.row id → IsDelivered id t :=
    fun hrow => ⟨r, hrow.trans hr, hdel⟩
  cases hst with
  | insert d now db hins => exact ⟨r, row_insert_of_some hins hr, hdel⟩
  | replay id' now =>
    refine hkeep ((row_replayDeadLetter s.db id' now id).trans ?_)
    split
    · rename_i hid
      rw [← hid, hr, Option.map_some, if_neg (by rw [hdel]; decide)]
    · rfl
  | start w now hpc =>
    refine hkeep ((row_resetStaleInFlight s.db now s.staleMs id).trans ?_)
    have hfresh : ¬isStale now s.staleMs r = true := by
      rw [isStale_iff, hdel]
      rintro ⟨hfl, -⟩
      cases hfl
    rw [hr, Option.map_some, if_neg hfresh]
  | refuse w d rest check reason c entry db hpc hcheck hdl => cases hl.1
  | claim w d rest now hpc =>
    refine hkeep ((row_claim s.db d.id now id).trans ?_)
    split
    · rename_i hid
      rw [← hid, hr, Option.map_some, if_neg (by rw [hdel]; decide)]
    · rfl
  | record w d out rest c db hpc hrec =>
    refine hkeep ((recordOutcome_ok hrec id).1.trans (if_neg fun hid => ?_))
    have hheld : id ∈ s.heldIds w := mem_heldIds.2 ⟨d, by rw [hpc]; rfl, hid.symm⟩
    exact howned.not_held hr (by rw [hdel]; decide) w hheld
  | listDue | send | dbFail | endPass | restart => exact hkeep rfl

theorem Settling.step {w : ω} {id : Uuid} {s t : State ω} {l : Label ω} (hs : Settling w id s)
    (hst : ((system ω).restrict Undisturbed).step s l t) :
    l.interrupts w ∨ Settling w id t := by
  obtain ⟨hl, hst⟩ := hst
  have howned : Owned (fun _ _ => True) t :=
    hs.owned.step hl.2 (fun _ _ _ _ _ _ => trivial) hst
  rcases hs.marked with ⟨d, rest, hpc, hid⟩ | hdel
  · -- Only the worker itself leaves its place, and it leaves it with the mark.
    have hother : ∀ (v : ω) (db : Db) (pc : Pc), s.pc v ≠ .sent d .delivered rest →
        (State.setPc { s with db := db } v pc).pc w = .sent d .delivered rest := by
      intro v db pc hne
      have hv : w ≠ v := by
        rintro rfl
        exact hne hpc
      rw [State.setPc_ne _ _ hv]
      exact hpc
    have hstays : t.pc w = .sent d .delivered rest → l.interrupts w ∨ Settling w id t :=
      fun h => .inr ⟨howned, .inl ⟨d, rest, h, hid⟩⟩
    cases hst with
    | insert | replay => exact hstays hpc
    | start v now hpc' => exact hstays (hother v _ _ (by rw [hpc']; simp))
    | listDue v now ds hpc' => exact hstays (hother v _ _ (by rw [hpc']; simp))
    | refuse v d' rest' check reason c entry db hpc' =>
      exact hstays (hother v _ _ (by rw [hpc']; simp))
    | claim v d' rest' now hpc' => exact hstays (hother v _ _ (by rw [hpc']; simp))
    | send v d' rest' resp hpc' => exact hstays (hother v _ _ (by rw [hpc']; simp))
    | endPass v now hpc' => exact hstays (hother v _ _ (by rw [hpc']; simp))
    | restart cfg => exact .inl trivial
    | dbFail v =>
      by_cases hv : v = w
      · exact .inl hv
      · refine hstays ?_
        rw [State.setPc_ne _ _ fun e => hv e.symm]
        exact hpc
    | record v d' out rest' c db hpc' hrec =>
      by_cases hv : v = w
      · subst hv
        obtain ⟨rfl, rfl, rfl⟩ : d = d' ∧ Outcome.delivered = out ∧ rest = rest' := by
          rw [hpc] at hpc'
          exact Pc.sent.inj hpc'
        obtain ⟨r, hr, -⟩ := hs.owned.backed v d (by rw [hpc]; rfl)
        have hrow := (recordOutcome_ok hrec d.id).1
        rw [if_pos rfl, hr, Option.map_some] at hrow
        exact .inr ⟨howned, .inr ⟨_, hid ▸ hrow, rfl⟩⟩
      · refine hstays ?_
        rw [State.setPc_ne _ _ fun e => hv e.symm]
        exact hpc
  · exact .inr ⟨howned, .inr (hdel.step hs.owned hl hst)⟩

/-- A delivery whose send got a 2xx status is sent again only if the worker that sent
it has failed to write since, or the process was restarted, in every run in which the
checks pass and no reset touches a claimed row: neither the other workers with their
old snapshots nor the replays make a duplicate. -/
theorem resend_needs_loss (h₂ h₁ : List (Label ω)) {h₀ : List (Label ω)} {w w' : ω}
    {d d' : Delivery} {n n' : Nat} {out : Outcome} {s : State ω}
    (hs : ((system ω).restrict Undisturbed).Reaches
      (h₂ ++ .send w' d' n' out :: (h₁ ++ .send w d n .delivered :: h₀)) s)
    (hid : d'.id = d.id) : ∃ l ∈ h₁, l.interrupts w := by
  obtain ⟨s₂, s₃, hs₂, hsend', -⟩ := hs.cut
  obtain ⟨s₀, s₁, hs₀, hsend, hpath⟩ := hs₂.cut
  have hsettling : Settling w d.id s₁ := by
    refine ⟨owned_of_undisturbed (hs₀.step hsend), .inl ?_⟩
    obtain ⟨-, hst⟩ := hsend
    generalize hout : Outcome.delivered = out' at hst
    cases hst with
    | send w d rest resp hpc =>
      refine ⟨d, rest, ?_, rfl⟩
      rw [State.setPc_self, ← hout]
  have hkeeps : ∀ s l t, Settling w d.id s → ((system ω).restrict Undisturbed).step s l t →
      Label.interrupts w l ∨ Settling w d.id t := fun _ _ _ hI hst => hI.step hst
  rcases hpath.unless hkeeps hsettling with hcause | hafter
  · exact hcause
  · obtain ⟨-, hst⟩ := hsend'
    cases hst with
    | send w' d' rest' resp hpc =>
      have hheld : d.id ∈ s₂.heldIds w' := mem_heldIds.2 ⟨d', by rw [hpc]; rfl, hid⟩
      rcases hafter.marked with ⟨d₀, rest, hpc₀, hid₀⟩ | ⟨r, hr, hdel⟩
      · have hmine : d.id ∈ s₂.heldIds w := mem_heldIds.2 ⟨d₀, by rw [hpc₀]; rfl, hid₀⟩
        have hw : w' = w := hafter.owned.exclusive.unique w' w d.id hheld hmine
        rw [hw, hpc₀] at hpc
        cases hpc
      · exact absurd hheld (hafter.owned.not_held hr (by rw [hdel]; decide) w')

/-- The hook after a reset at the time 2000, as it is stored and as it is listed. -/
def resetDb : Db := stored (asReset 2000 (asClaimed 0 (newRow hook 0))) [] List.nodup_nil

def hookAgain : Delivery := { hookRead with nextRetryAt := 2000, updatedAt := 2000 }

/-- The process dies between a send and its mark. -/
theorem resend_needs_loss_hook :
    ∃ l ∈ ([.claim false hookAgain 2000 true, .listDue false 2000 [hookAgain],
      .start false 2000, .restart quick] : List (Label Bool)), l.interrupts false := by
  have h₀ : ((system Bool).restrict Undisturbed).Reaches listing listed :=
    listed_reached ⟨rfl, trivial⟩ ⟨rfl, orderly_start rfl rfl _ _⟩
      ⟨rfl, orderly_start rfl rfl _ _⟩ ⟨rfl, trivial⟩ ⟨rfl, trivial⟩
  have next : ∀ {h s t} (l : Label Bool), ((system Bool).restrict Undisturbed).Reaches h s →
      Undisturbed s l → Step s l t → ((system Bool).restrict Undisturbed).Reaches (l :: h) t :=
    fun _ hs hl hst => hs.step ⟨hl, hst⟩
  have hlist : ListsDue resetDb 2000 20 (.ok [hookAgain]) :=
    ⟨_, ⟨_, List.Perm.refl _, List.pairwise_singleton _ _, rfl⟩, rfl⟩
  have h₁ := claimed_reached h₀ ⟨rfl, trivial⟩
  have h₂ := next (.send false hookRead 1 .delivered) h₁ ⟨rfl, trivial⟩
    (Step.send _ false hookRead [] (.status 200) rfl)
  have h₃ : ((system Bool).restrict Undisturbed).Reaches _ (duo claimedDb .down .down) :=
    (next (.restart quick) h₂ ⟨rfl, trivial⟩ (Step.restart _ quick)).of_eq
      (duo_ext rfl rfl rfl rfl)
  have h₄ : ((system Bool).restrict Undisturbed).Reaches _ (duo resetDb .polling .down) :=
    (next (.start false 2000) h₃ ⟨rfl, orderly_start rfl rfl _ _⟩
      (Step.start _ false 2000 rfl)).of_eq (duo_ext rfl rfl rfl rfl)
  have h₅ := next (.listDue false 2000 [hookAgain]) h₄ ⟨rfl, trivial⟩
    (Step.listDue _ false 2000 [hookAgain] rfl hlist)
  have h₆ := next (.claim false hookAgain 2000 true) h₅ ⟨rfl, trivial⟩
    (Step.claim _ false hookAgain [] 2000 rfl)
  have h₇ := next (.send false hookAgain 1 .delivered) h₆ ⟨rfl, trivial⟩
    (Step.send _ false hookAgain [] (.status 200) rfl)
  exact resend_needs_loss [] [.claim false hookAgain 2000 true,
    .listDue false 2000 [hookAgain], .start false 2000, .restart quick] h₇ rfl

end Q
end WebhookDelivery
