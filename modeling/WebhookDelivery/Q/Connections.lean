/-
Whom the client connects to.

`validate` looks the host of a destination up and checks the addresses it gets.
The client then looks the host up again.  The check covers the connection as far
as the second answer brings no blocked address that the first one did not have.
-/
import WebhookDelivery.Q.Checked

namespace WebhookDelivery
namespace Q

open Sql Run

variable {ω : Type} [DecidableEq ω]

variable (ω) in
/-- The service with `allow_private` off. -/
def guarded (env : Env) : System (Checked ω) (Event ω) :=
  (checked ω env).restrict fun _ e => e.policy.allowPrivate = false

/-- Each blocked address of the answer is one that `validate` has let pass.  With
`allow_private` off it lets none pass, so that in the runs of `guarded` this says that the
lookup of the client brings no blocked address. -/
def Covers (env : Env) (s : Checked ω) (w : ω) (d : Delivery) (dns : Dns) : Prop :=
  ∀ ips, Resolves env dns d.destination ips → ∀ ip ∈ ips, isBlockedIp ip = true →
    ip ∈ s.validated w

/-- When a send connects, the lookup brings no blocked address that the check did not find:
in the runs of `guarded`, none at all. -/
def Covered (env : Env) (s : Checked ω) (e : Event ω) : Prop :=
  match e.label with
  | .send w d _ _ => Covers env s w d e.dns
  | _ => True

/-- The send connects to no blocked address. -/
def Event.Public (e : Event ω) : Prop :=
  ∀ w d n out, e.label = .send w d n out → ∀ ip ∈ e.peers, isBlockedIp ip = false

/-- `validate` lets no blocked address pass. -/
theorem validated_public {env : Env} {h : List (Event ω)} {s : Checked ω}
    (hs : (guarded ω env).Reaches h s) :
    ∀ w, ∀ ip ∈ s.validated w, isBlockedIp ip = false := by
  apply hs.invariant (I := fun _ s => ∀ w, ∀ ip ∈ s.validated w, isBlockedIp ip = false)
  · rintro s ⟨-, hnone⟩ w ip hip
    rw [hnone w] at hip
    exact absurd hip List.not_mem_nil
  · rintro h s e t _ hI ⟨hoff, -, hfits, hnoted⟩ w ip hip
    rw [hnoted] at hip
    cases hl : e.label with
    | claim v d now won =>
      have hpass : checkDestination env e.policy e.dns d.destination = .passed := by
        simpa only [Event.Fits, hl] using hfits
      simp only [Event.noted, hl] at hip
      split at hip
      · rcases checkDestination_spec env e.policy e.dns d.destination with
          ⟨-, hbad⟩ | ⟨url, -, ⟨-, hips⟩ | ⟨err, hbad, -⟩⟩
        · rw [hpass] at hbad
          cases hbad
        · exact hips hoff ip hip
        · rw [hpass] at hbad
          cases hbad
      · exact hI w ip hip
    | insert | replay | start | listDue | refuse | send | record | dbFail | endPass | restart =>
      simp only [Event.noted, hl] at hip
      exact hI w ip hip

/-- A send whose lookup is covered connects to no blocked address. -/
theorem public_of_covered {env : Env} {h : List (Event ω)} {s t : Checked ω} {e : Event ω}
    (hs : (guarded ω env).Reaches h s) (hst : (guarded ω env).step s e t)
    (hcov : Covered env s e) : e.Public := by
  intro w d n out hl ip hip
  have hconn : e.Connects env d out := by
    simpa only [Event.Fits, hl] using hst.2.2.1
  have hcovers : Covers env s w d e.dns := by
    simpa only [Covered, hl] using hcov
  obtain ⟨ips, hres, hpeers⟩ := hconn.1 (List.ne_nil_of_mem hip)
  by_contra hblocked
  have hval := hcovers ips hres ip (hpeers ip hip) (Bool.eq_true_of_not_eq_false hblocked)
  exact hblocked (validated_public hs w ip hval)

/-- With `allow_private` off, no send of a run connects to a blocked address
while the lookups of the client are covered by those of the checks.  At a lookup
that is not covered a send may. -/
theorem connects_public {env : Env} {h : List (Event ω)} {s : Checked ω}
    (hs : ((guarded ω env).restrict (Covered env)).Reaches h s) :
    (∀ e ∈ h, e.Public) ∧
      ∀ w d rest dns, s.service.pc w = .claimed d rest →
        ((∀ e t, (guarded ω env).step s e t → (∃ n out, e.label = .send w d n out) → e.dns = dns →
          e.Public) ↔ Covers env s w d dns) := by
  constructor
  · apply hs.invariant (I := fun h _ => ∀ e ∈ h, e.Public)
    · intro s _ e he
      exact absurd he List.not_mem_nil
    · intro h s e t hr hI hst e' he'
      rcases List.mem_cons.1 he' with rfl | he'
      · exact public_of_covered hr.of_restrict hst.2 hst.1
      · exact hI e' he'
  · intro w d rest dns hpc
    constructor
    · intro hall ips hres ip hip hblocked
      let out : Outcome := (Response.status 200).outcome
      let e : Event ω := {
        label := .send w d (d.attempts + 1) out, policy := .default, dns := dns, peers := [ip] }
      have hfits : e.Connects env d out := by
        refine ⟨fun _ => ⟨ips, hres, fun ip' hip' => ?_⟩, fun hnil => nomatch hnil⟩
        rw [List.mem_singleton.1 hip']
        exact hip
      have hpub := hall e
        { service := s.service.setPc w (.sent d out rest), validated := s.validated }
        ⟨rfl, Step.send s.service w d rest (.status 200) hpc, hfits, rfl⟩ ⟨_, _, rfl⟩ rfl
      have hfree := hpub w d _ out rfl ip (List.mem_singleton_self ip)
      rw [hblocked] at hfree
      cases hfree
    · rintro hcov e t hst ⟨n, out, hl⟩ rfl
      refine public_of_covered hs.of_restrict hst ?_
      simpa only [Covered, hl] using hcov

/-! ## A name that moves -/

/-- The first worker has claimed the hook and sends it. -/
def sendingRun : List (Label Bool) :=
  .send false hookRead 1 .delivered :: .claim false hookRead 0 true :: listing

theorem sending_reached : (system Bool).Reaches sendingRun
    (duo claimedDb (.sent hookRead .delivered []) (.batch [hookRead])) :=
  (claiming_reached.step (Step.send _ false hookRead [] (.status 200) rfl)).of_eq
    (duo_ext rfl rfl rfl rfl)

/-- The client finds the answers of `dns`, and connects to `ip`. -/
def connecting (dns : Dns) (ip : IpAddr) (l : Label Bool) : Event Bool :=
  match l with
  | .send .. => { seen l with dns := dns, peers := [ip] }
  | _ => seen l

theorem connecting_fits (dns : Dns) (ip : IpAddr) (hdns : dns "a.test" = .ok [ip]) :
    ∀ l ∈ sendingRun, (connecting dns ip l).label = l ∧ (connecting dns ip l).Fits noteEnv := by
  intro l hl
  rcases List.mem_cons.1 hl with rfl | hl
  · exact ⟨rfl, fun _ => ⟨[ip], ⟨_, rfl, hdns⟩, fun _ h => h⟩, fun hnil => nomatch hnil⟩
  · rcases List.mem_cons.1 hl with rfl | hl
    · exact ⟨rfl, (by decide :
        checkDestination noteEnv .default publicDns hookRead.destination = .passed)⟩
    · have hsame : connecting dns ip l = seen l := by
        simp only [listing, List.mem_cons, List.not_mem_nil, or_false] at hl
        rcases hl with rfl | rfl | rfl | rfl | rfl <;> rfl
      rw [hsame]
      exact seen_listing l hl

theorem connecting_off (dns : Dns) (ip : IpAddr) (l : Label Bool) :
    (connecting dns ip l).policy.allowPrivate = false := by
  cases l <;> rfl

/-- The client finds the address that the check has found. -/
theorem connects_public_hook : Event.Public
    (connecting publicDns (.v4 #v[93, 184, 216, 34]) (.send false hookRead 1 .delivered)) := by
  let ip : IpAddr := .v4 #v[93, 184, 216, 34]
  have hfits := connecting_fits publicDns ip rfl
  have hcov : ∀ l s, Covered noteEnv s (connecting publicDns ip l) := by
    intro l s
    cases l with
    | send w d n out =>
      rintro ips ⟨url, -, hips⟩ ip' hip' hblocked
      cases hips
      rw [List.mem_singleton.1 hip'] at hblocked
      exact absurd hblocked (by decide)
    | insert | replay | start | listDue | refuse | claim | record | dbFail | endPass | restart =>
      trivial
  obtain ⟨v, hs⟩ := checked_of_service
    (C := fun s e => Covered noteEnv s e ∧ e.policy.allowPrivate = false)
    (connecting publicDns ip) sending_reached fun l hl =>
      ⟨(hfits l hl).1, (hfits l hl).2, fun s => ⟨hcov l s, connecting_off publicDns ip l⟩⟩
  exact (connects_public hs.restrict_restrict).1 _ List.mem_cons_self

/-- The name has a public address when it is checked, and the loopback address
when the client connects. -/
theorem rebound : ¬∀ env h s, (guarded Bool env).Reaches h s → ∀ e ∈ h, e.Public := by
  intro hall
  let ip : IpAddr := .v4 #v[127, 0, 0, 1]
  have hfits := connecting_fits privateDns ip rfl
  obtain ⟨v, hs⟩ := checked_of_service (C := fun _ e => e.policy.allowPrivate = false)
    (connecting privateDns ip) sending_reached fun l hl =>
      ⟨(hfits l hl).1, (hfits l hl).2, fun _ => connecting_off privateDns ip l⟩
  have hpub := hall noteEnv _ _ hs _ List.mem_cons_self false hookRead 1 .delivered rfl ip
    (List.mem_singleton_self ip)
  exact absurd hpub (by decide)

end Q
end WebhookDelivery
