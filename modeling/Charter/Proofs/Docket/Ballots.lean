import Charter.Proofs.Docket.History
import Charter.Proofs.Docket.Opened
import Charter.Proofs.Proposal.Ballots

/-! # Ballots of a run

Whatever is requested, the rounds of a docket are sound, and the ballots of a round are a history to
which requests only append. -/

namespace Charter.Docket

variable {c : Constitution} {d : Docket} {id : UInt64} {p : Proposal}

theorem Orderly.growsInto_run (hd : d.Orderly) {requests : List (Action × Instant)}
    (uninterrupted : d.Uninterrupted id requests) (hp : d.get? id = some p) (hfits : p.Fits)
    {stage : Stage} {r : Round} (hr : p.round? stage = some r) :
    ∃ q s, (d.run requests).get? id = some q ∧ q.round? stage = some s ∧ r.GrowsInto s := by
  have hrun : ∃ q, (d.run requests).get? id = some q ∧ q.Fits ∧ ∃ s, q.round? stage = some s ∧
      r.GrowsInto s := by
    refine hd.run_of_uninterrupted (P := fun q => q.Fits ∧ ∃ s, q.round? stage = some s ∧
      r.GrowsInto s) ?_ uninterrupted
      hp ⟨hfits, r, hr, .refl r⟩
    rintro _ _ p q op reply hs ⟨hfits, s, hround, hgrows⟩
    obtain ⟨t, ht, hgrows'⟩ := Proposal.growsInto_of_step hfits hs hround
    exact ⟨hfits.of_step hs, t, ht, hgrows.trans hgrows'⟩
  obtain ⟨q, hq, -, s, hs, hgrows⟩ := hrun
  exact ⟨q, s, hq, hs, hgrows⟩

/-- In every run of an opened docket every round is sound: its members are distinct, they fill the
seats of its composition, the affiliations are theirs and nobody else's, and each ballot is the one
ballot of a member at this vote, so that there are no more ballots than seats. In a new docket every
ballot is attested and in time besides, and until its proposal is sent back to the start a round
stays as it is but for the ballots that are appended to it. -/
theorem ballots_are_kept (opened : create c = .ok d ∨ ∃ records, restore c records = .ok d)
    (requests : List (Action × Instant)) :
    (d.run requests).All (fun p => ∀ stage r, p.round? stage = some r →
      r.Sound p.id stage ∧ r.affiliations.keys.Perm r.panel ∧ r.ballots.length ≤ r.panel.length) ∧
    (create c = .ok d →
      (d.run requests).All (fun p => ∀ stage r, p.round? stage = some r → r.IsAttested) ∧
      ∀ later id p stage r, (d.run requests).Uninterrupted id later →
        (d.run requests).get? id = some p →
        p.round? stage = some r →
        ∃ q s, ((d.run requests).run later).get? id = some q ∧ q.round? stage = some s ∧
          r.GrowsInto s) := by
  have hsound : (d.run requests).Sound := (sound_of_opened opened).run requests
  refine ⟨?_, ?_⟩
  · intro id p hp stage r hr
    have hround : r.Sound p.id stage := (hsound.recordable id p hp).rounds stage r hr
    exact ⟨hround, hround.keys_perm, hround.length_ballots_le⟩
  · intro hcreate
    refine ⟨(kept_isAttested c).all_run_of_create hcreate requests, ?_⟩
    intro later id p stage r uninterrupted hp hr
    have hfits : p.Fits := (kept_fits c).all_run_of_create hcreate requests id p hp
    exact hsound.orderly.growsInto_run uninterrupted hp hfits hr

def retainedRequests : List (Action × Instant) :=
  (challengedRequests.drop 2).take 1 ++
    (.changePhase soloConstitution.phase, firstDay) :: challengedRequests.drop 3

/-- The one ballot of the first round is appended, and stays through a new phase and a challenge. -/
theorem ballots_are_kept_retained :
    let d := (empty soloConstitution).run (challengedRequests.take 2)
    ∃ p r, d.get? 1 = some p ∧ p.round? .proposal = some r ∧ r.ballots = [] ∧
      r.Sound p.id .proposal ∧
      d.Uninterrupted 1 retainedRequests ∧
      ∃ q s, (d.run retainedRequests).get? 1 = some q ∧ q.round? .proposal = some s ∧
        q.status = .confirmed ∧
        s.ballots.map Ballot.voter = ["amy"] ∧ r.GrowsInto s := by
  intro d
  have hcreate : create soloConstitution = .ok (empty soloConstitution) := rfl
  obtain ⟨hsound, hnew⟩ := ballots_are_kept (.inl hcreate) (challengedRequests.take 2)
  obtain ⟨-, hgrows⟩ := hnew hcreate
  have huninterrupted : d.Uninterrupted 1 retainedRequests := by decide +kernel
  have hbefore : ((d.get? 1).bind (fun p => p.round? .proposal)).map Round.ballots = some [] := by
    decide +kernel
  have hafter : ((d.run retainedRequests).get? 1).map (fun q =>
      (q.status, (q.ballots .proposal).map Ballot.voter)) =
      some (.confirmed, ["amy"]) := by decide +kernel
  obtain ⟨r, hround, hballots⟩ := Option.map_eq_some_iff.mp hbefore
  obtain ⟨p, hp, hr⟩ := Option.bind_eq_some_iff.mp hround
  obtain ⟨q, s, hq, hs, hrs⟩ := hgrows retainedRequests 1 p .proposal r huninterrupted hp hr
  rw [hq, Option.map_some, Option.some.injEq, Prod.mk.injEq, Proposal.ballots, hs] at hafter
  exact ⟨p, r, hp, hr, hballots, (hsound 1 p hp .proposal r hr).1, huninterrupted, q, s, hq, hs,
    hafter.1, hafter.2, hrs⟩

end Charter.Docket
