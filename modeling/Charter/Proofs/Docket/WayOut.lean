import Charter.Proofs.Docket.Constitution
import Charter.Proofs.Proposal.WayOut

/-! # No dead ends

The way out of a proposal as requests to its docket: all of them are carried out, and the proposal
comes to its end. -/

namespace Charter

theorem Instant.exists_latest {times : List Instant} (h : times ≠ []) :
    ∃ t ∈ times, ∀ s ∈ times, s ≤ t := by
  induction times with
  | nil => exact absurd rfl h
  | cons t times ih =>
    by_cases hnil : times = []
    · subst hnil
      exact ⟨t, List.mem_cons_self, List.forall_mem_singleton.mpr (Int.le_refl t.nanos)⟩
    · obtain ⟨u, hu, hlatest⟩ := ih hnil
      rcases Int.le_total t.nanos u.nanos with hle | hle
      · exact ⟨u, List.mem_cons_of_mem _ hu, List.forall_mem_cons.mpr ⟨hle, hlatest⟩⟩
      · refine ⟨t, List.mem_cons_self, List.forall_mem_cons.mpr ⟨Int.le_refl _, ?_⟩⟩
        intro s hs
        exact Instant.le_trans (hlatest s hs) hle

namespace Docket

variable {c : Constitution} {d : Docket} {id : UInt64} {p : Proposal} {t : Instant}

def requestsOn (id : UInt64) (ops : List (Operation × Instant)) : List (Action × Instant) :=
  ops.map (fun o => (.operate id o.1, o.2))

/-- From this time on, these operations bring the proposal to its end: all of them are carried out,
each no earlier than the one before, and none asks for anything out of the ordinary. -/
structure LeadsOut (d : Docket) (id : UInt64) (since : Instant)
    (ops : List (Operation × Instant)) : Prop where
  carriedOut : ∀ result ∈ d.answers (requestsOn id ops), ∃ answer, result = .ok answer
  ended : ∃ q, (d.run (requestsOn id ops)).get? id = some q ∧ q.status.isTerminal = true
  ordered : ops.Pairwise (fun a b => a.2 ≤ b.2)
  later : ∀ o ∈ ops, since ≤ o.2
  ordinary : ∀ o ∈ ops, o.1.IsOrdinary

theorem LeadsOut.cons {e : Docket} {op : Operation} {now : Instant} {answer : Answer}
    {ops : List (Operation × Instant)} (h : e.LeadsOut id now ops)
    (hs : Step d now (.operate id op) e answer) (ordinary : op.IsOrdinary) (later : t ≤ now) :
    d.LeadsOut id t ((op, now) :: ops) where
  carriedOut := by
    rw [requestsOn, List.map_cons, answers, step_of_step hs, List.forall_mem_cons]
    exact ⟨⟨answer, rfl⟩, h.carriedOut⟩
  ended := by
    rw [requestsOn, List.map_cons, run, step_of_step hs]
    exact h.ended
  ordered := List.pairwise_cons.mpr ⟨h.later, h.ordered⟩
  later := List.forall_mem_cons.mpr ⟨later, fun o ho => Instant.le_trans later (h.later o ho)⟩
  ordinary := List.forall_mem_cons.mpr ⟨ordinary, h.ordinary⟩

/-- A way out of the proposal is one in the docket, since operations leave the constitution as
it is. -/
theorem exists_leadsOut (h : p.HasWayOut c t) (hc : d.constitution = c) (hp : d.get? id = some p) :
    ∃ ops, d.LeadsOut id t ops := by
  induction h generalizing d with
  | @arrived t p terminal =>
    exact ⟨[], by simp [requestsOn, answers], ⟨p, hp, terminal⟩, .nil, by simp, by simp⟩
  | @step t now p q op reply hs ordinary later _ ih =>
    obtain ⟨e, hstep, he, hq⟩ : ∃ e, Step d now (.operate id op) e (.operated reply) ∧
        e.constitution = c ∧
        e.get? id = some q := by
      subst hc
      exact ⟨_, .operate hp hs, rfl, by simp only [get?, Table.get?_insert, if_true]⟩
    obtain ⟨ops, hops⟩ := ih he hq
    exact ⟨(op, now) :: ops, hops.cons hstep ordinary later⟩

theorem isInOrder_of_create (h : create c = .ok d) (requests : List (Action × Instant))
    {id : UInt64} {p : Proposal} (hp : (d.run requests).get? id = some p) :
    p.IsInOrder (d.run requests).constitution := by
  have hforce := inForce_run (inForce_of_opened (.inl h)) requests
  have hthresholds := congrArg Constitution.thresholds hforce.amended
  obtain ⟨hfits, hevident⟩ := (kept_evident c).all_run_of_create h requests id p hp
  rw [← hthresholds] at hevident
  exact ⟨hfits, hevident, (kept_hasSoundRounds c).all_run_of_create h requests id p hp⟩

/-- There are no dead ends. In every run of a new docket whose panels are not too large to count
their shares in words of 64 bits, a proposal none of whose times is closer than 200000 days to the
end of the calendar can be brought to its end: after all times noted in it there are operations on
it, all of which are carried out, that leave it applied, rejected, lapsed or withdrawn. -/
theorem no_dead_ends (h : create c = .ok d) (before : List (Action × Instant)) {id : UInt64}
    {p : Proposal} (hp : (d.run before).get? id = some p)
    (sizes : ∀ stage, ((d.run before).constitution.composition stage).panelSize.toNat ≤
      (UInt64.size - 1) / 100)
    (room : ∀ t ∈ p.times, t.HasRoom 200000) :
    ∃ since ops, (∀ t ∈ p.times, t ≤ since) ∧ (d.run before).LeadsOut id since ops := by
  have hcountable : (d.run before).constitution.IsCountable :=
    ⟨(inForce_run (inForce_of_opened (.inl h)) before).sound, sizes⟩
  have htimes : p.times ≠ [] := List.cons_ne_nil _ _
  obtain ⟨since, hsince, hlatest⟩ := Instant.exists_latest htimes
  have hway := (isInOrder_of_create h before hp).hasWayOut hcountable room hsince
  obtain ⟨ops, hops⟩ := exists_leadsOut hway rfl hp
  exact ⟨since, ops, hlatest, hops⟩

/-- The challenge chamber has been convened on a change to an entrenched provision, and no panel has
been selected for it. -/
theorem no_dead_ends_challenged :
    ∃ p since ops, ((empty soloConstitution).run (challengedRequests.take 8)).get? 1 = some p ∧
      p.status = .challengeVoting ∧ p.round? .challenge = none ∧ p.track = some .awaiting ∧
      p.times.length = 8 ∧
      ((empty soloConstitution).run (challengedRequests.take 8)).LeadsOut 1 since ops := by
  have hcreate : create soloConstitution = .ok (empty soloConstitution) := rfl
  have hsizes : ∀ stage,
      (((empty soloConstitution).run (challengedRequests.take 8)).constitution.composition
      stage).panelSize.toNat ≤ (UInt64.size - 1) / 100 := by
    intro stage
    cases stage <;> decide +kernel
  have hrun :
      (((empty soloConstitution).run (challengedRequests.take 8)).get? 1).any (fun p => decide
      (p.status = .challengeVoting ∧ p.round? .challenge = none ∧ p.track = some .awaiting ∧
        p.times.length = 8 ∧
        ∀ t ∈ p.times, t.HasRoom 200000)) = true := by decide +kernel
  obtain ⟨p, hp, hdecided⟩ := (Option.any_eq_true _ _).mp hrun
  obtain ⟨hstatus, hvacant, htrack, htimes, hroom⟩ := of_decide_eq_true hdecided
  obtain ⟨since, ops, -, hops⟩ := no_dead_ends hcreate (challengedRequests.take 8) hp hsizes hroom
  exact ⟨p, since, ops, hp, hstatus, hvacant, htrack, htimes, hops⟩

end Docket

end Charter
