import Charter.Proofs.Docket.History
import Charter.Proofs.Docket.Opened
import Charter.Proofs.Proposal.Delays

/-! # Delays in a run

No run of a new docket shortens a window or begins one anew, whatever times the requests come with.
Where the times do not decrease, nobody confirms a change before its cooling-off is over. -/

namespace Charter.Docket

open Constitution (InForce)

variable {c : Constitution} {d e : Docket} {now t : Instant} {id : UInt64} {p : Proposal}
  {a : Action} {answer : Answer}

theorem timing_of_inForce {c' : Constitution} (h : InForce c c') : c'.timing = c.timing := by
  have htiming := congrArg Constitution.timing h.amended
  exact htiming

theorem kept_keepsDelays (c : Constitution) :
    Kept c (fun p => p.Fits ∧ p.KeepsDelays c.timing) where
  submitted _ _ _ := ⟨Proposal.fits_submitted .., Proposal.keepsDelays_submitted ..⟩
  step hc hs h := by
    refine ⟨h.1.of_step hs, ?_⟩
    have hdelays := h.2
    rw [← timing_of_inForce hc] at hdelays ⊢
    exact hdelays.of_step h.1 hs
  newPhase h := ⟨h.1.underNewPhase, h.2.underNewPhase h.1⟩

/-- The time of the close that last passed the vote of a stage on a proposal. -/
def passedAt (id : UInt64) (stage : Stage) (d : Docket) : List (Action × Instant) → Option Instant
  | [] => none
  | (a, now) :: rest =>
    (passedAt id stage (d.step a now).1 rest).or
      (if a = .operate id (.close stage) ∧
        (d.step a now).2 = .ok (.operated (.outcome .passed)) then some now else none)

theorem passedAt_append_singleton (id : UInt64) (stage : Stage) (d : Docket)
    (requests : List (Action × Instant)) (a : Action) (now : Instant) :
    passedAt id stage d (requests ++ [(a, now)]) =
        if a = .operate id (.close stage) ∧
          ((d.run requests).step a now).2 = .ok (.operated (.outcome .passed)) then some now
        else passedAt id stage d requests := by
  induction requests generalizing d with
  | nil => rfl
  | cons request rest ih =>
    obtain ⟨b, s⟩ := request
    rw [List.cons_append, passedAt, ih, passedAt, run]
    split <;> simp

theorem challengeClosesAt_run (h : create c = .ok d) (requests : List (Action × Instant))
    (hp : (d.run requests).get? id = some p) (ht : p.challengeClosesAt = some t) :
    ∃ passed, passedAt id .ratification d requests = some passed ∧
      passed.addDays? c.timing.challengeWindow.toNat = some t := by
  obtain ⟨hc, rfl⟩ := create_eq_ok_iff.mp h
  -- from the right, since the last close counts
  induction requests using List.reverseRecOn generalizing p t with
  | nil => cases hp
  | append_singleton requests request ih =>
    obtain ⟨a, now⟩ := request
    have horderly : ((empty c).run requests).Orderly := ((sound_empty hc).run requests).orderly
    have hforce : InForce c ((empty c).run requests).constitution :=
      run_induction (P := fun e => InForce c e.constitution) inForce_step (.refl hc) requests
    rw [run_append, run, run] at hp
    rw [passedAt_append_singleton]
    rcases ((empty c).run requests).step_cases a now with ⟨f, hrefused⟩ | ⟨e, answer, hs, hdone⟩
    · rw [hrefused] at hp ⊢
      rw [if_neg (by simp)]
      exact ih ht hp
    · rw [hdone] at hp ⊢
      rcases horderly.origin_of_step hs hp with ⟨_, _, _, _, _, rfl⟩ | ⟨q, hq, hfate⟩
      · cases ht
      · cases hfate with
        | untouched elsewhere =>
          rw [if_neg (fun hclose => elsewhere _ hclose.1)]
          exact ih ht hq
        | operated step =>
          rcases Proposal.challengeClosesAt_of_step step ht with ⟨rfl, rfl, hadd⟩ |
            ⟨hother, hbefore⟩
          · rw [timing_of_inForce hforce] at hadd
            exact ⟨now, if_pos ⟨rfl, rfl⟩, hadd⟩
          · rw [if_neg]
            · exact ih hbefore hq
            · rintro ⟨hop, hreply⟩
              cases hop
              cases hreply
              exact hother ⟨rfl, rfl⟩
        | newPhase =>
          rw [if_neg (by simp)]
          exact ih (Proposal.challengeClosesAt_underNewPhase ht) hq

/-- What holds of all proposals at a time before which all requests came: nobody has confirmed
early. -/
structure Unhurried (timing : Timing) (t : Instant) (d : Docket) : Prop where
  orderly : d.Orderly
  delays : d.All (fun p => p.Fits ∧ p.KeepsDelays timing)
  cooled : d.All (Proposal.HasCooledOff t)
  late : d.All Proposal.ConfirmsLate

theorem Unhurried.mono {timing : Timing} {s : Instant} (h : d.Unhurried timing s) (hle : s ≤ t) :
    d.Unhurried timing t where
  orderly := h.orderly
  delays := h.delays
  cooled id p hp := (h.cooled id p hp).mono hle
  late := h.late

theorem Unhurried.of_step (h : d.Unhurried c.timing now) (hc : InForce c d.constitution)
    (hs : Step d now a e answer) :
    e.Unhurried c.timing now := by
  have hdelays := (kept_keepsDelays c).all_step hs hc h.delays
  have hlate : e.All (fun q => q.HasCooledOff now ∧ q.ConfirmsLate) := by
    intro id q hq
    rcases h.orderly.origin_of_step hs hq with ⟨_, _, _, _, _, rfl⟩ | ⟨p, hp, hfate⟩
    · exact ⟨Proposal.hasCooledOff_submitted _ _ _ _ _ _ _, Proposal.confirmsLate_submitted ..⟩
    · have hcooled := h.cooled id p hp
      have hconfirms := h.late id p hp
      cases hfate with
      | untouched => exact ⟨hcooled, hconfirms⟩
      | operated step =>
        exact ⟨hcooled.of_step (hdelays id q hq).2 step, hconfirms.of_step hcooled step⟩
      | newPhase => exact ⟨hcooled.underNewPhase, hconfirms.underNewPhase⟩
  exact ⟨h.orderly.step hs, hdelays, fun id q hq => (hlate id q hq).1,
    fun id q hq => (hlate id q hq).2⟩

theorem unhurried_empty (timing : Timing) (t : Instant) : (empty c).Unhurried timing t :=
  ⟨orderly_empty c, all_empty _, all_empty _, all_empty _⟩

theorem confirmsLate_run (h : create c = .ok d) {requests : List (Action × Instant)}
    (ordered : requests.Pairwise (fun r s => r.2 ≤ s.2)) :
    (d.run requests).All Proposal.ConfirmsLate := by
  obtain ⟨hc, rfl⟩ := create_eq_ok_iff.mp h
  have hrun : InForce c ((empty c).run requests).constitution ∧
      ((empty c).run requests).Unhurried c.timing .last := by
    refine run_induction_of_ordered (P := fun t d => InForce c d.constitution ∧
      d.Unhurried c.timing t) ?_ ?_ ?_ ordered ?_
    · intro s t d hle hd
      exact ⟨hd.1, hd.2.mono hle⟩
    · intro d e a now answer hs hd
      exact ⟨inForce_step hs hd.1, hd.2.of_step hd.1 hs⟩
    · intro t
      exact ⟨.refl hc, unhurried_empty c.timing t⟩
    · intro r _
      exact Instant.le_last r.2
  exact hrun.2.late

theorem coolingOff?_run (h : create c = .ok d) (requests later : List (Action × Instant))
    {w : Window} (hp : (d.run requests).get? id = some p) (hw : p.coolingOff? = some w) :
    ∃ q, ((d.run requests).run later).get? id = some q ∧ q.coolingOff? = some w := by
  obtain ⟨hc, rfl⟩ := create_eq_ok_iff.mp h
  have horderly : ((empty c).run requests).Orderly := ((sound_empty hc).run requests).orderly
  refine horderly.run_of_fate (P := fun p => p.coolingOff? = some w) ?_ ?_ hp hw later
  · intro _ _ _ _ _ _ hs hw
    exact Proposal.coolingOff?_mono hs hw
  · intro p hw
    rw [Proposal.coolingOff?_underNewPhase, hw]

/-- In every run of a new docket, whatever its times, all windows have their full length and begin
in order, a challenge window ends its full length after the ratification was passed, and a
cooling-off that has begun is never moved. If the times do not decrease, all votes and the decision
of a confirmation come when the cooling-off is over. -/
theorem no_delay_is_shortened (h : create c = .ok d) (requests : List (Action × Instant)) :
    (d.run requests).All (Proposal.KeepsDelays c.timing) ∧
      (∀ id p t, (d.run requests).get? id = some p → p.challengeClosesAt = some t →
        ∃ passed, passedAt id .ratification d requests = some passed ∧
          passed.addDays? c.timing.challengeWindow.toNat = some t) ∧
      (∀ later id p w, (d.run requests).get? id = some p → p.coolingOff? = some w →
        ∃ q, ((d.run requests).run later).get? id = some q ∧ q.coolingOff? = some w) ∧
      (requests.Pairwise (fun r s => r.2 ≤ s.2) → (d.run requests).All Proposal.ConfirmsLate) := by
  refine ⟨?_, ?_, ?_, confirmsLate_run h⟩
  · intro id p hp
    exact ((kept_keepsDelays c).all_run_of_create h requests id p hp).2
  · intro id p t hp ht
    exact challengeClosesAt_run h requests hp ht
  · intro later id p w hp hw
    exact coolingOff?_run h requests later hp hw

def thirdDay : Instant := ⟨172800000000000, by decide⟩

def unchallengedRequests : List (Action × Instant) :=
  (.propose "joe" "rights.voluntary_exit" .null (.bool true) "due", firstDay) ::
    (soloVote .proposal "amy" firstDay ++ soloVote .ratification "ben" firstDay ++
      (.operate 1 .advance, secondDay) :: soloVote .confirmation "amy" thirdDay)

/-- Each delay of one day is waited for in full, and a later withdrawal with an early time moves
nothing. -/
theorem no_delay_is_shortened_unchallenged :
    ∃ p, ((empty soloConstitution).run unchallengedRequests).get? 1 = some p ∧
      p.challengeClosesAt = some secondDay ∧ p.coolingOff? = some ⟨secondDay, thirdDay⟩ ∧
      p.decidedAt = some thirdDay ∧
      p.KeepsDelays soloConstitution.timing ∧ p.ConfirmsLate ∧
      (∃ passed, passedAt 1 .ratification (empty soloConstitution) unchallengedRequests =
        some passed ∧
        passed.addDays? 1 = some secondDay) ∧
      ∃ q, (((empty soloConstitution).run unchallengedRequests).run
          [(.operate 1 (.withdraw "joe"), firstDay)]).get? 1 = some q ∧
        q.coolingOff? = some ⟨secondDay, thirdDay⟩ := by
  have hcreate : create soloConstitution = .ok (empty soloConstitution) := rfl
  obtain ⟨hdelays, hclosing, hcooling, hlate⟩ := no_delay_is_shortened hcreate unchallengedRequests
  have hrun : (((empty soloConstitution).run unchallengedRequests).get? 1).map
      (fun p => (p.challengeClosesAt, p.coolingOff?, p.decidedAt)) =
        some (some secondDay, some ⟨secondDay, thirdDay⟩, some thirdDay) := by decide +kernel
  obtain ⟨p, hp, htimes⟩ := Option.map_eq_some_iff.mp hrun
  simp only [Prod.mk.injEq] at htimes
  obtain ⟨hcloses, hwindow, hdecided⟩ := htimes
  have ordered : unchallengedRequests.Pairwise (fun r s => r.2 ≤ s.2) := by decide
  exact ⟨p, hp, hcloses, hwindow, hdecided, hdelays 1 p hp, hlate ordered 1 p hp,
    hclosing 1 p _ hp hcloses, hcooling _ 1 p _ hp hwindow⟩

end Charter.Docket
