import Charter.Proofs.Docket.Lifecycle
import Charter.Proofs.Proposal.Closing

/-! # Votes that are closed

Closing cannot be stalled: whatever happened before, a vote that has begun is closed whenever this
is asked for, and only once. -/

namespace Charter.Docket

variable {c : Constitution} {d : Docket} {now : Instant} {id : UInt64} {p q : Proposal}
  {stage : Stage} {r : Round}

theorem step_close_of_error {f : Fault} (hp : d.get? id = some p)
    (h : (p.close d.constitution stage now).result = .error f) :
    d.step (.operate id (.close stage)) now = (d, .error f) := by
  refine step_operate_of_error hp ?_
  rw [Proposal.perform, Attempt.map, h]
  rfl

theorem Orderly.beyond_run (hd : d.Orderly) {requests : List (Action × Instant)}
    (uninterrupted : d.Uninterrupted id requests) (hp : d.get? id = some p)
    (beyond : stage.votingStatus.rank p.isEntrenched < p.status.rank p.isEntrenched) :
    ∃ q, (d.run requests).get? id = some q ∧ q.status ≠ stage.votingStatus := by
  have hrun : ∃ q, (d.run requests).get? id = some q ∧
      stage.votingStatus.rank q.isEntrenched < q.status.rank q.isEntrenched := by
    refine hd.run_of_uninterrupted
      (P := fun q => stage.votingStatus.rank q.isEntrenched <
        q.status.rank q.isEntrenched) ?_ uninterrupted hp beyond
    intro c now p q op reply hs hbeyond
    rw [(Proposal.SameSubmission.of_step hs).isEntrenched]
    rcases Proposal.leadsTo_of_step hs with hsame | hleads
    · rw [hsame]
      exact hbeyond
    · exact hbeyond.trans (Status.rank_lt_of_leadsTo hleads)
  obtain ⟨q, hq, hbeyond⟩ := hrun
  exact ⟨q, hq, fun heq => absurd hbeyond (by rw [heq]; exact Nat.lt_irrefl _)⟩

theorem Orderly.close_once (hd : d.Orderly)
    (closed : (d.step (.operate id (.close stage)) now).2.isOk = true)
    {later : List (Action × Instant)}
    (uninterrupted : (d.step (.operate id (.close stage)) now).1.Uninterrupted id later)
    (again : Instant) :
    ∃ s, (((d.step (.operate id (.close stage)) now).1.run later).step
      (.operate id (.close stage)) again).2 =
      .error (.mismatch (.status stage.votingStatus s)) := by
  have hd' : (d.step (.operate id (.close stage)) now).1.Orderly := hd.run [(_, now)]
  rcases d.step_cases (.operate id (.close stage)) now with ⟨f, hrefused⟩ | ⟨e, answer, hs, hdone⟩
  · rw [hrefused] at closed
    cases closed
  · rw [hdone] at hd' uninterrupted ⊢
    obtain ⟨p, r, outcome, q, hp, hq, -, status, running, decided, concludes⟩ := close_of_step hs
    have hstep : p.Step d.constitution now (.close stage) q (.outcome outcome) :=
      .close status running decided concludes
    have hbeyond : stage.votingStatus.rank q.isEntrenched < q.status.rank q.isEntrenched := by
      rw [← status, (Proposal.SameSubmission.of_step hstep).isEntrenched]
      refine Status.rank_lt_of_leadsTo ((Proposal.leadsTo_of_step hstep).resolve_left ?_)
      rw [status]
      exact Proposal.status_ne_of_concludes concludes
    obtain ⟨q', hq', hne⟩ := hd'.beyond_run uninterrupted hq hbeyond
    refine ⟨q'.status, ?_⟩
    rw [step_close_of_error hq' (Proposal.close_of_status_ne hne)]

/-- The proposal is not in the middle of a challenge stage that it has already left. -/
theorem Sound.isIdle_of_vote (hd : d.Sound) (hp : d.get? id = some p)
    (status : p.status = stage.votingStatus) (challenge : stage = .challenge) : p.IsIdle := by
  refine Record.isIdle_of_vote (hd.recordable id p hp).track status ?_
  rw [challenge]
  decide

theorem Sound.exists_confirmation_round (hd : d.Sound) (hp : d.get? id = some p)
    (status : p.status = .confirmationVote) :
    ∃ r, p.round? .confirmation = some r := by
  have htrack := (hd.recordable id p hp).track
  rw [status] at htrack
  cases ht : p.track with
  | none => simp [ht, Record.Bears] at htrack
  | some track =>
    cases track with
    | awaiting | coolingOff => simp [ht, Record.Bears] at htrack
    | confirmation w r => exact ⟨r, by simp [Proposal.round?, ht, Track.round?]⟩

structure ClosesAt (d : Docket) (id : UInt64) (p : Proposal) (stage : Stage) (r : Round)
    (now : Instant) : Prop where
  /-- The vote is decided and the proposal moves on, unless a window would open that overruns the
  calendar. -/
  decided : (r.decide d.constitution.thresholds (p.hasEntrenchedRules stage) now = .passed →
      ∀ days, ¬p.Overruns d.constitution stage now days) →
    (d.step (.operate id (.close stage)) now).2 =
        .ok (.operated (.outcome
          (r.decide d.constitution.thresholds (p.hasEntrenchedRules stage) now))) ∧
      ∃ q, (d.step (.operate id (.close stage)) now).1.get? id = some q ∧ q.status ≠ p.status
  overrun : ∀ days, r.decide d.constitution.thresholds (p.hasEntrenchedRules stage) now = .passed →
    p.Overruns d.constitution stage now days →
    d.step (.operate id (.close stage)) now =
      (d, .error (.invalid (.windowPastCalendar days.toNat now)))
  /-- The deadline has passed, and too few took part. -/
  lapsed : r.DeadlinePassed now →
    ¬r.tally.ParticipationReaches d.constitution.thresholds.lapseParticipation.toNat →
    (d.step (.operate id (.close stage)) now).2 = .ok (.operated (.outcome .lapsed)) ∧
      (d.step (.operate id (.close stage)) now).1.status? id = some .lapsed
  once : (d.step (.operate id (.close stage)) now).2.isOk = true →
    ∀ later, (d.step (.operate id (.close stage)) now).1.Uninterrupted id later → ∀ again, ∃ s,
      (((d.step (.operate id (.close stage)) now).1.run later).step
        (.operate id (.close stage)) again).2 =
        .error (.mismatch (.status stage.votingStatus s))

theorem Sound.closesAt (hd : d.Sound) (hp : d.get? id = some p)
    (status : p.status = stage.votingStatus) (running : p.round? stage = some r) (now : Instant) :
    d.ClosesAt id p stage r now where
  decided fits := by
    obtain ⟨q, hq, hne⟩ :=
      Proposal.exists_step_close status running (hd.isIdle_of_vote hp status) fits
    rw [step_of_step (.operate hp hq)]
    exact ⟨rfl, q, by simp only [get?, Table.get?_insert, if_true], hne⟩
  overrun days passed h :=
    step_close_of_error hp
      (Proposal.close_of_overruns status running (hd.isIdle_of_vote hp status) passed h)
  lapsed past few := by
    have hdecided : r.decide d.constitution.thresholds (p.hasEntrenchedRules stage) now = .lapsed :=
      if_pos ⟨past, few⟩
    rw [step_of_step (.operate hp (.close status running hdecided .lapsed))]
    refine ⟨rfl, (status?_eq (p := p.stamp .lapsed now) ?_).trans (by rw [Proposal.status_stamp])⟩
    simp only [get?, Table.get?_insert, if_true]
  once closed later uninterrupted again := hd.orderly.close_once closed uninterrupted again

/-- Closing cannot be stalled. In every run of an opened docket a vote whose panel is selected is
closed at any time at which this is asked for, and the proposal leaves the status of the vote; only
a pass is refused if the window that it opens would end past the calendar. After the deadline of a
round in which too few took part the proposal lapses, whatever the votes, the stage and the
provision. A closed vote is not closed again until a new phase sends the proposal back to the
start. -/
theorem closing_cannot_be_stalled (opened : create c = .ok d ∨ ∃ records, restore c records = .ok d)
    (before : List (Action × Instant)) {id : UInt64} {p : Proposal} {stage : Stage}
    (hp : (d.run before).get? id = some p) (status : p.status = stage.votingStatus)
    (seated : stage = .confirmation ∨ (p.round? stage).isSome = true) :
    ∃ r, p.round? stage = some r ∧ ∀ now, (d.run before).ClosesAt id p stage r now := by
  have hsound : (d.run before).Sound := (sound_of_opened opened).run before
  obtain ⟨r, hr⟩ : ∃ r, p.round? stage = some r := by
    rcases seated with rfl | hseated
    · exact hsound.exists_confirmation_round hp status
    · exact Option.isSome_iff_exists.mp hseated
  exact ⟨r, hr, hsound.closesAt hp status hr⟩

/-- The challenge chamber has voted for a change to an entrenched provision. On the last day of the
calendar its vote cannot be closed; on the first it can, and not again after the confirmation. -/
theorem closing_cannot_be_stalled_challenged :
    let d := (empty soloConstitution).run (challengedRequests.take 10)
    let close := Action.operate 1 (.close .challenge)
    d.step close .last = (d, .error (.invalid (.windowPastCalendar 1 .last))) ∧
      (d.step close firstDay).2 = .ok (.operated (.outcome .passed)) ∧
      ∃ s, (((d.step close firstDay).1.run (challengedRequests.drop 11)).step close secondDay).2 =
        .error (.mismatch (.status .challengeVoting s)) := by
  intro d close
  have hcreate : create soloConstitution = .ok (empty soloConstitution) := rfl
  have hrun : (d.get? 1).any (fun p =>
      (p.round? .challenge).any (fun r => decide (p.status = Stage.challenge.votingStatus ∧
      (∀ now ∈ [firstDay, .last],
        r.decide d.constitution.thresholds (p.hasEntrenchedRules .challenge) now = .passed) ∧
      p.windowAfter? d.constitution .challenge = some 1))) = true := by decide +kernel
  obtain ⟨p, hp, hround⟩ := (Option.any_eq_true _ _).mp hrun
  obtain ⟨r, hr, hdecided⟩ := (Option.any_eq_true _ _).mp hround
  obtain ⟨hstatus, hpassed, hwindow⟩ := of_decide_eq_true hdecided
  have hfirst := hpassed firstDay (by simp)
  have hlast := hpassed .last (by simp)
  have hseated : (p.round? .challenge).isSome = true := Option.isSome_iff_exists.mpr ⟨r, hr⟩
  obtain ⟨r', hr', hcloses⟩ :=
    closing_cannot_be_stalled (.inl hcreate) (challengedRequests.take 10) hp hstatus (.inr hseated)
  obtain rfl := Option.some.inj (hr.symm.trans hr')
  have hfits : ∀ days, ¬p.Overruns d.constitution .challenge firstDay days := by
    rintro days ⟨hdays, hnone⟩
    obtain rfl := Option.some.inj (hwindow.symm.trans hdays)
    exact absurd hnone (by decide)
  have huninterrupted : (d.step close firstDay).1.Uninterrupted 1 (challengedRequests.drop 11) := by
    decide +kernel
  obtain ⟨hanswer, -⟩ := (hcloses firstDay).decided (fun _ => hfits)
  rw [hfirst] at hanswer
  refine ⟨(hcloses .last).overrun 1 hlast ⟨hwindow, by decide⟩, hanswer, ?_⟩
  exact (hcloses firstDay).once (by rw [hanswer]; rfl) (challengedRequests.drop 11)
    huninterrupted secondDay

end Charter.Docket
