import Charter.Proofs.Proposal.Fits
import Charter.Proofs.Round

/-! # Delays

The lengths of the windows of a proposal, and the order in which they follow each other. Operations
keep both whatever times they are given; only what happens during the confirmation needs a clock
that does not go back. -/

namespace Charter

namespace Instant

theorem le_trans {s t u : Instant} (hst : s ≤ t) (htu : t ≤ u) : s ≤ u := Int.le_trans hst htu

def last : Instant := ⟨95026237 * 86400000000000 - 1, by decide⟩

theorem le_last (t : Instant) : t ≤ last := Int.le_sub_one_of_lt t.inCalendar.2

end Instant

namespace Proposal

variable {c : Constitution} {timing : Timing} {p q : Proposal} {now t : Instant} {op : Operation}
  {reply : Reply}

/-- The next step was taken after this time: the decision on the standard pathway, the start of the
cooling-off on the entrenched one. -/
def WentOnAfter (t : Instant) (p : Proposal) : Prop :=
  (p.isEntrenched = false → ∃ decided, p.decidedAt = some decided ∧ t ≤ decided) ∧
    (p.isEntrenched = true → ∃ w, p.coolingOff? = some w ∧ t ≤ w.startedAt)

/-- If the proposal has left its challenge window and nobody challenged it, it has waited for the
end of the window. -/
def WaitedOut (p : Proposal) : Prop :=
  p.challengeFiled = false → p.status ≠ .challengeWindow → ∀ t, p.challengeClosesAt = some t →
    p.WentOnAfter t

theorem coolingOff?_mono (hs : p.Step c now op q reply) {w : Window} (hw : p.coolingOff? = some w) :
    q.coolingOff? = some w := by
  rcases coolingOff?_of_step hs with hq | ⟨hnone, -⟩
  · rw [hq, hw]
  · rw [hw] at hnone
    cases hnone

theorem WentOnAfter.of_step (h : p.WentOnAfter t) (hs : p.Step c now op q reply)
    (hd : p.isEntrenched = false → q.decidedAt = p.decidedAt) : q.WentOnAfter t := by
  have he : q.isEntrenched = p.isEntrenched := (SameSubmission.of_step hs).isEntrenched
  refine ⟨?_, ?_⟩
  · intro hq
    rw [he] at hq
    rw [hd hq]
    exact h.1 hq
  · intro hq
    rw [he] at hq
    obtain ⟨w, hw, hle⟩ := h.2 hq
    exact ⟨w, coolingOff?_mono hs hw, hle⟩

theorem IsUnchallenged.not_closing (h : p.IsUnchallenged) : p.challengeClosesAt ≠ some t := by
  rw [h.2]
  simp

/-- While a chamber votes, the challenge window has not begun or has been used. -/
theorem not_closing_of_fitsVote {stage : Stage} (h : p.FitsVote stage)
    (hstage : stage ≠ .confirmation) (hfiled : p.challengeFiled = false) :
    p.challengeClosesAt ≠ some t := by
  cases stage with
  | proposal | ratification => exact h.2.1.not_closing
  | challenge =>
    rw [h.2.1] at hfiled
    cases hfiled
  | confirmation => exact absurd rfl hstage

theorem wentOnAfter_of_leaves (hl : Leaves c now p q) (ht : t ≤ now) : q.WentOnAfter t := by
  cases hl with
  | confirmed standard =>
    refine ⟨fun _ => ⟨now, rfl, ht⟩, ?_⟩
    intro he
    simp [isEntrenched, standard] at he
  | waits entrenched => exact ⟨fun he => by simp [isEntrenched] at he, fun _ => ⟨_, rfl, ht⟩⟩

theorem WaitedOut.of_concludes {stage : Stage} {r : Round} {outcome : Outcome} (h : p.WaitedOut)
    (hf : p.Fits) (status : p.status = stage.votingStatus) (running : p.round? stage = some r)
    (hs : p.Step c now (.close stage) q (.outcome outcome))
    (hc : Concludes c now p stage outcome q) : q.WaitedOut := by
  have hvote : p.FitsVote stage := fitsStatus_votingStatus.mp (hf.of_status status)
  have hwindow : p.status ≠ .challengeWindow := by
    rw [status]
    cases stage <;> decide
  -- only a confirmation can be decided behind a window that nobody used, and it is on
  -- the entrenched pathway
  have hfailed : ∀ s, q = p.stamp s now → q.WaitedOut := by
    rintro s rfl hfiled - t ht
    rw [challengeFiled_stamp] at hfiled
    rw [challengeClosesAt_stamp] at ht
    by_cases hstage : stage = .confirmation
    · subst hstage
      obtain ⟨w, hw⟩ := track_of_confirmation_round running
      refine (h hfiled hwindow t ht).of_step hs ?_
      intro he
      simp [isEntrenched, hw] at he
    · exact absurd ht (not_closing_of_fitsVote hvote hstage hfiled)
  cases hc with
  | lapsed | rejected | confirmation => exact hfailed _ rfl
  | proposal =>
    intro _ _ t ht
    exact absurd ht hvote.2.1.not_closing
  | ratification =>
    intro _ hne
    exact absurd rfl hne
  | challenge leaves =>
    intro hfiled _ t ht
    have hsame : q.challengeFiled = p.challengeFiled ∧
        q.challengeClosesAt = p.challengeClosesAt := by
      cases leaves <;> exact ⟨rfl, rfl⟩
    rw [hsame.1] at hfiled
    rw [hsame.2] at ht
    exact absurd ht (not_closing_of_fitsVote hvote (by decide) hfiled)

theorem WaitedOut.of_step (h : p.WaitedOut) (hf : p.Fits) (hs : p.Step c now op q reply) :
    q.WaitedOut := by
  have hsame : p.status ≠ .challengeWindow → q.challengeFiled = p.challengeFiled →
      q.challengeClosesAt = p.challengeClosesAt → q.decidedAt = p.decidedAt → q.WaitedOut := by
    intro hne hfiled hcloses hdecided hq _ t ht
    rw [hfiled] at hq
    rw [hcloses] at ht
    exact (h hq hne t ht).of_step hs (fun _ => hdecided)
  cases hs with
  | @selectPanel stage _ _ _ status =>
    refine hsame ?_ (challengeFiled_putRound ..) (challengeClosesAt_putRound ..)
      (decidedAt_putRound ..)
    rw [status]
    cases stage <;> decide
  | @cast stage _ _ _ _ _ _ status =>
    refine hsame ?_ (challengeFiled_putRound ..) (challengeClosesAt_putRound ..)
      (decidedAt_putRound ..)
    rw [status]
    cases stage <;> decide
  | close status running decided concludes =>
    exact h.of_concludes hf status running (.close status running decided concludes) concludes
  | challenge =>
    intro hfiled
    cases hfiled
  | advance _ past leaves =>
    intro _ _ t ht
    refine wentOnAfter_of_leaves leaves (past t ?_)
    cases leaves <;> exact ht
  | startCoolingOff status => exact hsame (by rw [status]; decide) rfl rfl rfl
  | withdraw unvoted =>
    intro _ _ t ht
    rw [challengeClosesAt_stamp] at ht
    have hunchallenged : p.IsUnchallenged := by
      rcases unvoted with hs | ⟨hs, -⟩
      · exact (hf.of_status hs).2.1
      · exact (hf.of_status hs).2.1
    exact absurd ht hunchallenged.not_closing
  | apply checked =>
    have hconfirmed := (checkApplication_eq_ok_iff.mp checked).1
    exact hsame (by rw [hconfirmed]; decide) rfl rfl rfl

/-- The end of the challenge window is set by the close that passes the ratification, and by nothing
else. -/
theorem challengeClosesAt_of_step (hs : p.Step c now op q reply)
    (ht : q.challengeClosesAt = some t) :
    op = .close .ratification ∧ reply = .outcome .passed ∧
    now.addDays? c.timing.challengeWindow.toNat = some t ∨
      ¬ (op = .close .ratification ∧ reply = .outcome .passed) ∧ p.challengeClosesAt = some t := by
  cases hs with
  | selectPanel | cast =>
    rw [challengeClosesAt_putRound] at ht
    exact .inr ⟨by simp, ht⟩
  | close _ _ _ concludes =>
    cases concludes with
    | ratification window =>
      cases ht
      exact .inl ⟨rfl, rfl, windowEnd_eq_ok_iff.mp window⟩
    | challenge leaves =>
      refine .inr ⟨by simp, ?_⟩
      cases leaves <;> exact ht
    | lapsed | rejected | proposal | confirmation => exact .inr ⟨by simp, ht⟩
  | advance _ _ leaves =>
    refine .inr ⟨by simp, ?_⟩
    cases leaves <;> exact ht
  | challenge | startCoolingOff | withdraw | apply => exact .inr ⟨by simp, ht⟩

theorem challengeClosesAt_underNewPhase (ht : p.underNewPhase.challengeClosesAt = some t) :
    p.challengeClosesAt = some t := by
  rcases underNewPhase_cases p with ⟨hp, -⟩ | ⟨_, -, -, hp⟩ <;> rw [hp] at ht
  · exact ht
  · cases ht

theorem coolingOff?_underNewPhase (p : Proposal) : p.underNewPhase.coolingOff? = p.coolingOff? := by
  rcases underNewPhase_cases p with ⟨hp, -⟩ | ⟨_, -, -, hp⟩
  · rw [hp]
  · rw [hp]
    rfl

structure KeepsDelays (timing : Timing) (p : Proposal) : Prop where
  deadline : ∀ stage r, p.round? stage = some r →
    r.openedAt.addDays? timing.votingWindow.toNat = some r.deadline
  coolingOff : ∀ w, p.coolingOff? = some w →
    w.startedAt.addDays? timing.coolingOff.toNat = some w.endsAt
  confirmation : ∀ r, p.round? .confirmation = some r → ∃ w, p.coolingOff? = some w ∧
    w.endsAt ≤ r.openedAt
  closing : p.status ∈ [.challengeWindow, .challengeVoting, .coolingOff, .confirmationVote,
    .confirmed, .applied] →
    p.challengeClosesAt.isSome = true
  unchallenged : p.WaitedOut

theorem Fits.isSome_challengeClosesAt (h : p.Fits)
    (hs : p.status ∈ [Status.challengeWindow, .challengeVoting, .coolingOff, .confirmationVote,
      .confirmed, .applied]) :
    p.challengeClosesAt.isSome = true := by
  unfold Fits at h
  generalize p.status = s at h hs
  cases s with
  | challengeWindow => exact (isThroughChambers_of_challengeWindow h).2
  | challengeVoting => exact h.2.2.1
  | coolingOff | confirmationVote | confirmed | applied => exact h.1.2
  | proposed | proposalVoting | ratificationVoting | rejected | lapsed | withdrawn => simp at hs

theorem deadline_of_step (h : ∀ stage r, p.round? stage = some r →
      r.openedAt.addDays? c.timing.votingWindow.toNat = some r.deadline)
    (hs : p.Step c now op q reply) (stage : Stage) (r : Round) (hr : q.round? stage = some r) :
    r.openedAt.addDays? c.timing.votingWindow.toNat = some r.deadline := by
  have hround := roundStep_of_step hs stage
  rw [hr] at hround
  generalize hx : some r = x at hround
  cases hround with
  | kept => exact h stage r hx.symm
  | dropped => cases hx
  | opened _ _ window =>
    cases hx
    exact windowEnd_eq_ok_iff.mp window
  | @recorded _ _ _ r₀ _ _ _ running record =>
    cases hx
    obtain ⟨-, -, -, -, _, -, hrecorded⟩ := Round.record_eq_ok_iff.mp record
    rw [hrecorded]
    exact h stage r₀ running

theorem confirmation_of_step
    (h : ∀ r, p.round? .confirmation = some r → ∃ w, p.coolingOff? = some w ∧ w.endsAt ≤ r.openedAt)
    (hs : p.Step c now op q reply) (r : Round) (hr : q.round? .confirmation = some r) :
    ∃ w, q.coolingOff? = some w ∧ w.endsAt ≤ r.openedAt := by
  have hkept : ∀ r₀, p.round? .confirmation = some r₀ → r.openedAt = r₀.openedAt →
      ∃ w, q.coolingOff? = some w ∧ w.endsAt ≤ r.openedAt := by
    intro r₀ hr₀ hopened
    obtain ⟨w, hw, hle⟩ := h r₀ hr₀
    rw [hopened]
    exact ⟨w, coolingOff?_mono hs hw, hle⟩
  cases hs with
  | @selectPanel stage _ members deadline _ _ ready _ _ =>
    rw [round?_putRound_of_selection ready] at hr
    split at hr
    · rename_i hstage
      obtain ⟨w, hw, hle⟩ := ready hstage.symm
      cases hr
      refine ⟨w, ?_, hle⟩
      rw [coolingOff?_putRound]
      simp [coolingOff?, hw, Track.window?]
    · exact hkept r hr rfl
  | @cast stage _ _ _ r₀ _ _ _ _ running record =>
    rw [round?_putRound_of_round running] at hr
    split at hr
    · rename_i hstage
      obtain ⟨-, -, -, -, _, -, hrecorded⟩ := Round.record_eq_ok_iff.mp record
      cases hr
      rw [← hstage] at running
      refine hkept r₀ running ?_
      rw [hrecorded]
    · exact hkept r hr rfl
  | close _ _ _ concludes =>
    rw [round?_of_concludes concludes] at hr
    exact hkept r hr rfl
  | challenge => exact hkept r hr rfl
  | advance _ _ leaves =>
    rw [round?_of_leaves leaves] at hr
    exact hkept r hr rfl
  | startCoolingOff => simp [round?, Track.round?] at hr
  | withdraw | apply =>
    rw [round?_stamp] at hr
    exact hkept r hr rfl

theorem coolingOff_of_step
    (h : ∀ w, p.coolingOff? = some w →
      w.startedAt.addDays? c.timing.coolingOff.toNat = some w.endsAt)
    (hs : p.Step c now op q reply) (w : Window) (hw : q.coolingOff? = some w) :
    w.startedAt.addDays? c.timing.coolingOff.toNat = some w.endsAt := by
  rcases coolingOff?_of_step hs with hq | ⟨-, t, ht, hq⟩
  · rw [hq] at hw
    exact h w hw
  · rw [hq] at hw
    cases hw
    exact windowEnd_eq_ok_iff.mp ht

theorem KeepsDelays.of_step (h : p.KeepsDelays c.timing) (hf : p.Fits)
    (hs : p.Step c now op q reply) :
    q.KeepsDelays c.timing where
  deadline := deadline_of_step h.deadline hs
  coolingOff := coolingOff_of_step h.coolingOff hs
  confirmation := confirmation_of_step h.confirmation hs
  closing := (hf.of_step hs).isSome_challengeClosesAt
  unchallenged := h.unchallenged.of_step hf hs

theorem keepsDelays_submitted (id : UInt64) (proposer : VoterId) (key : String)
    (current proposed : Json) (justification : String) (entrenched : Bool) :
    (submitted id proposer key current proposed justification entrenched now).KeepsDelays
    timing := by
  have hround : ∀ stage,
      (submitted id proposer key current proposed justification entrenched now).round? stage =
        none :=
    round?_submitted id proposer key current proposed justification entrenched
  refine ⟨?_, ?_, ?_, (fits_submitted ..).isSome_challengeClosesAt, ?_⟩
  · intro stage r hr
    rw [hround] at hr
    cases hr
  · intro w hw
    cases entrenched <;> cases hw
  · intro r hr
    rw [hround] at hr
    cases hr
  · intro _ _ t ht
    cases ht

theorem KeepsDelays.underNewPhase (h : p.KeepsDelays timing) (hf : p.Fits) :
    p.underNewPhase.KeepsDelays timing := by
  have hclosing := hf.underNewPhase.isSome_challengeClosesAt
  have hdeadline : ∀ stage r, p.underNewPhase.round? stage = some r →
      r.openedAt.addDays? timing.votingWindow.toNat = some r.deadline :=
    fun stage r hr => h.deadline stage r (round?_underNewPhase hr)
  rcases underNewPhase_cases p with ⟨hp, -⟩ | ⟨_, -, -, hp⟩ <;> rw [hp] at hclosing hdeadline ⊢
  · exact h
  · -- the track is the only thing that a return to the start leaves in place
    refine ⟨hdeadline, h.coolingOff, h.confirmation, hclosing, ?_⟩
    intro _ _ t ht
    cases ht

/-- The confirmation, if it has begun, began when the cooling-off had ended, which was not after
this time. -/
def HasCooledOff (t : Instant) (p : Proposal) : Prop :=
  ∀ r, p.round? .confirmation = some r → ∃ w, p.coolingOff? = some w ∧ w.endsAt ≤ t

structure ConfirmsLate (p : Proposal) : Prop where
  ballots : ∀ b ∈ p.ballots .confirmation, ∃ w, p.coolingOff? = some w ∧ w.endsAt ≤ b.castAt
  decided : p.isEntrenched = true → p.status = .confirmed ∨ p.status = .applied →
    ∃ w decided, p.coolingOff? = some w ∧ p.decidedAt = some decided ∧ w.endsAt ≤ decided

section Submitted

variable (id : UInt64) (proposer : VoterId) (key : String) (current proposed : Json)
  (justification : String) (entrenched : Bool)

theorem hasCooledOff_submitted :
    (submitted id proposer key current proposed justification entrenched now).HasCooledOff t := by
  intro r hr
  rw [round?_submitted] at hr
  cases hr

theorem confirmsLate_submitted :
    (submitted id proposer key current proposed justification entrenched now).ConfirmsLate := by
  refine ⟨?_, ?_⟩
  · intro b hb
    rw [ballots, round?_submitted] at hb
    cases hb
  · rintro - (hs | hs) <;> cases hs

end Submitted

theorem HasCooledOff.mono {t' : Instant} (h : p.HasCooledOff t) (hle : t ≤ t') :
    p.HasCooledOff t' := by
  intro r hr
  obtain ⟨w, hw, hends⟩ := h r hr
  exact ⟨w, hw, Instant.le_trans hends hle⟩

theorem HasCooledOff.underNewPhase (h : p.HasCooledOff t) : p.underNewPhase.HasCooledOff t := by
  rcases underNewPhase_cases p with ⟨hp, -⟩ | ⟨_, -, -, hp⟩
  · rw [hp]
    exact h
  · rw [hp]
    exact h

theorem ballots_eq_of_round? {stage : Stage} {r : Round} (h : p.round? stage = some r) :
    p.ballots stage = r.ballots := by
  simp [ballots, h]

theorem HasCooledOff.of_step (h : p.HasCooledOff now) (hq : q.KeepsDelays timing)
    (hs : p.Step c now op q reply) :
    q.HasCooledOff now := by
  intro r hr
  have hround := roundStep_of_step hs .confirmation
  rw [hr] at hround
  generalize hx : some r = x at hround
  cases hround with
  | kept =>
    obtain ⟨w, hw, hends⟩ := h r hx.symm
    exact ⟨w, coolingOff?_mono hs hw, hends⟩
  | dropped challenge => cases challenge
  | opened =>
    cases hx
    exact hq.confirmation _ hr
  | recorded _ running =>
    obtain ⟨w, hw, hends⟩ := h _ running
    exact ⟨w, coolingOff?_mono hs hw, hends⟩

theorem ballots_late_of_step
    (h : ∀ b ∈ p.ballots .confirmation, ∃ w, p.coolingOff? = some w ∧ w.endsAt ≤ b.castAt)
    (hc : p.HasCooledOff now) (hs : p.Step c now op q reply) (b : Ballot)
    (hb : b ∈ q.ballots .confirmation) :
    ∃ w, q.coolingOff? = some w ∧ w.endsAt ≤ b.castAt := by
  have hkept : ∀ b ∈ p.ballots .confirmation, ∃ w, q.coolingOff? = some w ∧
      w.endsAt ≤ b.castAt := by
    intro b hb
    obtain ⟨w, hw, hends⟩ := h b hb
    exact ⟨w, coolingOff?_mono hs hw, hends⟩
  have hround := roundStep_of_step hs .confirmation
  generalize hx : q.round? .confirmation = x at hround
  cases hround with
  | kept =>
    rw [ballots, hx] at hb
    exact hkept b hb
  | dropped challenge => cases challenge
  | opened =>
    rw [ballots_eq_of_round? hx] at hb
    cases hb
  | @recorded _ _ _ r₀ _ _ _ running record =>
    obtain ⟨-, -, -, -, _, -, hrecorded⟩ := Round.record_eq_ok_iff.mp record
    rw [ballots_eq_of_round? hx, hrecorded, List.mem_append, List.mem_singleton] at hb
    rcases hb with hb | rfl
    · rw [← ballots_eq_of_round? running] at hb
      exact hkept b hb
    · obtain ⟨w, hw, hends⟩ := hc r₀ running
      exact ⟨w, coolingOff?_mono hs hw, hends⟩

theorem not_isEntrenched_of_leaves (hl : Leaves c now p q)
    (hq : q.status = .confirmed ∨ q.status = .applied) :
    q.isEntrenched = false := by
  cases hl with
  | confirmed standard => simp [isEntrenched, standard]
  | waits => rcases hq with hq | hq <;> cases hq

theorem decided_late_of_step (h : p.ConfirmsLate) (hc : p.HasCooledOff now)
    (hs : p.Step c now op q reply) (he : q.isEntrenched = true)
    (hq : q.status = .confirmed ∨ q.status = .applied) :
    ∃ w decided, q.coolingOff? = some w ∧ q.decidedAt = some decided ∧ w.endsAt ≤ decided := by
  cases hs with
  | @selectPanel stage =>
    rw [status_putRound] at hq
    cases stage <;> simp [Stage.votingStatus] at hq
  | @cast stage _ _ _ _ _ _ status =>
    rw [status_putRound, status] at hq
    cases stage <;> simp [Stage.votingStatus] at hq
  | close _ running _ concludes =>
    cases concludes with
    | lapsed | rejected => simp at hq
    | proposal | ratification => simp at hq
    | challenge leaves =>
      rw [not_isEntrenched_of_leaves leaves hq] at he
      cases he
    | confirmation =>
      obtain ⟨w, hw, hends⟩ := hc _ running
      exact ⟨w, now, hw, rfl, hends⟩
  | challenge => simp at hq
  | advance _ _ leaves =>
    rw [not_isEntrenched_of_leaves leaves hq] at he
    cases he
  | startCoolingOff status => simp [status] at hq
  | withdraw => simp at hq
  | apply checked => exact h.decided he (.inl (checkApplication_eq_ok_iff.mp checked).1)

theorem ConfirmsLate.of_step (h : p.ConfirmsLate) (hc : p.HasCooledOff now)
    (hs : p.Step c now op q reply) :
    q.ConfirmsLate where
  ballots := ballots_late_of_step h.ballots hc hs
  decided := decided_late_of_step h hc hs

theorem ConfirmsLate.underNewPhase (h : p.ConfirmsLate) : p.underNewPhase.ConfirmsLate := by
  rcases underNewPhase_cases p with ⟨hp, -⟩ | ⟨_, -, -, hp⟩ <;> rw [hp]
  · exact h
  · refine ⟨h.ballots, ?_⟩
    rintro - (hs | hs) <;> cases hs

end Proposal

end Charter
