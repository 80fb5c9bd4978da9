import Charter.Proofs.Docket.Run
import Charter.Proofs.Proposal.Frame

/-! # Status and data

What the status of a proposal says about its rounds, its challenge and its track. -/

namespace Charter

namespace Proposal

variable {c : Constitution} {p q : Proposal} {now : Instant}

/-- The second pathway is not asked for, or has not begun. -/
def IsIdle (p : Proposal) : Prop := p.track = none ∨ p.track = some .awaiting

def IsUnchallenged (p : Proposal) : Prop := p.challengeFiled = false ∧ p.challengeClosesAt = none

/-- Two chambers have met, the third exactly if there is a challenge, whose window has an end. -/
def IsThroughChambers (p : Proposal) : Prop :=
  (∃ r s x, p.rounds = ⟨some r, some s, x⟩ ∧ p.challengeFiled = x.isSome) ∧
    p.challengeClosesAt.isSome = true

def FitsVote (p : Proposal) : Stage → Prop
  | .proposal => (∃ r, p.rounds = ⟨some r, none, none⟩) ∧ p.IsUnchallenged ∧ p.IsIdle
  | .ratification => (∃ r x, p.rounds = ⟨some r, x, none⟩) ∧ p.IsUnchallenged ∧ p.IsIdle
  | .challenge =>
    (∃ r s x, p.rounds = ⟨some r, some s, x⟩) ∧ p.challengeFiled = true ∧
      p.challengeClosesAt.isSome = true ∧ p.IsIdle
  | .confirmation => p.IsThroughChambers ∧ ∃ w r, p.track = some (.confirmation w r)

def FitsStatus (p : Proposal) : Status → Prop
  | .proposed => p.rounds = ⟨none, none, none⟩ ∧ p.IsUnchallenged ∧ p.IsIdle
  | .proposalVoting => p.FitsVote .proposal
  | .ratificationVoting => p.FitsVote .ratification
  | .challengeWindow =>
    (∃ r s, p.rounds = ⟨some r, some s, none⟩) ∧ p.challengeFiled = false ∧
      p.challengeClosesAt.isSome = true ∧ p.IsIdle
  | .challengeVoting => p.FitsVote .challenge
  | .coolingOff => p.IsThroughChambers ∧ ∃ w, p.track = some (.coolingOff w)
  | .confirmationVote => p.FitsVote .confirmation
  | .confirmed | .applied =>
    p.IsThroughChambers ∧ (p.track = none ∨ ∃ w r, p.track = some (.confirmation w r))
  | .rejected | .lapsed => ∃ stage r, p.FitsVote stage ∧ p.round? stage = some r
  | .withdrawn => (∃ x, p.rounds = ⟨x, none, none⟩) ∧ p.IsUnchallenged ∧ p.IsIdle

def Fits (p : Proposal) : Prop := p.FitsStatus p.status

theorem Fits.of_status {s : Status} (h : p.Fits) (hs : p.status = s) : p.FitsStatus s := hs ▸ h

theorem fitsStatus_stamp {s t : Status} : (p.stamp s now).FitsStatus t ↔ p.FitsStatus t := by
  cases t <;> simp [FitsStatus, FitsVote, IsUnchallenged, IsIdle, IsThroughChambers]

theorem fits_stamp {s : Status} : (p.stamp s now).Fits ↔ p.FitsStatus s := by
  rw [Fits, status_stamp, fitsStatus_stamp]

theorem fitsStatus_votingStatus {stage : Stage} :
    p.FitsStatus stage.votingStatus ↔ p.FitsVote stage := by
  cases stage <;> rfl

theorem fits_submitted (id : UInt64) (proposer : VoterId) (key : String) (current proposed : Json)
    (justification : String) (entrenched : Bool) :
    (submitted id proposer key current proposed justification entrenched now).Fits := by
  refine ⟨rfl, ⟨rfl, rfl⟩, ?_⟩
  cases entrenched
  · exact .inl rfl
  · exact .inr rfl

theorem fitsVote_putRound_of_selection {stage : Stage} (h : p.FitsStatus stage.selectionStatus)
    (r : Round) (s : Status) : ({ p with status := s }.putRound stage r).FitsVote stage := by
  cases stage with
  | proposal =>
    obtain ⟨hr, hc, ht⟩ := h
    exact ⟨⟨r, by simp [putRound, Rounds.set, hr]⟩, hc, ht⟩
  | ratification =>
    obtain ⟨⟨r₁, x, hr⟩, hc, ht⟩ := h
    exact ⟨⟨r₁, some r, by simp [putRound, Rounds.set, hr]⟩, hc, ht⟩
  | challenge =>
    obtain ⟨⟨r₁, r₂, x, hr⟩, hc, ht⟩ := h
    exact ⟨⟨r₁, r₂, some r, by simp [putRound, Rounds.set, hr]⟩, hc, ht⟩
  | confirmation =>
    obtain ⟨hc, w, hw⟩ := h
    simp only [putRound, coolingOff?, hw, Option.bind_some, Track.window?]
    exact ⟨hc, w, r, rfl⟩

theorem fitsVote_putRound {stage : Stage} {r₀ : Round} (h : p.FitsVote stage)
    (hr₀ : p.round? stage = some r₀) (r : Round) : (p.putRound stage r).FitsVote stage := by
  cases stage with
  | proposal =>
    obtain ⟨⟨r₁, hr⟩, hc, ht⟩ := h
    exact ⟨⟨r, by simp [putRound, Rounds.set, hr]⟩, hc, ht⟩
  | ratification =>
    obtain ⟨⟨r₁, x, hr⟩, hc, ht⟩ := h
    exact ⟨⟨r₁, some r, by simp [putRound, Rounds.set, hr]⟩, hc, ht⟩
  | challenge =>
    obtain ⟨⟨r₁, r₂, x, hr⟩, hc, ht⟩ := h
    exact ⟨⟨r₁, r₂, some r, by simp [putRound, Rounds.set, hr]⟩, hc, ht⟩
  | confirmation =>
    obtain ⟨hc, w, r₁, hw⟩ := h
    simp only [putRound, coolingOff?, hw, Option.bind_some, Track.window?]
    exact ⟨hc, w, r, rfl⟩

theorem fits_of_leaves (h : p.IsThroughChambers) (hl : Leaves c now p q) : q.Fits := by
  cases hl with
  | confirmed ht => exact fits_stamp.mpr ⟨h, .inl ht⟩
  | waits ht hw => exact ⟨h, _, rfl⟩

theorem isThroughChambers_of_challengeWindow (h : p.FitsStatus .challengeWindow) :
    p.IsThroughChambers := by
  obtain ⟨⟨r, s, hr⟩, hf, hc, -⟩ := h
  exact ⟨⟨r, s, none, hr, hf⟩, hc⟩

theorem isThroughChambers_of_challenge {r₀ : Round} (h : p.FitsVote .challenge)
    (hr₀ : p.round? .challenge = some r₀) :
    p.IsThroughChambers := by
  obtain ⟨⟨r, s, x, hr⟩, hf, hc, -⟩ := h
  refine ⟨⟨r, s, x, hr, ?_⟩, hc⟩
  simp only [round?, hr] at hr₀
  rw [hf, hr₀]
  rfl

theorem fits_of_concludes {stage : Stage} {r₀ : Round} {outcome : Outcome} (h : p.FitsVote stage)
    (hr₀ : p.round? stage = some r₀) (hc : Concludes c now p stage outcome q) : q.Fits := by
  cases hc with
  | lapsed | rejected => exact fits_stamp.mpr ⟨stage, r₀, h, hr₀⟩
  | proposal =>
    obtain ⟨⟨r, hr⟩, hc, ht⟩ := h
    exact ⟨⟨r, none, hr⟩, hc, ht⟩
  | ratification hw =>
    obtain ⟨⟨r, x, hr⟩, ⟨hf, -⟩, ht⟩ := h
    simp only [round?, hr] at hr₀
    subst hr₀
    exact ⟨⟨r, r₀, hr⟩, hf, rfl, ht⟩
  | challenge hl => exact fits_of_leaves (isThroughChambers_of_challenge h hr₀) hl
  | confirmation =>
    obtain ⟨hc, hw⟩ := h
    exact fits_stamp.mpr ⟨hc, .inr hw⟩

theorem Fits.of_step {op : Operation} {reply : Reply} (h : p.Fits) (hs : p.Step c now op q reply) :
    q.Fits := by
  cases hs with
  | selectPanel status _ _ _ _ =>
    rw [Fits, status_putRound, fitsStatus_votingStatus]
    exact fitsVote_putRound_of_selection (h.of_status status) _ _
  | cast status _ running _ =>
    have hv := fitsStatus_votingStatus.mp (h.of_status status)
    rw [Fits, status_putRound, status, fitsStatus_votingStatus]
    exact fitsVote_putRound hv running _
  | close status running _ concludes =>
    exact fits_of_concludes (fitsStatus_votingStatus.mp (h.of_status status)) running concludes
  | challenge status _ =>
    obtain ⟨⟨r, s, hr⟩, hf, hc, ht⟩ := h.of_status status
    exact ⟨⟨r, s, none, by simp [Rounds.set, hr]⟩, rfl, hc, ht⟩
  | advance status _ leaves =>
    exact fits_of_leaves (isThroughChambers_of_challengeWindow (h.of_status status)) leaves
  | startCoolingOff status _ _ =>
    rw [Fits, status]
    exact ⟨(h.of_status status).1, _, rfl⟩
  | withdraw unvoted =>
    refine fits_stamp.mpr ?_
    rcases unvoted with hs | ⟨hs, -⟩
    · obtain ⟨hr, hc, ht⟩ := h.of_status hs
      exact ⟨⟨none, hr⟩, hc, ht⟩
    · obtain ⟨⟨r, hr⟩, hc, ht⟩ := h.of_status hs
      exact ⟨⟨some r, hr⟩, hc, ht⟩
  | apply checked _ _ =>
    have hc : p.FitsStatus .confirmed := h.of_status (checkApplication_eq_ok_iff.mp checked).1
    exact fits_stamp.mpr hc

theorem round?_eq_none_of_idle (hrounds : p.rounds = Rounds.empty) (hidle : p.IsIdle)
    (stage : Stage) :
    p.round? stage = none := by
  cases stage with
  | proposal | ratification | challenge => simp [round?, hrounds, Rounds.empty]
  | confirmation => rcases hidle with h | h <;> simp [round?, h, Track.round?]

theorem Fits.isIdle {chamber : Chamber} (h : p.Fits) (hs : p.status = chamber.votingStatus) :
    p.IsIdle := by
  have hv := fitsStatus_votingStatus.mp (h.of_status hs)
  cases chamber with
  | proposal => exact hv.2.2
  | ratification => exact hv.2.2
  | challenge => exact hv.2.2.2

theorem Fits.underNewPhase (h : p.Fits) : p.underNewPhase.Fits := by
  rcases underNewPhase_cases p with ⟨hp, -⟩ | ⟨chamber, -, hs, hp⟩
  · rw [hp]
    exact h
  · rw [hp]
    exact ⟨rfl, ⟨rfl, rfl⟩, h.isIdle hs⟩

end Proposal

theorem Docket.kept_fits (c : Constitution) : Docket.Kept c Proposal.Fits where
  submitted _ _ _ := Proposal.fits_submitted ..
  step _ hs h := h.of_step hs
  newPhase h := h.underNewPhase

end Charter
