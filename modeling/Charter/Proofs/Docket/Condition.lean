import Charter.Proofs.Docket.Opened

/-! # Status and data in a run

The status of a proposal in a new docket says which votes have a round, whether it was challenged,
how far its track has come and whether its decision is dated. -/

namespace Charter

namespace Status

def isDecided : Status → Bool
  | confirmed | applied | rejected | lapsed | withdrawn => true
  | _ => false

/-- Of the decided statuses only the confirmation is left, and only for the application. -/
theorem isDecided_of_leadsTo {entrenched : Bool} {s t : Status}
    (h : s.leadsTo entrenched t = true) :
    s.isDecided = decide (t = .applied) := by
  cases s <;> cases t <;> first | rfl | cases h

end Status

namespace Proposal

variable {c : Constitution} {p q : Proposal} {now : Instant} {op : Operation} {reply : Reply}

/-- The times of the decision and of the application are noted exactly if these have come. -/
structure IsDated (p : Proposal) : Prop where
  decided : p.decidedAt.isSome = p.status.isDecided
  applied : p.appliedAt.isSome = decide (p.status = .applied)

theorem IsDated.stamp_self (h : p.IsDated) : (p.stamp p.status now).IsDated := by
  obtain ⟨hdecided, happlied⟩ := h
  constructor <;> rw [status_stamp] <;> generalize p.status = s at hdecided happlied ⊢
  · cases s <;> first | rfl | exact hdecided
  · cases s <;> first | rfl | exact happlied

theorem IsDated.stamp {s : Status} (h : p.IsDated)
    (hleads : p.status.leadsTo p.isEntrenched s = true) :
    (p.stamp s now).IsDated := by
  have hdecided : p.decidedAt.isSome = decide (s = .applied) :=
    h.decided.trans (Status.isDecided_of_leadsTo hleads)
  have happlied : p.appliedAt.isSome = false := by
    rw [h.applied, decide_eq_false_iff_not]
    intro hs
    rw [hs, Status.not_leadsTo_of_isTerminal rfl] at hleads
    cases hleads
  cases s with
  | applied => exact ⟨hdecided, rfl⟩
  | confirmed | rejected | lapsed | withdrawn => exact ⟨rfl, happlied⟩
  | proposed | proposalVoting | ratificationVoting | challengeWindow | challengeVoting |
      coolingOff | confirmationVote =>
    exact ⟨hdecided, happlied⟩

theorem dates_of_leaves (hl : Leaves c now p q) : q.decidedAt = (p.stamp q.status now).decidedAt ∧
    q.appliedAt = (p.stamp q.status now).appliedAt := by
  cases hl with
  | confirmed =>
    rw [status_stamp]
    exact ⟨rfl, rfl⟩
  | waits => exact ⟨rfl, rfl⟩

/-- An operation notes no other times than those that belong to the status it leads to. -/
theorem dates_of_step (hs : p.Step c now op q reply) :
    q.decidedAt = (p.stamp q.status now).decidedAt ∧
    q.appliedAt = (p.stamp q.status now).appliedAt := by
  cases hs with
  | @selectPanel stage =>
    rw [status_putRound, decidedAt_putRound, appliedAt_putRound]
    cases stage <;> exact ⟨rfl, rfl⟩
  | @cast stage _ _ _ _ _ _ status =>
    rw [status_putRound, decidedAt_putRound, appliedAt_putRound, status]
    cases stage <;> exact ⟨rfl, rfl⟩
  | close _ _ _ concludes =>
    cases concludes with
    | lapsed | rejected | confirmation =>
      rw [status_stamp]
      exact ⟨rfl, rfl⟩
    | proposal | ratification => exact ⟨rfl, rfl⟩
    | challenge leaves => exact dates_of_leaves leaves
  | challenge => exact ⟨rfl, rfl⟩
  | advance _ _ leaves => exact dates_of_leaves leaves
  | startCoolingOff status =>
    rw [status]
    exact ⟨rfl, rfl⟩
  | withdraw | apply =>
    rw [status_stamp]
    exact ⟨rfl, rfl⟩

theorem IsDated.of_step (h : p.IsDated) (hs : p.Step c now op q reply) : q.IsDated := by
  obtain ⟨hdecided, happlied⟩ := dates_of_step hs
  have hstamp : (p.stamp q.status now).IsDated := by
    rcases leadsTo_of_step hs with heq | hleads
    · rw [heq]
      exact h.stamp_self
    · exact h.stamp hleads
  constructor
  · rw [hdecided, hstamp.decided, status_stamp]
  · rw [happlied, hstamp.applied, status_stamp]

theorem IsDated.undated {chamber : Chamber} (h : p.IsDated) (hs : p.status = chamber.votingStatus) :
    p.decidedAt = none ∧ p.appliedAt = none := by
  have hopen : p.status.isDecided = false ∧ p.status ≠ .applied := by
    rw [hs]
    cases chamber <;> decide
  have hdecided : p.decidedAt.isSome = false := h.decided.trans hopen.1
  have happlied : p.appliedAt.isSome = false := h.applied.trans (decide_eq_false hopen.2)
  exact ⟨by simpa using hdecided, by simpa using happlied⟩

theorem IsDated.underNewPhase (h : p.IsDated) : p.underNewPhase.IsDated := by
  rcases underNewPhase_cases p with ⟨hp, -⟩ | ⟨chamber, -, hs, hp⟩
  · rw [hp]
    exact h
  · obtain ⟨hdecided, happlied⟩ := h.undated hs
    rw [hp]
    exact ⟨congrArg Option.isSome hdecided, congrArg Option.isSome happlied⟩

theorem votesCast_eq_zero_iff : p.votesCast = 0 ↔ ∀ stage, p.ballots stage = [] := by
  rw [votesCast, List.length_eq_zero_iff, List.flatMap_eq_nil_iff]
  constructor
  · intro h stage
    exact h stage (by cases stage <;> decide)
  · intro h stage _
    exact h stage

theorem votesCast_stamp (s : Status) : (p.stamp s now).votesCast = p.votesCast := by
  have hballots : (p.stamp s now).ballots = p.ballots := by
    funext stage
    rw [ballots, ballots, round?_stamp]
  rw [votesCast, votesCast, hballots]

theorem votesCast_of_withdrawn (hfits : p.Fits) (hs : p.Step c now op q reply)
    (hq : q.status = .withdrawn) :
    q.votesCast = 0 := by
  cases hs with
  | withdraw unvoted =>
    rw [votesCast_stamp]
    rcases unvoted with status | ⟨-, hnone⟩
    · obtain ⟨hrounds, -, hidle⟩ := hfits.of_status status
      rw [votesCast_eq_zero_iff]
      intro stage
      rw [ballots, round?_eq_none_of_idle hrounds hidle]
      rfl
    · exact hnone
  | @selectPanel stage =>
    rw [status_putRound] at hq
    cases stage <;> cases hq
  | @cast stage _ _ _ _ _ _ status =>
    rw [status_putRound, status] at hq
    cases stage <;> cases hq
  | close _ _ _ concludes =>
    cases concludes with
    | lapsed | rejected | confirmation => simp at hq
    | proposal | ratification => cases hq
    | challenge leaves => cases leaves <;> simp at hq
  | challenge => cases hq
  | advance _ _ leaves => cases leaves <;> simp at hq
  | startCoolingOff status => simp [status] at hq
  | apply => simp at hq

def votesHeld (p : Proposal) : List Stage := Stage.all.filter (fun stage => (p.round? stage).isSome)

structure IsConsistent (p : Proposal) : Prop where
  proposed : p.status = .proposed → p.votesHeld = []
  proposalVoting : p.status = .proposalVoting → p.votesHeld = [.proposal]
  ratificationVoting : p.status = .ratificationVoting →
    p.votesHeld = [.proposal] ∨ p.votesHeld = [.proposal, .ratification]
  challengeWindow : p.status = .challengeWindow →
    p.votesHeld = [.proposal, .ratification] ∧ p.challengeFiled = false ∧
      p.challengeClosesAt.isSome = true
  challengeVoting : p.status = .challengeVoting →
    (p.votesHeld = [.proposal, .ratification] ∨
      p.votesHeld = [.proposal, .ratification, .challenge]) ∧
      p.challengeFiled = true ∧ p.challengeClosesAt.isSome = true
  unchallenged : p.status ∈ [.proposed, .proposalVoting, .ratificationVoting] →
    p.challengeFiled = false ∧ p.challengeClosesAt = none
  awaiting : p.status ∈ [.proposed, .proposalVoting, .ratificationVoting, .challengeWindow,
    .challengeVoting] →
    p.isEntrenched = true → p.track = some .awaiting
  coolingOff : p.status = .coolingOff →
    p.isEntrenched = true ∧ p.coolingOff?.isSome = true ∧ p.round? .confirmation = none
  confirmationVote : p.status = .confirmationVote →
    p.isEntrenched = true ∧ p.coolingOff?.isSome = true ∧ (p.round? .confirmation).isSome = true
  challenge : (p.round? .challenge).isSome = true → p.challengeFiled = true
  withdrawn : p.status = .withdrawn → p.votesCast = 0
  decided : p.decidedAt.isSome = true ↔
    p.status ∈ [.confirmed, .applied, .rejected, .lapsed, .withdrawn]

theorem IsIdle.track_eq (h : p.IsIdle) :
    p.track = if p.isEntrenched then some .awaiting else none := by
  rcases h with ht | ht <;> simp [isEntrenched, ht]

/-- The votes held before the confirmation are those of the chambers that have met. -/
theorem votesHeld_of_idle {x y z : Option Round} (hrounds : p.rounds = ⟨x, y, z⟩)
    (hidle : p.IsIdle) :
    p.votesHeld = (if x.isSome then [.proposal] else []) ++
      (if y.isSome then [.ratification] else []) ++
      (if z.isSome then [.challenge] else []) := by
  have hconfirmation : p.round? .confirmation = none := by
    rcases hidle with h | h <;> simp [round?, h, Track.round?]
  have hchambers : p.round? .proposal = x ∧ p.round? .ratification = y ∧
      p.round? .challenge = z := by
    simp [round?, hrounds]
  simp only [votesHeld, Stage.all, List.filter_cons, List.filter_nil, hconfirmation, hchambers.1,
    hchambers.2.1, hchambers.2.2]
  cases x <;> cases y <;> cases z <;> rfl

theorem IsThroughChambers.challengeFiled_of_round (h : p.IsThroughChambers)
    (hr : (p.round? .challenge).isSome = true) :
    p.challengeFiled = true := by
  obtain ⟨⟨_, _, x, hrounds, hfiled⟩, -⟩ := h
  simpa [round?, hrounds, hfiled] using hr

theorem FitsVote.challengeFiled_of_round {stage : Stage} (h : p.FitsVote stage)
    (hr : (p.round? .challenge).isSome = true) : p.challengeFiled = true := by
  cases stage with
  | proposal =>
    obtain ⟨⟨_, hrounds⟩, -⟩ := h
    simp [round?, hrounds] at hr
  | ratification =>
    obtain ⟨⟨_, _, hrounds⟩, -⟩ := h
    simp [round?, hrounds] at hr
  | challenge => exact h.2.1
  | confirmation => exact h.1.challengeFiled_of_round hr

theorem Fits.challengeFiled_of_round (h : p.Fits) (hr : (p.round? .challenge).isSome = true) :
    p.challengeFiled = true := by
  unfold Fits at h
  generalize p.status = s at h
  cases s with
  | proposed =>
    obtain ⟨hrounds, -⟩ := h
    simp [round?, hrounds] at hr
  | proposalVoting =>
    have hvote : p.FitsVote .proposal := h
    exact hvote.challengeFiled_of_round hr
  | ratificationVoting =>
    have hvote : p.FitsVote .ratification := h
    exact hvote.challengeFiled_of_round hr
  | challengeWindow => exact (isThroughChambers_of_challengeWindow h).challengeFiled_of_round hr
  | challengeVoting => exact h.2.1
  | coolingOff | confirmationVote | confirmed | applied => exact h.1.challengeFiled_of_round hr
  | rejected | lapsed =>
    obtain ⟨stage, _, hvote, -⟩ := h
    exact hvote.challengeFiled_of_round hr
  | withdrawn =>
    obtain ⟨⟨_, hrounds⟩, -⟩ := h
    simp [round?, hrounds] at hr

theorem Fits.isConsistent (h : p.Fits) (hdated : p.IsDated)
    (hwithdrawn : p.status = .withdrawn → p.votesCast = 0) :
    p.IsConsistent where
  proposed hs := by
    obtain ⟨hrounds, -, hidle⟩ := h.of_status hs
    exact votesHeld_of_idle hrounds hidle
  proposalVoting hs := by
    obtain ⟨⟨r, hrounds⟩, -, hidle⟩ := h.of_status hs
    exact votesHeld_of_idle hrounds hidle
  ratificationVoting hs := by
    obtain ⟨⟨r, x, hrounds⟩, -, hidle⟩ := h.of_status hs
    rw [votesHeld_of_idle hrounds hidle]
    cases x with
    | none => exact .inl rfl
    | some r₂ => exact .inr rfl
  challengeWindow hs := by
    obtain ⟨⟨r₁, r₂, hrounds⟩, hfiled, hcloses, hidle⟩ := h.of_status hs
    exact ⟨votesHeld_of_idle hrounds hidle, hfiled, hcloses⟩
  challengeVoting hs := by
    obtain ⟨⟨r₁, r₂, x, hrounds⟩, hfiled, hcloses, hidle⟩ := h.of_status hs
    refine ⟨?_, hfiled, hcloses⟩
    rw [votesHeld_of_idle hrounds hidle]
    cases x with
    | none => exact .inl rfl
    | some r₃ => exact .inr rfl
  unchallenged hs := by
    simp only [List.mem_cons, List.not_mem_nil, or_false] at hs
    rcases hs with hs | hs | hs <;> exact (h.of_status hs).2.1
  awaiting hs he := by
    have hidle : p.IsIdle := by
      simp only [List.mem_cons, List.not_mem_nil, or_false] at hs
      rcases hs with hs | hs | hs | hs | hs
      · exact (h.of_status hs).2.2
      · exact (h.of_status hs).2.2
      · exact (h.of_status hs).2.2
      · exact (h.of_status hs).2.2.2
      · exact (h.of_status hs).2.2.2
    rw [hidle.track_eq, if_pos he]
  coolingOff hs := by
    obtain ⟨-, w, hw⟩ := h.of_status hs
    simp [isEntrenched, Proposal.coolingOff?, round?, hw, Track.window?, Track.round?]
  confirmationVote hs := by
    obtain ⟨-, w, r, hw⟩ := h.of_status hs
    simp [isEntrenched, Proposal.coolingOff?, round?, hw, Track.window?, Track.round?]
  challenge := h.challengeFiled_of_round
  withdrawn := hwithdrawn
  decided := by
    rw [hdated.decided]
    cases p.status <;> decide

end Proposal

namespace Docket

variable {c : Constitution} {d : Docket}

theorem kept_isDated (c : Constitution) :
    Kept c (fun p => p.Fits ∧ p.IsDated ∧ (p.status = .withdrawn → p.votesCast = 0)) where
  submitted _ _ _ := ⟨Proposal.fits_submitted .., ⟨rfl, rfl⟩, by intro hs; cases hs⟩
  step _ hs h := ⟨h.1.of_step hs, h.2.1.of_step hs, Proposal.votesCast_of_withdrawn h.1 hs⟩
  newPhase {p} h := by
    refine ⟨h.1.underNewPhase, h.2.1.underNewPhase, ?_⟩
    rcases Proposal.underNewPhase_cases p with ⟨hp, -⟩ | ⟨_, -, -, hp⟩ <;> rw [hp]
    · exact h.2.2
    · intro hs
      cases hs

/-- In every run of a new docket the status of every proposal matches its data: the rounds it has,
whether and until when it can be challenged, how far its track has come, and whether it is dated as
decided. -/
theorem status_matches_data (h : create c = .ok d) (requests : List (Action × Instant)) :
    (d.run requests).All Proposal.IsConsistent := by
  intro id p hp
  obtain ⟨hfits, hdated, hwithdrawn⟩ := (kept_isDated c).all_run_of_create h requests id p hp
  exact hfits.isConsistent hdated hwithdrawn

/-- On the longest pathway, when the challenge chamber has just been convened. -/
theorem status_matches_data_challenged :
    ∃ p, ((empty soloConstitution).run (challengedRequests.take 9)).get? 1 = some p ∧
      p.status = .challengeVoting ∧
      p.votesHeld = [.proposal, .ratification, .challenge] ∧ p.isEntrenched = true ∧
      p.track = some .awaiting ∧
      p.IsConsistent := by
  have hcreate : create soloConstitution = .ok (empty soloConstitution) := rfl
  have hrun : (((empty soloConstitution).run (challengedRequests.take 9)).get? 1).map
      (fun p => (p.status, p.votesHeld, p.isEntrenched)) =
        some (.challengeVoting, [.proposal, .ratification, .challenge], true) := by decide +kernel
  obtain ⟨p, hp, hdata⟩ := Option.map_eq_some_iff.mp hrun
  simp only [Prod.mk.injEq] at hdata
  obtain ⟨hstatus, hheld, hentrenched⟩ := hdata
  have hconsistent := status_matches_data hcreate (challengedRequests.take 9) 1 p hp
  have htrack : p.track = some .awaiting :=
    hconsistent.awaiting (by rw [hstatus]; decide) hentrenched
  exact ⟨p, hp, hstatus, hheld, hentrenched, htrack, hconsistent⟩

end Docket

end Charter
