import Charter.Proofs.Proposal.Step

/-! # What operations leave alone

What was submitted never changes. A round comes from a selection, grows by ballots, and is otherwise
kept as it is or dropped as a whole. -/

namespace Charter

namespace Proposal

variable {c : Constitution} {p q : Proposal} {now : Instant}

structure SameSubmission (p q : Proposal) : Prop where
  id : q.id = p.id
  proposer : q.proposer = p.proposer
  provision : q.provision = p.provision
  current : q.current = p.current
  proposed : q.proposed = p.proposed
  justification : q.justification = p.justification
  createdAt : q.createdAt = p.createdAt
  isEntrenched : q.isEntrenched = p.isEntrenched

theorem SameSubmission.refl (p : Proposal) : SameSubmission p p :=
  ⟨rfl, rfl, rfl, rfl, rfl, rfl, rfl, rfl⟩

theorem SameSubmission.trans {r : Proposal} (h : SameSubmission p q) (h' : SameSubmission q r) :
    SameSubmission p r where
  id := h'.id.trans h.id
  proposer := h'.proposer.trans h.proposer
  provision := h'.provision.trans h.provision
  current := h'.current.trans h.current
  proposed := h'.proposed.trans h.proposed
  justification := h'.justification.trans h.justification
  createdAt := h'.createdAt.trans h.createdAt
  isEntrenched := h'.isEntrenched.trans h.isEntrenched

theorem sameSubmission_stamp (s : Status) : SameSubmission p (p.stamp s now) := by
  constructor <;> cases s <;> rfl

theorem sameSubmission_putRound (stage : Stage) (r : Round) :
    SameSubmission p (p.putRound stage r) := by
  refine ⟨?_, ?_, ?_, ?_, ?_, ?_, ?_, isEntrenched_putRound ..⟩ <;> rw [putRound_eq]

theorem SameSubmission.of_leaves (h : Leaves c now p q) : SameSubmission p q := by
  cases h with
  | confirmed => exact sameSubmission_stamp _
  | waits ht => exact ⟨rfl, rfl, rfl, rfl, rfl, rfl, rfl, by simp [Proposal.isEntrenched, ht]⟩

theorem SameSubmission.of_step {op : Operation} {reply : Reply} (hs : p.Step c now op q reply) :
    SameSubmission p q := by
  cases hs with
  | @selectPanel stage =>
    have hp : SameSubmission p { p with status := stage.votingStatus } :=
      ⟨rfl, rfl, rfl, rfl, rfl, rfl, rfl, rfl⟩
    exact hp.trans (sameSubmission_putRound _ _)
  | cast => exact sameSubmission_putRound _ _
  | close _ _ _ concludes =>
    cases concludes with
    | lapsed | rejected | confirmation => exact sameSubmission_stamp _
    | proposal | ratification => exact ⟨rfl, rfl, rfl, rfl, rfl, rfl, rfl, rfl⟩
    | challenge leaves => exact .of_leaves leaves
  | challenge => exact ⟨rfl, rfl, rfl, rfl, rfl, rfl, rfl, rfl⟩
  | advance _ _ leaves => exact .of_leaves leaves
  | startCoolingOff _ idle _ =>
    exact ⟨rfl, rfl, rfl, rfl, rfl, rfl, rfl, by simp [Proposal.isEntrenched, idle]⟩
  | withdraw => exact sameSubmission_stamp _
  | apply => exact sameSubmission_stamp _

theorem round?_submitted (id : UInt64) (proposer : VoterId) (key : String) (current proposed : Json)
    (justification : String) (entrenched : Bool) (stage : Stage) :
    (submitted id proposer key current proposed justification entrenched now).round? stage =
      none := by
  cases entrenched <;> cases stage <;> rfl

theorem isSome_coolingOff?_of_round {stage : Stage} {r : Round} (h : p.round? stage = some r) :
    stage = .confirmation → p.coolingOff?.isSome = true := by
  rintro rfl
  obtain ⟨w, hw⟩ := track_of_confirmation_round h
  simp [coolingOff?, hw, Track.window?]

theorem round?_putRound_of_selection {stage : Stage}
    (ready : stage = .confirmation → ∃ w, p.track = some (.coolingOff w) ∧ w.endsAt ≤ now)
    (s : Status) (r : Round) (t : Stage) :
    ({ p with status := s }.putRound stage r).round? t = if t = stage then some r else
    p.round? t := by
  have hw : stage = .confirmation →
      ({ p with status := s } : Proposal).coolingOff?.isSome = true := by
    intro hc
    obtain ⟨w, hw, -⟩ := ready hc
    simp [coolingOff?, hw, Track.window?]
  rw [round?_putRound hw]
  cases t <;> rfl

theorem round?_putRound_of_round {stage : Stage} {r : Round} (running : p.round? stage = some r)
    (r' : Round) (t : Stage) :
    (p.putRound stage r').round? t = if t = stage then some r' else p.round? t :=
  round?_putRound (isSome_coolingOff?_of_round running) r' t

theorem round?_of_leaves (h : Leaves c now p q) (stage : Stage) :
    q.round? stage = p.round? stage := by
  cases h with
  | confirmed => exact round?_stamp ..
  | waits ht _ => cases stage <;> simp [round?, ht, Track.round?]

theorem round?_of_concludes {stage : Stage} {outcome : Outcome}
    (h : Concludes c now p stage outcome q) (t : Stage) :
    q.round? t = p.round? t := by
  cases h with
  | lapsed | rejected | confirmation => exact round?_stamp ..
  | proposal | ratification => cases t <;> rfl
  | challenge leaves => exact round?_of_leaves leaves t

/-- What an operation can have done to the round of a vote. -/
inductive RoundStep (c : Constitution) (now : Instant) (p : Proposal) (stage : Stage) :
    Option Round → Prop
  | kept : RoundStep c now p stage (p.round? stage)
  | dropped (challenge : stage = .challenge) : RoundStep c now p stage none
  | opened {candidates members : List Voter} {deadline : Instant} (vacant : p.round? stage = none)
      (selected : Panel.select candidates (c.diversity.quota (c.composition stage))
        (p.recused stage) = .ok members)
      (window : windowEnd now c.timing.votingWindow = .ok deadline) :
      RoundStep c now p stage (some (Round.ofMembers (c.composition stage) members now deadline))
  | recorded {voter : VoterId} {approve : Bool} {attestation : String} {r r' : Round} {id : Digest}
      (attested : Text.isEmptyText attestation = false) (running : p.round? stage = some r)
      (record : r.record p.id stage voter approve attestation now = .ok (r', id)) :
      RoundStep c now p stage (some r')

theorem RoundStep.of_eq {stage : Stage} {x : Option Round} (h : x = p.round? stage) :
    RoundStep c now p stage x :=
  h ▸ .kept

theorem roundStep_of_step {op : Operation} {reply : Reply} (hs : p.Step c now op q reply)
    (t : Stage) :
    RoundStep c now p t (q.round? t) := by
  cases hs with
  | @selectPanel stage _ members deadline status vacant ready selected window =>
    rw [round?_putRound_of_selection ready]
    split
    · rename_i ht
      subst ht
      exact .opened vacant selected window
    · exact .kept
  | cast _ attested running record =>
    rw [round?_putRound_of_round running]
    split
    · rename_i ht
      subst ht
      exact .recorded attested running record
    · exact .kept
  | close _ _ _ concludes => exact .of_eq (round?_of_concludes concludes t)
  | challenge =>
    cases t with
    | challenge => exact .dropped rfl
    | proposal | ratification | confirmation => exact .kept
  | advance _ _ leaves => exact .of_eq (round?_of_leaves leaves t)
  | startCoolingOff _ idle _ => exact .of_eq (by cases t <;> simp [round?, idle, Track.round?])
  | withdraw => exact .of_eq (round?_stamp ..)
  | apply => exact .of_eq (round?_stamp ..)

/-- A cooling-off window is recorded once, when it starts, and stays. -/
theorem coolingOff?_of_step {op : Operation} {reply : Reply} (hs : p.Step c now op q reply) :
    q.coolingOff? = p.coolingOff? ∨ p.coolingOff? = none ∧
      ∃ t, windowEnd now c.timing.coolingOff = .ok t ∧ q.coolingOff? = some ⟨now, t⟩ := by
  have hleaves : ∀ {q : Proposal}, Leaves c now p q → q.coolingOff? = p.coolingOff? ∨
      p.coolingOff? = none ∧
      ∃ t, windowEnd now c.timing.coolingOff = .ok t ∧ q.coolingOff? = some ⟨now, t⟩ := by
    intro q hl
    cases hl with
    | confirmed => exact .inl (coolingOff?_stamp ..)
    | @waits t ht hw => exact .inr ⟨by simp [coolingOff?, ht, Track.window?], t, hw, rfl⟩
  cases hs with
  | selectPanel => exact .inl (coolingOff?_putRound ..)
  | cast => exact .inl (coolingOff?_putRound ..)
  | close _ _ _ concludes =>
    cases concludes with
    | lapsed | rejected | confirmation => exact .inl (coolingOff?_stamp ..)
    | proposal | ratification => exact .inl rfl
    | challenge leaves => exact hleaves leaves
  | challenge => exact .inl rfl
  | advance _ _ leaves => exact hleaves leaves
  | @startCoolingOff t _ idle hw =>
    exact .inr ⟨by simp [coolingOff?, idle, Track.window?], t, hw, rfl⟩
  | withdraw => exact .inl (coolingOff?_stamp ..)
  | apply => exact .inl (coolingOff?_stamp ..)

theorem leadsTo_of_leaves (h : Leaves c now p q)
    (hs : p.status = .challengeWindow ∨ p.status = .challengeVoting) :
    p.status.leadsTo p.isEntrenched q.status = true := by
  cases h with
  | confirmed standard =>
    rw [status_stamp]
    rcases hs with hs | hs <;> simp [hs, isEntrenched, standard, Status.leadsTo]
  | waits entrenched =>
    rcases hs with hs | hs <;> simp [hs, isEntrenched, entrenched, Status.leadsTo]

/-- An operation keeps the status or moves it along an edge of the pathway. -/
theorem leadsTo_of_step {op : Operation} {reply : Reply} (hs : p.Step c now op q reply) :
    q.status = p.status ∨ p.status.leadsTo p.isEntrenched q.status = true := by
  cases hs with
  | @selectPanel stage _ _ _ status _ ready _ _ =>
    rw [status_putRound, status]
    cases stage with
    | proposal => exact .inr rfl
    | ratification | challenge => exact .inl rfl
    | confirmation =>
      obtain ⟨w, hw, -⟩ := ready rfl
      exact .inr
        (by simp [isEntrenched, hw, Stage.selectionStatus, Stage.votingStatus, Status.leadsTo])
  | cast => exact .inl (status_putRound ..)
  | close status running _ concludes =>
    have hfailure := leadsTo_failure status running
    cases concludes with
    | lapsed =>
      rw [status_stamp]
      exact .inr hfailure.1
    | rejected =>
      rw [status_stamp]
      exact .inr hfailure.2
    | proposal =>
      rw [status]
      exact .inr rfl
    | ratification =>
      rw [status]
      exact .inr rfl
    | challenge leaves => exact .inr (leadsTo_of_leaves leaves (.inr status))
    | confirmation =>
      obtain ⟨w, hw⟩ := track_of_confirmation_round running
      rw [status_stamp, status]
      exact .inr (by simp [isEntrenched, hw, Stage.votingStatus, Status.leadsTo])
  | challenge status =>
    rw [status]
    exact .inr rfl
  | advance status _ leaves => exact .inr (leadsTo_of_leaves leaves (.inl status))
  | startCoolingOff => exact .inl rfl
  | withdraw unvoted =>
    rw [status_stamp]
    rcases unvoted with hs | ⟨hs, -⟩ <;> rw [hs] <;> exact .inr rfl
  | apply checked =>
    rw [status_stamp, (checkApplication_eq_ok_iff.mp checked).1]
    exact .inr rfl

theorem status_ne_of_concludes {stage : Stage} {outcome : Outcome}
    (h : Concludes c now p stage outcome q) :
    q.status ≠ stage.votingStatus := by
  cases h with
  | lapsed | rejected =>
    rw [status_stamp]
    cases stage <;> decide
  | proposal | ratification => simp [Stage.votingStatus]
  | challenge leaves => cases leaves <;> simp [Stage.votingStatus]
  | confirmation => simp [Stage.votingStatus]

theorem isTerminal_eq_false_of_step {op : Operation} {reply : Reply}
    (hs : p.Step c now op q reply) :
    p.status.isTerminal = false := by
  cases hs with
  | @selectPanel stage _ _ _ status =>
    rw [status]
    cases stage <;> rfl
  | @cast stage _ _ _ _ _ _ status | @close stage _ _ _ status =>
    rw [status]
    cases stage <;> rfl
  | challenge status | advance status | startCoolingOff status =>
    rw [status]
    rfl
  | withdraw unvoted => rcases unvoted with status | ⟨status, -⟩ <;> rw [status] <;> rfl
  | apply checked =>
    rw [(checkApplication_eq_ok_iff.mp checked).1]
    rfl

theorem status_eq_of_openChamber? {chamber : Chamber} (h : p.status.openChamber? = some chamber) :
    p.status = chamber.votingStatus := by
  cases hs : p.status <;> simp [hs, Status.openChamber?] at h <;> rw [← h] <;> rfl

theorem disposition_eq_reset_iff {chamber : Chamber} :
    p.disposition = .reset chamber ↔ p.status.openChamber? = some chamber ∧
    p.ballots chamber.stage = [] := by
  unfold disposition
  cases hs : p.status.openChamber? with
  | none => simp
  | some d =>
    by_cases hb : p.ballots d.stage = []
    · simp only [hb, if_true, Disposition.reset.injEq, Option.some.injEq]
      constructor
      · rintro rfl
        exact ⟨rfl, hb⟩
      · exact And.left
    · simp only [hb, if_false, reduceCtorEq, Option.some.injEq, false_iff, not_and]
      rintro rfl
      exact hb

/-- A new phase leaves a proposal alone or takes it from an open chamber without ballots back to the
start. -/
theorem underNewPhase_cases (p : Proposal) :
    p.underNewPhase = p ∧ (∀ chamber, p.disposition ≠ .reset chamber) ∨
      ∃ chamber, p.disposition = .reset chamber ∧ p.status = chamber.votingStatus ∧
        p.underNewPhase = p.restarted := by
  cases h : p.disposition with
  | reset chamber =>
    refine .inr ⟨chamber, rfl, status_eq_of_openChamber? (disposition_eq_reset_iff.mp h).1, ?_⟩
    rw [underNewPhase, h]
  | retained chamber => exact .inl ⟨by rw [underNewPhase, h], by simp⟩
  | untouched => exact .inl ⟨by rw [underNewPhase, h], by simp⟩

theorem sameSubmission_underNewPhase (p : Proposal) : SameSubmission p p.underNewPhase := by
  unfold underNewPhase
  split <;> exact ⟨rfl, rfl, rfl, rfl, rfl, rfl, rfl, rfl⟩

theorem round?_restarted {stage : Stage} {r : Round} (h : p.restarted.round? stage = some r) :
    p.round? stage = some r := by
  cases stage <;> first | exact h | cases h

theorem round?_underNewPhase {stage : Stage} {r : Round}
    (h : p.underNewPhase.round? stage = some r) :
    p.round? stage = some r := by
  rcases underNewPhase_cases p with ⟨hp, -⟩ | ⟨_, -, -, hp⟩ <;> rw [hp] at h
  · exact h
  · exact round?_restarted h

end Proposal

end Charter
