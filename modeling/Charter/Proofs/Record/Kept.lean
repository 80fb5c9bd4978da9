import Charter.Proofs.Docket.Protection
import Charter.Proofs.Proposal.Fits
import Charter.Proofs.Record.Load

/-! # Recordable proposals

Whatever loading asks of a proposal, a submission has and every operation and every new phase keeps,
also if the proposal itself was loaded before. -/

namespace Charter

namespace Text

theorem cutAt_of_not_mem {sep : Char} {s : List Char} (h : sep ∉ s) : cutAt sep s = [s] := by
  induction s with
  | nil => rfl
  | cons c s ih =>
    rw [List.mem_cons, not_or] at h
    simp [cutAt, Ne.symm h.1, ih h.2]

theorem segments_of_isEmptyText {s : String} (h : isEmptyText s = true) : segments s = [s] := by
  have hdot : '.' ∉ s.toList := by
    intro hmem
    have hblank := List.all_eq_true.mp h '.' hmem
    exact absurd hblank (by decide)
  simp [segments, cutAt_of_not_mem hdot]

end Text

namespace Record

variable {c : Constitution} {p q : Proposal} {now : Instant}

theorem isIdle_of_bears {status : Status} (h : Bears status p.track)
    (hs : status ∈ [Status.proposed, .proposalVoting, .ratificationVoting, .challengeWindow,
      .challengeVoting]) :
    p.IsIdle := by
  cases ht : p.track with
  | none => exact .inl ht
  | some track =>
    rw [ht] at h
    cases track with
    | awaiting => exact .inr ht
    | coolingOff w => cases h; exact absurd hs (by decide)
    | confirmation w r => cases status <;> simp_all [Bears]

theorem bears_of_isIdle {s : Status} (h : p.IsIdle)
    (hs : s ∉ [Status.coolingOff, .confirmationVote, .confirmed, .applied]) : Bears s p.track := by
  rcases h with ht | ht <;> rw [ht] <;> cases s <;> simp_all [Bears]

theorem isIdle_of_vote {stage : Stage} (h : Bears p.status p.track)
    (hs : p.status = stage.votingStatus) (hne : stage ≠ .confirmation) : p.IsIdle := by
  refine isIdle_of_bears h ?_
  rw [hs]
  cases stage <;> first | decide | exact absurd rfl hne

theorem bears_of_leaves (hl : p.Leaves c now q) : Bears q.status q.track := by
  cases hl with
  | confirmed standard =>
    rw [Proposal.status_stamp, Proposal.track_stamp, standard]
    simp [Bears]
  | waits => rfl

theorem bears_of_concludes {stage : Stage} {r : Round} {outcome : Outcome}
    (h : Bears p.status p.track) (hs : p.status = stage.votingStatus) (hr : p.round? stage = some r)
    (hc : p.Concludes c now stage outcome q) :
    Bears q.status q.track := by
  have hfailed : ∀ s, s = .lapsed ∨ s = .rejected → Bears s p.track := by
    intro s hs'
    by_cases hstage : stage = .confirmation
    · subst hstage
      obtain ⟨w, ht⟩ := Proposal.track_of_confirmation_round hr
      rcases hs' with rfl | rfl <;> simp [ht, Bears]
    · refine bears_of_isIdle (isIdle_of_vote h hs hstage) ?_
      rcases hs' with rfl | rfl <;> decide
  cases hc with
  | lapsed =>
    rw [Proposal.status_stamp, Proposal.track_stamp]
    exact hfailed _ (.inl rfl)
  | rejected =>
    rw [Proposal.status_stamp, Proposal.track_stamp]
    exact hfailed _ (.inr rfl)
  | proposal =>
    have hidle := isIdle_of_vote h hs (by decide)
    exact bears_of_isIdle (s := .ratificationVoting) hidle (by decide)
  | ratification =>
    have hidle := isIdle_of_vote h hs (by decide)
    exact bears_of_isIdle (s := .challengeWindow) hidle (by decide)
  | challenge leaves => exact bears_of_leaves leaves
  | confirmation =>
    obtain ⟨w, ht⟩ := Proposal.track_of_confirmation_round hr
    rw [Proposal.status_stamp, Proposal.track_stamp, ht]
    exact List.mem_cons_of_mem _ List.mem_cons_self

theorem bears_of_step {op : Operation} {reply : Reply} (h : Bears p.status p.track)
    (hs : p.Step c now op q reply) :
    Bears q.status q.track := by
  cases hs with
  | @selectPanel stage _ members deadline status _ ready _ _ =>
    rw [Proposal.status_putRound]
    by_cases hstage : stage = .confirmation
    · subst hstage
      obtain ⟨w, ht, -⟩ := ready rfl
      simp [Proposal.putRound, Proposal.coolingOff?, ht, Track.window?, Stage.votingStatus, Bears]
    · rw [Proposal.track_putRound_of_ne _ _ _ hstage]
      have hidle : p.IsIdle :=
        isIdle_of_bears h (by rw [status]; cases stage <;> simp_all [Stage.selectionStatus])
      exact bears_of_isIdle (p := p) hidle (by cases stage <;> simp_all [Stage.votingStatus])
  | @cast stage _ _ _ r r' _ status _ running _ =>
    rw [Proposal.status_putRound]
    by_cases hstage : stage = .confirmation
    · subst hstage
      obtain ⟨w, ht⟩ := Proposal.track_of_confirmation_round running
      simp [Proposal.putRound, Proposal.coolingOff?, ht, Track.window?, status,
        Stage.votingStatus, Bears]
    · rw [Proposal.track_putRound_of_ne _ _ _ hstage]
      exact h
  | close status running _ concludes => exact bears_of_concludes h status running concludes
  | challenge status _ =>
    have hidle : p.IsIdle := isIdle_of_bears h (by rw [status]; decide)
    exact bears_of_isIdle (s := .challengeVoting) hidle (by decide)
  | advance _ _ leaves => exact bears_of_leaves leaves
  | startCoolingOff status _ _ => exact status
  | withdraw unvoted =>
    have hidle : p.IsIdle := by
      refine isIdle_of_bears h ?_
      rcases unvoted with hs | ⟨hs, -⟩ <;> rw [hs] <;> decide
    rw [Proposal.status_stamp, Proposal.track_stamp]
    exact bears_of_isIdle hidle (by decide)
  | apply checked _ _ =>
    have hs := (Proposal.checkApplication_eq_ok_iff.mp checked).1
    rw [Proposal.status_stamp, Proposal.track_stamp]
    rw [hs] at h
    cases ht : p.track with
    | none => simp [Bears]
    | some track =>
      rw [ht] at h
      cases track <;> simp_all [Bears]

theorem hasNeededData_of_leaves (hl : p.Leaves c now q) : HasNeededData q := by
  cases hl <;> constructor <;> intro h <;> cases h

theorem hasNeededData_putRound {stage : Stage} (hs : p.status = stage.votingStatus) (r : Round) :
    HasNeededData (p.putRound stage r) := by
  constructor <;> rw [Proposal.status_putRound, hs] <;> intro h
  · cases stage <;> cases h
  · cases stage with
    | proposal => rfl
    | ratification | challenge | confirmation => cases h
  · cases stage <;> cases h
  · cases stage <;> cases h

theorem hasNeededData_of_step {op : Operation} {reply : Reply} (hs : p.Step c now op q reply) :
    HasNeededData q := by
  cases hs with
  | selectPanel => exact hasNeededData_putRound rfl _
  | cast status => exact hasNeededData_putRound status _
  | close _ _ _ concludes =>
    cases concludes with
    | lapsed | rejected | confirmation => constructor <;> intro hq <;> cases hq
    | proposal => constructor <;> intro hq <;> cases hq
    | ratification => constructor <;> simp
    | challenge leaves => exact hasNeededData_of_leaves leaves
  | challenge => constructor <;> intro hq <;> cases hq
  | advance _ _ leaves => exact hasNeededData_of_leaves leaves
  | startCoolingOff status => constructor <;> simp [status]
  | withdraw => constructor <;> intro hq <;> cases hq
  | apply => constructor <;> simp [Proposal.stamp]

theorem IsRecordable.of_step {c' : Constitution} {op : Operation} {reply : Reply}
    (hc : Constitution.InForce c c') (h : IsRecordable p) (hs : p.Step c' now op q reply) :
    IsRecordable q where
  named := by
    rw [(Proposal.SameSubmission.of_step hs).provision]
    exact h.named
  rounds := (Docket.kept_hasSoundRounds c).step hc hs h.rounds
  window := by
    rcases Proposal.coolingOff?_of_step hs with hw | ⟨-, t, ht, hw⟩
    · rw [hw]
      exact h.window
    · rw [hw]
      intro w hmem
      cases hmem
      exact le_of_windowEnd ht
  track := bears_of_step h.track hs
  seats := h.seats.of_step hs
  data := hasNeededData_of_step hs

theorem IsRecordable.underNewPhase (h : IsRecordable p) : IsRecordable p.underNewPhase := by
  have hsame := Proposal.sameSubmission_underNewPhase p
  have hrounds : p.underNewPhase.HasSoundRounds := by
    intro stage r hr
    rw [hsame.id]
    exact h.rounds stage r (Proposal.round?_underNewPhase hr)
  rcases Proposal.underNewPhase_cases p with ⟨hp, -⟩ | ⟨chamber, -, hs, hp⟩
  · rw [hp]
    exact h
  · rw [hp] at hrounds ⊢
    refine ⟨h.named, hrounds, h.window, ?_, hp ▸ h.seats.underNewPhase, ?_⟩
    · have hidle : p.IsIdle := isIdle_of_bears h.track (by rw [hs]; cases chamber <;> decide)
      exact bears_of_isIdle (s := .proposed) hidle (by decide)
    · constructor
      · exact fun _ => rfl
      all_goals
        intro hq
        cases hq

theorem isRecordable_submission {d : Docket} {proposer : VoterId} {key : String}
    {current proposed : Json} {justification : String}
    (permitted : Docket.checkProvision d.constitution key = .ok ()) :
    IsRecordable (d.submission proposer key current proposed justification now) := by
  have hsegments := (Docket.checkProvision_eq_ok_iff.mp permitted).2.1
  have hround : ∀ stage,
      (d.submission proposer key current proposed justification now).round? stage = none :=
    fun stage => Proposal.round?_submitted ..
  refine ⟨?_, ?_, ?_, ?_,
    .of_vacant fun stage => Proposal.panel_eq_nil_of_round? (hround stage), ?_⟩
  · by_contra hblank
    rw [Bool.not_eq_false] at hblank
    have hseg : Text.segments key = [key] := Text.segments_of_isEmptyText hblank
    refine hsegments key ?_ hblank
    rw [hseg]
    exact List.mem_singleton_self key
  · intro stage r hr
    rw [hround] at hr
    cases hr
  · intro w hw
    simp only [Docket.submission, Proposal.submitted, Proposal.coolingOff?] at hw
    split at hw <;> cases hw
  · refine bears_of_isIdle (s := .proposed) ?_ (by decide)
    unfold Proposal.IsIdle Docket.submission Proposal.submitted
    simp only
    split
    · exact .inr rfl
    · exact .inl rfl
  · constructor
    · exact fun _ => rfl
    all_goals
      intro hq
      cases hq

end Record

theorem Docket.kept_isRecordable (c : Constitution) : Kept c Record.IsRecordable where
  submitted _ permitted _ := Record.isRecordable_submission permitted
  step hc hs h := h.of_step hc hs
  newPhase h := h.underNewPhase

end Charter
