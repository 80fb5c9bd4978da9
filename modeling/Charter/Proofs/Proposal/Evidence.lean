import Charter.Proofs.Proposal.Fits
import Charter.Proofs.Round

/-! # Evidence

The status of a proposal says which votes it has behind it, and each of them that was held has
passed. A confirmed proposal therefore holds the rounds of its whole pathway, and the check before
the application finds nothing amiss. -/

namespace Charter

def Status.behind : Status → List Stage
  | .ratificationVoting => [.proposal]
  | .challengeWindow | .challengeVoting => [.proposal, .ratification]
  | .coolingOff | .confirmationVote => [.proposal, .ratification, .challenge]
  | .confirmed | .applied => Stage.all
  | _ => []

namespace Proposal

variable {c : Constitution} {t : Thresholds} {p q : Proposal} {now : Instant}

/-- Each vote behind the proposal that was held has passed. -/
def Evident (t : Thresholds) (p : Proposal) : Prop :=
  ∀ stage ∈ p.status.behind, ∀ r, p.round? stage = some r → r.Passes t p.isEntrenched

/-- A confirmed proposal: the rounds of its whole pathway are there, and all of them passed. -/
structure IsAttested (t : Thresholds) (p : Proposal) : Prop where
  proposal : (p.round? .proposal).isSome = true
  ratification : (p.round? .ratification).isSome = true
  challenge : (p.round? .challenge).isSome = true ↔ p.challengeFiled = true
  confirmation : p.isEntrenched = true → ∃ w r, p.track = some (.confirmation w r)
  threshold : ∀ stage r, p.round? stage = some r → r.composition.passThreshold.toNat ≤ r.tally.yes
  entrenched : p.isEntrenched = true → ∀ stage r, p.round? stage = some r →
    r.tally.ParticipationReaches t.entrenchedParticipation.toNat ∧
      r.tally.YesShareReaches t.supermajority.toNat

theorem Evident.mono (h : p.Evident t) (he : q.isEntrenched = p.isEntrenched)
    (hr : ∀ stage ∈ q.status.behind, ∀ r, q.round? stage = some r → stage ∈ p.status.behind ∧
      p.round? stage = some r ∨ r.Passes t p.isEntrenched) :
    q.Evident t := by
  intro stage hs r hq
  rw [he]
  rcases hr stage hs r hq with ⟨hs', hp⟩ | hpass
  · exact h stage hs' r hp
  · exact hpass

/-- The votes behind a proposal stay behind it when a panel is selected, and the new vote is not
among them. -/
theorem behind_votingStatus (stage : Stage) :
    stage.votingStatus.behind = stage.selectionStatus.behind ∧
    stage ∉ stage.votingStatus.behind := by
  cases stage <;> decide

theorem hasEntrenchedRules_of_round {stage : Stage} {r : Round} (h : p.round? stage = some r) :
    p.hasEntrenchedRules stage = p.isEntrenched := by
  cases stage with
  | confirmation =>
    obtain ⟨w, hw⟩ := track_of_confirmation_round h
    simp [hasEntrenchedRules, isEntrenched, hw]
  | proposal | ratification | challenge => simp [hasEntrenchedRules]

theorem round?_confirmation_of_standard (h : p.track = none) : p.round? .confirmation = none := by
  simp [round?, h]

theorem Evident.of_leaves
    (h : ∀ stage ∈ [Stage.proposal, .ratification, .challenge], ∀ r, p.round? stage = some r →
      r.Passes t p.isEntrenched)
    (hl : Leaves c now p q) : q.Evident t := by
  have he := (SameSubmission.of_leaves hl).isEntrenched
  have hr := round?_of_leaves hl
  intro stage hs r hq
  rw [hr] at hq
  rw [he]
  refine h stage ?_ r hq
  cases hl with
  | confirmed standard =>
    cases stage with
    | confirmation =>
      rw [round?_confirmation_of_standard standard] at hq
      cases hq
    | proposal | ratification | challenge => simp
  | waits => exact hs

theorem Evident.of_concludes {stage : Stage} {r₀ : Round} {outcome : Outcome} (h : p.Evident t)
    (status : p.status = stage.votingStatus) (running : p.round? stage = some r₀)
    (passed : outcome = .passed → r₀.Passes t p.isEntrenched)
    (hc : Concludes c now p stage outcome q) :
    q.Evident t := by
  have hnew : outcome = .passed → ∀ s ∈ p.status.behind ++ [stage], ∀ r, p.round? s = some r →
      r.Passes t p.isEntrenched := by
    intro hpass s hs r hr
    rcases List.mem_append.mp hs with hs | hs
    · exact h s hs r hr
    · rw [List.mem_singleton.mp hs, running] at hr
      cases hr
      exact passed hpass
  cases hc with
  | lapsed | rejected =>
    intro s hs
    simp [Status.behind] at hs
  | proposal | ratification =>
    rw [status] at hnew
    exact hnew rfl
  | challenge leaves =>
    rw [status] at hnew
    exact .of_leaves (hnew rfl) leaves
  | confirmation =>
    rw [status] at hnew
    intro s hs r hr
    rw [round?_stamp] at hr
    rw [isEntrenched_stamp]
    exact hnew rfl s (by cases s <;> decide) r hr

theorem Evident.of_step {op : Operation} {reply : Reply} (h : p.Evident c.thresholds)
    (hfits : p.Fits) (hs : p.Step c now op q reply) : q.Evident c.thresholds := by
  have he := (SameSubmission.of_step hs).isEntrenched
  cases hs with
  | @selectPanel stage _ _ _ status _ ready _ _ =>
    refine h.mono he ?_
    intro s hs r hr
    rw [status_putRound] at hs
    have hne : s ≠ stage := by
      rintro rfl
      exact (behind_votingStatus s).2 hs
    rw [round?_putRound_of_selection ready, if_neg hne] at hr
    refine .inl ⟨?_, hr⟩
    rw [status, ← (behind_votingStatus stage).1]
    exact hs
  | @cast stage _ _ _ _ _ _ status _ running _ =>
    refine h.mono he ?_
    intro s hs r hr
    rw [status_putRound] at hs
    have hne : s ≠ stage := by
      rintro rfl
      rw [status] at hs
      exact (behind_votingStatus s).2 hs
    rw [round?_putRound_of_round running, if_neg hne] at hr
    exact .inl ⟨hs, hr⟩
  | close status running decided concludes =>
    refine h.of_concludes status running ?_ concludes
    rintro rfl
    rw [hasEntrenchedRules_of_round running] at decided
    exact (Round.decide_eq_passed_iff.mp decided).2
  | challenge status _ =>
    refine h.mono he ?_
    intro s hs r hr
    refine .inl ⟨by rw [status]; exact hs, ?_⟩
    cases s with
    | challenge => cases hr
    | proposal | ratification | confirmation => exact hr
  | advance status _ leaves =>
    refine .of_leaves ?_ leaves
    obtain ⟨⟨r₁, r₂, hrounds⟩, -⟩ := hfits.of_status status
    intro s hs r hr
    refine h s ?_ r hr
    rw [status]
    cases s with
    | challenge => simp [round?, hrounds] at hr
    | proposal | ratification => decide
    | confirmation => exact absurd hs (by decide)
  | startCoolingOff status idle _ =>
    refine h.mono he ?_
    intro s hs r hr
    refine .inl ⟨hs, ?_⟩
    cases s with
    | confirmation => simp [round?, Track.round?] at hr
    | proposal | ratification | challenge => exact hr
  | withdraw =>
    intro s hs
    simp [Status.behind] at hs
  | apply checked _ _ =>
    refine h.mono he ?_
    intro s hs r hr
    rw [status_stamp] at hs
    rw [round?_stamp] at hr
    refine .inl ⟨?_, hr⟩
    rw [(checkApplication_eq_ok_iff.mp checked).1]
    exact hs

theorem Evident.underNewPhase (h : p.Evident t) : p.underNewPhase.Evident t := by
  rcases underNewPhase_cases p with ⟨hp, -⟩ | ⟨_, -, -, hp⟩ <;> rw [hp]
  · exact h
  · intro s hs
    simp [restarted, Status.behind] at hs

/-- Where status and data fit, evidence makes a confirmed proposal attested. -/
theorem Evident.isAttested (h : p.Evident t) (hfits : p.Fits)
    (hs : p.status = .confirmed ∨ p.status = .applied) :
    p.IsAttested t := by
  have hpass : ∀ stage r, p.round? stage = some r → r.Passes t p.isEntrenched := by
    intro stage r hr
    refine h stage ?_ r hr
    rcases hs with hs | hs <;> rw [hs] <;> cases stage <;> decide
  have hdata : p.FitsStatus .confirmed := by
    rcases hs with hs | hs
    · exact hfits.of_status hs
    · have happlied : p.FitsStatus .applied := hfits.of_status hs
      exact happlied
  obtain ⟨⟨⟨r₁, r₂, x, hrounds, hfiled⟩, -⟩, htrack⟩ := hdata
  refine ⟨by simp [round?, hrounds], by simp [round?, hrounds], by simp [round?, hrounds, hfiled],
    ?_, ?_, ?_⟩
  · intro he
    rcases htrack with ht | ht
    · simp [isEntrenched, ht] at he
    · exact ht
  · intro stage r hr
    exact (hpass stage r hr).1
  · intro he stage r hr
    exact (hpass stage r hr).2 he

theorem IsAttested.checkApplication (h : p.IsAttested t) (hsound : p.HasSoundRounds)
    (hs : p.status = .confirmed) :
    p.checkApplication = .ok () := by
  have hballots : ∀ stage, (p.round? stage).isSome = true → p.ballots stage ≠ [] := by
    intro stage hr
    obtain ⟨r, hr⟩ := Option.isSome_iff_exists.mp hr
    have hpass : r.Passes t p.isEntrenched :=
      ⟨h.threshold stage r hr, fun he => h.entrenched he stage r hr⟩
    simpa [ballots, hr] using (hsound stage r hr).ballots_ne_nil hpass
  refine checkApplication_eq_ok_iff.mpr ⟨hs, hballots _ h.proposal,
    hballots _ h.ratification, ?_, ?_⟩
  · intro he
    obtain ⟨w, r, ht⟩ := h.confirmation he
    simp [coolingOff?, ht, Track.window?]
  · intro he
    obtain ⟨w, r, ht⟩ := h.confirmation he
    exact hballots _ (by simp [round?, ht, Track.round?])

end Proposal

namespace Docket

theorem kept_evident (c : Constitution) : Kept c (fun p => p.Fits ∧ p.Evident c.thresholds) where
  submitted _ _ _ := by
    refine ⟨Proposal.fits_submitted .., ?_⟩
    intro s hs
    cases hs
  step hc hs h := by
    refine ⟨h.1.of_step hs, ?_⟩
    have ht := congrArg Constitution.thresholds hc.amended
    rw [← ht] at h ⊢
    exact h.2.of_step h.1 hs
  newPhase h := ⟨h.1.underNewPhase, h.2.underNewPhase⟩

/-- In every run of a new docket a proposal that is confirmed or applied holds the rounds of its
whole pathway, all of them passed; and exactly the confirmed proposals may be applied. -/
theorem confirmed_is_attested {c : Constitution} {d : Docket} (h : create c = .ok d)
    (requests : List (Action × Instant)) :
    (d.run requests).All (fun p => p.status = .confirmed ∨ p.status = .applied →
      p.IsAttested c.thresholds) ∧
      ∀ id, (d.run requests).checkApplication id = .ok () ↔
        ∃ p, (d.run requests).get? id = some p ∧ p.status = .confirmed := by
  have hattested : (d.run requests).All (fun p => p.status = .confirmed ∨ p.status = .applied →
      p.IsAttested c.thresholds) := by
    intro id p hp hs
    obtain ⟨hfits, hevident⟩ := (kept_evident c).all_run_of_create h requests id p hp
    exact hevident.isAttested hfits hs
  refine ⟨hattested, ?_⟩
  intro id
  simp only [checkApplication, except_bind_eq_ok_iff, demand_eq_ok_iff]
  refine exists_congr fun p => and_congr_right fun hp => ?_
  constructor
  · intro hcheck
    exact (Proposal.checkApplication_eq_ok_iff.mp hcheck).1
  · intro hs
    have hsound := (kept_hasSoundRounds c).all_run_of_create h requests id p hp
    exact (hattested id p hp (.inl hs)).checkApplication hsound hs

/-- The shortest and the longest pathway end with a confirmed proposal, which is attested and may be
applied. Before its last vote is closed it may not be. -/
theorem confirmed_is_attested_challenged :
    let solo := (empty soloConstitution).run (soloRequests "fees" .null (.bool true))
    let unfinished := (empty soloConstitution).run (challengedRequests.take 13)
    let d := (empty soloConstitution).run challengedRequests
    (∃ p, solo.get? 1 = some p ∧ p.IsAttested soloConstitution.thresholds ∧
      solo.checkApplication 1 = .ok ()) ∧
    unfinished.checkApplication 1 ≠ .ok () ∧
    ∃ p w r, d.get? 1 = some p ∧ p.isEntrenched = true ∧ p.challengeFiled = true ∧
      (p.round? .challenge).isSome = true ∧ p.track = some (.confirmation w r) ∧
      p.IsAttested soloConstitution.thresholds ∧ d.checkApplication 1 = .ok () := by
  intro solo unfinished d
  have hcreate : create soloConstitution = .ok (empty soloConstitution) := rfl
  have hsolo : (solo.get? 1).map Proposal.status = some .confirmed := by decide +kernel
  have hvoting : (unfinished.get? 1).map Proposal.status = some .confirmationVote := by
    decide +kernel
  have hrun : (d.get? 1).map (fun p => (p.status, p.isEntrenched, p.challengeFiled)) =
      some (.confirmed, true, true) := by decide +kernel
  refine ⟨?_, ?_, ?_⟩
  · obtain ⟨p, hp, hs⟩ := Option.map_eq_some_iff.mp hsolo
    obtain ⟨hattested, hcheck⟩ :=
      confirmed_is_attested hcreate (soloRequests "fees" .null (.bool true))
    exact ⟨p, hp, hattested 1 p hp (.inl hs), (hcheck 1).mpr ⟨p, hp, hs⟩⟩
  · intro happlicable
    obtain ⟨-, hcheck⟩ := confirmed_is_attested hcreate (challengedRequests.take 13)
    obtain ⟨p, hp, hs⟩ := (hcheck 1).mp happlicable
    rw [hp, Option.map_some, hs] at hvoting
    cases hvoting
  · obtain ⟨p, hp, hdata⟩ := Option.map_eq_some_iff.mp hrun
    simp only [Prod.mk.injEq] at hdata
    obtain ⟨hs, hentrenched, hfiled⟩ := hdata
    obtain ⟨hattested, hcheck⟩ := confirmed_is_attested hcreate challengedRequests
    have hp' := hattested 1 p hp (.inl hs)
    obtain ⟨w, r, htrack⟩ := hp'.confirmation hentrenched
    exact ⟨p, w, r, hp, hentrenched, hfiled, hp'.challenge.mpr hfiled, htrack, hp',
      (hcheck 1).mpr ⟨p, hp, hs⟩⟩

end Docket

end Charter
