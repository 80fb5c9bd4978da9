import Charter.Proofs.Round

/-! # Seats

Nobody has two seats on the chambers' panels, those who confirm have not ratified, and the proposer
has no seat. -/

namespace Charter

namespace Proposal

variable {c : Constitution} {p q : Proposal} {now : Instant}

def chamberSeats (p : Proposal) : List VoterId := Chamber.all.flatMap (fun c => p.panel c.stage)

/-- The panels keep apart as they must. -/
structure KeepsApart (p : Proposal) : Prop where
  chambers : p.chamberSeats.Nodup
  confirmation : (p.panel .confirmation).Nodup
  ratifiers : ∀ v ∈ p.panel .confirmation, v ∉ p.panel .ratification
  proposer : ∀ stage, p.proposer ∉ p.panel stage

theorem panel_congr {stage : Stage} (h : q.round? stage = p.round? stage) :
    q.panel stage = p.panel stage := by
  rw [panel, panel, h]

theorem panel_eq_of_round? {stage : Stage} {r : Round} (h : p.round? stage = some r) :
    p.panel stage = r.panel := by
  simp [panel, h]

theorem panel_eq_nil_of_round? {stage : Stage} (h : p.round? stage = none) :
    p.panel stage = [] := by simp [panel, h]

theorem chamberSeats_eq (p : Proposal) :
    p.chamberSeats = p.panel .proposal ++ (p.panel .ratification ++ p.panel .challenge) := by
  simp [chamberSeats, Chamber.all, Chamber.stage]

theorem mem_recused_of_mem_panel {stage t : Stage} {v : VoterId} (h : stage ≠ .confirmation)
    (hv : v ∈ p.panel t) :
    v ∈ p.recused stage := by
  have hseated : v ∈ p.seated := List.mem_flatMap.mpr ⟨t, by cases t <;> decide, hv⟩
  cases stage with
  | proposal | ratification | challenge => exact List.mem_cons_of_mem _ hseated
  | confirmation => exact absurd rfl h

theorem proposer_mem_recused (p : Proposal) (stage : Stage) : p.proposer ∈ p.recused stage := by
  cases stage <;> exact List.mem_cons_self

/-- What an operation can have done to the panels: nothing, the challenge panel is dropped, or one
is filled from the roster that came with the operation. -/
theorem filled_of_step {op : Operation} {reply : Reply} (hs : p.Step c now op q reply) :
    (∀ t, q.panel t = p.panel t) ∨ (∀ t, q.panel t = if t = .challenge then [] else p.panel t) ∨
      ∃ stage candidates members, op = .selectPanel stage candidates ∧
        Panel.select candidates (c.diversity.quota (c.composition stage)) (p.recused stage) =
          .ok members ∧
        ∀ t, q.panel t = if t = stage then members.map Voter.id else p.panel t := by
  cases hs with
  | @selectPanel stage candidates members deadline status _ ready selected _ =>
    refine .inr (.inr ⟨stage, candidates, members, rfl, selected, fun t => ?_⟩)
    rw [panel, round?_putRound_of_selection ready]
    split <;> rfl
  | @cast stage _ _ _ _ _ _ _ _ running record =>
    obtain ⟨-, -, -, -, _, -, rfl⟩ := Round.record_eq_ok_iff.mp record
    refine .inl fun t => ?_
    rw [panel, round?_putRound_of_round running]
    split
    · rename_i ht
      subst ht
      exact (panel_eq_of_round? running).symm
    · rfl
  | close _ _ _ concludes => exact .inl fun t => panel_congr (round?_of_concludes concludes t)
  | challenge => exact .inr (.inl fun t => by cases t <;> rfl)
  | advance _ _ leaves => exact .inl fun t => panel_congr (round?_of_leaves leaves t)
  | startCoolingOff _ idle _ =>
    exact .inl fun t => panel_congr (by cases t <;> simp [round?, idle, Track.round?])
  | withdraw => exact .inl fun t => panel_congr (round?_stamp ..)
  | apply => exact .inl fun t => panel_congr (round?_stamp ..)

theorem panel_of_step {op : Operation} {reply : Reply} (hs : p.Step c now op q reply) :
    (∀ t, q.panel t = p.panel t) ∨ (∀ t, q.panel t = if t = .challenge then [] else p.panel t) ∨
      ∃ stage members, members.Nodup ∧ (∀ v ∈ members, v ∉ p.recused stage) ∧
        ∀ t, q.panel t = if t = stage then members else p.panel t := by
  rcases filled_of_step hs with hsame | hdropped |
    ⟨stage, candidates, members, -, selected, hpanels⟩
  · exact .inl hsame
  · exact .inr (.inl hdropped)
  · refine .inr (.inr ⟨stage, members.map Voter.id, Panel.nodup_of_select selected, ?_, hpanels⟩)
    intro v hv
    obtain ⟨w, hw, rfl⟩ := List.mem_map.mp hv
    exact Panel.not_mem_excluded_of_select selected w hw

theorem KeepsApart.of_panel_eq (h : p.KeepsApart) (hp : q.proposer = p.proposer)
    (hq : ∀ t, q.panel t = p.panel t) : q.KeepsApart := by
  obtain ⟨h₁, h₂, h₃, h₄⟩ := h
  rw [chamberSeats_eq] at h₁
  constructor <;> simpa only [chamberSeats_eq, hq, hp]

theorem KeepsApart.of_challenge_dropped (h : p.KeepsApart) (hp : q.proposer = p.proposer)
    (hq : ∀ t, q.panel t = if t = .challenge then [] else p.panel t) : q.KeepsApart := by
  obtain ⟨h₁, h₂, h₃, h₄⟩ := h
  rw [chamberSeats_eq, ← List.append_assoc] at h₁
  refine ⟨?_, ?_, ?_, ?_⟩
  · simpa [chamberSeats_eq, hq] using (List.nodup_append.mp h₁).1
  · simpa [hq] using h₂
  · simpa [hq] using h₃
  · intro stage
    rw [hq, hp]
    split
    · simp
    · exact h₄ stage

theorem KeepsApart.of_selected {stage : Stage} {members : List VoterId} (h : p.KeepsApart)
    (hp : q.proposer = p.proposer) (distinct : members.Nodup)
    (eligible : ∀ v ∈ members, v ∉ p.recused stage)
    (hq : ∀ t, q.panel t = if t = stage then members else p.panel t) : q.KeepsApart := by
  have hproposer : p.proposer ∉ members := fun hv => eligible _ hv (proposer_mem_recused p stage)
  -- those who confirm are only kept apart from the ratifiers, so they may sit on other panels
  have hothers : stage ≠ .confirmation → ∀ t, ∀ v ∈ members, v ∉ p.panel t :=
    fun hs t v hv hvt => eligible v hv (mem_recused_of_mem_panel hs hvt)
  obtain ⟨h₁, h₂, h₃, h₄⟩ := h
  rw [chamberSeats_eq] at h₁
  simp only [List.nodup_append, List.mem_append] at h₁
  obtain ⟨hp₁, ⟨hp₂, hp₃, h₂₃⟩, h₁₂₃⟩ := h₁
  have hpro : ∀ t, q.proposer ∉ q.panel t := by
    intro t
    rw [hq, hp]
    split
    · exact hproposer
    · exact h₄ t
  refine ⟨?_, ?_, ?_, hpro⟩
  · simp only [chamberSeats_eq, hq, List.nodup_append, List.mem_append]
    cases stage with
    | proposal =>
      have hm := hothers (by decide)
      refine ⟨distinct, ⟨hp₂, hp₃, h₂₃⟩, ?_⟩
      rintro v hv w (hw | hw) rfl
      · exact hm .ratification v hv hw
      · exact hm .challenge v hv hw
    | ratification =>
      have hm := hothers (by decide)
      refine ⟨hp₁, ⟨distinct, hp₃, ?_⟩, ?_⟩
      · rintro v hv w hw rfl
        exact hm .challenge v hv hw
      · rintro v hv w (hw | hw) rfl
        · exact hm .proposal v hw hv
        · exact h₁₂₃ v hv v (.inr hw) rfl
    | challenge =>
      have hm := hothers (by decide)
      refine ⟨hp₁, ⟨hp₂, distinct, ?_⟩, ?_⟩
      · rintro v hv w hw rfl
        exact hm .ratification v hw hv
      · rintro v hv w (hw | hw) rfl
        · exact h₁₂₃ v hv v (.inl hw) rfl
        · exact hm .proposal v hw hv
    | confirmation => exact ⟨hp₁, ⟨hp₂, hp₃, h₂₃⟩, h₁₂₃⟩
  · rw [hq]
    split
    · exact distinct
    · exact h₂
  · intro v hv hr
    rw [hq] at hv hr
    cases stage with
    | confirmation => exact eligible v hv (List.mem_cons_of_mem _ hr)
    | ratification => exact hothers (by decide) .confirmation v hr hv
    | proposal | challenge => exact h₃ v hv hr

theorem KeepsApart.of_step {op : Operation} {reply : Reply} (h : p.KeepsApart)
    (hs : p.Step c now op q reply) :
    q.KeepsApart := by
  have hp := (SameSubmission.of_step hs).proposer
  rcases panel_of_step hs with hq | hq | ⟨stage, members, distinct, eligible, hq⟩
  · exact h.of_panel_eq hp hq
  · exact h.of_challenge_dropped hp hq
  · exact h.of_selected hp distinct eligible hq

theorem KeepsApart.of_vacant (h : ∀ stage, p.panel stage = []) : p.KeepsApart := by
  constructor <;> simp [chamberSeats_eq, h]

theorem KeepsApart.underNewPhase (h : p.KeepsApart) : p.underNewPhase.KeepsApart := by
  rcases underNewPhase_cases p with ⟨hp, -⟩ | ⟨_, -, -, hp⟩ <;> rw [hp]
  · exact h
  · have hvacant : ∀ stage, stage ≠ .confirmation → p.restarted.panel stage = [] := by
      intro stage hs
      cases stage with
      | confirmation => exact absurd rfl hs
      | proposal | ratification | challenge => rfl
    have hconfirmation : p.restarted.panel .confirmation = p.panel .confirmation := rfl
    obtain ⟨-, h₂, -, h₄⟩ := h
    refine ⟨?_, h₂, ?_, ?_⟩
    · simp [chamberSeats_eq, hvacant]
    · simp [hvacant]
    · intro stage
      cases stage with
      | confirmation => exact h₄ .confirmation
      | proposal | ratification | challenge => simp [hvacant]

end Proposal

end Charter
