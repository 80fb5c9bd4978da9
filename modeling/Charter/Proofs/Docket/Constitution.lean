import Charter.Proofs.Docket.Diversity
import Charter.Proofs.Docket.Opened

/-! # The constitution in force

A docket keeps the constitution it was opened under, but for the phase. A new phase is checked by
itself, against the diversity in force, and this is all that the check of the whole constitution
says about it: the constitution in force is never flawed. So no panel is ever too small for the
groups that it must represent. -/

namespace Charter

namespace Proposal

variable {c : Constitution} {p : Proposal} {now : Instant} {stage : Stage} {candidates : List Voter}
  {cause : PanelFault}

theorem checkSelection_ne_noPanel : p.checkSelection stage now ≠ .error (.noPanel cause) := by
  intro h
  simp only [checkSelection, expect, except_bind_eq_error_iff, require_eq_error_iff] at h
  rcases h with ⟨-, h⟩ | ⟨-, -, h⟩
  · cases h
  · split at h
    · split at h
      · rw [require_eq_error_iff] at h
        cases h.2
      · cases h
    · rw [require_eq_error_iff] at h
      cases h.2

theorem beginVoting_ne_noPanel : p.beginVoting stage now ≠ .error (.noPanel cause) := by
  unfold beginVoting moveTo
  split
  · simp
  · split <;> simp

/-- A vote for which no panel is found fails in the selection of its members. -/
theorem select_of_selectPanel (h : p.selectPanel c stage candidates now = .error (.noPanel cause)) :
    Panel.select candidates (c.diversity.quota (c.composition stage)) (p.recused stage) =
      .error cause := by
  simp only [selectPanel, except_bind_eq_error_iff] at h
  rcases h with h | ⟨-, -, h | ⟨_, -, h | ⟨_, -, h | ⟨_, -, h⟩⟩⟩⟩
  · exact absurd h checkSelection_ne_noPanel
  · unfold selectMembers at h
    split at h
    · cases h
    · rename_i hselect
      cases h
      exact hselect
  · cases (demand_eq_error_iff.mp h).2
  · exact absurd h beginVoting_ne_noPanel
  · cases h

theorem result_perform_selectPanel {f : Fault} :
    (p.perform c (.selectPanel stage candidates) now).result = .error f ↔
      p.selectPanel c stage candidates now = .error f := by
  simp only [perform, Attempt.map, except_map_eq_error_iff]
  cases p.selectPanel c stage candidates now <;> simp [Attempt.ofExcept, Attempt.refused]

end Proposal

namespace Docket

open Constitution (InForce)

variable {c : Constitution} {d : Docket}

theorem inForce_of_opened (opened : create c = .ok d ∨ ∃ records, restore c records = .ok d) :
    InForce c d.constitution := by
  rcases opened with hcreate | ⟨records, hrestore⟩
  · obtain ⟨hc, rfl⟩ := create_eq_ok_iff.mp hcreate
    exact .refl hc
  · obtain ⟨hc, henroll⟩ := restore_eq_ok_iff.mp hrestore
    have hsame : d.constitution = c := (enrollAll_frame henroll).1
    rw [hsame]
    exact .refl hc

theorem inForce_run (h : InForce c d.constitution) (requests : List (Action × Instant)) :
    InForce c (d.run requests).constitution :=
  run_induction (P := fun d => InForce c d.constitution) inForce_step h requests

theorem step_selectPanel_ne_panelTooSmall (h : d.constitution.check = none) (id : UInt64)
    (stage : Stage) (candidates : List Voter) (now : Instant) (dimension : Dimension)
    (size needed : Nat) :
    (d.step (.operate id (.selectPanel stage candidates)) now).2 ≠
      .error (.noPanel (.panelTooSmall dimension size needed)) := by
  intro hstep
  have hperform := step_snd_eq_error_iff.mp hstep
  simp only [perform, except_map_eq_error_iff, operate, except_bind_eq_error_iff,
    demand_eq_error_iff] at hperform
  rcases hperform with ⟨-, hnone⟩ | ⟨p, -, hrefused | ⟨_, -, hdone⟩⟩
  · cases hnone
  · have hselect := Proposal.select_of_selectPanel (Proposal.result_perform_selectPanel.mp hrefused)
    exact absurd (Panel.lt_minimum_of_select hselect)
      (Nat.not_lt.mpr (Constitution.minimum_le_size_of_check h stage dimension))
  · cases hdone

/-- In every run of an opened docket the constitution in force is without flaw, and the one the
docket was opened under but for the phase. So, whoever the candidates are, no panel for any vote is
ever refused because it is too small for the groups that it must represent. -/
theorem constitution_stays_sound (opened : create c = .ok d ∨ ∃ records, restore c records = .ok d)
    (requests : List (Action × Instant)) :
    (d.run requests).constitution.check = none ∧
      (d.run requests).constitution = { c with phase := (d.run requests).constitution.phase } ∧
      ∀ id stage candidates now dimension size needed,
        ((d.run requests).step (.operate id (.selectPanel stage candidates)) now).2 ≠
          .error (.noPanel (.panelTooSmall dimension size needed)) := by
  have hforce : InForce c (d.run requests).constitution :=
    inForce_run (inForce_of_opened opened) requests
  exact ⟨hforce.sound, hforce.amended, step_selectPanel_ne_panelTooSmall hforce.sound⟩

def assembly : Phase := ⟨"assembly", ⟨6, 1⟩, ⟨6, 1⟩, ⟨6, 1⟩⟩

/-- A restored council does not take a phase with panels of one, where two regions must be
represented. It takes the assembly, for which its roster is too short, but which is not too
small. -/
theorem constitution_stays_sound_council :
    let phases : List (Action × Instant) :=
      [(.changePhase ⟨"duo", ⟨6, 1⟩, ⟨1, 1⟩, ⟨6, 1⟩⟩, firstDay), (.changePhase assembly, firstDay)]
    ∃ e, restore councilConstitution
      ((empty councilConstitution).run (councilRequests.take 1)).records = .ok e ∧
      (e.answers phases).head? =
        some (.error (.invalid (.phase (.belowDiversity (.chamber .ratification))))) ∧
      (e.run phases).constitution = { councilConstitution with phase := assembly } ∧
      (e.run phases).constitution.check = none ∧
      ((e.run phases).step (.operate 1 (.selectPanel .proposal councilRoster)) firstDay).2 =
        .error (.noPanel (.tooFewCandidates 6 4)) ∧
      ∀ candidates dimension size needed,
        ((e.run phases).step (.operate 1 (.selectPanel .proposal candidates)) firstDay).2 ≠
          .error (.noPanel (.panelTooSmall dimension size needed)) := by
  intro phases
  have hrestore : restore councilConstitution
      ((empty councilConstitution).run (councilRequests.take 1)).records =
      .ok { (empty councilConstitution).run (councilRequests.take 1) with events := [] } := by
    decide +kernel
  obtain ⟨hcheck, hamended, hpanels⟩ := constitution_stays_sound (.inr ⟨_, hrestore⟩) phases
  have hphase :
      (Docket.run { (empty councilConstitution).run (councilRequests.take 1) with events := [] }
      phases).constitution.phase = assembly := by decide +kernel
  rw [hphase] at hamended
  exact ⟨_, hrestore, by decide +kernel, hamended, hcheck, by decide +kernel,
    fun candidates => hpanels 1 .proposal candidates firstDay⟩

end Docket

end Charter
