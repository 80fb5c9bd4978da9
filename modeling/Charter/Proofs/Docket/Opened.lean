import Charter.Proofs.Docket.Reload

/-! # Opened dockets

A docket is opened empty or restored from records. What a submission has, what loading asks for and
what no operation takes away holds of all its proposals at any time. -/

namespace Charter.Docket

variable {c : Constitution} {d : Docket}

theorem sound_of_opened (opened : create c = .ok d ∨ ∃ records, restore c records = .ok d) :
    d.Sound := by
  rcases opened with hcreate | ⟨records, hrestore⟩
  · obtain ⟨hc, rfl⟩ := create_eq_ok_iff.mp hcreate
    exact sound_empty hc
  · exact sound_of_restore hrestore

/-- In every run of an opened docket the panels of every proposal keep apart: nobody has two seats
on the panels of the chambers or on the confirmation panel, nobody confirms what they ratified, and
the proposer has no seat. -/
theorem panels_keep_apart (opened : create c = .ok d ∨ ∃ records, restore c records = .ok d)
    (requests : List (Action × Instant)) : (d.run requests).All Proposal.KeepsApart := by
  have hsound : (d.run requests).Sound := (sound_of_opened opened).run requests
  intro id p hp
  exact (hsound.recordable id p hp).seats

/-- The longest pathway, with a reload before the challenge chamber meets. -/
theorem panels_keep_apart_challenged :
    ∃ e, restore soloConstitution
        ((empty soloConstitution).run (challengedRequests.take 8)).records = .ok e ∧
      ∃ p, (e.run (challengedRequests.drop 8)).get? 1 = some p ∧
        p.chamberSeats = ["amy", "ben", "cleo"] ∧
        p.panel .confirmation = ["amy"] ∧ p.KeepsApart := by
  have hsound : ((empty soloConstitution).run (challengedRequests.take 8)).Sound :=
    (sound_empty rfl).run _
  have hconstitution : ((empty soloConstitution).run (challengedRequests.take 8)).constitution =
      soloConstitution := by
    decide +kernel
  have hrestore := hsound.restore_records
  rw [hconstitution] at hrestore
  refine ⟨_, hrestore, ?_⟩
  have hpanels :
      ((Docket.run { (empty soloConstitution).run (challengedRequests.take 8) with events := [] }
      (challengedRequests.drop 8)).get? 1).map (fun p => (p.chamberSeats, p.panel .confirmation)) =
        some (["amy", "ben", "cleo"], ["amy"]) := by decide +kernel
  obtain ⟨p, hp, hseats⟩ := Option.map_eq_some_iff.mp hpanels
  obtain ⟨hchambers, hconfirmation⟩ := Prod.mk.inj hseats
  exact ⟨p, hp, hchambers, hconfirmation,
    panels_keep_apart (.inr ⟨_, hrestore⟩) (challengedRequests.drop 8) 1 p hp⟩

end Charter.Docket
