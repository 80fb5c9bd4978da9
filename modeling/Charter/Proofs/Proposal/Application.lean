import Charter.Proofs.Docket.Run
import Charter.Proofs.Proposal.InPlace

/-! # What an application changes

An application checks the way of its provision before it writes. The check stops at the first
segment that is missing, and the write goes on from there with objects of its own, so the two walks
meet different values on the way and yet have to agree. Where they do, the live configuration is
changed under the name of the provision and nowhere else. -/

namespace Charter

namespace InPlace

variable {p : Proposal} {now : Instant}

theorem exists_write_iff {key : String} {v live : Json} :
    (∃ written, (write key v).run live = .ok () written) ↔ Provision.barred? live key = none := by
  constructor
  · rintro ⟨written, hwritten⟩
    exact (write_eq_ok_iff.mp hwritten).1
  · intro hbarred
    obtain ⟨written, -, hwritten⟩ := write_of_not_barred (v := v) hbarred
    exact ⟨written, hwritten⟩

theorem rewrites_of_write {key : String} {v live written : Json}
    (h : (write key v).run live = .ok () written) :
    Provision.Rewrites live (Text.segments key) v written :=
  Provision.rewrites_of_writePath? (write_eq_ok_iff.mp h).2

theorem run_apply_of_checked (h : p.checkApplication = .ok ()) (live : Json) :
    (∃ segment, Provision.barred? live p.provision = some segment ∧
        (apply now).run (p, live) = .error (.invalid (.noObject p.provision segment)) (p, live)) ∨
      ∃ written, (write p.provision p.proposed).run live = .ok () written ∧
        (apply now).run (p, live) = .ok () (p.stamp .applied now, written) := by
  cases hbarred : Provision.barred? live p.provision with
  | some segment =>
    refine .inl ⟨segment, rfl, ?_⟩
    rw [run_apply, Proposal.apply, h, hbarred]
    rfl
  | none =>
    obtain ⟨written, hpure, hplace⟩ := write_of_not_barred (v := p.proposed) hbarred
    refine .inr ⟨written, hplace, ?_⟩
    rw [run_apply, Proposal.apply, h, hbarred, hpure, Proposal.moveTo_applied_of_checked h]
    rfl

/-- A write is made exactly if the check finds nothing in its way, and it changes what stands under
the name of the provision and nothing beside it. So an application that passes its checks leaves the
proposal and the configuration as they were, for what is in the way, or it changes the configuration
under the name of its provision only. -/
theorem application_writes_one_provision (live : Json) :
    (∀ key v, (∃ written, (write key v).run live = .ok () written) ↔
      Provision.barred? live key = none) ∧
      (∀ key v written, (write key v).run live = .ok () written →
        Provision.Rewrites live (Text.segments key) v written) ∧
      ∀ (p : Proposal) (now : Instant), p.checkApplication = .ok () →
        (∃ segment, Provision.barred? live p.provision = some segment ∧
            (apply now).run (p, live) =
              .error (.invalid (.noObject p.provision segment)) (p, live)) ∨
          ∃ written, (write p.provision p.proposed).run live = .ok () written ∧
            (apply now).run (p, live) = .ok () (p.stamp .applied now, written) ∧
            Provision.Rewrites live (Text.segments p.provision) p.proposed written := by
  refine ⟨fun _ _ => exists_write_iff, fun _ _ _ => rewrites_of_write, ?_⟩
  intro p now hchecked
  rcases run_apply_of_checked hchecked live with hrefused | ⟨written, hwritten, happlied⟩
  · exact .inl hrefused
  · exact .inr ⟨written, hwritten, happlied, rewrites_of_write hwritten⟩

end InPlace

namespace Docket

/-- A confirmed schedule of fees is written beside the cap on the fees, and nothing is written where
the fees are a number. -/
theorem application_writes_one_provision_solo :
    ∃ p, ((empty soloConstitution).run (soloRequests "fees.schedule" .null (.bool true))).get? 1 =
      some p ∧
      (∃ written, (InPlace.apply secondDay).run (p, .obj [("fees", .obj [("cap", .null)])]) =
          .ok () (p.stamp .applied secondDay, written) ∧
        Provision.read? written ["fees", "schedule"] = some (.bool true) ∧
        Provision.read? written ["fees", "cap"] = some .null) ∧
      (InPlace.apply secondDay).run (p, .obj [("fees", .num (.int 5))]) =
        .error (.invalid (.noObject "fees.schedule" "fees"))
          (p, .obj [("fees", .num (.int 5))]) := by
  have hfound :
      (((empty soloConstitution).run (soloRequests "fees.schedule" .null (.bool true))).get? 1).map
      (fun p => (p.provision, p.proposed, p.checkApplication.toOption)) =
        some ("fees.schedule", .bool true, some ()) := by
    decide +kernel
  obtain ⟨p, hp, hkey⟩ := Option.map_eq_some_iff.mp hfound
  obtain ⟨hprovision, hkey⟩ := Prod.mk.inj hkey
  obtain ⟨hproposed, hoption⟩ := Prod.mk.inj hkey
  have hchecked : p.checkApplication = .ok () := except_toOption_eq_some_iff.mp hoption
  have hsegments : Text.segments "fees.schedule" = ["fees", "schedule"] := by decide +kernel
  have hfree : Provision.barred? (.obj [("fees", .obj [("cap", .null)])]) "fees.schedule" =
      none := by decide +kernel
  have hbarred : Provision.barred? (.obj [("fees", .num (.int 5))]) "fees.schedule" =
      some "fees" := by decide +kernel
  refine ⟨p, hp, ?_, ?_⟩
  · obtain ⟨-, -, happlied⟩ :=
      InPlace.application_writes_one_provision (.obj [("fees", .obj [("cap", .null)])])
    rcases happlied p secondDay hchecked with ⟨segment, hbarred, -⟩ | ⟨written, -, hrun, hrewrites⟩
    · rw [hprovision, hfree] at hbarred
      cases hbarred
    · rw [hprovision, hproposed, hsegments] at hrewrites
      refine ⟨written, hrun, hrewrites.written, ?_⟩
      rw [hrewrites.beside ["fees", "cap"] (by decide) (by decide)]
      rfl
  · obtain ⟨hwrite, -, happlied⟩ :=
      InPlace.application_writes_one_provision (.obj [("fees", .num (.int 5))])
    rcases happlied p secondDay hchecked with ⟨segment, hsegment, hrun⟩ | ⟨written, hwritten, -, -⟩
    · rw [hprovision] at hsegment hrun
      cases hbarred.symm.trans hsegment
      exact hrun
    · have hnone := (hwrite _ _).mp ⟨written, hwritten⟩
      rw [hprovision, hbarred] at hnone
      cases hnone

end Docket

end Charter
