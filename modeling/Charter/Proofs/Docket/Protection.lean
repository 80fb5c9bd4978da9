import Charter.Proofs.Proposal.Frame
import Charter.Proofs.Docket.Run
import Charter.Proofs.Provision

/-! # Protected provisions

A provision computed by formula is never proposed by its own name, and an entrenched one only on the
second pathway. Both kinds are looked up by their whole names, so an application can still reach
them through a longer or a shorter name. -/

namespace Charter

/-- The provision was not computed by formula when it was proposed, and the pathway is the one that
it asks for. -/
def Proposal.IsClassified (c : Constitution) (p : Proposal) : Prop :=
  p.provision ∉ c.formulaOnly ∧ (p.isEntrenched = true ↔ p.provision ∈ c.entrenched)

theorem Proposal.IsClassified.of_sameSubmission {c : Constitution} {p q : Proposal}
    (h : p.IsClassified c) (hq : SameSubmission p q) : q.IsClassified c := by
  rw [IsClassified, hq.provision, hq.isEntrenched]
  exact h

/-- A provision that this proposal is not meant to change: it is computed by formula, or entrenched
and the proposal is on the standard pathway. -/
def Proposal.IsBarred (c : Constitution) (p : Proposal) (key : String) : Prop :=
  key ∈ c.formulaOnly ∨ p.isEntrenched = false ∧ key ∈ c.entrenched

namespace Docket

theorem checkProvision_eq_ok_iff {c : Constitution} {key : String} {u : Unit} :
    checkProvision c key = .ok u ↔
      key ≠ "" ∧ (∀ s ∈ Text.segments key, ¬Text.isEmptyText s) ∧ key ∉ c.formulaOnly := by
  simp only [checkProvision, except_bind_eq_ok_iff, require_eq_ok_iff, exists_const]
  rfl

theorem kept_isClassified (c : Constitution) : Kept c (Proposal.IsClassified c) where
  submitted {d proposer provision current proposed justification now} hc permitted _ := by
    have hkey := (checkProvision_eq_ok_iff.mp permitted).2.2
    rw [hc.amended] at hkey
    refine ⟨hkey, ?_⟩
    rw [submission, hc.amended]
    by_cases he : Text.trim provision ∈ c.entrenched
    · simp [Proposal.submitted, Proposal.isEntrenched, Constitution.IsEntrenched, he]
    · simp [Proposal.submitted, Proposal.isEntrenched, Constitution.IsEntrenched, he]
  step _ hs h := h.of_sameSubmission (.of_step hs)
  newPhase h := h.of_sameSubmission (Proposal.sameSubmission_underNewPhase _)

theorem write?_of_apply {d : Docket} {id : UInt64} {p : Proposal} {live written : Json}
    {now : Instant} (hp : d.get? id = some p)
    (h : (d.step (.operate id (.apply live)) now).2 = .ok (.operated (.live written))) :
    Provision.write? live p.provision p.proposed = some written := by
  unfold step at h
  split at h
  · rename_i e answer hperform
    cases h
    cases perform_eq_ok_iff.mp hperform with
    | operate found step =>
      rw [hp] at found
      cases found
      cases step with
      | apply _ _ writes => exact writes
  · cases h

/-- In every run of a new docket an application is never made under the name of a provision that it
must not change, and it keeps the value of such a provision exactly if the write spares it: the
names lead apart, or what the write puts there is what stood there. -/
theorem barred_value_kept_iff {c : Constitution} {d : Docket} (h : create c = .ok d)
    {requests : List (Action × Instant)} {id : UInt64} {p : Proposal} {live written : Json}
    {now : Instant} (hp : (d.run requests).get? id = some p)
    (applied : ((d.run requests).step (.operate id (.apply live)) now).2 =
      .ok (.operated (.live written)))
    {key : String} (barred : p.IsBarred c key) :
    key ≠ p.provision ∧
      (Provision.read? written (Text.segments key) = Provision.read? live (Text.segments key) ↔
        Provision.Spares live (Text.segments p.provision) p.proposed (Text.segments key)) := by
  refine ⟨?_, Provision.read?_eq_iff_spares (write?_of_apply hp applied) _⟩
  obtain ⟨hformula, hentrenched⟩ := (kept_isClassified c).all_run_of_create h requests id p hp
  rintro rfl
  rcases barred with hf | ⟨he, hkey⟩
  · exact hformula hf
  · rw [hentrenched.mpr hkey] at he
    cases he

def rateOf (n : Int) : Json := .obj [("emission_rate", .num (.int n))]

/-- An application under another name keeps the rate. -/
theorem barred_value_kept_solo :
    "treasury.emission_rate" ∈ soloConstitution.formulaOnly ∧
      ∃ written, (((empty soloConstitution).run (soloRequests "fees" .null (.bool true))).step
          (.operate 1 (.apply (.obj [("treasury", rateOf 5)]))) secondDay).2 =
            .ok (.operated (.live written)) ∧
        Provision.read? written ["treasury", "emission_rate"] =
          Provision.read? (.obj [("treasury", rateOf 5)]) ["treasury", "emission_rate"] := by
  have hcreate : create soloConstitution = .ok (empty soloConstitution) := rfl
  have hfound : (((empty soloConstitution).run (soloRequests "fees" .null (.bool true))).get? 1).map
      (fun p => (p.provision, p.proposed)) = some ("fees", .bool true) := by decide +kernel
  obtain ⟨p, hp, hkey⟩ := Option.map_eq_some_iff.mp hfound
  obtain ⟨hprovision, hproposed⟩ := Prod.mk.inj hkey
  have happlied : (((empty soloConstitution).run (soloRequests "fees" .null (.bool true))).step
      (.operate 1 (.apply (.obj [("treasury", rateOf 5)]))) secondDay).2 =
        .ok (.operated (.live (.obj [("fees", .bool true), ("treasury", rateOf 5)]))) := by rfl
  have hmem : "treasury.emission_rate" ∈ soloConstitution.formulaOnly := by decide
  refine ⟨hmem, _, happlied, ?_⟩
  have hkept := (barred_value_kept_iff hcreate hp happlied (.inl hmem)).2.mpr
  rw [hprovision, hproposed] at hkept
  exact hkept (.inl (by decide +kernel))

/-- An application under a shorter name overwrites the rate. -/
theorem formula_value_overwritten :
    "treasury.emission_rate" ∈ soloConstitution.formulaOnly ∧
      ∃ written, (((empty soloConstitution).run (soloRequests "treasury" .null (rateOf 9))).step
          (.operate 1 (.apply (.obj [("treasury", rateOf 5)]))) secondDay).2 =
            .ok (.operated (.live written)) ∧
        Provision.read? written (Text.segments "treasury.emission_rate") ≠
          Provision.read? (.obj [("treasury", rateOf 5)])
          (Text.segments "treasury.emission_rate") := by
  refine ⟨by decide, .obj [("treasury", rateOf 9)], by rfl, ?_⟩
  decide +kernel

end Docket

end Charter
