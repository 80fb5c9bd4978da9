import Charter.Proofs.Docket.Atomicity
import Charter.Proofs.Docket.History

/-! # Numbers

A proposal is filed under its number, and what was submitted under it never changes. The next number
is the least that is above all numbers in use, so a number is given once. There is no proposal under
the last number, and once the next number is the last, nothing can be submitted any more. -/

namespace Charter.Docket

variable {c : Constitution} {d e : Docket} {now : Instant} {id new : UInt64} {p : Proposal}
  {a : Action}
  {proposer : VoterId} {provision justification : String} {current proposed : Json}

def highest? (d : Docket) : Option Nat := (d.proposals.keys.map UInt64.toNat).max?

theorem Orderly.mem_keys_iff (hd : d.Orderly) :
    id ∈ d.proposals.keys ↔ ∃ p, d.get? id = some p := by
  rw [Table.keys, List.mem_map]
  constructor
  · rintro ⟨⟨_, p⟩, hentry, rfl⟩
    exact ⟨p, Table.get?_of_mem hd.ascending hentry⟩
  · rintro ⟨p, hp⟩
    exact ⟨(id, p), Table.mem_of_get? hp, rfl⟩

theorem Orderly.nextId_eq_highest (hd : d.Orderly) :
    d.nextId.toNat = max 1 ((d.highest?.map (fun n => n + 1)).getD 0) := by
  cases hn : d.highest? with
  | none =>
    have hnone : ∀ id p, d.get? id ≠ some p := by
      intro id p hp
      have hkeys : d.proposals.keys = [] := by simpa [highest?] using hn
      have hmem := hd.mem_keys_iff.mpr ⟨p, hp⟩
      rw [hkeys] at hmem
      cases hmem
    rcases hd.least with hnext | ⟨id, p, hp, -⟩
    · rw [hnext]
      rfl
    · exact absurd hp (hnone id p)
  | some n =>
    obtain ⟨hmem, hmax⟩ := List.max?_eq_some_iff.mp hn
    obtain ⟨id, hid, rfl⟩ := List.mem_map.mp hmem
    obtain ⟨p, hp⟩ := hd.mem_keys_iff.mp hid
    have habove := hd.above id p hp
    simp only [Option.map_some, Option.getD_some]
    -- the next number is above the highest, and it is 1 or right after one that is no higher
    rcases hd.least with hnext | ⟨id', p', hp', hnext⟩
    · rw [hnext, UInt64.toNat_one] at habove ⊢
      omega
    · have hle := hmax _ (List.mem_map_of_mem (hd.mem_keys_iff.mpr ⟨p', hp'⟩))
      rw [hnext, toNat_succ (hd.room id' p' hp')] at habove ⊢
      omega

theorem Orderly.lt_of_proposed (hd : d.Orderly) (h : (d.step a now).2 = .ok (.proposed new))
    (hp : d.get? id = some p) :
    id.toNat < new.toNat := by
  rcases d.step_cases a now with ⟨f, hrefused⟩ | ⟨e, answer, hs, hdone⟩
  · rw [hrefused] at h
    cases h
  · rw [hdone] at h
    cases h
    cases hs with
    | propose => exact hd.above id p hp

theorem Orderly.carryOut_propose_of_exhausted (hd : d.Orderly)
    (exhausted : d.nextId.toNat + 1 = UInt64.size) (proposer : VoterId) (provision : String)
    (current proposed : Json) (justification : String) (now : Instant) :
    ∃ f, d.carryOut (.propose proposer provision current proposed justification) now =
      ⟨d, none, .error f⟩ := by
  rw [carryOut_eq hd]
  cases hperform : d.perform (.propose proposer provision current proposed justification) now with
  | error f => exact ⟨f, rfl⟩
  | ok r =>
    obtain ⟨e, answer⟩ := r
    cases perform_eq_ok_iff.mp hperform with
    | propose _ _ _ room => exact absurd exhausted (Nat.ne_of_lt room)

/-- In every run of an opened docket identity is permanent. Every proposal is filed under its own
number, which is not the last one, and whatever happens it stays there as it was submitted. The next
number is the one after the highest, and at least one. A later submission gets a number above all
that have ever been in use; and once the next number is the last, every submission is refused and
changes nothing. -/
theorem identity_is_permanent (opened : create c = .ok d ∨ ∃ records, restore c records = .ok d)
    (before after : List (Action × Instant)) :
    (∀ id p, (d.run before).get? id = some p → p.id = id ∧ id.toNat < UInt64.size - 1 ∧
      ∃ q, ((d.run before).run after).get? id = some q ∧ p.SameSubmission q) ∧
    (d.run before).nextId.toNat = max 1 (((d.run before).highest?.map (fun n => n + 1)).getD 0) ∧
    (∀ a now new, (((d.run before).run after).step a now).2 = .ok (.proposed new) →
      ∀ id p, (d.run before).get? id = some p → id.toNat < new.toNat) ∧
    ((d.run before).nextId.toNat = UInt64.size - 1 →
      ∀ proposer provision current proposed justification now, ∃ f,
        (d.run before).carryOut (.propose proposer provision current proposed justification) now =
          ⟨d.run before, none, .error f⟩) := by
  have hd : (d.run before).Orderly := (sound_of_opened opened).orderly.run before
  refine ⟨?_, hd.nextId_eq_highest, ?_, ?_⟩
  · intro id p hp
    have hroom := hd.room id p hp
    exact ⟨hd.filed id p hp, by omega, hd.exists_sameSubmission_run hp after⟩
  · intro a now new hproposed id p hp
    obtain ⟨q, hq, -⟩ := hd.exists_sameSubmission_run hp after
    exact (hd.run after).lt_of_proposed hproposed hq
  · intro exhausted
    refine hd.carryOut_propose_of_exhausted ?_
    rw [exhausted]
    rfl

/-- Behind a proposal with the last number but two there is room for one more. Both stay, the one
withdrawn as well, and nothing can be submitted after that. -/
theorem identity_is_permanent_exhausted :
    let last : Proposal :=
      Proposal.submitted 18446744073709551613 "joe" "rights.voluntary_exit" .null (.bool true) "due"
        true firstDay
    let submit : Action := .propose "joe" "fees.base" .null (.bool true) "due"
    let withdraw : List (Action × Instant) :=
      [(.operate 18446744073709551613 (.withdraw "joe"), firstDay)]
    ∃ e, restore soloConstitution [Record.ofProposal last] = .ok e ∧
      e.nextId.toNat = max 1 ((e.highest?.map (fun n => n + 1)).getD 0) ∧
      e.highest? = some 18446744073709551613 ∧
      (e.step submit firstDay).2 = .ok (.proposed 18446744073709551614) ∧
      18446744073709551613 < (18446744073709551614 : UInt64).toNat ∧
      (∃ q, ((e.run [(submit, firstDay)]).run withdraw).get? 18446744073709551613 = some q ∧
        q.status = .withdrawn ∧
        last.SameSubmission q) ∧
      ∃ f, (e.run [(submit, firstDay)]).carryOut submit firstDay =
        ⟨e.run [(submit, firstDay)], none, .error f⟩ := by
  intro last submit withdraw
  let e : Docket := { empty soloConstitution with
    proposals := [(18446744073709551613, last)], nextId := 18446744073709551614 }
  have hrestore : restore soloConstitution [Record.ofProposal last] = .ok e := by decide +kernel
  have hlast : e.get? 18446744073709551613 = some last := by decide +kernel
  have hstill : (e.run [(submit, firstDay)]).get? 18446744073709551613 = some last := by
    decide +kernel
  have hproposed : (e.step submit firstDay).2 = .ok (.proposed 18446744073709551614) := by
    decide +kernel
  have hexhausted : (e.run [(submit, firstDay)]).nextId.toNat = UInt64.size - 1 := by decide +kernel
  have hwithdrawn :
      (((e.run [(submit, firstDay)]).run withdraw).get? 18446744073709551613).map Proposal.status =
      some .withdrawn := by decide +kernel
  obtain ⟨-, hnext, habove, -⟩ := identity_is_permanent (.inr ⟨_, hrestore⟩) [] []
  obtain ⟨hkept, -, -, hrefused⟩ :=
    identity_is_permanent (.inr ⟨_, hrestore⟩) [(submit, firstDay)] withdraw
  obtain ⟨-, -, q, hq, hsame⟩ := hkept _ _ hstill
  rw [hq, Option.map_some, Option.some.injEq] at hwithdrawn
  exact ⟨e, hrestore, hnext, by decide +kernel, hproposed,
    habove submit firstDay _ hproposed _ _ hlast, ⟨q, hq, hwithdrawn, hsame⟩,
    hrefused hexhausted ..⟩

end Charter.Docket
