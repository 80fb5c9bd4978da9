import Charter.Proofs.Docket.Identity
import Charter.Proofs.Record.Canonical

/-! # Restoring in any order

Records are taken in one after the other, and each is checked against those before it. Still it does
not matter which comes first: records can be restored exactly if each of them loads and their
numbers are distinct and have successors, and then the docket holds what was loaded and nothing
else. -/

namespace Charter

theorem Record.id_of_toProposal {r : Record} {p : Proposal} (h : r.toProposal = .ok p) :
    p.id = r.id :=
  congrArg Record.id (ofProposal_of_toProposal h)

namespace Docket

variable {c : Constitution} {d e : Docket} {p : Proposal} {id : UInt64}
  {records records' : List Record}

/-- What it takes to take records in: each loads and has a number that is free and has a successor,
and no two have the same. -/
theorem exists_enrollAll_iff : (∃ e, d.enrollAll records = .ok e) ↔
    (∀ r ∈ records, (∃ p, r.toProposal = .ok p) ∧ d.get? r.id = none ∧
      r.id.toNat + 1 < UInt64.size) ∧
      (records.map Record.id).Nodup := by
  induction records generalizing d with
  | nil => simp [enrollAll]
  | cons r records ih =>
    simp only [enrollAll, except_bind_eq_ok_iff, List.forall_mem_cons, List.map_cons,
      List.nodup_cons]
    constructor
    · rintro ⟨e, p, hp, d', henroll, h⟩
      obtain ⟨free, room, rfl⟩ := enroll_eq_ok_iff.mp henroll
      obtain ⟨hall, hnodup⟩ := ih.mp ⟨e, h⟩
      have hid := Record.id_of_toProposal hp
      rw [hid] at free room
      have hothers : ∀ r' ∈ records, r'.id ≠ r.id ∧ d.get? r'.id = none := by
        intro r' hr'
        rw [← hid]
        exact Table.get?_insert_eq_none (hall r' hr').2.1
      refine ⟨⟨⟨⟨p, hp⟩, free, room⟩, ?_⟩, ?_, hnodup⟩
      · intro r' hr'
        obtain ⟨hload, -, hroom⟩ := hall r' hr'
        exact ⟨hload, (hothers r' hr').2, hroom⟩
      · intro hmem
        obtain ⟨r', hr', heq⟩ := List.mem_map.mp hmem
        exact (hothers r' hr').1 heq
    · rintro ⟨⟨⟨⟨p, hp⟩, free, room⟩, hall⟩, hnew, hnodup⟩
      have hid := Record.id_of_toProposal hp
      rw [← hid] at free room
      have hothers : ∀ r' ∈ records, Table.get? (d.proposals.insert p.id p) r'.id = none := by
        intro r' hr'
        have hne : r'.id ≠ p.id := by
          intro heq
          exact hnew (hid ▸ heq ▸ List.mem_map_of_mem hr')
        rw [Table.get?_insert, if_neg hne]
        exact (hall r' hr').2.1
      let d' : Docket :=
        { d with proposals := d.proposals.insert p.id p, nextId := max d.nextId (p.id + 1) }
      obtain ⟨e, he⟩ := (ih (d := d')).mpr
        ⟨fun r' hr' => ⟨(hall r' hr').1, hothers r' hr', (hall r' hr').2.2⟩, hnodup⟩
      exact ⟨e, p, hp, d', enroll_eq_ok_iff.mpr ⟨free, room, rfl⟩, he⟩

theorem get?_of_enrollAll (h : d.enrollAll records = .ok e) :
    e.get? id = some p ↔ d.get? id = some p ∨ ∃ r ∈ records, r.id = id ∧ r.toProposal = .ok p := by
  induction records generalizing d with
  | nil =>
    cases h
    simp
  | cons r records ih =>
    simp only [enrollAll, except_bind_eq_ok_iff] at h
    obtain ⟨q, hq, d', henroll, h⟩ := h
    obtain ⟨free, -, rfl⟩ := enroll_eq_ok_iff.mp henroll
    have hid := Record.id_of_toProposal hq
    rw [ih h, List.exists_mem_cons_iff, ← or_assoc]
    refine or_congr_left ?_
    rw [get?, Table.get?_insert]
    split
    · rename_i heq
      subst heq
      rw [free, hq]
      simp [hid]
    · rename_i hne
      rw [← hid]
      exact ⟨.inl, fun h => h.resolve_right (fun hr => hne hr.1.symm)⟩

theorem nextId_of_enrollAll (h : d.enrollAll records = .ok e) :
    e.nextId.toNat = (records.map (fun r => r.id.toNat + 1)).foldl max d.nextId.toNat := by
  induction records generalizing d with
  | nil =>
    cases h
    rfl
  | cons r records ih =>
    simp only [enrollAll, except_bind_eq_ok_iff] at h
    obtain ⟨q, hq, d', henroll, h⟩ := h
    obtain ⟨-, room, rfl⟩ := enroll_eq_ok_iff.mp henroll
    rw [ih h, List.map_cons, List.foldl_cons, UInt64.toNat_max, toNat_succ room,
      Record.id_of_toProposal hq]

theorem exists_restore_iff : (∃ d, restore c records = .ok d) ↔
    c.check = none ∧ (∀ r ∈ records, (∃ p, r.toProposal = .ok p) ∧ r.id.toNat ≠ UInt64.size - 1) ∧
      (records.map Record.id).Nodup := by
  have hroom : ∀ r : Record, r.id.toNat + 1 < UInt64.size ↔ r.id.toNat ≠ UInt64.size - 1 := by
    intro r
    have := r.id.toNat_lt_size
    omega
  simp only [restore_eq_ok_iff, exists_and_left, exists_enrollAll_iff, hroom]
  refine and_congr_right fun _ => and_congr_left fun _ => forall₂_congr fun r _ => ?_
  exact and_congr_right fun _ => and_iff_right rfl

theorem restore_eq_of_perm (h : records.Perm records') (hd : restore c records = .ok d) :
    restore c records' = .ok d := by
  obtain ⟨e, he⟩ : ∃ e, restore c records' = .ok e := by
    obtain ⟨hc, hall, hnodup⟩ := exists_restore_iff.mp ⟨d, hd⟩
    exact exists_restore_iff.mpr ⟨hc, fun r hr => hall r (h.mem_iff.mpr hr),
      (h.map _).nodup_iff.mp hnodup⟩
  have hdo := (sound_of_restore hd).orderly
  have heo := (sound_of_restore he).orderly
  obtain ⟨-, hdr⟩ := restore_eq_ok_iff.mp hd
  obtain ⟨-, her⟩ := restore_eq_ok_iff.mp he
  have hproposals : e.proposals = d.proposals := by
    refine Table.eq_of_get?_eq heo.ascending hdo.ascending ?_
    intro id
    refine Option.ext fun p => ?_
    have hd' : d.get? id = some p ↔ _ := get?_of_enrollAll hdr
    have he' : e.get? id = some p ↔ _ := get?_of_enrollAll her
    simp only [h.mem_iff] at hd'
    exact he'.trans hd'.symm
  have hnext := heo.nextId_eq hdo hproposals
  obtain ⟨hdc, hde⟩ := enrollAll_frame hdr
  obtain ⟨hec, hee⟩ := enrollAll_frame her
  have hsame : e = d := by
    cases e
    cases d
    simp_all
  rw [he, hsame]

/-- The order of records does not matter. Records in another order are restored to the same docket
or refused as well. They are restored exactly if the constitution is sound, each record loads, no
two have the same number and none has the last. The docket is then under that constitution, without
events, and holds under each number what the record with this number stands for; its next number is
above all of these. -/
theorem restoring_ignores_order (h : records.Perm records') :
    (∀ d, restore c records = .ok d ↔ restore c records' = .ok d) ∧
    ((∃ d, restore c records = .ok d) ↔ c.check = none ∧
      (∀ r ∈ records, (∃ p, r.toProposal = .ok p) ∧ r.id.toNat ≠ UInt64.size - 1) ∧
      (records.map Record.id).Nodup) ∧
    ∀ d, restore c records = .ok d → d.constitution = c ∧ d.events = [] ∧
      d.nextId.toNat = (records.map (fun r => r.id.toNat + 1)).foldl max 1 ∧
      ∀ id p, d.get? id = some p ↔ ∃ r ∈ records, r.id = id ∧ r.toProposal = .ok p := by
  refine ⟨fun d => ⟨restore_eq_of_perm h, restore_eq_of_perm h.symm⟩, exists_restore_iff, ?_⟩
  intro d hd
  obtain ⟨-, henroll⟩ := restore_eq_ok_iff.mp hd
  obtain ⟨hc, hevents⟩ := enrollAll_frame henroll
  refine ⟨hc, hevents, nextId_of_enrollAll henroll, ?_⟩
  intro id p
  rw [get?_of_enrollAll henroll]
  exact or_iff_right (by simp [empty, get?, Table.get?])

/-- Two chambers have passed the first of three proposals; the number of the last is the last but
one. They are restored in any order, to the docket with all of them, but not with the last number in
place of the last but one, nor with the first twice. -/
theorem restoring_ignores_order_solo :
    let filed := fun id =>
      Record.ofProposal (.submitted id "joe" "fees.base" .null (.bool true) "due" false firstDay)
    let voted :=
      ((empty soloConstitution).run ((soloRequests "fees" .null (.bool true)).take 7)).records
    ∃ d, restore soloConstitution (voted ++ [filed 18446744073709551614, filed 7]) = .ok d ∧
      restore soloConstitution ([filed 7] ++ voted ++ [filed 18446744073709551614]) = .ok d ∧
      d.nextId = 18446744073709551615 ∧ d.proposals.keys = [1, 7, 18446744073709551614] ∧
      (d.get? 1).map Proposal.status = some .challengeWindow ∧
      (∀ e, restore soloConstitution (voted ++ [filed 18446744073709551615, filed 7]) ≠ .ok e) ∧
      ∀ e, restore soloConstitution (voted ++ [filed 7] ++ voted) ≠ .ok e := by
  intro filed voted
  have hrestored : (restore soloConstitution
      (voted ++ [filed 18446744073709551614, filed 7])).toOption.any (fun d =>
      decide (d.nextId = 18446744073709551615 ∧ d.proposals.keys = [1, 7, 18446744073709551614] ∧
        (d.get? 1).map Proposal.status = some .challengeWindow)) = true := by decide +kernel
  obtain ⟨d, hd, hdecided⟩ := (Option.any_eq_true _ _).mp hrestored
  obtain ⟨hnext, hkeys, hstatus⟩ := of_decide_eq_true hdecided
  have hperm : (voted ++ [filed 18446744073709551614, filed 7]).Perm
      ([filed 7] ++ voted ++ [filed 18446744073709551614]) := by
    have hswap : [filed 18446744073709551614, filed 7].Perm [filed 7, filed 18446744073709551614] :=
      .swap ..
    refine (hswap.append_left voted).trans ?_
    rw [List.append_assoc]
    exact List.perm_middle
  have hd := except_toOption_eq_some_iff.mp hd
  refine ⟨d, hd, ((restoring_ignores_order hperm).1 d).mp hd, hnext, hkeys, hstatus, ?_, ?_⟩
  · intro e he
    obtain ⟨-, hall, -⟩ := (restoring_ignores_order (.refl _)).2.1.mp ⟨e, he⟩
    exact (hall (filed 18446744073709551615) (by simp)).2 rfl
  · intro e he
    obtain ⟨-, -, hnodup⟩ := (restoring_ignores_order (.refl _)).2.1.mp ⟨e, he⟩
    exact absurd hnodup (by decide +kernel)

end Docket

end Charter
