import Mathlib.Data.List.Nodup
import Charter.Proofs.Diversity

/-! # Rosters of strangers

Whatever is asked of a panel, there are candidates who make it up: if no two of them share a name, a
region or an organization, and none is excluded, the walk over them passes over nobody. -/

namespace Charter

namespace Panel

variable {q : Quota} {seats before rest roster : List Voter} {excluded : List VoterId} {v : Voter}

theorem not_mem_map_of_nodup {f : Voter → String} (h : ((seats ++ v :: rest).map f).Nodup) :
    f v ∉ seats.map f := by
  rw [List.map_append, List.map_cons, List.nodup_append] at h
  intro hmem
  exact h.2.2 _ hmem _ List.mem_cons_self rfl

/-- No two of these voters share a name, a region or an organization. -/
structure AreStrangers (voters : List Voter) : Prop where
  names : (voters.map Voter.id).Nodup
  groups : ∀ d : Dimension, (voters.map d.group).Nodup

theorem AreStrangers.sublist (h : AreStrangers roster) (hs : seats.Sublist roster) :
    AreStrangers seats :=
  ⟨h.names.sublist (hs.map _), fun d => (h.groups d).sublist (hs.map _)⟩

theorem AreStrangers.groups_eq (h : AreStrangers seats) (d : Dimension) :
    Panel.groups d seats = seats.length := by
  rw [Panel.groups, length_firsts, List.toFinset_card_of_nodup (h.groups d), List.length_map]

theorem AreStrangers.share_eq_zero (h : AreStrangers (seats ++ v :: rest)) (d : Dimension) :
    share d (d.group v) seats = 0 := by
  rw [share_eq_zero_iff]
  exact not_mem_map_of_nodup (h.groups d)

theorem AreStrangers.admits (h : AreStrangers (seats ++ v :: rest)) (q : Quota) :
    Admits q seats v := by
  have hshare : ∀ d : Dimension, share d (d.group v) seats < q.cap := by
    intro d
    rw [h.share_eq_zero d]
    exact q.cap_pos
  refine ⟨?_, hshare .region, hshare .organization⟩
  intro w hw heq
  have hmem : w.id ∈ seats.map Voter.id := List.mem_map_of_mem hw
  rw [heq] at hmem
  exact not_mem_map_of_nodup h.names hmem

theorem AreStrangers.seat (h : AreStrangers (seats ++ v :: rest)) :
    AreStrangers ((seats ++ [v]) ++ rest) := by
  rw [List.append_assoc, List.singleton_append]
  exact h

theorem append_take_succ {n : Nat} (h : seats.length < n) (v : Voter) (rest : List Voter) :
    (seats ++ [v]) ++ rest.take (n - (seats ++ [v]).length) =
      seats ++ (v :: rest).take (n - seats.length) := by
  have hsucc : n - seats.length = n - (seats ++ [v]).length + 1 := by
    rw [List.length_append, List.length_singleton]
    omega
  rw [hsucc, List.take_succ_cons, List.append_assoc, List.singleton_append]

/-- The first walk seats strangers until there are enough. -/
theorem AreStrangers.seatRegions_eq (h : AreStrangers (seats ++ rest)) :
    seatRegions q rest seats = seats ++ rest.take (q.minRegions - seats.length) := by
  induction rest generalizing seats with
  | nil => simp [seatRegions]
  | cons v rest ih =>
    rw [seatRegions, (h.sublist (List.sublist_append_left _ _)).groups_eq .region]
    split
    · rename_i henough
      rw [Nat.sub_eq_zero_of_le henough, List.take_zero, List.append_nil]
    · rename_i hmore
      rw [if_pos ⟨h.share_eq_zero .region, h.admits q⟩, ih h.seat,
        append_take_succ (Nat.lt_of_not_le hmore)]

theorem fillSeats_of_full (h : q.size ≤ seats.length) (pool : List Voter) :
    fillSeats q pool seats = seats := by
  cases pool with
  | nil => rfl
  | cons v pool => rw [fillSeats, if_pos h]

theorem fillSeats_of_seated (h : ∀ v ∈ before, v ∈ seats) :
    fillSeats q (before ++ rest) seats = fillSeats q rest seats := by
  by_cases hfull : q.size ≤ seats.length
  · rw [fillSeats_of_full hfull, fillSeats_of_full hfull]
  · induction before with
    | nil => rfl
    | cons v before ih =>
      have hseated : ¬Admits q seats v := fun hadmits => hadmits.1 v (h v List.mem_cons_self) rfl
      rw [List.cons_append, fillSeats, if_neg hfull, if_neg hseated]
      exact ih (fun w hw => h w (List.mem_cons_of_mem _ hw))

theorem AreStrangers.fillSeats_eq (h : AreStrangers (seats ++ rest)) :
    fillSeats q rest seats = seats ++ rest.take (q.size - seats.length) := by
  induction rest generalizing seats with
  | nil => simp [fillSeats]
  | cons v rest ih =>
    rw [fillSeats]
    split
    · rename_i hfull
      rw [Nat.sub_eq_zero_of_le hfull, List.take_zero, List.append_nil]
    · rename_i hmore
      rw [if_pos (h.admits q), ih h.seat, append_take_succ (Nat.lt_of_not_le hmore)]

theorem firstRows_of_nodup (h : (roster.map Voter.id).Nodup) : firstRows roster = roster := by
  induction roster with
  | nil => rfl
  | cons v roster ih =>
    rw [List.map_cons, List.nodup_cons] at h
    have hothers : roster.filter (fun w => w.id ≠ v.id) = roster := by
      rw [List.filter_eq_self]
      intro w hw
      have hne : w.id ≠ v.id := fun heq => h.1 (heq ▸ List.mem_map_of_mem hw)
      simpa using hne
    rw [firstRows, ih h.2, hothers]

theorem AreStrangers.pool_eq (h : AreStrangers roster) (free : ∀ v ∈ roster, v.id ∉ excluded) :
    Panel.pool roster excluded = roster := by
  have hall : roster.filter (fun v => v.id ∉ excluded) = roster := by
    rw [List.filter_eq_self]
    intro v hv
    simpa using free v hv
  rw [Panel.pool, hall, firstRows_of_nodup h.names]

theorem AreStrangers.select_eq (h : AreStrangers roster) (free : ∀ v ∈ roster, v.id ∉ excluded)
    (size : roster.length = q.size) (enough : ∀ d, q.minimum d ≤ q.size) :
    select roster q excluded = .ok roster := by
  have hregions : q.minRegions ≤ q.size := enough .region
  have hnone : AreStrangers ([] ++ roster) := h
  have hfirst : seatRegions q roster [] = roster.take q.minRegions := hnone.seatRegions_eq
  have hlength : (roster.take q.minRegions).length = q.minRegions := by
    rw [List.length_take, size]
    omega
  -- the second walk starts from the front of the roster again, where everybody is seated already
  have hsplit : roster.take q.minRegions ++ roster.drop q.minRegions = roster :=
    List.take_append_drop _ _
  have hsecond : fillSeats q roster (roster.take q.minRegions) = roster := by
    have hrest : (roster.drop q.minRegions).take (q.size - (roster.take q.minRegions).length) =
        roster.drop q.minRegions := by
      rw [hlength, ← size, ← List.length_drop, List.take_length]
    calc fillSeats q roster (roster.take q.minRegions)
        = fillSeats q (roster.take q.minRegions ++ roster.drop q.minRegions)
            (roster.take q.minRegions) := by rw [hsplit]
      _ = fillSeats q (roster.drop q.minRegions) (roster.take q.minRegions) :=
        fillSeats_of_seated (fun v hv => hv)
      _ = roster := by rw [AreStrangers.fillSeats_eq (hsplit.symm ▸ h), hrest, hsplit]
  rw [select_eq_ok_iff, h.pool_eq free, hfirst, hsecond,
    (h.sublist (List.take_sublist _ _)).groups_eq, hlength, h.groups_eq, h.groups_eq, size]
  exact ⟨le_rfl, hregions, enough .organization, hregions, enough .organization, le_rfl, le_rfl,
    enough .organization, rfl⟩

def stranger (length : Nat) : Voter :=
  let name := String.ofList (List.replicate length 'v')
  ⟨name, ⟨name, name⟩⟩

def longest (names : List VoterId) : Nat := (names.map String.length).foldr max 0

theorem length_le_longest {name : VoterId} {names : List VoterId} (h : name ∈ names) :
    name.length ≤ longest names := by
  induction names with
  | nil => cases h
  | cons other names ih =>
    rw [longest, List.map_cons, List.foldr_cons]
    rcases List.mem_cons.mp h with rfl | h
    · exact Nat.le_max_left _ _
    · exact Nat.le_trans (ih h) (Nat.le_max_right _ _)

/-- Strangers whose names are longer than all that are excluded. -/
def strangers (excluded : List VoterId) (count : Nat) : List Voter :=
  (List.range count).map (fun i => stranger (longest excluded + 1 + i))

@[simp] theorem length_strangers (excluded : List VoterId) (count : Nat) :
    (strangers excluded count).length = count := by
  simp [strangers]

theorem length_id_stranger (length : Nat) : (stranger length).id.length = length := by
  simp [stranger, String.length_ofList]

theorem areStrangers_strangers (excluded : List VoterId) (count : Nat) :
    AreStrangers (strangers excluded count) := by
  have hnodup : ∀ f : Voter → String, (∀ length, (f (stranger length)).length = length) →
      ((strangers excluded count).map f).Nodup := by
    intro f hf
    rw [strangers, List.map_map]
    refine List.nodup_range.map ?_
    intro i j hij
    have hlength := congrArg String.length hij
    simp only [Function.comp, hf] at hlength
    omega
  refine ⟨hnodup _ length_id_stranger, ?_⟩
  intro d
  cases d with
  | region => exact hnodup _ length_id_stranger
  | organization => exact hnodup _ length_id_stranger

theorem not_mem_excluded_of_mem_strangers {count : Nat} (h : v ∈ strangers excluded count) :
    v.id ∉ excluded := by
  obtain ⟨i, -, rfl⟩ := List.mem_map.mp h
  intro hmem
  have hle := length_le_longest hmem
  rw [length_id_stranger] at hle
  omega

/-- For any panel that is large enough for the groups it must represent there is a roster of its
size. -/
theorem select_strangers (enough : ∀ d, q.minimum d ≤ q.size) (excluded : List VoterId) :
    select (strangers excluded q.size) q excluded = .ok (strangers excluded q.size) :=
  (areStrangers_strangers excluded q.size).select_eq (fun _ hv =>
    not_mem_excluded_of_mem_strangers hv)
    (length_strangers _ _) enough

end Panel

end Charter
