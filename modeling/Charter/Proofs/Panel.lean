import Charter.Panel
import Charter.Check

/-! # Selected panels

What the walk over the candidates preserves from seat to seat, and what it leaves behind. -/

namespace Charter

section Firsts

variable {κ : Type} [DecidableEq κ]

theorem firsts_append_singleton (l : List κ) (k : κ) :
    firsts (l ++ [k]) = if k ∈ l then firsts l else firsts l ++ [k] := by
  induction l with
  | nil => simp [firsts]
  | cons j l ih =>
    simp only [List.cons_append, firsts, ih, List.mem_cons]
    by_cases hkl : k ∈ l
    · simp [hkl]
    · by_cases hkj : k = j
      · subst hkj
        simp [hkl]
      · simp [hkl, hkj]

end Firsts

namespace Panel

variable {q : Quota} {pool seats members candidates : List Voter}
  {excluded : List VoterId} {v : Voter}

theorem mem_firstRows (h : v ∈ firstRows pool) : v ∈ pool := by
  induction pool with
  | nil => simp [firstRows] at h
  | cons w pool ih =>
    rcases List.mem_cons.mp h with rfl | hv
    · exact List.mem_cons_self
    · exact List.mem_cons_of_mem _ (ih (List.mem_filter.mp hv).1)

theorem not_mem_excluded_of_mem_pool (h : v ∈ Panel.pool candidates excluded) :
    v.id ∉ excluded := by
  have hv := (List.mem_filter.mp (mem_firstRows h)).2
  simpa using hv

/-- A row that counts is the first one with its name. -/
theorem find?_of_mem_firstRows {rows : List Voter} (h : v ∈ firstRows rows) :
    rows.find? (fun w => w.id = v.id) = some v := by
  induction rows with
  | nil => cases h
  | cons w rows ih =>
    rcases List.mem_cons.mp h with rfl | hv
    · exact List.find?_cons_of_pos (decide_eq_true rfl)
    · obtain ⟨hv, hne⟩ := List.mem_filter.mp hv
      rw [List.find?_cons_of_neg]
      · exact ih hv
      · simpa using Ne.symm (of_decide_eq_true hne)

theorem find?_of_mem_pool (h : v ∈ Panel.pool candidates excluded) :
    candidates.find? (fun w => w.id = v.id) = some v := by
  have hfree := not_mem_excluded_of_mem_pool h
  rw [← find?_of_mem_firstRows h, List.find?_filter]
  congr 1
  funext w
  by_cases hw : w.id = v.id
  · simp [hw, hfree]
  · simp [hw]

theorem share_eq_zero_iff {d : Dimension} {group : String} :
    share d group seats = 0 ↔ group ∉ seats.map d.group := by
  simp [share, List.countP_eq_zero]

theorem groups_append_singleton (d : Dimension) (seats : List Voter) (v : Voter) :
    groups d (seats ++ [v]) = groups d seats + if share d (d.group v) seats = 0 then 1 else 0 := by
  simp only [groups, List.map_append, List.map_cons, List.map_nil, firsts_append_singleton,
    share_eq_zero_iff]
  by_cases h : d.group v ∈ seats.map d.group
  · simp [h]
  · simp [h]

theorem share_append_singleton (d : Dimension) (group : String) (seats : List Voter) (v : Voter) :
    share d group (seats ++ [v]) = share d group seats + if d.group v = group then 1 else 0 := by
  simp [share, List.countP_append, List.countP_singleton]

theorem share_lt_cap_of_admits (h : Admits q seats v) (d : Dimension) :
    share d (d.group v) seats < q.cap := by
  cases d with
  | region => exact h.2.1
  | organization => exact h.2.2

theorem seatRegions_induction {P : List Voter → Prop}
    (step : ∀ {v : Voter} {seats : List Voter}, v ∈ pool → groups .region seats < q.minRegions →
      share .region v.affiliation.region seats = 0 → Admits q seats v → P seats → P (seats ++ [v]))
    (h : P seats) : P (seatRegions q pool seats) := by
  induction pool generalizing seats with
  | nil => exact h
  | cons v pool ih =>
    have ih' := fun {seats} => @ih seats (fun hv => step (List.mem_cons_of_mem _ hv))
    unfold seatRegions
    split
    · exact h
    · rename_i hg
      split
      · rename_i hv
        exact ih' (step List.mem_cons_self (Nat.lt_of_not_le hg) hv.1 hv.2 h)
      · exact ih' h

theorem fillSeats_induction {P : List Voter → Prop}
    (step : ∀ {v : Voter} {seats : List Voter}, v ∈ pool → seats.length < q.size →
      Admits q seats v → P seats → P (seats ++ [v]))
    (h : P seats) : P (fillSeats q pool seats) := by
  induction pool generalizing seats with
  | nil => exact h
  | cons v pool ih =>
    have ih' := fun {seats} => @ih seats (fun hv => step (List.mem_cons_of_mem _ hv))
    unfold fillSeats
    split
    · exact h
    · rename_i hg
      split
      · rename_i hv
        exact ih' (step List.mem_cons_self (Nat.lt_of_not_le hg) hv h)
      · exact ih' h

/-- What a seat preserves, both walks preserve, whether or not a panel is selected. -/
theorem seats_induction {P : List Voter → Prop}
    (step : ∀ {v : Voter} {seats : List Voter}, v ∈ pool → Admits q seats v → P seats →
      P (seats ++ [v]))
    (nil : P []) :
    P (fillSeats q pool (seatRegions q pool [])) :=
  fillSeats_induction (fun hv _ ha h => step hv ha h)
    (seatRegions_induction (fun hv _ _ ha h => step hv ha h) nil)

theorem select_eq_ok_iff : select candidates q excluded = .ok members ↔
    q.size ≤ (Panel.pool candidates excluded).length ∧ q.minRegions ≤ q.size ∧
      q.minOrganizations ≤ q.size ∧
      q.minRegions ≤ groups .region (Panel.pool candidates excluded) ∧
      q.minOrganizations ≤ groups .organization (Panel.pool candidates excluded) ∧
      q.minRegions ≤ groups .region (seatRegions q (Panel.pool candidates excluded) []) ∧
      q.size ≤ members.length ∧ q.minOrganizations ≤ groups .organization members ∧
      members = fillSeats q (Panel.pool candidates excluded)
      (seatRegions q (Panel.pool candidates excluded) []) := by
  simp only [select]
  constructor
  · intro h
    repeat' split at h
    all_goals cases h
    simp only [Nat.not_lt] at *
    exact ⟨‹_›, ‹_›, ‹_›, ‹_›, ‹_›, ‹_›, ‹_›, ‹_›, trivial⟩
  · rintro ⟨h₁, h₂, h₃, h₄, h₅, h₆, h₇, h₈, rfl⟩
    simp only [Nat.not_lt.mpr, *, if_false]

/-- A panel is called too small only if it has fewer seats than the groups that it must
represent. -/
theorem lt_minimum_of_select {d : Dimension} {size needed : Nat}
    (h : select candidates q excluded = .error (.panelTooSmall d size needed)) :
    q.size < q.minimum d := by
  simp only [select] at h
  repeat' split at h
  all_goals cases h
  · assumption
  · assumption

/-- The first walk seats one member of each region that it reaches, and no more than it must. -/
theorem length_seatRegions (q : Quota) (pool : List Voter) :
    (seatRegions q pool []).length = groups .region (seatRegions q pool []) ∧
      (seatRegions q pool []).length ≤ q.minRegions := by
  refine seatRegions_induction (P := fun seats => seats.length = groups .region seats ∧
    seats.length ≤ q.minRegions) ?_
    ⟨rfl, Nat.zero_le _⟩
  rintro v seats - hg hs - ⟨hlen, -⟩
  rw [groups_append_singleton]
  simp only [Dimension.group, hs, if_true, List.length_append, List.length_singleton]
  omega

theorem length_of_select (h : select candidates q excluded = .ok members) :
    members.length = q.size := by
  obtain ⟨-, hr, -, -, -, -, hsize, -, rfl⟩ := select_eq_ok_iff.mp h
  refine Nat.le_antisymm ?_ hsize
  refine fillSeats_induction (P := fun seats => seats.length ≤ q.size) ?_ ?_
  · intro v seats _ hlt _ _
    simpa using Nat.succ_le_of_lt hlt
  · exact Nat.le_trans (length_seatRegions q _).2 hr

section Seats

variable (q : Quota) (pool : List Voter)

theorem nodup_seats : ((fillSeats q pool (seatRegions q pool [])).map Voter.id).Nodup := by
  refine seats_induction (P := fun seats => (seats.map Voter.id).Nodup) ?_ List.nodup_nil
  intro v seats _ ha hs
  rw [List.map_append, List.nodup_append]
  refine ⟨hs, by simp, ?_⟩
  intro a hmem b hb
  obtain ⟨w, hw, rfl⟩ := List.mem_map.mp hmem
  simp only [List.map_cons, List.map_nil, List.mem_singleton] at hb
  subst hb
  exact ha.1 w hw

theorem seats_subset : fillSeats q pool (seatRegions q pool []) ⊆ pool := by
  refine seats_induction (P := fun seats => seats ⊆ pool) ?_ (List.nil_subset _)
  intro v seats hv _ hs w hw
  rcases List.mem_append.mp hw with hw | hw
  · exact hs hw
  · rw [List.mem_singleton.mp hw]
    exact hv

theorem share_seats_le_cap (d : Dimension) (group : String) :
    share d group (fillSeats q pool (seatRegions q pool [])) ≤ q.cap := by
  refine seats_induction (P := fun seats => share d group seats ≤ q.cap) ?_ (Nat.zero_le _)
  intro v seats _ ha hs
  rw [share_append_singleton]
  split
  · rename_i hv
    subst hv
    exact share_lt_cap_of_admits ha d
  · exact hs

end Seats

theorem nodup_of_select (h : select candidates q excluded = .ok members) :
    (members.map Voter.id).Nodup := by
  obtain ⟨-, -, -, -, -, -, -, -, rfl⟩ := select_eq_ok_iff.mp h
  exact nodup_seats ..

theorem mem_pool_of_select (h : select candidates q excluded = .ok members) :
    ∀ v ∈ members, v ∈ Panel.pool candidates excluded := by
  obtain ⟨-, -, -, -, -, -, -, -, rfl⟩ := select_eq_ok_iff.mp h
  exact seats_subset ..

theorem not_mem_excluded_of_select (h : select candidates q excluded = .ok members) :
    ∀ v ∈ members, v.id ∉ excluded :=
  fun v hv => not_mem_excluded_of_mem_pool (mem_pool_of_select h v hv)

theorem share_le_cap_of_select (h : select candidates q excluded = .ok members) (d : Dimension)
    (group : String) :
    share d group members ≤ q.cap := by
  obtain ⟨-, -, -, -, -, -, -, -, rfl⟩ := select_eq_ok_iff.mp h
  exact share_seats_le_cap ..

/-- As many groups are represented as must be: the first walk reaches the regions, and the second
takes none away. -/
theorem minimum_le_groups_of_select (h : select candidates q excluded = .ok members)
    (d : Dimension) :
    q.minimum d ≤ groups d members := by
  obtain ⟨-, -, -, -, -, hregions, -, horganizations, hmembers⟩ := select_eq_ok_iff.mp h
  cases d with
  | organization => exact horganizations
  | region =>
    rw [hmembers]
    refine fillSeats_induction (P := fun seats => q.minRegions ≤ groups .region seats) ?_ hregions
    intro v seats _ _ _ hs
    rw [groups_append_singleton]
    omega

end Panel

end Charter
