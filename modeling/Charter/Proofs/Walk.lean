import Charter.Proofs.Diversity

/-! # Greedy walks

Both walks of a selection go through the candidates in order and either seat a candidate or pass
over. They never take a seat back, and whom they would pass over now they would pass over at any
later time. For such a walk it does not matter where, or whether at all, those stand in the list
whom it does not seat. -/

namespace Charter.Panel

variable {q : Quota} {takes : List Voter → Voter → Prop} [∀ seats v, Decidable (takes seats v)]
variable {seats pool rows kept : List Voter} {v : Voter}

def walk (takes : List Voter → Voter → Prop) [∀ seats v, Decidable (takes seats v)] :
    List Voter → List Voter → List Voter
  | [], seats => seats
  | v :: pool, seats => walk takes pool (if takes seats v then seats ++ [v] else seats)

/-- Nobody is taken twice, and nobody is taken after being passed over. -/
structure IsGreedy (takes : List Voter → Voter → Prop) : Prop where
  once : ∀ {seats v}, v ∈ seats → ¬takes seats v
  forGood : ∀ {seats v}, ¬takes seats v → ∀ more, ¬takes (seats ++ more) v

def TakesForRegion (q : Quota) (seats : List Voter) (v : Voter) : Prop :=
  groups .region seats < q.minRegions ∧ share .region v.affiliation.region seats = 0 ∧
    Admits q seats v

def TakesForSeat (q : Quota) (seats : List Voter) (v : Voter) : Prop :=
  seats.length < q.size ∧ Admits q seats v

instance (q : Quota) (seats : List Voter) (v : Voter) : Decidable (TakesForRegion q seats v) :=
  inferInstanceAs (Decidable (_ ∧ _ ∧ _))

instance (q : Quota) (seats : List Voter) (v : Voter) : Decidable (TakesForSeat q seats v) :=
  inferInstanceAs (Decidable (_ ∧ _))

theorem share_le_share_append (d : Dimension) (group : String) (seats more : List Voter) :
    share d group seats ≤ share d group (seats ++ more) := by
  simp [share, List.countP_append]

theorem groups_le_of_represented {d : Dimension} (h : ∀ v ∈ seats, d.group v ∈ pool.map d.group) :
    groups d seats ≤ groups d pool := by
  rw [groups, groups, length_firsts, length_firsts]
  refine Finset.card_le_card fun group hgroup => ?_
  rw [List.mem_toFinset] at hgroup ⊢
  obtain ⟨v, hv, rfl⟩ := List.mem_map.mp hgroup
  exact h v hv

theorem groups_le_of_subset {d : Dimension} (h : seats ⊆ pool) : groups d seats ≤ groups d pool :=
  groups_le_of_represented fun _ hv => List.mem_map_of_mem (h hv)

theorem not_admits_of_mem (h : v ∈ seats) : ¬Admits q seats v := fun hadmits => hadmits.1 v h rfl

theorem Admits.of_append {more : List Voter} (h : Admits q (seats ++ more) v) :
    Admits q seats v := by
  obtain ⟨hname, hregion, horganization⟩ := h
  refine ⟨fun w hw => hname w (List.mem_append_left _ hw), ?_, ?_⟩
  · exact Nat.lt_of_le_of_lt (share_le_share_append ..) hregion
  · exact Nat.lt_of_le_of_lt (share_le_share_append ..) horganization

theorem isGreedy_takesForRegion (q : Quota) : IsGreedy (TakesForRegion q) where
  once hv htakes := not_admits_of_mem hv htakes.2.2
  forGood := by
    rintro seats v hpassed more ⟨hmissing, hnew, hadmits⟩
    refine hpassed ⟨?_, ?_, hadmits.of_append⟩
    · exact Nat.lt_of_le_of_lt (groups_le_of_subset (List.subset_append_left seats more)) hmissing
    · have hshare := share_le_share_append .region v.affiliation.region seats more
      omega

theorem isGreedy_takesForSeat (q : Quota) : IsGreedy (TakesForSeat q) where
  once hv htakes := not_admits_of_mem hv htakes.2
  forGood := by
    rintro seats v hpassed more ⟨hvacant, hadmits⟩
    refine hpassed ⟨?_, hadmits.of_append⟩
    rw [List.length_append] at hvacant
    omega

theorem walk_of_idle (h : ∀ v ∈ pool, ¬takes seats v) : walk takes pool seats = seats := by
  induction pool with
  | nil => rfl
  | cons v pool ih =>
    rw [walk, if_neg (h v List.mem_cons_self)]
    exact ih fun w hw => h w (List.mem_cons_of_mem _ hw)

theorem seatRegions_eq_walk (q : Quota) (pool seats : List Voter) :
    seatRegions q pool seats = walk (TakesForRegion q) pool seats := by
  induction pool generalizing seats with
  | nil => rfl
  | cons v pool ih =>
    rw [seatRegions]
    split
    · rename_i henough
      exact (walk_of_idle fun w _ htakes => Nat.not_lt.mpr henough htakes.1).symm
    · rename_i hmissing
      rw [walk, ih, ih]
      split
      · rename_i hnew
        rw [if_pos ⟨Nat.lt_of_not_le hmissing, hnew⟩]
      · rename_i hold
        rw [if_neg fun htakes => hold htakes.2]

theorem fillSeats_eq_walk (q : Quota) (pool seats : List Voter) :
    fillSeats q pool seats = walk (TakesForSeat q) pool seats := by
  induction pool generalizing seats with
  | nil => rfl
  | cons v pool ih =>
    rw [fillSeats]
    split
    · rename_i hfull
      exact (walk_of_idle fun w _ htakes => Nat.not_lt.mpr hfull htakes.1).symm
    · rename_i hvacant
      rw [walk, ih, ih]
      split
      · rename_i hadmits
        rw [if_pos ⟨Nat.lt_of_not_le hvacant, hadmits⟩]
      · rename_i hrefused
        rw [if_neg fun htakes => hrefused htakes.2]

theorem walk_append (pool rows seats : List Voter) :
    walk takes (pool ++ rows) seats = walk takes rows (walk takes pool seats) := by
  induction pool generalizing seats with
  | nil => rfl
  | cons v pool ih => rw [List.cons_append, walk, walk, ih]

theorem prefix_walk (takes : List Voter → Voter → Prop) [∀ seats v, Decidable (takes seats v)]
    (pool seats : List Voter) :
    seats <+: walk takes pool seats := by
  induction pool generalizing seats with
  | nil => exact List.prefix_rfl
  | cons v pool ih =>
    rw [walk]
    split
    · exact (List.prefix_append seats [v]).trans (ih _)
    · exact ih seats

theorem mem_walk_of_takes (h : takes seats v) (pool : List Voter) :
    v ∈ walk takes (v :: pool) seats := by
  rw [walk, if_pos h]
  exact (prefix_walk takes pool (seats ++ [v])).subset (by simp)

namespace IsGreedy

theorem not_takes_seat (h : IsGreedy takes) (seats : List Voter) (v : Voter) :
    ¬takes (if takes seats v then seats ++ [v] else seats) v := by
  split
  · exact h.once (by simp)
  · assumption

theorem not_takes_walk_of_not_takes (h : IsGreedy takes) (hv : ¬takes seats v) (pool : List Voter) :
    ¬takes (walk takes pool seats) v := by
  obtain ⟨more, hmore⟩ := prefix_walk takes pool seats
  rw [← hmore]
  exact h.forGood hv more

/-- At the end of a walk none of the candidates would be taken. -/
theorem not_takes_walk (h : IsGreedy takes) (hv : v ∈ pool) (seats : List Voter) :
    ¬takes (walk takes pool seats) v := by
  induction pool generalizing seats with
  | nil => cases hv
  | cons w pool ih =>
    rw [walk]
    rcases List.mem_cons.mp hv with rfl | hv
    · exact h.not_takes_walk_of_not_takes (h.not_takes_seat seats v) pool
    · exact ih hv _

end IsGreedy

/-- From the first list some rows are left out in the second, none of them with one of these
names. -/
inductive LeavesOut (names : List VoterId) : List Voter → List Voter → Prop
  | nil : LeavesOut names [] []
  | keep (v : Voter) {rows kept : List Voter} (h : LeavesOut names rows kept) :
      LeavesOut names (v :: rows) (v :: kept)
  | drop {v : Voter} {rows kept : List Voter} (free : v.id ∉ names)
      (h : LeavesOut names rows kept) :
      LeavesOut names (v :: rows) kept

theorem LeavesOut.mem {names : List VoterId} (h : LeavesOut names rows kept) (hv : v ∈ rows)
    (hname : v.id ∈ names) :
    v ∈ kept := by
  induction h with
  | nil => exact hv
  | keep w _ ih =>
    rcases List.mem_cons.mp hv with rfl | hv
    · exact List.mem_cons_self
    · exact List.mem_cons_of_mem w (ih hv)
  | drop free _ ih =>
    rcases List.mem_cons.mp hv with rfl | hv
    · exact absurd hname free
    · exact ih hv

theorem LeavesOut.filter {names : List VoterId} (h : LeavesOut names rows kept) (p : Voter → Bool) :
    LeavesOut names (rows.filter p) (kept.filter p) := by
  induction h with
  | nil => exact .nil
  | keep v _ ih =>
    cases hv : p v with
    | true => simpa [hv] using LeavesOut.keep v ih
    | false => simpa [hv] using ih
  | @drop v _ _ free _ ih =>
    cases hv : p v with
    | true => simpa [hv] using LeavesOut.drop free ih
    | false => simpa [hv] using ih

theorem leavesOut_filter_of_imp {names : List VoterId} {p r : Voter → Bool}
    (narrower : ∀ v, r v = true → p v = true) (spared : ∀ v, p v = true → v.id ∈ names → r v = true)
    (rows : List Voter) :
    LeavesOut names (rows.filter p) (rows.filter r) := by
  induction rows with
  | nil => exact .nil
  | cons v rows ih =>
    by_cases hr : r v = true
    · rw [List.filter_cons_of_pos hr, List.filter_cons_of_pos (narrower v hr)]
      exact .keep v ih
    · rw [List.filter_cons_of_neg hr]
      by_cases hp : p v = true
      · rw [List.filter_cons_of_pos hp]
        exact .drop (fun hname => hr (spared v hp hname)) ih
      · rw [List.filter_cons_of_neg hp]
        exact ih

/-- Candidates who are not seated may be left out, all of them or some. -/
theorem walk_of_leavesOut {names : List VoterId} (h : LeavesOut names pool kept)
    (seated : ∀ v ∈ walk takes pool seats, v.id ∈ names) :
    walk takes kept seats = walk takes pool seats := by
  induction h generalizing seats with
  | nil => rfl
  | keep v _ ih =>
    rw [walk] at seated ⊢
    exact ih seated
  | @drop v pool _ free _ ih =>
    have hpassed : ¬takes seats v := fun htakes => free (seated v (mem_walk_of_takes htakes pool))
    rw [walk, if_neg hpassed] at seated ⊢
    exact ih seated

/-- Whoever would not be taken now may be left out at every later place. -/
theorem IsGreedy.walk_filter_of_not_takes (h : IsGreedy takes) (hv : ¬takes seats v)
    (hsame : ∀ w ∈ rows, w.id = v.id → w = v) :
    walk takes (rows.filter (fun w => w.id ≠ v.id)) seats = walk takes rows seats := by
  induction rows generalizing seats with
  | nil => rfl
  | cons w rows ih =>
    have ih' := fun {seats} (hv : ¬takes seats v) => @ih seats hv fun u hu =>
      hsame u (List.mem_cons_of_mem _ hu)
    by_cases hid : w.id = v.id
    · obtain rfl := hsame w List.mem_cons_self hid
      rw [List.filter_cons_of_neg (by simp), walk, if_neg hv]
      exact ih' hv
    · rw [List.filter_cons_of_pos (by simpa using hid), walk, walk]
      refine ih' ?_
      split
      · exact h.forGood hv [w]
      · exact hv

def IsFirst (rows : List Voter) (v : Voter) : Prop := rows.find? (fun w => w.id = v.id) = some v

instance (rows : List Voter) (v : Voter) : Decidable (IsFirst rows v) :=
  inferInstanceAs (Decidable (_ = _))

theorem find?_filter_of_id {p : Voter → Bool} {id : VoterId}
    (h : ∀ w : Voter, w.id = id → p w = true) (rows : List Voter) :
    (rows.filter p).find? (fun w => w.id = id) = rows.find? (fun w => w.id = id) := by
  rw [List.find?_filter]
  congr 1
  funext w
  by_cases hw : w.id = id
  · simp [hw, h w hw]
  · simp [hw]

theorem isFirst_filter_iff {p : Voter → Bool} (h : ∀ w : Voter, w.id = v.id → p w = true) :
    IsFirst (rows.filter p) v ↔ IsFirst rows v := by
  rw [IsFirst, find?_filter_of_id h, IsFirst]

theorem isFirst_cons_iff {w : Voter} (h : v.id ≠ w.id) :
    IsFirst (w :: rows) v ↔ IsFirst rows v := by
  rw [IsFirst, List.find?_cons_of_neg (by simpa using Ne.symm h), IsFirst]

theorem firstRows_filter (id : VoterId) (rows : List Voter) :
    (firstRows rows).filter (fun w => w.id ≠ id) =
      firstRows (rows.filter (fun w => w.id ≠ id)) := by
  induction rows with
  | nil => rfl
  | cons v rows ih =>
    by_cases hid : v.id = id
    · subst hid
      rw [firstRows, List.filter_cons_of_neg (by simp), List.filter_cons_of_neg (by simp),
        List.filter_filter, ← ih]
      simp
    · rw [firstRows, List.filter_cons_of_pos (by simpa using hid),
        List.filter_cons_of_pos (by simpa using hid), firstRows, ← ih, List.filter_filter,
        List.filter_filter]
      simp only [Bool.and_comm]

/-- A walk over the first rows seats the same members as one over all rows that repeat a first row:
at its repetitions a row would not be taken, whether it has been seated or passed over. -/
theorem IsGreedy.walk_firstRows (h : IsGreedy takes) (rows seats : List Voter) :
    walk takes (firstRows rows) seats = walk takes (rows.filter (IsFirst rows)) seats := by
  induction hlength : rows.length using Nat.strong_induction_on generalizing rows seats with
  | _ n ih =>
    cases rows with
    | nil => rfl
    | cons w rows =>
      have hw : IsFirst (w :: rows) w := List.find?_cons_of_pos (decide_eq_true rfl)
      have hkept : (w :: rows).filter (IsFirst (w :: rows)) =
          w :: rows.filter (IsFirst (w :: rows)) :=
        List.filter_cons_of_pos (p := fun v => decide (IsFirst (w :: rows) v)) (decide_eq_true hw)
      rw [firstRows, firstRows_filter, hkept, walk, walk]
      generalize hseats : (if takes seats w then seats ++ [w] else seats) = seats'
      have hlooked : ¬takes seats' w := hseats ▸ h.not_takes_seat seats w
      have hshorter : (rows.filter (fun v => v.id ≠ w.id)).length < n := by
        have hle := List.length_filter_le (fun v : Voter => decide (v.id ≠ w.id)) rows
        rw [← hlength, List.length_cons]
        omega
      rw [ih _ hshorter _ _ rfl]
      -- behind its first row the name of `w` is out of the way, so the other names are looked
      -- up in the rest alone
      have hrest : (rows.filter (fun v => v.id ≠ w.id)).filter
          (IsFirst (rows.filter (fun v => v.id ≠ w.id))) =
          (rows.filter (IsFirst (w :: rows))).filter (fun v => v.id ≠ w.id) := by
        rw [List.filter_filter, List.filter_filter]
        refine List.filter_congr fun v _ => ?_
        by_cases hv : v.id = w.id
        · simp [hv]
        · have hsame : IsFirst (rows.filter (fun u => u.id ≠ w.id)) v ↔ IsFirst (w :: rows) v := by
            rw [isFirst_filter_iff fun u hu => by simpa [hu] using hv, isFirst_cons_iff hv]
          rw [Bool.and_comm, decide_eq_decide.mpr hsame]
      rw [hrest]
      refine h.walk_filter_of_not_takes hlooked ?_
      intro v hv hid
      have hfirst : IsFirst (w :: rows) v := of_decide_eq_true (List.mem_filter.mp hv).2
      rw [IsFirst, hid, hw] at hfirst
      exact (Option.some.inj hfirst).symm

/-- The rows under which candidates count, each as often as it is listed. -/
def counted (candidates : List Voter) (excluded : List VoterId) : List Voter :=
  candidates.filter (fun v => v.id ∉ excluded ∧ IsFirst candidates v)

theorem mem_counted_iff {candidates : List Voter} {excluded : List VoterId} :
    v ∈ counted candidates excluded ↔ v.id ∉ excluded ∧ IsFirst candidates v := by
  rw [counted, List.mem_filter, decide_eq_true_eq]
  exact and_iff_right_of_imp fun h => List.mem_of_find?_eq_some h.2

theorem mem_firstRows_of_isFirst (h : IsFirst rows v) : v ∈ firstRows rows := by
  induction rows with
  | nil => cases h
  | cons w rows ih =>
    by_cases hid : v.id = w.id
    · rw [IsFirst, List.find?_cons_of_pos (by simp [hid])] at h
      exact List.mem_cons.mpr (.inl (Option.some.inj h).symm)
    · refine List.mem_cons_of_mem _ (List.mem_filter.mpr ⟨ih ((isFirst_cons_iff hid).mp h), ?_⟩)
      exact decide_eq_true hid

theorem mem_pool_iff {candidates : List Voter} {excluded : List VoterId} :
    v ∈ Panel.pool candidates excluded ↔ v.id ∉ excluded ∧ IsFirst candidates v := by
  constructor
  · intro h
    exact ⟨not_mem_excluded_of_mem_pool h, find?_of_mem_pool h⟩
  · rintro ⟨hfree, hfirst⟩
    refine mem_firstRows_of_isFirst ((isFirst_filter_iff ?_).mpr hfirst)
    intro w hw
    simpa [hw] using hfree

theorem IsGreedy.walk_pool (h : IsGreedy takes) (candidates : List Voter) (excluded : List VoterId)
    (seats : List Voter) :
    walk takes (Panel.pool candidates excluded) seats =
      walk takes (counted candidates excluded) seats := by
  rw [Panel.pool, h.walk_firstRows, counted, List.filter_filter]
  congr 1
  refine List.filter_congr fun v _ => ?_
  by_cases hv : v.id ∈ excluded
  · simp [hv]
  · have hsame : IsFirst (candidates.filter (fun w => w.id ∉ excluded)) v ↔ IsFirst candidates v :=
      isFirst_filter_iff fun w hw => by simpa [hw] using hv
    simp only [hsame, Bool.decide_and, Bool.and_comm]

theorem seatRegions_pool (q : Quota) (candidates : List Voter) (excluded : List VoterId)
    (seats : List Voter) :
    seatRegions q (Panel.pool candidates excluded) seats =
      walk (TakesForRegion q) (counted candidates excluded) seats := by
  rw [seatRegions_eq_walk, (isGreedy_takesForRegion q).walk_pool]

theorem fillSeats_pool (q : Quota) (candidates : List Voter) (excluded : List VoterId)
    (seats : List Voter) :
    fillSeats q (Panel.pool candidates excluded) seats =
      walk (TakesForSeat q) (counted candidates excluded) seats := by
  rw [fillSeats_eq_walk, (isGreedy_takesForSeat q).walk_pool]

end Charter.Panel
