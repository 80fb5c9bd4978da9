import Charter.Proofs.Selection
import Charter.Proofs.Walk

/-! # Justified refusals

The walk is greedy, so a refusal does not show that there is no panel. It shows that the walk could
not have gone on: the seats that it filled are stuck, since each candidate without a seat belongs to
a group that holds its cap. Where no group is large enough to reach its cap, the walk fills all
seats. -/

namespace Charter.Panel

variable {q : Quota} {pool seats candidates : List Voter} {excluded : List VoterId} {v : Voter}

theorem nodup_pool (candidates : List Voter) (excluded : List VoterId) :
    ((Panel.pool candidates excluded).map Voter.id).Nodup := by
  rw [Panel.pool]
  generalize candidates.filter (fun v => v.id ∉ excluded) = rows
  induction rows with
  | nil => exact List.nodup_nil
  | cons v rows ih =>
    rw [firstRows, List.map_cons, List.nodup_cons]
    exact ⟨by simp, ih.sublist (List.filter_sublist.map Voter.id)⟩

/-- A candidate without a seat is kept from one only by a group that holds its cap. -/
theorem exists_full_of_not_admits (distinct : (pool.map Voter.id).Nodup) (hseats : seats ⊆ pool)
    (hv : v ∈ pool) (hout : v ∉ seats) (h : ¬Admits q seats v) :
    ∃ d, q.cap ≤ share d (d.group v) seats := by
  have hname : ∀ w ∈ seats, w.id ≠ v.id := by
    intro w hw hid
    rw [List.inj_on_of_nodup_map distinct (hseats hw) hv hid] at hw
    exact hout hw
  by_contra hnone
  rw [not_exists] at hnone
  exact h ⟨hname, Nat.lt_of_not_le (hnone .region), Nat.lt_of_not_le (hnone .organization)⟩

theorem admits_of_share_le_cap (distinct : (pool.map Voter.id).Nodup)
    (hshare : ∀ d group, share d group pool ≤ q.cap) (hnodup : seats.Nodup) (hseats : seats ⊆ pool)
    (hv : v ∈ pool) (hout : v ∉ seats) : Admits q seats v := by
  by_contra hrefused
  obtain ⟨d, hfull⟩ := exists_full_of_not_admits distinct hseats hv hout hrefused
  have hsub : (v :: seats).Subperm pool :=
    (List.nodup_cons.mpr ⟨hout, hnodup⟩).subperm (List.cons_subset.mpr ⟨hv, hseats⟩)
  have hcount : share d (d.group v) (v :: seats) ≤ share d (d.group v) pool := hsub.countP_le _
  have hlimit := hshare d (d.group v)
  have hone : share d (d.group v) (v :: seats) = share d (d.group v) seats + 1 := by
    simp [share]
  omega

theorem seatRegions_prefix_seats (q : Quota) (pool : List Voter) :
    seatRegions q pool [] <+: fillSeats q pool (seatRegions q pool []) := by
  rw [fillSeats_eq_walk]
  exact prefix_walk ..

theorem seatRegions_subset (q : Quota) (pool : List Voter) : seatRegions q pool [] ⊆ pool :=
  List.Subset.trans (seatRegions_prefix_seats q pool).subset (seats_subset q pool)

theorem nodup_seatRegions (q : Quota) (pool : List Voter) : (seatRegions q pool []).Nodup :=
  (nodup_seats q pool).of_map.sublist (seatRegions_prefix_seats q pool).sublist

/-- The first walk reaches as many regions as it must, unless a cap keeps it from a region in which
nobody is seated. -/
theorem le_groups_seatRegions (hgroups : q.minRegions ≤ groups .region pool)
    (hadmits : ∀ v ∈ pool, groups .region (seatRegions q pool []) < q.minRegions →
      share .region v.affiliation.region (seatRegions q pool []) = 0 →
      Admits q (seatRegions q pool []) v) :
    q.minRegions ≤ groups .region (seatRegions q pool []) := by
  by_contra hfew
  have hmissing := Nat.lt_of_not_le hfew
  refine hfew (hgroups.trans (groups_le_of_represented fun v hv => ?_))
  -- a candidate of a region that is missing would have been taken
  by_contra hnew
  have hshare := share_eq_zero_iff.mpr hnew
  have hpassed := (isGreedy_takesForRegion q).not_takes_walk hv []
  rw [← seatRegions_eq_walk] at hpassed
  exact hpassed ⟨hmissing, hshare, hadmits v hv hmissing hshare⟩

theorem not_mem_of_share_eq_zero {d : Dimension} (h : share d (d.group v) seats = 0) : v ∉ seats :=
  fun hv =>
  share_eq_zero_iff.mp h (List.mem_map_of_mem hv)

/-- A cap that is no smaller than the number of regions keeps the first walk from none: it has
seated fewer members than that. -/
theorem le_groups_seatRegions_of_le_cap (distinct : (pool.map Voter.id).Nodup)
    (hgroups : q.minRegions ≤ groups .region pool) (hcap : q.minRegions ≤ q.cap) :
    q.minRegions ≤ groups .region (seatRegions q pool []) := by
  refine le_groups_seatRegions hgroups fun v hv hmissing hshare => ?_
  by_contra hrefused
  have hout := not_mem_of_share_eq_zero (d := .region) hshare
  obtain ⟨d, hfull⟩ :=
    exists_full_of_not_admits distinct (seatRegions_subset q pool) hv hout hrefused
  have hlength := (length_seatRegions q pool).1
  have hshares : share d (d.group v) (seatRegions q pool []) ≤ (seatRegions q pool []).length :=
    List.countP_le_length
  omega

theorem le_groups_seatRegions_of_share_le_cap (distinct : (pool.map Voter.id).Nodup)
    (hgroups : q.minRegions ≤ groups .region pool)
    (hshare : ∀ d group, share d group pool ≤ q.cap) :
    q.minRegions ≤ groups .region (seatRegions q pool []) := by
  refine le_groups_seatRegions hgroups fun v hv _ hnew => ?_
  have hout := not_mem_of_share_eq_zero (d := .region) hnew
  exact admits_of_share_le_cap distinct hshare (nodup_seatRegions q pool)
    (seatRegions_subset q pool) hv hout

theorem not_admits_of_vacant (hvacant : (fillSeats q pool (seatRegions q pool [])).length < q.size)
    (hv : v ∈ pool) :
    ¬Admits q (fillSeats q pool (seatRegions q pool [])) v := by
  have hpassed := (isGreedy_takesForSeat q).not_takes_walk hv (seatRegions q pool [])
  rw [← fillSeats_eq_walk] at hpassed
  exact fun hadmits => hpassed ⟨hvacant, hadmits⟩

theorem size_le_length_fillSeats (distinct : (pool.map Voter.id).Nodup)
    (hpool : q.size ≤ pool.length) (hshare : ∀ d group, share d group pool ≤ q.cap) :
    q.size ≤ (fillSeats q pool (seatRegions q pool [])).length := by
  by_contra hfew
  have hvacant := Nat.lt_of_not_le hfew
  have hseated : pool ⊆ fillSeats q pool (seatRegions q pool []) := by
    intro v hv
    by_contra hout
    have hadmits := admits_of_share_le_cap distinct hshare (nodup_seats q pool).of_map
      (seats_subset q pool) hv hout
    exact not_admits_of_vacant hvacant hv hadmits
  have hlength := (distinct.of_map.subperm hseated).length_le
  omega

/-- Seats that are stuck: no group holds more of them than its cap, and a candidate without one is
of a group that holds exactly its cap. -/
theorem exists_stuck_of_vacant (distinct : (pool.map Voter.id).Nodup)
    (hvacant : (fillSeats q pool (seatRegions q pool [])).length < q.size) :
    ∃ seats, seats.Nodup ∧ seats ⊆ pool ∧
      seats.length = (fillSeats q pool (seatRegions q pool [])).length ∧
      (∀ (d : Dimension) group, (seats.map d.group).count group ≤ q.cap) ∧
      ∀ v ∈ pool, v ∉ seats → ∃ d : Dimension, (seats.map d.group).count (d.group v) = q.cap := by
  simp only [count_map_group]
  refine ⟨_, (nodup_seats q pool).of_map, seats_subset q pool, rfl, share_seats_le_cap q pool, ?_⟩
  intro v hv hout
  have hrefused := not_admits_of_vacant hvacant hv
  obtain ⟨d, hfull⟩ := exists_full_of_not_admits distinct (seats_subset q pool) hv hout hrefused
  exact ⟨d, Nat.le_antisymm (share_seats_le_cap q pool d _) hfull⟩

theorem length_of_capExhausted {cap selected size : Nat}
    (h : select candidates q excluded = .error (.capExhausted cap selected size)) :
    cap = q.cap ∧ size = q.size ∧ selected < q.size ∧
      selected = (fillSeats q (Panel.pool candidates excluded)
        (seatRegions q (Panel.pool candidates excluded) [])).length := by
  simp only [select] at h
  repeat' split at h
  all_goals cases h
  exact ⟨rfl, rfl, ‹_›, rfl⟩

theorem lt_of_tooFewRegions {needed available : Nat}
    (h : select candidates q excluded = .error (.tooFewGroups .region needed available)) :
    groups .region (Panel.pool candidates excluded) < q.minRegions ∨
      groups .region (seatRegions q (Panel.pool candidates excluded) []) < q.minRegions := by
  simp only [select] at h
  repeat' split at h
  all_goals cases h
  · exact .inl ‹_›
  · exact .inr ‹_›

/-- The candidates pass the checks that are made before anybody is seated: there are enough of them,
of enough groups, and the panel has seats for the groups. -/
structure IsViable (q : Quota) (pool : List Voter) : Prop where
  enough : q.size ≤ pool.length
  seats : ∀ d, q.minimum d ≤ q.size
  groups : ∀ d, q.minimum d ≤ (pool.map d.group).toFinset.card

theorem IsViable.minimum_le_groups (h : IsViable q pool) (d : Dimension) :
    q.minimum d ≤ Panel.groups d pool := by
  rw [Panel.groups, length_firsts]
  exact h.groups d

/-- Once both walks have done their part, only the organizations can be too few. -/
theorem select_of_filled (h : IsViable q (Panel.pool candidates excluded))
    (hregions : q.minRegions ≤ groups .region (seatRegions q (Panel.pool candidates excluded) []))
    (hfilled : q.size ≤ (fillSeats q (Panel.pool candidates excluded)
      (seatRegions q (Panel.pool candidates excluded) [])).length) :
    (∃ members, select candidates q excluded = .ok members) ∨
      ∃ available < q.minOrganizations,
        select candidates q excluded =
          .error (.tooFewGroups .organization q.minOrganizations available) := by
  have hregionSeats : q.minRegions ≤ q.size := h.seats .region
  have horganizationSeats : q.minOrganizations ≤ q.size := h.seats .organization
  have hregionCandidates : q.minRegions ≤ groups .region (Panel.pool candidates excluded) :=
    h.minimum_le_groups .region
  have horganizationCandidates :
      q.minOrganizations ≤ groups .organization (Panel.pool candidates excluded) :=
    h.minimum_le_groups .organization
  by_cases hfew : groups .organization
      (fillSeats q (Panel.pool candidates excluded)
        (seatRegions q (Panel.pool candidates excluded) [])) < q.minOrganizations
  · refine .inr ⟨_, hfew, ?_⟩
    simp only [select, Nat.not_lt.mpr h.enough, Nat.not_lt.mpr hregionSeats,
      Nat.not_lt.mpr horganizationSeats, Nat.not_lt.mpr hregionCandidates,
      Nat.not_lt.mpr horganizationCandidates, Nat.not_lt.mpr hregions, Nat.not_lt.mpr hfilled, hfew,
      if_false, if_true]
  · refine .inl ⟨_, select_eq_ok_iff.mpr ⟨h.enough, hregionSeats, horganizationSeats,
      hregionCandidates, horganizationCandidates, hregions, hfilled, Nat.le_of_not_lt hfew, rfl⟩⟩

/-- Refusals of the walk are justified. When a cap is called exhausted, the walk has filled as many
seats as it says, none of them in vain, and is stuck there: each candidate without a seat is of a
region or an organization that holds exactly its cap. Regions are never called too few where the
candidates have enough of them and the cap is no smaller. Where no group has more candidates than
its cap, a panel that can be made up at all is refused for its organizations or not at all. -/
theorem refusals_are_justified (q : Quota) (candidates : List Voter) (excluded : List VoterId) :
    (∀ cap selected size, select candidates q excluded = .error (.capExhausted cap selected size) →
      cap = q.cap ∧ size = q.size ∧ selected < q.size ∧
        ∃ seats, seats.Nodup ∧ seats ⊆ Panel.pool candidates excluded ∧ seats.length = selected ∧
          (∀ (d : Dimension) group, (seats.map d.group).count group ≤ q.cap) ∧
          ∀ v ∈ Panel.pool candidates excluded, v ∉ seats → ∃ d : Dimension,
            (seats.map d.group).count (d.group v) = q.cap) ∧
      (q.minRegions ≤
        ((Panel.pool candidates excluded).map (Dimension.group .region)).toFinset.card →
        q.minRegions ≤ q.cap →
        ∀ needed available,
          select candidates q excluded ≠ .error (.tooFewGroups .region needed available)) ∧
      (IsViable q (Panel.pool candidates excluded) →
        (∀ (d : Dimension) group,
          ((Panel.pool candidates excluded).map d.group).count group ≤ q.cap) →
        (∃ members, select candidates q excluded = .ok members) ∨
          ∃ available < q.minOrganizations,
            select candidates q excluded =
              .error (.tooFewGroups .organization q.minOrganizations available)) := by
  refine ⟨?_, ?_, ?_⟩
  · intro cap selected size h
    obtain ⟨hcap, hsize, hvacant, rfl⟩ := length_of_capExhausted h
    exact ⟨hcap, hsize, hvacant, exists_stuck_of_vacant (nodup_pool candidates excluded) hvacant⟩
  · intro hgroups hcap needed available h
    rw [← length_firsts, ← groups] at hgroups
    have hreached := le_groups_seatRegions_of_le_cap (nodup_pool candidates excluded) hgroups hcap
    rcases lt_of_tooFewRegions h with hfew | hfew
    · omega
    · omega
  · intro hviable hcount
    have hshare : ∀ d group, share d group (Panel.pool candidates excluded) ≤ q.cap := by
      intro d group
      rw [← count_map_group]
      exact hcount d group
    refine select_of_filled hviable ?_
      (size_le_length_fillSeats (nodup_pool candidates excluded) hviable.enough hshare)
    exact le_groups_seatRegions_of_share_le_cap (nodup_pool candidates excluded)
      (hviable.minimum_le_groups .region) hshare

/-- Three candidates, two of them of one region and one organization. Under a cap of one the third
seat stays vacant; both regions are reached when they must be; and two seats are refused if they
must represent two organizations, although they could. -/
theorem refusals_are_justified_trio :
    let roster : List Voter :=
      [⟨"amy", ⟨"north", "guild"⟩⟩, ⟨"ben", ⟨"north", "guild"⟩⟩, ⟨"cleo", ⟨"south", "lodge"⟩⟩]
    (select roster ⟨3, 1, 1, 34⟩ [] = .error (.capExhausted 1 2 3) ∧
      ∃ seats : List Voter, seats.length = 2 ∧ ∀ v ∈ Panel.pool roster [], v ∉ seats →
        ∃ d : Dimension, (seats.map d.group).count (d.group v) = 1) ∧
    (∀ needed available, select roster ⟨2, 2, 1, 100⟩ [] ≠
      .error (.tooFewGroups .region needed available)) ∧
    ∃ available < 2, select roster ⟨2, 1, 2, 100⟩ [] =
      .error (.tooFewGroups .organization 2 available) := by
  intro roster
  have hrefused : select roster ⟨3, 1, 1, 34⟩ [] = .error (.capExhausted 1 2 3) := by decide +kernel
  obtain ⟨-, -, -, seats, -, -, hlength, -, hstuck⟩ :=
    (refusals_are_justified ⟨3, 1, 1, 34⟩ roster []).1 1 2 3 hrefused
  refine ⟨⟨hrefused, seats, hlength, hstuck⟩, ?_, ?_⟩
  · exact (refusals_are_justified ⟨2, 2, 1, 100⟩ roster []).2.1 (by decide) (by decide)
  · have hviable : IsViable ⟨2, 1, 2, 100⟩ (Panel.pool roster []) :=
      ⟨by decide, fun d => by cases d <;> decide, fun d => by cases d <;> decide⟩
    have hcount : ∀ (d : Dimension) group,
        ((Panel.pool roster []).map d.group).count group ≤ 2 := by
      intro d group
      by_cases hmem : group ∈ (Panel.pool roster []).map d.group
      · revert group
        cases d <;> decide
      · rw [List.count_eq_zero_of_not_mem hmem]
        exact Nat.zero_le 2
    rcases (refusals_are_justified ⟨2, 1, 2, 100⟩ roster []).2.2 hviable hcount
      with ⟨members, hmembers⟩ | hfew
    · have hno : select roster ⟨2, 1, 2, 100⟩ [] ≠ .ok members := by
        rw [show select roster ⟨2, 1, 2, 100⟩ [] =
          .error (.tooFewGroups .organization 2 1) by decide +kernel]
        exact nofun
      exact absurd hmembers hno
    · exact hfew

end Charter.Panel
