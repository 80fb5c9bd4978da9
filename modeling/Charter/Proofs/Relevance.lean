import Charter.Proofs.Selection
import Charter.Proofs.Walk

/-! # Candidates that do not matter

Whoever is not selected has no part in the selection of the others. Rows that are added at the end,
rows of candidates who are not members, and more names that are excluded leave a panel as it is,
with one exception: a row that is left out may let a later row count under the same name, with
another region or organization. -/

namespace Charter.Panel

variable {q : Quota} {candidates candidates' members : List Voter}
  {excluded excluded' : List VoterId}

/-- A panel is selected again wherever both walks end as before and its members are still
candidates. -/
theorem select_of_walk_eq (h : select candidates q excluded = .ok members)
    (hmembers : members ⊆ Panel.pool candidates' excluded')
    (hfirst : seatRegions q (Panel.pool candidates' excluded') [] =
      seatRegions q (Panel.pool candidates excluded) [])
    (hsecond : fillSeats q (Panel.pool candidates' excluded')
      (seatRegions q (Panel.pool candidates excluded) []) = members) :
    select candidates' q excluded' = .ok members := by
  have hsize := length_of_select h
  have hlength : members.length ≤ (Panel.pool candidates' excluded').length :=
    ((nodup_of_select h).of_map.subperm hmembers).length_le
  have hgroups : ∀ d, q.minimum d ≤ groups d (Panel.pool candidates' excluded') := fun d =>
    (minimum_le_groups_of_select h d).trans (groups_le_of_subset hmembers)
  obtain ⟨-, hregions, horganizations, -, -, hreached, hfull, hrepresented, -⟩ :=
    select_eq_ok_iff.mp h
  refine select_eq_ok_iff.mpr
    ⟨by omega, hregions, horganizations, hgroups .region, hgroups .organization, ?_, hfull,
      hrepresented, ?_⟩
  · rw [hfirst]
    exact hreached
  · rw [hfirst, hsecond]

theorem select_of_leavesOut (h : select candidates q excluded = .ok members)
    (hout : LeavesOut (members.map Voter.id) (counted candidates excluded)
      (counted candidates' excluded')) :
    select candidates' q excluded' = .ok members := by
  have hmembers := (select_eq_ok_iff.mp h).2.2.2.2.2.2.2.2
  rw [fillSeats_pool] at hmembers
  have hseated : ∀ v ∈ seatRegions q (Panel.pool candidates excluded) [], v ∈ members := by
    intro v hv
    rw [hmembers]
    exact (prefix_walk ..).subset hv
  refine select_of_walk_eq h ?_ ?_ ?_
  · intro v hv
    have hcounted := mem_counted_iff.mpr (mem_pool_iff.mp (mem_pool_of_select h v hv))
    exact mem_pool_iff.mpr (mem_counted_iff.mp (hout.mem hcounted (List.mem_map_of_mem hv)))
  · rw [seatRegions_pool] at hseated
    rw [seatRegions_pool, seatRegions_pool]
    exact walk_of_leavesOut hout fun v hv => List.mem_map_of_mem (hseated v hv)
  · rw [fillSeats_pool]
    conv_rhs => rw [hmembers]
    refine walk_of_leavesOut hout fun v hv => ?_
    rw [← hmembers] at hv
    exact List.mem_map_of_mem hv

theorem isFirst_append_iff {rows : List Voter} {v : Voter} (hv : v ∈ candidates) :
    IsFirst (candidates ++ rows) v ↔ IsFirst candidates v := by
  have hlisted : (candidates.find? (fun w => w.id = v.id)).isSome = true :=
    List.find?_isSome.mpr ⟨v, hv, decide_eq_true rfl⟩
  rw [IsFirst, List.find?_append, Option.or_of_isSome hlisted, IsFirst]

theorem exists_counted_append (candidates rows : List Voter) (excluded : List VoterId) :
    ∃ rest, counted (candidates ++ rows) excluded = counted candidates excluded ++ rest := by
  have hsame : candidates.filter (fun v => v.id ∉ excluded ∧ IsFirst (candidates ++ rows) v) =
      counted candidates excluded := by
    rw [counted]
    refine List.filter_congr fun v hv => ?_
    simp only [isFirst_append_iff hv]
  rw [counted, List.filter_append, hsame]
  exact ⟨_, rfl⟩

theorem select_append (h : select candidates q excluded = .ok members) (rows : List Voter) :
    select (candidates ++ rows) q excluded = .ok members := by
  obtain ⟨rest, hrest⟩ := exists_counted_append candidates rows excluded
  obtain ⟨-, -, -, -, -, hreached, hfull, -, hmembers⟩ := select_eq_ok_iff.mp h
  refine select_of_walk_eq h ?_ ?_ ?_
  · intro v hv
    obtain ⟨hfree, hfirst⟩ := mem_pool_iff.mp (mem_pool_of_select h v hv)
    exact mem_pool_iff.mpr ⟨hfree,
      (isFirst_append_iff (List.mem_of_find?_eq_some hfirst)).mpr hfirst⟩
  · rw [seatRegions_pool, hrest, walk_append, ← seatRegions_pool]
    refine walk_of_idle fun v _ htakes => ?_
    exact Nat.not_lt.mpr hreached htakes.1
  · rw [fillSeats_pool, hrest, walk_append, ← fillSeats_pool, ← hmembers]
    refine walk_of_idle fun v _ htakes => ?_
    exact Nat.not_lt.mpr hfull htakes.1

/-- If each name that stays is still listed first in the same row, the rows that count are the same
but for those left out. -/
theorem LeavesOut.counted {names : List VoterId} {kept : List Voter}
    (h : LeavesOut names candidates kept)
    (same : ∀ v ∈ kept, v.id ∉ excluded →
      kept.find? (fun w => w.id = v.id) = candidates.find? (fun w => w.id = v.id)) :
    LeavesOut names (Panel.counted candidates excluded) (Panel.counted kept excluded) := by
  have hrows : Panel.counted kept excluded =
      kept.filter (fun v => v.id ∉ excluded ∧ IsFirst candidates v) := by
    rw [Panel.counted]
    refine List.filter_congr fun v hv => ?_
    by_cases hfree : v.id ∈ excluded
    · simp [hfree]
    · have hsame : IsFirst kept v ↔ IsFirst candidates v := by
        rw [IsFirst, same v hv hfree, IsFirst]
      simp only [hsame]
  rw [hrows]
  exact h.filter _

theorem leavesOut_counted_of_subset {names : List VoterId} (h : excluded ⊆ excluded')
    (free : ∀ name ∈ names, name ∉ excluded') :
    LeavesOut names (counted candidates excluded) (counted candidates excluded') := by
  refine leavesOut_filter_of_imp ?_ ?_ candidates
  · intro v hv
    obtain ⟨hout, hfirst⟩ := of_decide_eq_true hv
    exact decide_eq_true ⟨fun hmem => hout (h hmem), hfirst⟩
  · intro v hv hname
    exact decide_eq_true ⟨free v.id hname, (of_decide_eq_true hv).2⟩

/-- Who is not selected does not matter. The same panel is selected in the same order when rows are
added at the end; when rows are left out that bear no member's name, as long as no name that stays
comes to count with another region or organization; and when more names are excluded, none of them a
member's. -/
theorem irrelevant_candidates_do_not_matter (h : select candidates q excluded = .ok members) :
    (∀ rows, select (candidates ++ rows) q excluded = .ok members) ∧
      (∀ kept, LeavesOut (members.map Voter.id) candidates kept →
        (∀ v ∈ kept, v.id ∉ excluded →
          kept.find? (fun w => w.id = v.id) = candidates.find? (fun w => w.id = v.id)) →
        select kept q excluded = .ok members) ∧
      ∀ excluded', excluded ⊆ excluded' → (∀ v ∈ members, v.id ∉ excluded') →
        select candidates q excluded' = .ok members := by
  refine ⟨select_append h, ?_, ?_⟩
  · intro kept hout hsame
    exact select_of_leavesOut h (hout.counted hsame)
  · intro excluded' hmore hfree
    refine select_of_leavesOut h (leavesOut_counted_of_subset hmore ?_)
    intro name hname
    obtain ⟨v, hv, rfl⟩ := List.mem_map.mp hname
    exact hfree v hv

def twiceListed : List Voter :=
  [⟨"amy", ⟨"north", "guild"⟩⟩, ⟨"ben", ⟨"north", "union"⟩⟩, ⟨"ben", ⟨"south", "union"⟩⟩,
    ⟨"cleo", ⟨"south", "lodge"⟩⟩, ⟨"dan", ⟨"east", "order"⟩⟩]

/-- Two seats are filled, whoever comes behind, whether the second row of `ben` or both are missing,
and if others are excluded. -/
theorem irrelevant_candidates_do_not_matter_pair :
    ∃ members, select twiceListed ⟨2, 1, 1, 50⟩ [] = .ok members ∧
      members.map Voter.id = ["amy", "cleo"] ∧
      select (twiceListed ++ [⟨"amy", ⟨"east", "lodge"⟩⟩, ⟨"eve", ⟨"east", "lodge"⟩⟩])
        ⟨2, 1, 1, 50⟩ [] = .ok members ∧
      select (twiceListed.eraseIdx 2) ⟨2, 1, 1, 50⟩ [] = .ok members ∧
      select (twiceListed.filter (fun v => v.id ≠ "ben")) ⟨2, 1, 1, 50⟩ [] = .ok members ∧
      select twiceListed ⟨2, 1, 1, 50⟩ ["dan", "ben", "eve"] = .ok members := by
  have hselect : select twiceListed ⟨2, 1, 1, 50⟩ [] =
      .ok [⟨"amy", ⟨"north", "guild"⟩⟩, ⟨"cleo", ⟨"south", "lodge"⟩⟩] := by decide +kernel
  obtain ⟨happend, hleave, hexclude⟩ := irrelevant_candidates_do_not_matter hselect
  refine ⟨_, hselect, rfl, happend _, hleave _ ?_ (by decide +kernel),
    hleave _ ?_ (by decide +kernel), ?_⟩
  · exact .keep _ (.keep _ (.drop (by decide) (.keep _ (.keep _ .nil))))
  · exact .keep _ (.drop (by decide) (.drop (by decide) (.keep _ (.keep _ .nil))))
  · exact hexclude _ (List.nil_subset _) (by decide)

/-- Without the row in which `ben` is listed first, another row of `ben` counts, and the panel is
another one. -/
theorem select_without_first_row :
    select twiceListed ⟨2, 1, 1, 50⟩ [] =
      .ok [⟨"amy", ⟨"north", "guild"⟩⟩, ⟨"cleo", ⟨"south", "lodge"⟩⟩] ∧
      LeavesOut ["amy", "cleo"] twiceListed (twiceListed.eraseIdx 1) ∧
      select (twiceListed.eraseIdx 1) ⟨2, 1, 1, 50⟩ [] ≠ select twiceListed ⟨2, 1, 1, 50⟩ [] := by
  refine ⟨by decide +kernel, ?_, by decide +kernel⟩
  exact .keep _ (.drop (by decide) (.keep _ (.keep _ (.keep _ .nil))))

end Charter.Panel
