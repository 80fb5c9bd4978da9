import Charter.Proofs.Diversity

/-! # What a selection guarantees

A panel that is selected keeps every rule, counted in its members alone: their number, their names,
the rows they come from and the groups they belong to. The walk that seated them does not appear in
these statements. -/

namespace Charter.Panel

variable {q : Quota} {candidates members : List Voter} {excluded : List VoterId}

theorem minimum_le_card_of_select (h : select candidates q excluded = .ok members) (d : Dimension) :
    q.minimum d ≤ (members.map d.group).toFinset.card := by
  have hgroups := minimum_le_groups_of_select h d
  rwa [groups, length_firsts] at hgroups

theorem count_le_cap_of_select (h : select candidates q excluded = .ok members) (d : Dimension)
    (group : String) :
    (members.map d.group).count group ≤ q.cap := by
  rw [count_map_group]
  exact share_le_cap_of_select h d group

/-- A selection keeps the rules, whatever the candidates and the quota. It has as many members as
seats, nobody twice and nobody who is excluded; each member stands for the first row with its name;
enough regions and organizations are represented, and none of them has more members than its cap.
The names alone are selected in the same order. -/
theorem selection_keeps_the_rules (h : select candidates q excluded = .ok members) :
    members.length = q.size ∧ (members.map Voter.id).Nodup ∧
      (∀ v ∈ members, v.id ∉ excluded ∧ candidates.find? (fun w => w.id = v.id) = some v) ∧
      (∀ d : Dimension, q.minimum d ≤ (members.map d.group).toFinset.card ∧
        ∀ group, (members.map d.group).count group ≤ q.cap) ∧
      selectIds candidates q excluded = .ok (members.map Voter.id) := by
  refine ⟨length_of_select h, nodup_of_select h, ?_, ?_, ?_⟩
  · intro v hv
    exact ⟨not_mem_excluded_of_select h v hv, find?_of_mem_pool (mem_pool_of_select h v hv)⟩
  · intro d
    exact ⟨minimum_le_card_of_select h d, count_le_cap_of_select h d⟩
  · rw [selectIds, h]
    rfl

/-- Of four seats no group may hold more than two. One candidate is listed twice with different
affiliations, one is excluded, and one comes too late for a region that is full. -/
theorem selection_keeps_the_rules_council :
    let roster : List Voter :=
      [⟨"joe", ⟨"east", "lodge"⟩⟩, ⟨"amy", ⟨"north", "guild"⟩⟩, ⟨"amy", ⟨"south", "union"⟩⟩,
        ⟨"ben", ⟨"north", "union"⟩⟩, ⟨"eve", ⟨"north", "lodge"⟩⟩, ⟨"cleo", ⟨"south", "guild"⟩⟩,
        ⟨"dan", ⟨"south", "union"⟩⟩]
    let quota : Quota := ⟨4, 2, 2, 50⟩
    ∃ members, select roster quota ["joe"] = .ok members ∧
      members.map Voter.id = ["amy", "cleo", "ben", "dan"] ∧
      roster.find? (fun w => w.id = "amy") = some ⟨"amy", ⟨"north", "guild"⟩⟩ ∧
      ⟨"amy", ⟨"north", "guild"⟩⟩ ∈ members ∧
      2 ≤ (members.map (Dimension.group .organization)).toFinset.card ∧
      (members.map (Dimension.group .region)).count "north" ≤ quota.cap ∧ quota.cap = 2 ∧
      selectIds roster quota ["joe"] = .ok ["amy", "cleo", "ben", "dan"] := by
  intro roster quota
  have hselect : select roster quota ["joe"] =
      .ok [⟨"amy", ⟨"north", "guild"⟩⟩, ⟨"cleo", ⟨"south", "guild"⟩⟩, ⟨"ben", ⟨"north", "union"⟩⟩,
        ⟨"dan", ⟨"south", "union"⟩⟩] := by decide +kernel
  obtain ⟨-, -, hrows, hgroups, hids⟩ := selection_keeps_the_rules hselect
  exact ⟨_, hselect, rfl, (hrows _ List.mem_cons_self).2, List.mem_cons_self,
    (hgroups .organization).1, (hgroups .region).2 "north", by decide, hids⟩

end Charter.Panel
