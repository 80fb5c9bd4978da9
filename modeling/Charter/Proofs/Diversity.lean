import Mathlib.Algebra.Order.BigOperators.Group.Finset
import Mathlib.Data.List.Perm.Subperm
import Charter.Proofs.Round

/-! # Diverse rounds

The panel of a round, counted by the affiliations that were recorded when it was selected,
represents as many groups as it must, and no group holds more than its share of the seats. Whoever
votes YES sits on that panel, so a round that passes has the YES votes of several groups. -/

namespace Charter

section Firsts

variable {κ : Type} [DecidableEq κ]

theorem mem_firsts {l : List κ} {k : κ} : k ∈ firsts l ↔ k ∈ l := by
  induction l with
  | nil => simp [firsts]
  | cons j l ih =>
    by_cases hkj : k = j
    · simp [firsts, hkj]
    · simp [firsts, hkj, ih]

theorem nodup_firsts (l : List κ) : (firsts l).Nodup := by
  induction l with
  | nil => exact List.nodup_nil
  | cons k l ih => exact List.nodup_cons.mpr ⟨by simp, ih.filter _⟩

theorem length_firsts (l : List κ) : (firsts l).length = l.toFinset.card := by
  have hsame : (firsts l).toFinset = l.toFinset := by
    ext k
    rw [List.mem_toFinset, List.mem_toFinset, mem_firsts]
  rw [← List.toFinset_card_of_nodup (nodup_firsts l), hsame]

end Firsts

namespace Quota

/-- The number of groups that it takes to fill these seats: their quotient by the cap,
rounded up. -/
def groupsFor (q : Quota) (seats : Nat) : Nat := (seats + q.cap - 1) / q.cap

theorem cap_pos (q : Quota) : 0 < q.cap := Nat.le_max_right _ _

theorem groupsFor_le_iff {q : Quota} {seats groups : Nat} :
    q.groupsFor seats ≤ groups ↔ seats ≤ groups * q.cap := by
  have hcap := q.cap_pos
  rw [groupsFor, Nat.div_le_iff_le_mul_add_pred hcap, Nat.mul_comm q.cap groups]
  omega

end Quota

namespace Panel

theorem count_map_group (d : Dimension) (group : String) (voters : List Voter) :
    (voters.map d.group).count group = share d group voters := by
  simp [List.count, List.countP_map, share, Function.comp_def, beq_eq_decide]

theorem length_le_groups_mul {n : Nat} {d : Dimension} {voters : List Voter}
    (h : ∀ group, share d group voters ≤ n) :
    voters.length ≤ groups d voters * n := by
  have hcount : ∀ group, (voters.map d.group).count group ≤ n := by
    intro group
    rw [count_map_group]
    exact h group
  calc voters.length = (voters.map d.group).length := (List.length_map _).symm
    _ = ∑ group ∈ (voters.map d.group).toFinset, (voters.map d.group).count group :=
      (List.sum_toFinset_count_eq_length _).symm
    _ ≤ (voters.map d.group).toFinset.card * n :=
      Finset.sum_le_card_nsmul _ _ _ (fun group _ => hcount group)
    _ = groups d voters * n := by rw [groups, length_firsts]

end Panel

namespace Round

variable {r r' : Round} {id : UInt64} {stage : Stage} {policy : Diversity}

def seats (r : Round) : List Voter :=
  r.panel.filterMap (fun v => (r.affiliation? v).map (Voter.mk v))

def supporters (r : Round) : List Voter :=
  r.seats.filter (fun v => ∃ b ∈ r.ballots, b.voter = v.id ∧ b.approve = true)

/-- Each member holds a seat, as many groups hold seats as must, and none holds more than
its cap. -/
structure IsDiverse (policy : Diversity) (r : Round) : Prop where
  seated : r.seats.map Voter.id = r.panel
  groups : ∀ d, (policy.quota r.composition).minimum d ≤ Panel.groups d r.seats
  shares : ∀ d group, Panel.share d group r.seats ≤ (policy.quota r.composition).cap

theorem seats_ofMembers {composition : Composition} {members : List Voter}
    {openedAt deadline : Instant} (distinct : (members.map Voter.id).Nodup) :
    (ofMembers composition members openedAt deadline).seats = members := by
  have hseat : ∀ v ∈ members,
      ((ofMembers composition members openedAt deadline).affiliation? v.id).map (Voter.mk v.id) =
        some v := by
    intro v hv
    rw [affiliation?_ofMembers distinct hv, Option.map_some]
  have hseats : (ofMembers composition members openedAt deadline).seats =
      members.filterMap some := by
    simp only [seats, ofMembers, List.filterMap_map]
    exact List.filterMap_congr hseat
  rw [hseats, List.filterMap_some]

theorem isDiverse_ofMembers {composition : Composition} {candidates members : List Voter}
    {excluded : List VoterId} {openedAt deadline : Instant}
    (h : Panel.select candidates (policy.quota composition) excluded = .ok members) :
    (ofMembers composition members openedAt deadline).IsDiverse policy := by
  have hseats : (ofMembers composition members openedAt deadline).seats = members :=
    seats_ofMembers (Panel.nodup_of_select h)
  constructor
  · rw [hseats]
    rfl
  · intro d
    rw [hseats]
    exact Panel.minimum_le_groups_of_select h d
  · intro d group
    rw [hseats]
    exact Panel.share_le_cap_of_select h d group

theorem IsDiverse.record (h : r.IsDiverse policy) {voter : VoterId} {approve : Bool}
    {attestation : String} {now : Instant} {digest : Digest}
    (hr : r.record id stage voter approve attestation now = .ok (r', digest)) :
    r'.IsDiverse policy := by
  obtain ⟨-, -, -, -, _, -, rfl⟩ := record_eq_ok_iff.mp hr
  exact ⟨h.seated, h.groups, h.shares⟩

theorem IsDiverse.yes_le (h : r.IsDiverse policy) (hs : r.Sound id stage) :
    r.tally.yes ≤ r.supporters.length := by
  -- nobody votes twice, so there are as many supporters as YES ballots at least
  have hdistinct : ((r.ballots.filter Ballot.approve).map Ballot.voter).Nodup :=
    hs.once.sublist (List.filter_sublist.map _)
  have hsub : (r.ballots.filter Ballot.approve).map Ballot.voter ⊆ r.supporters.map Voter.id := by
    intro voter hvoter
    obtain ⟨b, hb, rfl⟩ := List.mem_map.mp hvoter
    obtain ⟨hb, happrove⟩ := List.mem_filter.mp hb
    have hmember : b.voter ∈ r.seats.map Voter.id := h.seated ▸ (hs.ballots b hb).2.1
    obtain ⟨v, hv, hid⟩ := List.mem_map.mp hmember
    refine List.mem_map.mpr ⟨v, List.mem_filter.mpr ⟨hv, ?_⟩, hid⟩
    exact decide_eq_true ⟨b, hb, hid.symm, happrove⟩
  have hle := (hdistinct.subperm hsub).length_le
  rw [List.length_map, List.length_map] at hle
  rwa [tally, List.countP_eq_length_filter]

theorem IsDiverse.share_supporters_le (h : r.IsDiverse policy) (d : Dimension) (group : String) :
    Panel.share d group r.supporters ≤ (policy.quota r.composition).cap :=
  (List.filter_sublist.countP_le).trans (h.shares d group)

/-- A round that passes has its YES ballots from as many groups as it takes to cast them. -/
theorem IsDiverse.groupsFor_le_groups (h : r.IsDiverse policy) (hs : r.Sound id stage)
    {t : Thresholds} {entrenched : Bool} (passes : r.Passes t entrenched) (d : Dimension) :
    (policy.quota r.composition).groupsFor r.composition.passThreshold.toNat ≤
      Panel.groups d r.supporters := by
  refine Quota.groupsFor_le_iff.mpr ?_
  calc r.composition.passThreshold.toNat ≤ r.tally.yes := passes.1
    _ ≤ r.supporters.length := h.yes_le hs
    _ ≤ Panel.groups d r.supporters * (policy.quota r.composition).cap :=
      Panel.length_le_groups_mul (h.share_supporters_le d)

theorem IsDiverse.exists_supporter_of_other_group (h : r.IsDiverse policy) (hs : r.Sound id stage)
    {t : Thresholds} {entrenched : Bool} (passes : r.Passes t entrenched)
    (above : (policy.quota r.composition).cap < r.composition.passThreshold.toNat) (d : Dimension)
    (group : String) :
    ∃ v ∈ r.supporters, d.group v ≠ group := by
  by_contra hnone
  simp only [not_exists, not_and, not_not] at hnone
  have hall : Panel.share d group r.supporters = r.supporters.length := by
    rw [Panel.share, List.countP_eq_length]
    intro v hv
    exact decide_eq_true (hnone v hv)
  have hshare := h.share_supporters_le d group
  have hyes := passes.1.trans (h.yes_le hs)
  omega

end Round

end Charter
