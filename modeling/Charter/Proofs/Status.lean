import Mathlib.Data.List.Chain
import Mathlib.Data.List.Nodup
import Mathlib.Data.List.Perm.Subperm
import Mathlib.Data.List.Range
import Charter.Status

/-! # Pathways

Every edge of a pathway leads to a higher rank. Whatever moves along edges alone passes through each
status at most once, and through no more of them than the longest pathway has. -/

namespace Charter.Status

variable {entrenched : Bool} {s t : Status} {path : List Status}

/-- The longest pathway: a change that is challenged, passed at every stage and applied. -/
def pathway : Bool → List Status
  | false =>
    [proposed, proposalVoting, ratificationVoting, challengeWindow, challengeVoting,
      confirmed, applied]
  | true =>
    [proposed, proposalVoting, ratificationVoting, challengeWindow, challengeVoting, coolingOff,
      confirmationVote, confirmed, applied]

def IsOnPathway (entrenched : Bool) (path : List Status) : Prop :=
  path.IsChain (fun s t => s.leadsTo entrenched t = true)

theorem isOnPathway_pathway (entrenched : Bool) : IsOnPathway entrenched (pathway entrenched) := by
  cases entrenched <;> simp [IsOnPathway, pathway, leadsTo]

/-- The place of a status on the longest pathway. The four ways in which a proposal ends share the
last place. -/
def rank (entrenched : Bool) : Status → Nat
  | proposed => 0
  | proposalVoting => 1
  | ratificationVoting => 2
  | challengeWindow => 3
  | challengeVoting => 4
  | coolingOff => 5
  | confirmationVote => 6
  | confirmed => if entrenched then 7 else 5
  | applied | rejected | lapsed | withdrawn => if entrenched then 8 else 6

theorem rank_lt_of_leadsTo (h : s.leadsTo entrenched t = true) :
    s.rank entrenched < t.rank entrenched := by
  cases entrenched <;> cases s <;> cases t <;> first | decide | cases h

theorem rank_lt_length (entrenched : Bool) (s : Status) :
    s.rank entrenched < (pathway entrenched).length := by
  cases entrenched <;> cases s <;> decide

/-- Ranks ascend along a pathway, so none comes twice. -/
theorem IsOnPathway.nodup_ranks (h : IsOnPathway entrenched path) :
    (path.map (rank entrenched)).Nodup := by
  have hchain : (path.map (rank entrenched)).IsChain (· < ·) := by
    rw [List.isChain_map]
    exact h.imp (fun _ _ hleads => rank_lt_of_leadsTo hleads)
  exact hchain.pairwise.imp (fun hlt => Nat.ne_of_lt hlt)

theorem IsOnPathway.nodup (h : IsOnPathway entrenched path) : path.Nodup := h.nodup_ranks.of_map _

theorem IsOnPathway.length_le (h : IsOnPathway entrenched path) :
    path.length ≤ (pathway entrenched).length := by
  have hbound : path.map (rank entrenched) ⊆ List.range (pathway entrenched).length := by
    intro n hn
    obtain ⟨s, -, rfl⟩ := List.mem_map.mp hn
    exact List.mem_range.mpr (rank_lt_length entrenched s)
  have hlength := (h.nodup_ranks.subperm hbound).length_le
  rwa [List.length_map, List.length_range] at hlength

end Charter.Status
