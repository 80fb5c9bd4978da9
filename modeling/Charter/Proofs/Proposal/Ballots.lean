import Mathlib.Data.List.DropRight
import Mathlib.Data.List.Perm.Subperm
import Charter.Proofs.Proposal.Story

/-! # Ballots

The affiliations of a sound round are those of its members, and it has no more ballots than seats.
Every ballot is attested and in time, and operations only ever add further ones. -/

namespace Charter

namespace Text

theorem all_isBlank_skipBlanks (s : List Char) : (skipBlanks s).all isBlank = s.all isBlank := by
  induction s with
  | nil => rfl
  | cons c s ih =>
    cases hc : isBlank c with
    | false => simp [skipBlanks, hc]
    | true => simpa [skipBlanks, hc] using ih

theorem isEmptyText_trim (s : String) : isEmptyText (trim s) = isEmptyText s := by
  simp [isEmptyText, trim, trimChars, all_isBlank_skipBlanks]

theorem skipBlanks_of_isPrefix {s t : List Char} (h : s <+: t) (ht : skipBlanks t = t) :
    skipBlanks s = s := by
  refine List.dropWhile_eq_self_iff.mpr ?_
  intro hs
  have hhead := List.dropWhile_eq_self_iff.mp ht (hs.trans_le h.length_le)
  rwa [h.getElem hs]

theorem trimChars_trimChars (s : List Char) : trimChars (trimChars s) = trimChars s := by
  have hstart : trimChars s <+: skipBlanks s := List.rdropWhile_prefix isBlank _
  have hfront : skipBlanks (trimChars s) = trimChars s :=
    skipBlanks_of_isPrefix hstart (List.dropWhile_idempotent isBlank s)
  rw [trimChars, hfront]
  exact List.rdropWhile_idempotent isBlank (skipBlanks s)

theorem trim_trim (s : String) : trim (trim s) = trim s := by
  rw [trim, trim, String.toList_ofList, trimChars_trimChars]

end Text

namespace Round

variable {r s t : Round} {id : UInt64} {stage : Stage}

theorem Sound.keys_perm (h : r.Sound id stage) : r.affiliations.keys.Perm r.panel := by
  -- each member has a key, and there are no more keys than members
  have hsub : r.panel ⊆ r.affiliations.keys := by
    intro v hv
    obtain ⟨a, ha⟩ := Option.isSome_iff_exists.mp (h.seated v hv)
    exact List.mem_map_of_mem (Table.mem_of_get? ha)
  have hlen : r.affiliations.keys.length ≤ r.panel.length := by
    rw [Table.keys, List.length_map, h.seats]
  exact ((h.distinct.subperm hsub).perm_of_length_le hlen).symm

theorem Sound.length_ballots_le (h : r.Sound id stage) : r.ballots.length ≤ r.panel.length := by
  have hsub : r.ballots.map Ballot.voter ⊆ r.panel := by
    intro v hv
    obtain ⟨b, hb, rfl⟩ := List.mem_map.mp hv
    exact (h.ballots b hb).2.1
  have hle := (h.once.subperm hsub).length_le
  rwa [List.length_map] at hle

def IsAttested (r : Round) : Prop :=
  ∀ b ∈ r.ballots, Text.trim b.attestation = b.attestation ∧
    Text.isEmptyText b.attestation = false ∧ b.castAt < r.deadline

theorem isAttested_ofMembers {composition : Composition} {members : List Voter}
    {openedAt deadline : Instant} :
    (ofMembers composition members openedAt deadline).IsAttested := by
  intro b hb
  cases hb

theorem IsAttested.record (h : r.IsAttested) {voter : VoterId} {approve : Bool}
    {attestation : String} {now : Instant} {digest : Digest}
    (attested : Text.isEmptyText attestation = false)
    (hs : r.record id stage voter approve attestation now = .ok (s, digest)) : s.IsAttested := by
  obtain ⟨intime, -, -, -, a, -, rfl⟩ := record_eq_ok_iff.mp hs
  intro b hb
  rcases List.mem_append.mp hb with hb | hb
  · exact h b hb
  · rw [List.mem_singleton.mp hb]
    exact ⟨Text.trim_trim attestation, (Text.isEmptyText_trim attestation).trans attested, intime⟩

/-- Further ballots may have been cast, and nothing else is different. -/
def GrowsInto (r s : Round) : Prop := ∃ further, s = { r with ballots := r.ballots ++ further }

theorem GrowsInto.refl (r : Round) : r.GrowsInto r := ⟨[], by rw [List.append_nil]⟩

theorem GrowsInto.trans (h : r.GrowsInto s) (h' : s.GrowsInto t) : r.GrowsInto t := by
  obtain ⟨further, rfl⟩ := h
  obtain ⟨further', rfl⟩ := h'
  exact ⟨further ++ further', by rw [List.append_assoc]⟩

end Round

namespace Proposal

variable {c : Constitution} {p q : Proposal} {now : Instant}

/-- No operation takes a round away or changes anything of it but that it adds a ballot. -/
theorem growsInto_of_step {op : Operation} {reply : Reply} (hfits : p.Fits)
    (hs : p.Step c now op q reply) {stage : Stage} {r : Round} (hr : p.round? stage = some r) :
    ∃ s, q.round? stage = some s ∧ r.GrowsInto s := by
  cases roundNews_of_step hfits hs stage with
  | kept round => exact ⟨r, round.trans hr, .refl r⟩
  | opened vacant =>
    rw [vacant] at hr
    cases hr
  | @recorded _ b running round =>
    obtain rfl := Option.some.inj (running.symm.trans hr)
    exact ⟨_, round, [b], rfl⟩

end Proposal

theorem Docket.kept_isAttested (c : Constitution) :
    Kept c (fun p => ∀ stage r, p.round? stage = some r → r.IsAttested) :=
  kept_rounds (P := fun _ _ r => r.IsAttested) (fun _ _ _ => Round.isAttested_ofMembers)
    (fun attested record h => h.record attested record)

end Charter
