import Mathlib.Data.List.Nodup
import Mathlib.Data.List.Pairwise
import Mathlib.Data.Set.Function
import Charter.Proofs.Docket.Opened
import Charter.Proofs.Docket.PhaseChange

/-! # Names of ballots

The bytes from which the identifier of a ballot is made can be read back: eight for the proposal,
the name of the stage up to the first zero, and the voter, who may be anybody. In a docket no two
ballots have the same name. -/

namespace Charter

namespace Ballot

theorem wordBytes_injective : Function.Injective wordBytes := by
  intro v w h
  simp only [wordBytes, List.cons.injEq, ← UInt8.toNat_inj, UInt64.toNat_toUInt8,
    UInt64.toNat_shiftRight] at h
  have hv := v.toNat_lt
  have hw := w.toNat_lt
  refine UInt64.toNat_inj.mp ?_
  simp only [UInt64.reduceToNat, Nat.reduceMod, Nat.shiftRight_eq_div_pow, Nat.reducePow] at h
  omega

theorem textBytes_injective : Function.Injective textBytes := by
  intro s t h
  refine String.toByteArray_inj.mp ?_
  exact ByteArray.ext (Array.toList_inj.mp h)

/-- No stage has a zero in its name, so the first zero is the end of it. -/
theorem zero_notMem_name (stage : Stage) : 0 ∉ textBytes stage.name := by
  cases stage <;> decide

theorem name_injective : Function.Injective Stage.name := by
  intro s t h
  cases s <;> cases t <;> first | rfl | exact absurd h (by decide)

theorem eq_of_append_zero {a b x y : List UInt8} (ha : 0 ∉ a) (hb : 0 ∉ b)
    (h : a ++ 0 :: x = b ++ 0 :: y) : a = b ∧ x = y := by
  have hfront : ∀ {a x : List UInt8}, 0 ∉ a → (a ++ 0 :: x).takeWhile (· ≠ 0) = a := by
    intro a x ha
    rw [List.takeWhile_append_of_pos, List.takeWhile_cons_of_neg, List.append_nil]
    · simp
    · intro v hv
      exact decide_eq_true (ne_of_mem_of_not_mem hv ha)
  have hab : a = b := by rw [← hfront (x := x) ha, h, hfront hb]
  subst hab
  exact ⟨rfl, (List.cons.inj (List.append_cancel_left h)).2⟩

theorem nameBytes_injective {id id' : UInt64} {stage stage' : Stage} {voter voter' : VoterId}
    (h : nameBytes id stage voter = nameBytes id' stage' voter') :
    id = id' ∧ stage = stage' ∧ voter = voter' := by
  rw [nameBytes, nameBytes, List.append_assoc, List.append_assoc] at h
  -- the number takes eight bytes on both sides, and only the name of the stage needs its zero
  obtain ⟨hid, hrest⟩ := List.append_inj h rfl
  obtain ⟨hstage, hvoter⟩ :=
    eq_of_append_zero (zero_notMem_name stage) (zero_notMem_name stage') hrest
  exact ⟨wordBytes_injective hid, name_injective (textBytes_injective hstage),
    textBytes_injective hvoter⟩

end Ballot

namespace Proposal

def allBallots (p : Proposal) : List Ballot := Stage.all.flatMap p.ballots

/-- What the identifier of a ballot is made from. -/
def ballotName (p : Proposal) (b : Ballot) : UInt64 × Stage × VoterId := (p.id, b.stage, b.voter)

variable {p : Proposal} {stage : Stage} {b : Ballot}

theorem exists_round_of_mem_ballots (h : b ∈ p.ballots stage) :
    ∃ r, p.round? stage = some r ∧ b ∈ r.ballots := by
  cases hr : p.round? stage with
  | none => simp [ballots, hr] at h
  | some r => exact ⟨r, rfl, by simpa [ballots, hr] using h⟩

theorem HasSoundRounds.stage_of_mem_ballots (h : p.HasSoundRounds) (hb : b ∈ p.ballots stage) :
    b.stage = stage := by
  obtain ⟨r, hr, hmem⟩ := exists_round_of_mem_ballots hb
  exact ((h stage r hr).ballots b hmem).1

theorem HasSoundRounds.id_of_mem_ballots (h : p.HasSoundRounds) (hb : b ∈ p.ballots stage) :
    b.id = Ballot.identity p.id b.stage b.voter := by
  obtain ⟨r, hr, hmem⟩ := exists_round_of_mem_ballots hb
  obtain ⟨hstage, -, -, hid⟩ := (h stage r hr).ballots b hmem
  rw [hstage]
  exact hid

theorem HasSoundRounds.nodup_ballotNames (h : p.HasSoundRounds) :
    (p.allBallots.map p.ballotName).Nodup := by
  rw [allBallots, List.map_flatMap, List.nodup_flatMap]
  refine ⟨?_, ?_⟩
  · intro stage _
    refine List.Nodup.of_map (fun name => name.2.2) ?_
    rw [List.map_map]
    change ((p.ballots stage).map Ballot.voter).Nodup
    cases hr : p.round? stage with
    | none => simp [ballots, hr]
    | some r => simpa [ballots, hr] using (h stage r hr).once
  · have hstages : Stage.all.Nodup := by decide
    refine hstages.imp ?_
    intro s t hne
    refine List.disjoint_left.mpr ?_
    intro name hs ht
    obtain ⟨b, hb, rfl⟩ := List.mem_map.mp hs
    obtain ⟨b', hb', heq⟩ := List.mem_map.mp ht
    have hstage : b'.stage = b.stage := congrArg (fun name => name.2.1) heq
    exact hne ((h.stage_of_mem_ballots hb).symm.trans
      (hstage.symm.trans (h.stage_of_mem_ballots hb')))

end Proposal

namespace Docket

variable {c : Constitution} {d : Docket}

def allBallots (d : Docket) : List Ballot := d.proposals.values.flatMap Proposal.allBallots

def ballotNames (d : Docket) : List (UInt64 × Stage × VoterId) :=
  d.proposals.values.flatMap (fun p => p.allBallots.map p.ballotName)

theorem Orderly.pairwise_values (hd : d.Orderly) :
    d.proposals.values.Pairwise (fun p q => p.id ≠ q.id) := by
  rw [Table.values, List.pairwise_map]
  refine hd.ascending.imp_of_mem ?_
  intro e f he hf hlt heq
  rw [hd.filed_of_mem e he, hd.filed_of_mem f hf] at heq
  rw [heq] at hlt
  exact UInt64.lt_irrefl _ hlt

theorem Sound.hasSoundRounds_of_mem (hd : d.Sound) {p : Proposal} (hp : p ∈ d.proposals.values) :
    p.HasSoundRounds :=
  (hd.recordable p.id p (hd.orderly.mem_values_iff.mp hp)).rounds

theorem Sound.nodup_ballotNames (hd : d.Sound) : d.ballotNames.Nodup := by
  rw [ballotNames, List.nodup_flatMap]
  refine ⟨fun p hp => (hd.hasSoundRounds_of_mem hp).nodup_ballotNames, ?_⟩
  refine hd.orderly.pairwise_values.imp ?_
  intro p q hne
  refine List.disjoint_left.mpr ?_
  intro name hp hq
  obtain ⟨b, -, rfl⟩ := List.mem_map.mp hp
  obtain ⟨b', -, heq⟩ := List.mem_map.mp hq
  exact hne (congrArg Prod.fst heq).symm

theorem Sound.ids_eq (hd : d.Sound) : d.allBallots.map Ballot.id =
    d.ballotNames.map (fun name => Ballot.identity name.1 name.2.1 name.2.2) := by
  rw [allBallots, ballotNames, List.map_flatMap, List.map_flatMap]
  refine List.flatMap_congr ?_
  intro p hp
  rw [List.map_map]
  refine List.map_congr_left ?_
  intro b hb
  obtain ⟨stage, -, hmem⟩ := List.mem_flatMap.mp hb
  exact (hd.hasSoundRounds_of_mem hp).id_of_mem_ballots hmem

/-- The names of ballots are unambiguous: the bytes that are hashed tell the proposal, the stage and
the voter, whoever the voter is. In every run of an opened docket all ballots of all proposals have
different names, so that they have different identifiers as long as no two of the names that occur
have one digest. -/
theorem ballot_names_are_unambiguous :
    Function.Injective (fun name : UInt64 × Stage × VoterId =>
      Ballot.nameBytes name.1 name.2.1 name.2.2) ∧
      ∀ {c : Constitution} {d : Docket}, (create c = .ok d ∨ ∃ records, restore c records = .ok d) →
        ∀ requests : List (Action × Instant), (d.run requests).ballotNames.Nodup ∧
          (Set.InjOn Digest.ofBytes
              {bytes | ∃ name ∈ (d.run requests).ballotNames,
                bytes = Ballot.nameBytes name.1 name.2.1 name.2.2} →
            ((d.run requests).allBallots.map Ballot.id).Nodup) := by
  have hinjective : Function.Injective (fun name : UInt64 × Stage × VoterId =>
      Ballot.nameBytes name.1 name.2.1 name.2.2) := by
    rintro ⟨id, stage, voter⟩ ⟨id', stage', voter'⟩ h
    obtain ⟨rfl, rfl, rfl⟩ := Ballot.nameBytes_injective h
    rfl
  refine ⟨hinjective, ?_⟩
  intro c d opened requests
  have hsound : (d.run requests).Sound := (sound_of_opened opened).run requests
  refine ⟨hsound.nodup_ballotNames, ?_⟩
  intro hfree
  rw [hsound.ids_eq]
  refine List.Nodup.map_on ?_ hsound.nodup_ballotNames
  intro name hname name' hname' heq
  exact hinjective (hfree ⟨name, hname, rfl⟩ ⟨name', hname', rfl⟩ heq)

/-- The four ballots of the longest pathway, two of them of one voter, have four names and four
identifiers. -/
theorem ballot_names_are_unambiguous_challenged :
    let d := (empty soloConstitution).run challengedRequests
    d.ballotNames = [(1, .proposal, "amy"), (1, .ratification, "ben"), (1, .challenge, "cleo"),
      (1, .confirmation, "amy")] ∧
      (d.allBallots.map Ballot.id).Nodup := by
  intro d
  have hcreate : create soloConstitution = .ok (empty soloConstitution) := rfl
  have hnames : d.ballotNames =
      [(1, .proposal, "amy"), (1, .ratification, "ben"), (1, .challenge, "cleo"),
        (1, .confirmation, "amy")] := by
    decide +kernel
  refine ⟨hnames, (ballot_names_are_unambiguous.2 (.inl hcreate) challengedRequests).2 ?_⟩
  have hdigests :
      (d.ballotNames.map (fun name => Ballot.identity name.1 name.2.1 name.2.2)).Nodup := by
    rw [hnames]
    decide +kernel
  rintro _ ⟨name, hname, rfl⟩ _ ⟨name', hname', rfl⟩ heq
  rw [List.inj_on_of_nodup_map hdigests hname hname' heq]

end Docket

end Charter
