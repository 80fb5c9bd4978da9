import Mathlib.Data.List.Sort
import Charter.Proofs.Docket.Reload

/-! # The canonical form of a record

A record may spell the identifiers of its ballots in either case and list its chambers in any order.
Nothing else about it is free: loading a record and keeping what was loaded puts it in its canonical
form, and no two forms load to one proposal. -/

namespace Charter

def Chamber.place (c : Chamber) : Nat := Chamber.all.idxOf c

def BallotRecord.canonical (b : BallotRecord) : BallotRecord := { b with id := b.id.toLower }

def RoundRecord.canonical (r : RoundRecord) : RoundRecord :=
  { r with ballots := r.ballots.map BallotRecord.canonical }

namespace ChamberRecord

def canonical (c : ChamberRecord) : ChamberRecord := { c with round := c.round.canonical }

def Precedes (a b : ChamberRecord) : Prop := a.chamber.place ≤ b.chamber.place

instance : DecidableRel Precedes :=
  fun a b => inferInstanceAs (Decidable (a.chamber.place ≤ b.chamber.place))

instance : Std.Total Precedes := ⟨fun a b => Nat.le_total a.chamber.place b.chamber.place⟩

instance : IsTrans ChamberRecord Precedes := ⟨fun _ _ _ hab hbc => Nat.le_trans hab hbc⟩

end ChamberRecord

/-- The record with the identifiers of its ballots in lower case, and its chambers in the order in
which they meet. -/
def Record.canonical (r : Record) : Record :=
  { r with
    chambers := (r.chambers.map ChamberRecord.canonical).insertionSort ChamberRecord.Precedes
    confirmation := r.confirmation.map RoundRecord.canonical }

theorem BallotRecord.StandsFor.canonical_eq {b : BallotRecord} {ballot : Ballot}
    (h : b.StandsFor ballot) :
    b.canonical = .ofBallot ballot := by
  rw [canonical, ← Digest.hex_of_ofHex? h.1]
  exact h.2

theorem RoundRecord.StandsFor.canonical_eq {r : RoundRecord} {round : Round}
    (h : r.StandsFor round) :
    r.canonical = .ofRound round := by
  obtain ⟨hballots, hround⟩ := h
  have hmap : r.ballots.map BallotRecord.canonical = round.ballots.map BallotRecord.ofBallot := by
    rw [← List.forall₂_eq_eq_eq, List.forall₂_map_left_iff, List.forall₂_map_right_iff]
    exact hballots.imp (fun _ _ hb => hb.canonical_eq)
  rw [canonical, hmap]
  exact hround

theorem RoundRecord.map_canonical {record : Option RoundRecord} {x : Option Round}
    (h : Option.Rel StandsFor record x) :
    record.map canonical = x.map ofRound := by
  cases h with
  | none => rfl
  | some hround => rw [Option.map_some, Option.map_some, hround.canonical_eq]

namespace Rounds

def records (rounds : Rounds) : List ChamberRecord :=
  rounds.toList.map (fun e => ⟨e.1, .ofRound e.2⟩)

theorem toList_set {rounds : Rounds} {chamber : Chamber} (h : rounds.get chamber = none)
    (r : Round) :
    (rounds.set chamber (some r)).toList.Perm ((chamber, r) :: rounds.toList) := by
  have hlist : ∀ x y z, (Rounds.mk x y z).toList = (x.map (Prod.mk Chamber.proposal)).toList ++
      (y.map (Prod.mk Chamber.ratification)).toList ++
      (z.map (Prod.mk Chamber.challenge)).toList := by
    intro x y z
    cases x <;> cases y <;> cases z <;> rfl
  obtain ⟨x, y, z⟩ := rounds
  cases chamber with
  | proposal =>
    obtain rfl : x = none := h
    simp [set, hlist]
  | ratification =>
    obtain rfl : y = none := h
    simp [set, hlist]
  | challenge =>
    obtain rfl : z = none := h
    simpa [set, hlist] using List.perm_append_singleton (Chamber.challenge, r)
      ((x.map (Prod.mk Chamber.proposal)).toList ++ (y.map (Prod.mk Chamber.ratification)).toList)

theorem records_set {rounds : Rounds} {chamber : Chamber} (h : rounds.get chamber = none)
    (r : Round) :
    (rounds.set chamber (some r)).records.Perm (⟨chamber, .ofRound r⟩ :: rounds.records) :=
  (toList_set h r).map _

theorem pairwise_records (rounds : Rounds) :
    rounds.records.Pairwise (fun a b => a.chamber.place < b.chamber.place) := by
  have hall : Chamber.all.Pairwise (fun a b => a.place < b.place) := by decide
  rw [records, toList, List.pairwise_map, List.pairwise_filterMap]
  refine hall.imp ?_
  intro a b hab x hx y hy
  obtain ⟨_, -, rfl⟩ := Option.map_eq_some_iff.mp hx
  obtain ⟨_, -, rfl⟩ := Option.map_eq_some_iff.mp hy
  exact hab

theorem eq_of_place_eq {rounds : Rounds} {a b : ChamberRecord} (ha : a ∈ rounds.records)
    (hb : b ∈ rounds.records) (h : a.chamber.place = b.chamber.place) : a = b := by
  have hnodup : (rounds.records.map (fun c => c.chamber.place)).Nodup :=
    List.pairwise_map.mpr (rounds.pairwise_records.imp Nat.ne_of_lt)
  exact List.inj_on_of_nodup_map hnodup ha hb h

end Rounds

namespace Record

theorem records_of_loadChambers {id : UInt64} {rounds rounds' : Rounds}
    {chambers : List ChamberRecord} (h : loadChambers id rounds chambers = .ok rounds') :
    rounds'.records.Perm (chambers.map ChamberRecord.canonical ++ rounds.records) := by
  induction chambers generalizing rounds with
  | nil =>
    cases h
    exact .refl _
  | cons c chambers ih =>
    simp only [loadChambers, except_bind_eq_ok_iff, require_eq_ok_iff, loadStage_eq_ok_iff,
      Option.isNone_iff_eq_none] at h
    obtain ⟨round, ⟨hround, -⟩, -, hfree, h⟩ := h
    have hcanonical : c.canonical = ⟨c.chamber, .ofRound round⟩ := by
      rw [ChamberRecord.canonical, hround.canonical_eq]
    have hset :
        (chambers.map ChamberRecord.canonical ++ (rounds.set c.chamber (some round)).records).Perm
        (chambers.map ChamberRecord.canonical ++ c.canonical :: rounds.records) := by
      rw [hcanonical]
      exact (Rounds.records_set hfree round).append_left _
    exact ((ih h).trans hset).trans List.perm_middle

/-- The chambers of a record that loads are, in order, those of what was loaded. -/
theorem insertionSort_of_loadChambers {id : UInt64} {rounds : Rounds}
    {chambers : List ChamberRecord} (h : loadChambers id .empty chambers = .ok rounds) :
    (chambers.map ChamberRecord.canonical).insertionSort ChamberRecord.Precedes =
      rounds.records := by
  have hperm : ((chambers.map ChamberRecord.canonical).insertionSort ChamberRecord.Precedes).Perm
      rounds.records := by
    have hloaded := records_of_loadChambers h
    have hempty : Rounds.empty.records = [] := rfl
    rw [hempty, List.append_nil] at hloaded
    exact (List.perm_insertionSort _ _).trans hloaded.symm
  refine hperm.eq_of_pairwise ?_ (List.pairwise_insertionSort _ _)
    (rounds.pairwise_records.imp Nat.le_of_lt)
  -- the order is antisymmetric on these records, since no chamber has two of them
  intro a b ha hb hab hba
  exact Rounds.eq_of_place_eq (hperm.mem_iff.mp ha) hb (Nat.le_antisymm hab hba)

/-- What is kept of a record that was loaded is its canonical form. -/
theorem ofProposal_of_toProposal {r : Record} {p : Proposal} (h : r.toProposal = .ok p) :
    ofProposal p = r.canonical := by
  obtain ⟨hversion, h⟩ := toProposal_eq_ok_iff.mp h
  simp only [load, except_bind_eq_ok_iff, require_eq_ok_iff, pure_eq_ok_iff,
    loadConfirmation_eq_ok_iff, loadWindow_eq_ok_iff, loadPathway_eq_ok_iff, exists_const] at h
  obtain ⟨-, rounds, hrounds, confirmation, ⟨hrel, -⟩, window, ⟨hstart, hend, -⟩, track,
      ⟨hentrenched, rfl, rfl, -⟩,
    _, -, _, -, rfl⟩ := h
  -- the track gives back the window, the confirmation and whether there is a track at all
  have hconfirmation := RoundRecord.map_canonical hrel
  have hchambers := insertionSort_of_loadChambers hrounds
  rw [canonical, hversion, hconfirmation, hchambers, hstart, hend, ← hentrenched]
  rfl

theorem toProposal_canonical {r : Record} {p : Proposal} (h : r.toProposal = .ok p) :
    r.canonical.toProposal = .ok p := by
  rw [← ofProposal_of_toProposal h]
  exact toProposal_ofProposal (isRecordable_of_toProposal h)

/-- Loading is canonical. What is kept of the proposal that a record stands for is the record
itself, but for the case of the identifiers and the order of the chambers; this form is accepted
again and stands for the same proposal; and two records stand for one proposal exactly if they have
one form. -/
theorem loading_is_canonical {r : Record} {p : Proposal} (h : r.toProposal = .ok p) :
    ofProposal p = r.canonical ∧ r.canonical.toProposal = .ok p ∧
      ∀ (r' : Record) (p' : Proposal), r'.toProposal = .ok p' →
        (r'.canonical = r.canonical ↔ p' = p) := by
  refine ⟨ofProposal_of_toProposal h, toProposal_canonical h, ?_⟩
  intro r' p' h'
  constructor
  · intro hform
    have hload := toProposal_canonical h'
    rw [hform, toProposal_canonical h] at hload
    exact (Except.ok.inj hload).symm
  · rintro rfl
    rw [← ofProposal_of_toProposal h, ← ofProposal_of_toProposal h']

def respelled (r : Record) : Record :=
  let shout := fun (b : BallotRecord) =>
    { b with id := String.ofList (b.id.toList.map Char.toUpper) }
  let round := fun (x : RoundRecord) => { x with ballots := x.ballots.map shout }
  { r with
    chambers := r.chambers.reverse.map (fun c => { c with round := round c.round })
    confirmation := r.confirmation.map round }

/-- Two chambers have met, and one ballot has been cast. The record stands for the same proposal
when it is respelled, and what is kept of that is the form that the record had before. -/
theorem loading_is_canonical_solo :
    ∃ p, ((Docket.empty Docket.soloConstitution).run
      ((Docket.soloRequests "fees" .null (.bool true)).take 5)).get? 1 =
        some p ∧
      (respelled (ofProposal p)).chambers.map ChamberRecord.chamber = [.ratification, .proposal] ∧
      (respelled (ofProposal p)).chambers.reverse ≠ (ofProposal p).chambers ∧
      (respelled (ofProposal p)).toProposal = .ok p ∧
      ofProposal p = (respelled (ofProposal p)).canonical ∧
      (ofProposal p).canonical = (respelled (ofProposal p)).canonical := by
  let requests := (Docket.soloRequests "fees" .null (.bool true)).take 5
  have hrun : (((Docket.empty Docket.soloConstitution).run requests).get? 1).any (fun p =>
      decide ((respelled (ofProposal p)).chambers.map ChamberRecord.chamber =
        [.ratification, .proposal] ∧
        (respelled (ofProposal p)).chambers.reverse ≠ (ofProposal p).chambers ∧
        (respelled (ofProposal p)).toProposal = .ok p)) = true := by decide +kernel
  obtain ⟨p, hp, hdecided⟩ := (Option.any_eq_true _ _).mp hrun
  obtain ⟨horder, hcase, hrespelled⟩ := of_decide_eq_true hdecided
  have hsound : ((Docket.empty Docket.soloConstitution).run requests).Sound :=
    (Docket.sound_empty rfl).run requests
  have hkept : (ofProposal p).toProposal = .ok p := toProposal_ofProposal (hsound.recordable 1 p hp)
  obtain ⟨hform, -, hsame⟩ := loading_is_canonical hrespelled
  exact ⟨p, hp, horder, hcase, hrespelled, hform, (hsame _ p hkept).mpr rfl⟩

end Record

end Charter
