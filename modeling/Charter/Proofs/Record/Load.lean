import Mathlib.Data.List.Forall2
import Charter.Docket.Restore
import Charter.Proofs.Proposal.Seats

/-! # What loading accepts

`IsRecordable` says of a proposal what the checks of loading ask for. A record that loads gives a
recordable proposal, and the record of a recordable proposal loads and gives it back. -/

namespace Charter

/-- The record is that of the ballot, however its identifier is spelled. -/
def BallotRecord.StandsFor (b : BallotRecord) (ballot : Ballot) : Prop :=
  Digest.ofHex? b.id = some ballot.id ∧ { b with id := ballot.id.hex } = ofBallot ballot

def RoundRecord.StandsFor (r : RoundRecord) (round : Round) : Prop :=
  List.Forall₂ BallotRecord.StandsFor r.ballots round.ballots ∧
    { r with ballots := round.ballots.map .ofBallot } = ofRound round

namespace Record

section Rounds

variable {id : UInt64} {stage : Stage} {panel voted : List VoterId}
  {affiliations : Table VoterId Affiliation}

theorem standsFor_ofBallot (b : Ballot) : (BallotRecord.ofBallot b).StandsFor b :=
  ⟨Digest.ofHex?_hex b.id, rfl⟩

theorem standsFor_ofRound (r : Round) : (RoundRecord.ofRound r).StandsFor r := by
  refine ⟨?_, rfl⟩
  rw [RoundRecord.ofRound, List.forall₂_map_left_iff]
  exact List.forall₂_same.mpr fun b _ => standsFor_ofBallot b

/-- The ballot of a member at this vote, who has not voted before. -/
def IsBallotOf (id : UInt64) (stage : Stage) (panel : List VoterId)
    (affiliations : Table VoterId Affiliation) (b : Ballot) : Prop :=
  b.stage = stage ∧ b.voter ∈ panel ∧ affiliations.get? b.voter = some b.affiliation ∧
    b.id = Ballot.identity id stage b.voter

theorem loadBallot_eq_ok_iff {b : BallotRecord} {ballot : Ballot} :
    loadBallot id stage panel affiliations voted b = .ok ballot ↔
      b.StandsFor ballot ∧ IsBallotOf id stage panel affiliations ballot ∧
        ballot.voter ∉ voted := by
  simp only [loadBallot, except_bind_eq_ok_iff, require_eq_ok_iff, demand_eq_ok_iff, pure_eq_ok_iff,
    exists_const]
  constructor
  · rintro ⟨hs, hp, hv, seat, hseat, rfl, digest, hd, rfl, rfl⟩
    subst hs
    exact ⟨⟨hd, rfl⟩, ⟨rfl, hp, hseat, rfl⟩, hv⟩
  · rintro ⟨⟨hd, hb⟩, ⟨hs, hp, ha, hi⟩, hv⟩
    obtain ⟨i, voter, s, approve, attestation, castAt, affiliation⟩ := ballot
    obtain ⟨text, voter', s', approve', attestation', castAt', affiliation'⟩ := b
    simp only [BallotRecord.ofBallot, BallotRecord.mk.injEq, true_and] at hb
    obtain ⟨rfl, rfl, rfl, rfl, rfl, rfl⟩ := hb
    subst hs
    exact ⟨rfl, hp, hv, _, ha, rfl, _, hd, hi, rfl⟩

theorem loadBallots_eq_ok_iff {records : List BallotRecord} {ballots : List Ballot} :
    loadBallots id stage panel affiliations voted records = .ok ballots ↔
      List.Forall₂ BallotRecord.StandsFor records ballots ∧ (ballots.map Ballot.voter).Nodup ∧
        ∀ b ∈ ballots, IsBallotOf id stage panel affiliations b ∧ b.voter ∉ voted := by
  induction records generalizing ballots voted with
  | nil => cases ballots <;> simp [loadBallots]
  | cons b records ih =>
    simp only [loadBallots, except_bind_eq_ok_iff, pure_eq_ok_iff, loadBallot_eq_ok_iff, ih]
    constructor
    · rintro ⟨ballot, ⟨hb, hof, hv⟩, rest, ⟨hrest, hnodup, hall⟩, rfl⟩
      have hvoter : b.voter = ballot.voter := congrArg BallotRecord.voter hb.2
      rw [hvoter] at hall
      refine ⟨.cons hb hrest, ?_, ?_⟩
      · rw [List.map_cons, List.nodup_cons]
        refine ⟨?_, hnodup⟩
        intro hmem
        obtain ⟨b', hb', heq⟩ := List.mem_map.mp hmem
        exact (hall b' hb').2 (heq ▸ List.mem_cons_self)
      · intro b' hb'
        rcases List.mem_cons.mp hb' with rfl | hb'
        · exact ⟨hof, hv⟩
        · exact ⟨(hall b' hb').1, fun hmem => (hall b' hb').2 (List.mem_cons_of_mem _ hmem)⟩
    · rintro ⟨hforall, hnodup, hall⟩
      cases hforall with
      | @cons _ ballot _ rest hb hrest =>
        have hvoter : b.voter = ballot.voter := congrArg BallotRecord.voter hb.2
        rw [List.map_cons, List.nodup_cons] at hnodup
        have hfirst := hall ballot List.mem_cons_self
        refine ⟨ballot, ⟨hb, hfirst.1, hfirst.2⟩, rest, ⟨hrest, hnodup.2, ?_⟩, rfl⟩
        intro b' hb'
        have hlater := hall b' (List.mem_cons_of_mem _ hb')
        refine ⟨hlater.1, ?_⟩
        rw [hvoter, List.mem_cons, not_or]
        refine ⟨?_, hlater.2⟩
        intro heq
        exact hnodup.1 (heq ▸ List.mem_map_of_mem hb')

/-- Loading a round checks exactly that it is sound. -/
theorem loadRound_eq_ok_iff {r : RoundRecord} {round : Round} :
    loadRound id stage r = .ok round ↔ r.StandsFor round ∧ round.Sound id stage := by
  simp only [loadRound, checkSeats, except_bind_eq_ok_iff, require_eq_ok_iff, pure_eq_ok_iff,
    exists_const, loadBallots_eq_ok_iff]
  constructor
  · rintro ⟨⟨ht, hsize, hd, ⟨hlen, hseated⟩, hdeadline⟩, ballots, ⟨hforall, hnodup, hall⟩, rfl⟩
    refine ⟨⟨hforall, rfl⟩, ⟨ht, hsize, hd, hlen, hseated, hdeadline, hnodup, ?_⟩⟩
    intro b hb
    exact (hall b hb).1
  · rintro ⟨⟨hforall, hr⟩, ⟨ht, hsize, hd, hlen, hseated, hdeadline, hnodup, hall⟩⟩
    obtain ⟨composition, panel, affiliations, ballots, openedAt, deadline⟩ := round
    obtain ⟨composition', panel', affiliations', records, openedAt', deadline'⟩ := r
    simp only [RoundRecord.ofRound, RoundRecord.mk.injEq, true_and] at hr
    obtain ⟨rfl, rfl, rfl, rfl, rfl⟩ := hr
    refine ⟨⟨ht, hsize, hd, ⟨hlen, hseated⟩, hdeadline⟩, ballots, ⟨hforall, hnodup, ?_⟩, rfl⟩
    intro b hb
    exact ⟨hall b hb, List.not_mem_nil⟩

theorem loadStage_eq_ok_iff {r : RoundRecord} {round : Round} :
    loadStage id stage r = .ok round ↔ r.StandsFor round ∧ round.Sound id stage := by
  rw [← loadRound_eq_ok_iff, loadStage]
  split <;> simp [*]

end Rounds

def Bears (status : Status) : Option Track → Prop
  | none => status ∉ [.coolingOff, .confirmationVote]
  | some .awaiting => status ∉ [.confirmationVote, .confirmed, .applied]
  | some (.coolingOff _) => status = .coolingOff
  | some (.confirmation _ _) =>
    status ∈ [.confirmationVote, .confirmed, .applied, .rejected, .lapsed]

section Tracks

variable {status : Status} {w : Option Window} {r : Option Round}

theorem loadTrack_eq_ok_iff {track : Track} : loadTrack status w r = .ok track ↔
    track.window? = w ∧ track.round? = r ∧ Bears status (some track) := by
  constructor
  · intro h
    unfold loadTrack at h
    split at h
    · split at h
      · cases h
      · rename_i hs
        cases h
        exact ⟨rfl, rfl, hs⟩
    · split at h
      · rename_i hs
        cases h
        exact ⟨rfl, rfl, hs⟩
      · cases h
    · split at h
      · rename_i hs
        cases h
        exact ⟨rfl, rfl, hs⟩
      · cases h
    · cases h
  · rintro ⟨rfl, rfl, hs⟩
    cases track with
    | awaiting => exact if_neg hs
    | coolingOff w => exact if_pos hs
    | confirmation w r => exact if_pos hs

theorem loadPathway_eq_ok_iff {entrenched : Bool} {track : Option Track} :
    loadPathway entrenched status w r = .ok track ↔
      track.isSome = entrenched ∧ track.bind Track.window? = w ∧ track.bind Track.round? = r ∧
        Bears status track := by
  cases entrenched with
  | false =>
    simp only [loadPathway, checkStandard, Bool.false_eq_true, if_false, except_map_eq_ok_iff,
      except_bind_eq_ok_iff, require_eq_ok_iff, exists_const, Option.isSome_eq_false_iff,
      Option.isNone_iff_eq_none]
    constructor
    · rintro ⟨⟨⟨rfl, rfl⟩, hs⟩, rfl⟩
      exact ⟨rfl, rfl, rfl, hs⟩
    · rintro ⟨rfl, rfl, rfl, hs⟩
      exact ⟨⟨⟨rfl, rfl⟩, hs⟩, rfl⟩
  | true =>
    simp only [loadPathway, if_true, except_map_eq_ok_iff, loadTrack_eq_ok_iff]
    constructor
    · rintro ⟨t, ⟨rfl, rfl, hs⟩, rfl⟩
      exact ⟨rfl, rfl, rfl, hs⟩
    · rintro ⟨ht, rfl, rfl, hs⟩
      obtain ⟨t, rfl⟩ := Option.isSome_iff_exists.mp ht
      exact ⟨t, ⟨rfl, rfl, hs⟩, rfl⟩

theorem loadWindow_eq_ok_iff {startedAt endsAt : Option Instant} :
    loadWindow startedAt endsAt = .ok w ↔
      startedAt = w.map Window.startedAt ∧ endsAt = w.map Window.endsAt ∧
        ∀ x ∈ w, x.startedAt ≤ x.endsAt := by
  constructor
  · intro h
    unfold loadWindow at h
    split at h
    · split at h
      · rename_i hle
        cases h
        exact ⟨rfl, rfl, by simpa using hle⟩
      · cases h
    · cases h
      exact ⟨rfl, rfl, by simp⟩
    · cases h
  · rintro ⟨rfl, rfl, hle⟩
    cases w with
    | none => rfl
    | some x => exact if_pos (hle x rfl)

end Tracks

section Chambers

variable {id : UInt64} {rounds rounds' : Rounds}

def AreSound (id : UInt64) (rounds : Rounds) : Prop :=
  ∀ chamber r, rounds.get chamber = some r → r.Sound id chamber.stage

theorem areSound_of_loadChambers {records : List ChamberRecord}
    (h : loadChambers id rounds records = .ok rounds') (hs : AreSound id rounds) :
    AreSound id rounds' := by
  induction records generalizing rounds with
  | nil =>
    cases h
    exact hs
  | cons record records ih =>
    simp only [loadChambers, except_bind_eq_ok_iff, loadStage_eq_ok_iff] at h
    obtain ⟨round, ⟨-, hround⟩, -, -, h⟩ := h
    refine ih h ?_
    intro chamber r hr
    rw [Rounds.get_set] at hr
    split at hr
    · rename_i hc
      cases hr
      rw [hc]
      exact hround
    · exact hs chamber r hr

theorem loadChambers_toList (hs : AreSound id rounds) :
    loadChambers id Rounds.empty (rounds.toList.map (fun e => ⟨e.1, .ofRound e.2⟩)) =
      .ok rounds := by
  have hload : ∀ chamber r, rounds.get chamber = some r →
      loadStage id chamber.stage (.ofRound r) = .ok r := by
    intro chamber r hr
    exact loadStage_eq_ok_iff.mpr ⟨standsFor_ofRound r, hs chamber r hr⟩
  obtain ⟨x, y, z⟩ := rounds
  have hx : ∀ r, x = some r → loadStage id Chamber.proposal.stage (.ofRound r) = .ok r :=
    hload .proposal
  have hy : ∀ r, y = some r → loadStage id Chamber.ratification.stage (.ofRound r) = .ok r :=
    hload .ratification
  have hz : ∀ r, z = some r → loadStage id Chamber.challenge.stage (.ofRound r) = .ok r :=
    hload .challenge
  cases x <;> cases y <;> cases z <;>
    simp [Rounds.toList, Chamber.all, Rounds.get, Rounds.empty, Rounds.set, loadChambers,
      except_bind_eq_ok_iff, require_eq_ok_iff, hx, hy, hz]

end Chambers

section Proposals

variable {p : Proposal}

theorem checkChamberSeats_eq_ok_iff {proposer : VoterId} {before seats : List VoterId} {u : Unit} :
    checkChamberSeats proposer before seats = .ok u ↔
      proposer ∉ seats ∧ seats.Nodup ∧ ∀ v ∈ seats, v ∉ before := by
  induction seats generalizing before with
  | nil => simp [checkChamberSeats]
  | cons v seats ih =>
    simp only [checkChamberSeats, except_bind_eq_ok_iff, require_eq_ok_iff, exists_const, ih,
      List.mem_cons, not_or, List.nodup_cons]
    constructor
    · rintro ⟨hp, hb, hrest, hnodup, hall⟩
      refine ⟨⟨Ne.symm hp, hrest⟩, ⟨fun hv => (hall v hv).1 rfl, hnodup⟩, ?_⟩
      rintro w (rfl | hw)
      · exact hb
      · exact (hall w hw).2
    · rintro ⟨⟨hp, hrest⟩, ⟨hv, hnodup⟩, hall⟩
      refine ⟨Ne.symm hp, hall v (.inl rfl), hrest, hnodup, ?_⟩
      intro w hw
      refine ⟨?_, hall w (.inr hw)⟩
      rintro rfl
      exact hv hw

theorem checkConfirmationSeats_eq_ok_iff {proposer : VoterId} {ratifiers seats : List VoterId}
    {u : Unit} :
    checkConfirmationSeats proposer ratifiers seats = .ok u ↔
      proposer ∉ seats ∧ ∀ v ∈ seats, v ∉ ratifiers := by
  induction seats with
  | nil => simp [checkConfirmationSeats]
  | cons v seats ih =>
    simp only [checkConfirmationSeats, except_bind_eq_ok_iff, require_eq_ok_iff, exists_const, ih,
      List.mem_cons, not_or]
    constructor
    · rintro ⟨hp, hr, hrest, hall⟩
      refine ⟨⟨Ne.symm hp, hrest⟩, ?_⟩
      rintro w (rfl | hw)
      · exact hr
      · exact hall w hw
    · rintro ⟨⟨hp, hrest⟩, hall⟩
      exact ⟨Ne.symm hp, hall v (.inl rfl), hrest, fun w hw => hall w (.inr hw)⟩

/-- Where rounds are sound, the checks of the seats ask exactly that the panels keep apart. -/
theorem checkPanels_eq_ok_iff (hs : p.HasSoundRounds) {u : Unit} :
    checkPanels p = .ok u ↔ p.KeepsApart := by
  have hconfirmation : (p.panel .confirmation).Nodup := by
    cases hr : p.round? .confirmation with
    | none => simp [Proposal.panel, hr]
    | some r =>
      rw [Proposal.panel_eq_of_round? hr]
      exact (hs .confirmation r hr).distinct
  simp only [checkPanels, except_bind_eq_ok_iff, checkChamberSeats_eq_ok_iff,
    checkConfirmationSeats_eq_ok_iff, exists_const]
  change (p.proposer ∉ p.chamberSeats ∧ p.chamberSeats.Nodup ∧ _) ∧ _ ↔ _
  constructor
  · rintro ⟨⟨hp, hn, -⟩, hpc, hr⟩
    refine ⟨hn, hconfirmation, hr, ?_⟩
    rw [Proposal.chamberSeats_eq] at hp
    simp only [List.mem_append, not_or] at hp
    intro stage
    cases stage with
    | proposal => exact hp.1
    | ratification => exact hp.2.1
    | challenge => exact hp.2.2
    | confirmation => exact hpc
  · rintro ⟨hn, -, hr, hp⟩
    refine ⟨⟨?_, hn, fun v _ => List.not_mem_nil⟩, hp _, hr⟩
    rw [Proposal.chamberSeats_eq]
    simp only [List.mem_append, not_or]
    exact ⟨hp _, hp _, hp _⟩

structure HasNeededData (p : Proposal) : Prop where
  proposed : p.status = .proposed → p.rounds = Rounds.empty
  proposalVoting : p.status = .proposalVoting → p.rounds.proposal.isSome = true
  challengeWindow : p.status = .challengeWindow → p.challengeClosesAt.isSome = true
  applied : p.status = .applied → p.appliedAt.isSome = true

theorem checkStatus_eq_ok_iff {u : Unit} : checkStatus p = .ok u ↔ HasNeededData p := by
  simp only [checkStatus, except_bind_eq_ok_iff, require_eq_ok_iff, exists_const]
  constructor
  · rintro ⟨h₁, h₂, h₃, h₄⟩
    exact ⟨h₁, h₂, h₃, h₄⟩
  · rintro ⟨h₁, h₂, h₃, h₄⟩
    exact ⟨h₁, h₂, h₃, h₄⟩

/-- The checks of loading find nothing amiss with the record of this proposal. -/
structure IsRecordable (p : Proposal) : Prop where
  named : Text.isEmptyText p.provision = false
  rounds : p.HasSoundRounds
  window : ∀ w ∈ p.coolingOff?, w.startedAt ≤ w.endsAt
  track : Bears p.status p.track
  seats : p.KeepsApart
  data : HasNeededData p

theorem round?_stage (p : Proposal) (chamber : Chamber) :
    p.round? chamber.stage = p.rounds.get chamber := by
  cases chamber <;> rfl

theorem hasSoundRounds_iff : p.HasSoundRounds ↔
    AreSound p.id p.rounds ∧ ∀ r, p.round? .confirmation = some r → r.Sound p.id .confirmation := by
  constructor
  · intro h
    refine ⟨?_, h .confirmation⟩
    intro chamber r hr
    exact h chamber.stage r ((round?_stage p chamber).trans hr)
  · rintro ⟨hchambers, hconfirmation⟩ stage r hr
    cases stage with
    | proposal => exact hchambers .proposal r hr
    | ratification => exact hchambers .ratification r hr
    | challenge => exact hchambers .challenge r hr
    | confirmation => exact hconfirmation r hr

theorem loadConfirmation_eq_ok_iff {id : UInt64} {record : Option RoundRecord} {x : Option Round} :
    loadConfirmation id record = .ok x ↔
      Option.Rel RoundRecord.StandsFor record x ∧ ∀ r ∈ x, r.Sound id .confirmation := by
  cases record with
  | none => cases x <;> simp [loadConfirmation]
  | some record =>
    simp only [loadConfirmation, except_map_eq_ok_iff, loadStage_eq_ok_iff]
    constructor
    · rintro ⟨r, ⟨hr, hs⟩, rfl⟩
      exact ⟨.some hr, by simpa using hs⟩
    · rintro ⟨hrel, hs⟩
      cases hrel with
      | @some _ r hr => exact ⟨r, ⟨hr, hs r rfl⟩, rfl⟩

theorem isRecordable_of_load {r : Record} (h : load r = .ok p) : IsRecordable p := by
  simp only [load, except_bind_eq_ok_iff, require_eq_ok_iff, pure_eq_ok_iff,
    loadConfirmation_eq_ok_iff, loadWindow_eq_ok_iff, loadPathway_eq_ok_iff, exists_const,
    checkStatus_eq_ok_iff] at h
  obtain ⟨hnamed, rounds, hrounds, confirmation, ⟨-, hconfirmation⟩, window, ⟨-, -, hwindow⟩, track,
    ⟨-, rfl, rfl, htrack⟩, _, hpanels, hdata, hp⟩ := h
  have hchambers : AreSound r.id rounds :=
    areSound_of_loadChambers hrounds (by rintro (_ | _) <;> simp [Rounds.empty, Rounds.get])
  have hsound : p.HasSoundRounds := by
    subst hp
    exact hasSoundRounds_iff.mpr ⟨hchambers, hconfirmation⟩
  subst hp
  exact ⟨by simpa using hnamed, hsound, hwindow, htrack,
    (checkPanels_eq_ok_iff hsound).mp hpanels, hdata⟩

/-- The record of a recordable proposal gives the proposal back. -/
theorem load_ofProposal (h : IsRecordable p) : load (ofProposal p) = .ok p := by
  obtain ⟨hchambers, hconfirmation⟩ := hasSoundRounds_iff.mp h.rounds
  have hrel : Option.Rel RoundRecord.StandsFor ((p.round? .confirmation).map .ofRound)
      (p.round? .confirmation) := by
    cases p.round? .confirmation with
    | none => exact .none
    | some r => exact .some (standsFor_ofRound r)
  simp only [load, except_bind_eq_ok_iff, require_eq_ok_iff, pure_eq_ok_iff,
    loadConfirmation_eq_ok_iff, loadWindow_eq_ok_iff, loadPathway_eq_ok_iff, exists_const,
    checkStatus_eq_ok_iff]
  refine ⟨by simpa [ofProposal] using h.named, p.rounds, loadChambers_toList hchambers,
    p.round? .confirmation, ⟨hrel, hconfirmation⟩, p.coolingOff?, ⟨rfl, rfl, h.window⟩, p.track,
    ⟨rfl, rfl, rfl, h.track⟩, ?_⟩
  exact ⟨(), (checkPanels_eq_ok_iff h.rounds).mpr h.seats, h.data, rfl⟩

theorem toProposal_eq_ok_iff {r : Record} :
    r.toProposal = .ok p ↔ r.version = currentVersion ∧ load r = .ok p := by
  unfold toProposal
  split
  · split <;> simp [*]
  · simp [*]

theorem isRecordable_of_toProposal {r : Record} (h : r.toProposal = .ok p) : IsRecordable p :=
  isRecordable_of_load (toProposal_eq_ok_iff.mp h).2

theorem toProposal_ofProposal (h : IsRecordable p) : (ofProposal p).toProposal = .ok p :=
  toProposal_eq_ok_iff.mpr ⟨rfl, load_ofProposal h⟩

end Proposals

end Record

end Charter
