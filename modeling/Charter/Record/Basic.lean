import Charter.Docket.Basic

/-! # Records

The form in which a proposal is kept: flat data under a version of its schema. Much can be written
down that no proposal is, so a record is checked in full before it becomes one; every proposal has
one record. -/

namespace Charter

/-- A ballot as it is kept, its identifier as text. -/
structure BallotRecord where
  id : String
  voter : VoterId
  stage : Stage
  approve : Bool
  attestation : String
  castAt : Instant
  affiliation : Affiliation
deriving DecidableEq, Repr

structure RoundRecord where
  composition : Composition
  panel : List VoterId
  affiliations : Table VoterId Affiliation
  ballots : List BallotRecord
  openedAt : Instant
  deadline : Instant
deriving DecidableEq, Repr

structure ChamberRecord where
  chamber : Chamber
  round : RoundRecord
deriving DecidableEq, Repr

structure Record where
  version : UInt32
  id : UInt64
  proposer : VoterId
  provision : String
  current : Json
  proposed : Json
  justification : String
  entrenched : Bool
  status : Status
  createdAt : Instant
  decidedAt : Option Instant
  appliedAt : Option Instant
  chambers : List ChamberRecord
  challengeFiled : Bool
  challengeClosesAt : Option Instant
  coolingOffStartedAt : Option Instant
  coolingOffEndsAt : Option Instant
  confirmation : Option RoundRecord
deriving DecidableEq, Repr

def BallotRecord.ofBallot (b : Ballot) : BallotRecord :=
  ⟨b.id.hex, b.voter, b.stage, b.approve, b.attestation, b.castAt, b.affiliation⟩

def RoundRecord.ofRound (r : Round) : RoundRecord :=
  ⟨r.composition, r.panel, r.affiliations, r.ballots.map .ofBallot, r.openedAt, r.deadline⟩

namespace Record

/-- The version of the schema in which records are kept. -/
def currentVersion : UInt32 := 1

def ofProposal (p : Proposal) : Record where
  version := currentVersion
  id := p.id
  proposer := p.proposer
  provision := p.provision
  current := p.current
  proposed := p.proposed
  justification := p.justification
  entrenched := p.isEntrenched
  status := p.status
  createdAt := p.createdAt
  decidedAt := p.decidedAt
  appliedAt := p.appliedAt
  chambers := p.rounds.toList.map (fun e => ⟨e.1, .ofRound e.2⟩)
  challengeFiled := p.challengeFiled
  challengeClosesAt := p.challengeClosesAt
  coolingOffStartedAt := p.coolingOff?.map Window.startedAt
  coolingOffEndsAt := p.coolingOff?.map Window.endsAt
  confirmation := (p.round? .confirmation).map .ofRound

inductive RoundFlaw where
  | threshold (composition : Composition)
  | panelSize (members : Nat) (composition : Composition)
  | repeatedMember
  | affiliations
  | deadline
  | strayBallot (stage : Stage)
  | withoutSeat (voter : VoterId)
  | votedTwice (voter : VoterId)
  | noAffiliation (voter : VoterId)
  | affiliation (voter : VoterId)
  | idForm (id : String)
  | idMismatch (voter : VoterId)
deriving DecidableEq, Repr

inductive Malformation where
  | emptyKey
  | round (stage : Stage) (flaw : RoundFlaw)
  | repeatedChamber (chamber : Chamber)
  | window
  | standardWithTrack
  | standardInStatus (status : Status)
  | statusBeforeCoolingOff (status : Status)
  | windowInStatus (status : Status)
  | confirmationInStatus (status : Status)
  | confirmationWithoutWindow
  | proposerSeated (proposer : VoterId)
  | seatedTwice (voter : VoterId)
  | confirmsOwnVote (voter : VoterId)
  | proposedWithRounds
  | votingWithoutPanel
  | windowWithoutEnd
  | appliedWithoutTime
  | lastId
deriving DecidableEq, Repr

inductive Refusal where
  | version (found : UInt32)
  | malformed (id : UInt64) (cause : Malformation)
  | repeatedId (id : UInt64)
  | flawed (flaw : Constitution.Flaw)
deriving DecidableEq, Repr

def RoundFlaw.message : RoundFlaw → String
  | .threshold c => s!"pass threshold {c.passThreshold} outside 1..={c.panelSize}"
  | .panelSize members c => s!"panel has {members} members, definition says {c.panelSize}"
  | .repeatedMember => "duplicate panel member"
  | .affiliations => "affiliations do not match the panel"
  | .deadline => "deadline precedes opening"
  | .strayBallot stage => s!"ballot tagged {stage.name}"
  | .withoutSeat voter => s!"{voter} voted without a seat"
  | .votedTwice voter => s!"{voter} voted twice"
  | .noAffiliation voter => s!"{voter} has no recorded affiliation"
  | .affiliation voter => s!"{voter} voted under an affiliation other than their seat"
  | .idForm id => s!"vote id '{id}' is not a 32-byte hex digest"
  | .idMismatch voter => s!"vote id mismatch for {voter}"

def Malformation.message : Malformation → String
  | .emptyKey => "empty provision key"
  | .round stage flaw => s!"{stage.name} round: {flaw.message}"
  | .repeatedChamber chamber => s!"{chamber.name} chamber recorded twice"
  | .window => "inconsistent cooling-off window"
  | .standardWithTrack => "standard proposal carries entrenchment data"
  | .standardInStatus status => s!"standard proposal in status {status.name}"
  | .statusBeforeCoolingOff status =>
    s!"entrenched proposal in status {status.name} without cooling-off"
  | .windowInStatus status => s!"cooling-off window recorded in status {status.name}"
  | .confirmationInStatus status => s!"confirmation round recorded in status {status.name}"
  | .confirmationWithoutWindow => "confirmation round without a cooling-off window"
  | .proposerSeated proposer => s!"proposer {proposer} sits on a panel"
  | .seatedTwice voter => s!"{voter} sits on more than one panel"
  | .confirmsOwnVote voter => s!"{voter} sits on both ratification and confirmation panels"
  | .proposedWithRounds => "proposed record carries chamber rounds"
  | .votingWithoutPanel => "proposal chamber voting without a panel"
  | .windowWithoutEnd => "challenge window without a closing time"
  | .appliedWithoutTime => "applied without an application time"
  | .lastId => "proposal id leaves no room for a successor"

def Refusal.message : Refusal → String
  | .version found => s!"Unsupported record schema version {found} (expected {currentVersion})"
  | .malformed id cause => s!"Malformed record for proposal {id}: {cause.message}"
  | .repeatedId id => s!"Duplicate proposal id {id}"
  | .flawed flaw => s!"Invalid configuration: {flaw.message}"

end Record

end Charter
