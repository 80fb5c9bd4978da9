import Charter.Proposal.Delay

/-! # Voting

The three steps of a vote, the same for every stage: a panel is selected, its members cast ballots
until the deadline, and the round is closed, which decides it and moves the proposal on. -/

namespace Charter

def Constitution.composition (c : Constitution) : Stage → Composition
  | .proposal => c.phase.proposal
  | .ratification => c.phase.ratification
  | .challenge => c.phase.challenge
  | .confirmation => c.confirmation

/-- Takes a ballot of a member, before the deadline and once. It is recorded under the affiliation
of the seat. -/
def Round.record (r : Round) (proposal : UInt64) (stage : Stage) (voter : VoterId) (approve : Bool)
    (attestation : String) (now : Instant) : Except Fault (Round × Digest) := do
  require (¬r.DeadlinePassed now) (.votingClosed stage)
  let affiliation ← demand (if r.IsMember voter then r.affiliation? voter else none)
    (.notSeated voter stage)
  require (¬r.HasVoted voter) (.alreadyVoted voter stage)
  let id := Ballot.identity proposal stage voter
  let ballot : Ballot := ⟨id, voter, stage, approve, Text.trim attestation, now, affiliation⟩
  return ({ r with ballots := r.ballots ++ [ballot] }, id)

namespace Proposal

/-- Those who may not sit on a panel: the proposer and, for a chamber, everybody seated before; for
the confirmation, those who ratified. -/
def recused (p : Proposal) : Stage → List VoterId
  | .confirmation => p.proposer :: p.panel .ratification
  | _ => p.proposer :: p.seated

def checkSelection (p : Proposal) (stage : Stage) (now : Instant) : Except Fault Unit := do
  p.expect stage.selectionStatus
  match stage with
  | .confirmation =>
    match p.track with
    | some (.coolingOff w) => require (w.endsAt ≤ now) (.mismatch (.coolingOffUnfinished w.endsAt))
    | _ => throw (.mismatch .noCoolingOff)
  | stage => require ((p.round? stage).isNone = true) (.panelSelected stage)

def selectMembers (c : Constitution) (p : Proposal) (stage : Stage) (candidates : List Voter) :
    Except Fault (List Voter) :=
  match Panel.select candidates (c.diversity.quota (c.composition stage)) (p.recused stage) with
  | .ok members => .ok members
  | .error cause => .error (.noPanel cause)

/-- The status in which ballots are taken; the ratification and challenge chambers are convened in
it already. -/
def beginVoting (p : Proposal) (stage : Stage) (now : Instant) : Except Fault Proposal :=
  if p.status = stage.votingStatus then .ok p else p.moveTo stage.votingStatus now

def selectPanel (c : Constitution) (p : Proposal) (stage : Stage) (candidates : List Voter)
    (now : Instant) :
    Except Fault (Proposal × List VoterId) := do
  p.checkSelection stage now
  let members ← p.selectMembers c stage candidates
  let deadline ← windowEnd now c.timing.votingWindow
  let q ← p.beginVoting stage now
  return (q.putRound stage (Round.ofMembers (c.composition stage) members now deadline),
    members.map Voter.id)

def running (p : Proposal) (stage : Stage) : Except Fault Round :=
  demand (p.round? stage) (.panelMissing stage)

/-- Casts a ballot. The voter's own words on region and organization do not count. -/
def cast (p : Proposal) (stage : Stage) (voter : Voter) (approve : Bool) (attestation : String)
    (now : Instant) :
    Except Fault (Proposal × Digest) := do
  p.expect stage.votingStatus
  require (¬Text.isEmptyText attestation) (.invalid .emptyAttestation)
  let round ← p.running stage
  let (round, id) ← round.record p.id stage voter.id approve attestation now
  return (p.putRound stage round, id)

def checkClosing (p : Proposal) (stage : Stage) : Except Fault Round := do
  p.expect stage.votingStatus
  p.running stage

/-- The vote is decided under the rules for entrenched provisions; every confirmation is. -/
def hasEntrenchedRules (p : Proposal) (stage : Stage) : Bool :=
  p.isEntrenched || stage == .confirmation

def pass (c : Constitution) (p : Proposal) (stage : Stage) (now : Instant) : Attempt Unit :=
  match stage with
  | .proposal => Attempt.ofStep p (p.moveTo .ratificationVoting now)
  | .ratification => Attempt.ofStep p (p.openChallenge c now)
  | .challenge => p.leaveChallenge c now
  | .confirmation => Attempt.ofStep p (p.moveTo .confirmed now)

def conclude (c : Constitution) (p : Proposal) (stage : Stage) (outcome : Outcome) (now : Instant) :
    Attempt Unit :=
  match outcome with
  | .lapsed => Attempt.ofStep p (p.moveTo .lapsed now)
  | .rejected => Attempt.ofStep p (p.moveTo .rejected now)
  | .passed => p.pass c stage now

/-- Closes a vote, before or after its deadline. -/
def close (c : Constitution) (p : Proposal) (stage : Stage) (now : Instant) : Attempt Outcome :=
  match p.checkClosing stage with
  | .error f => Attempt.refused p f
  | .ok round =>
    let outcome := round.decide c.thresholds (p.hasEntrenchedRules stage) now
    (p.conclude c stage outcome now).map (fun _ => outcome)

end Proposal

end Charter
