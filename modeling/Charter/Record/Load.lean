import Charter.Record.Basic

/-! # Loading records

A record becomes a proposal if it could be the record of one: each round is sound in itself, each
ballot is of a member and bears the identifier that belongs to it, the track fits the status, and
nobody sits where they may not. The checks run in a fixed order, and the first that fails
decides. -/

namespace Charter.Record

/-- The ballot that a record stands for, given the seats and those who have voted before. -/
def loadBallot (id : UInt64) (stage : Stage) (panel : List VoterId)
    (affiliations : Table VoterId Affiliation) (voted : List VoterId) (b : BallotRecord) :
    Except RoundFlaw Ballot := do
  require (b.stage = stage) (.strayBallot b.stage)
  require (b.voter ∈ panel) (.withoutSeat b.voter)
  require (b.voter ∉ voted) (.votedTwice b.voter)
  let seat ← demand (affiliations.get? b.voter) (.noAffiliation b.voter)
  require (seat = b.affiliation) (.affiliation b.voter)
  let digest ← demand (Digest.ofHex? b.id) (.idForm b.id)
  require (digest = Ballot.identity id stage b.voter) (.idMismatch b.voter)
  return ⟨digest, b.voter, stage, b.approve, b.attestation, b.castAt, b.affiliation⟩

def loadBallots (id : UInt64) (stage : Stage) (panel : List VoterId)
    (affiliations : Table VoterId Affiliation) :
    List VoterId → List BallotRecord → Except RoundFlaw (List Ballot)
  | _, [] => .ok []
  | voted, b :: rest => do
    let ballot ← loadBallot id stage panel affiliations voted b
    let ballots ← loadBallots id stage panel affiliations (b.voter :: voted) rest
    return ballot :: ballots

def checkSeats (r : RoundRecord) : Except RoundFlaw Unit := do
  require (r.composition.passThreshold ≠ 0 ∧ r.composition.passThreshold ≤ r.composition.panelSize)
    (.threshold r.composition)
  require (r.panel.length = r.composition.panelSize.toNat) (.panelSize r.panel.length r.composition)
  require r.panel.Nodup .repeatedMember
  require (r.affiliations.length = r.panel.length ∧
    ∀ v ∈ r.panel, (r.affiliations.get? v).isSome = true)
    .affiliations
  require (r.openedAt ≤ r.deadline) .deadline

def loadRound (id : UInt64) (stage : Stage) (r : RoundRecord) : Except RoundFlaw Round := do
  checkSeats r
  let ballots ← loadBallots id stage r.panel r.affiliations [] r.ballots
  return ⟨r.composition, r.panel, r.affiliations, ballots, r.openedAt, r.deadline⟩

/-- The round of a stage, its flaws told with the stage. -/
def loadStage (id : UInt64) (stage : Stage) (r : RoundRecord) : Except Malformation Round :=
  match loadRound id stage r with
  | .ok round => .ok round
  | .error flaw => .error (.round stage flaw)

def loadChambers (id : UInt64) : Rounds → List ChamberRecord → Except Malformation Rounds
  | rounds, [] => .ok rounds
  | rounds, c :: rest => do
    let round ← loadStage id c.chamber.stage c.round
    require ((rounds.get c.chamber).isNone = true) (.repeatedChamber c.chamber)
    loadChambers id (rounds.set c.chamber (some round)) rest

def loadConfirmation (id : UInt64) : Option RoundRecord → Except Malformation (Option Round)
  | none => .ok none
  | some r => (loadStage id .confirmation r).map some

/-- The cooling-off window: both ends in order, or none. -/
def loadWindow : Option Instant → Option Instant → Except Malformation (Option Window)
  | some s, some e => if s ≤ e then .ok (some ⟨s, e⟩) else .error .window
  | none, none => .ok none
  | _, _ => .error .window

/-- The track of an entrenched proposal, which fits its status. -/
def loadTrack (status : Status) : Option Window → Option Round → Except Malformation Track
  | none, none =>
    if status ∈ [.confirmationVote, .confirmed, .applied] then
      .error (.statusBeforeCoolingOff status)
    else .ok .awaiting
  | some w, none =>
    if status = .coolingOff then .ok (.coolingOff w) else .error (.windowInStatus status)
  | some w, some r =>
    if status ∈ [.confirmationVote, .confirmed, .applied, .rejected, .lapsed] then
      .ok (.confirmation w r)
    else .error (.confirmationInStatus status)
  | none, some _ => .error .confirmationWithoutWindow

/-- A standard proposal has no track, and no status that needs one. -/
def checkStandard (status : Status) (w : Option Window) (r : Option Round) :
    Except Malformation Unit := do
  require (w.isNone = true ∧ r.isNone = true) .standardWithTrack
  require (status ∉ [.coolingOff, .confirmationVote]) (.standardInStatus status)

def loadPathway (entrenched : Bool) (status : Status) (w : Option Window) (r : Option Round) :
    Except Malformation (Option Track) :=
  if entrenched then (loadTrack status w r).map some
  else (checkStandard status w r).map (fun _ => none)

/-- Nobody sits twice on the panels of the chambers, and the proposer does not at all. -/
def checkChamberSeats (proposer : VoterId) : List VoterId → List VoterId → Except Malformation Unit
  | _, [] => .ok ()
  | before, v :: rest => do
    require (v ≠ proposer) (.proposerSeated v)
    require (v ∉ before) (.seatedTwice v)
    checkChamberSeats proposer (v :: before) rest

/-- Neither the proposer nor those who ratified sit on the confirmation panel. -/
def checkConfirmationSeats (proposer : VoterId) (ratifiers : List VoterId) :
    List VoterId → Except Malformation Unit
  | [] => .ok ()
  | v :: rest => do
    require (v ≠ proposer) (.proposerSeated v)
    require (v ∉ ratifiers) (.confirmsOwnVote v)
    checkConfirmationSeats proposer ratifiers rest

def checkPanels (p : Proposal) : Except Malformation Unit := do
  checkChamberSeats p.proposer [] (Chamber.all.flatMap (fun c => p.panel c.stage))
  checkConfirmationSeats p.proposer (p.panel .ratification) (p.panel .confirmation)

def checkStatus (p : Proposal) : Except Malformation Unit := do
  require (p.status = .proposed → p.rounds = Rounds.empty) .proposedWithRounds
  require (p.status = .proposalVoting → p.rounds.proposal.isSome = true) .votingWithoutPanel
  require (p.status = .challengeWindow → p.challengeClosesAt.isSome = true) .windowWithoutEnd
  require (p.status = .applied → p.appliedAt.isSome = true) .appliedWithoutTime

def load (r : Record) : Except Malformation Proposal := do
  require (¬Text.isEmptyText r.provision) .emptyKey
  let rounds ← loadChambers r.id Rounds.empty r.chambers
  let confirmation ← loadConfirmation r.id r.confirmation
  let window ← loadWindow r.coolingOffStartedAt r.coolingOffEndsAt
  let track ← loadPathway r.entrenched r.status window confirmation
  let p : Proposal :=
    ⟨r.id, r.proposer, r.provision, r.current, r.proposed, r.justification, r.status, r.createdAt,
      r.decidedAt, r.appliedAt, rounds, r.challengeFiled, r.challengeClosesAt, track⟩
  checkPanels p
  checkStatus p
  return p

/-- The proposal that a record stands for. -/
def toProposal (r : Record) : Except Refusal Proposal :=
  if r.version = currentVersion then
    match load r with
    | .ok p => .ok p
    | .error cause => .error (.malformed r.id cause)
  else .error (.version r.version)

end Charter.Record
