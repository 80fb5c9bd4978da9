import Charter.Proposal.Operation

/-! # Operations in place

The operations as they work on what they are handed: change by change, in the order in which the
changes are made. An operation that is refused halfway takes back nothing of what it has changed. -/

namespace Charter

/-- An operation that changes a state in place and replies, or is refused and leaves the state as it
then is. -/
abbrev InPlace (σ α : Type) := EStateM Fault σ α

namespace InPlace

variable {σ τ α : Type}

def ask : Except Fault α → InPlace σ α
  | .ok a => pure a
  | .error f => throw f

def onFirst (x : InPlace σ α) : InPlace (σ × τ) α := fun s =>
  match x s.1 with
  | .ok a t => .ok a (t, s.2)
  | .error f t => .error f (t, s.2)

def onSecond (x : InPlace τ α) : InPlace (σ × τ) α := fun s =>
  match x s.2 with
  | .ok a t => .ok a (s.1, t)
  | .error f t => .error f (s.1, t)

def move (s : Status) (now : Instant) : InPlace Proposal Unit := do
  let q ← ask ((← get).moveTo s now)
  set q

def startCoolingOff (c : Constitution) (now : Instant) : InPlace Proposal Window := do
  let p ← get
  ask (p.expect .coolingOff)
  let track ← ask (demand p.track (.mismatch .standard))
  match track.window? with
  | some w => throw (.mismatch (.coolingOffRunning w.endsAt))
  | none => pure ()
  let endsAt ← ask (windowEnd now c.timing.coolingOff)
  set { p with track := some (.coolingOff ⟨now, endsAt⟩) }
  return ⟨now, endsAt⟩

/-- The status changes before it is known whether the cooling-off can start. -/
def leaveChallenge (c : Constitution) (now : Instant) : InPlace Proposal Unit := do
  if (← get).isEntrenched then
    move .coolingOff now
    let _ ← startCoolingOff c now
  else move .confirmed now

def challenge (now : Instant) : InPlace Proposal Unit := do
  let p ← get
  ask (p.expect .challengeWindow)
  match p.challengeClosesAt with
  | some t => ask (require (now < t) (.mismatch (.challengeClosed t)))
  | none => pure ()
  move .challengeVoting now
  modify (fun q => { q with challengeFiled := true })
  modify (fun q => { q with rounds := q.rounds.set .challenge none })

def advance (c : Constitution) (now : Instant) : InPlace Proposal Unit := do
  ask ((← get).checkUnchallenged now)
  leaveChallenge c now

/-- Only the first chamber and the confirmation are convened with their panel. -/
def beginVoting (stage : Stage) (now : Instant) : InPlace Proposal Unit :=
  match stage with
  | .proposal | .confirmation => move stage.votingStatus now
  | .ratification | .challenge => pure ()

def selectPanel (c : Constitution) (stage : Stage) (candidates : List Voter) (now : Instant) :
    InPlace Proposal (List VoterId) := do
  let p ← get
  ask (p.checkSelection stage now)
  let members ← ask (p.selectMembers c stage candidates)
  let deadline ← ask (windowEnd now c.timing.votingWindow)
  beginVoting stage now
  modify (fun q => q.putRound stage (Round.ofMembers (c.composition stage) members now deadline))
  return members.map Voter.id

def cast (stage : Stage) (voter : Voter) (approve : Bool) (attestation : String) (now : Instant) :
    InPlace Proposal Digest := do
  let p ← get
  ask (p.expect stage.votingStatus)
  ask (require (¬Text.isEmptyText attestation) (.invalid .emptyAttestation))
  let round ← ask (p.running stage)
  let (round, id) ← ask (round.record p.id stage voter.id approve attestation now)
  modify (fun q => q.putRound stage round)
  return id

def pass (c : Constitution) (stage : Stage) (now : Instant) : InPlace Proposal Unit :=
  match stage with
  | .proposal => move .ratificationVoting now
  | .ratification => do
    let closesAt ← ask (windowEnd now c.timing.challengeWindow)
    move .challengeWindow now
    modify (fun q => { q with challengeClosesAt := some closesAt })
  | .challenge => leaveChallenge c now
  | .confirmation => move .confirmed now

def conclude (c : Constitution) (stage : Stage) (outcome : Outcome) (now : Instant) :
    InPlace Proposal Unit :=
  match outcome with
  | .lapsed => move .lapsed now
  | .rejected => move .rejected now
  | .passed => pass c stage now

def close (c : Constitution) (stage : Stage) (now : Instant) : InPlace Proposal Outcome := do
  let p ← get
  let round ← ask (p.checkClosing stage)
  let outcome := round.decide c.thresholds (p.hasEntrenchedRules stage) now
  conclude c stage outcome now
  return outcome

def withdraw (caller : VoterId) (now : Instant) : InPlace Proposal Unit := do
  let p ← get
  ask (require (caller = p.proposer) .notProposer)
  ask p.checkUnvoted
  move .withdrawn now

/-- Writes a value at the end of a path, and an empty object wherever one is missing on the way.
What was written on the way stays if something else than an object bars it further on. -/
def writePath (key : String) (v : Json) : List String → Json → EStateM.Result Fault Json Unit
  | s :: path, .obj members =>
    match path with
    | [] => .ok () (.obj (Table.insert members s v))
    | _ =>
      match writePath key v path ((Table.get? members s).getD Provision.emptyObject) with
      | .ok _ child => .ok () (.obj (Table.insert members s child))
      | .error f child => .error f (.obj (Table.insert members s child))
  | s :: _, j => .error (.invalid (.noObject key s)) j
  | [], j => .error (.invalid .emptyKey) j

def write (key : String) (v : Json) : InPlace Json Unit := writePath key v (Text.segments key)

/-- Writes into the live configuration first and notes the application then. -/
def apply (now : Instant) : InPlace (Proposal × Json) Unit := do
  let (p, live) ← get
  ask p.checkApplication
  match Provision.barred? live p.provision with
  | some segment => throw (.invalid (.noObject p.provision segment))
  | none => pure ()
  onSecond (write p.provision p.proposed)
  onFirst (move .applied now)

end InPlace

def Operation.live? : Operation → Option Json
  | .apply live => some live
  | _ => none

def Reply.live? : Reply → Option Json
  | .live j => some j
  | _ => none

open InPlace in
def Operation.inPlace (c : Constitution) (now : Instant) :
    Operation → InPlace (Proposal × Option Json) Reply
  | .selectPanel stage candidates =>
    do return .panel (← onFirst (InPlace.selectPanel c stage candidates now))
  | .cast stage voter approve attestation => do
    return .ballot (← onFirst (InPlace.cast stage voter approve attestation now))
  | .close stage => do return .outcome (← onFirst (InPlace.close c stage now))
  | .challenge _ => do
    onFirst (InPlace.challenge now)
    return .done
  | .advance => do
    onFirst (InPlace.advance c now)
    return .status (← get).1.status
  | .startCoolingOff => do return .window (← onFirst (InPlace.startCoolingOff c now))
  | .withdraw caller => do
    onFirst (InPlace.withdraw caller now)
    return .done
  | .apply live => fun s =>
    match InPlace.apply now (s.1, live) with
    | .ok _ (q, written) => .ok (.live written) (q, some written)
    | .error f (q, touched) => .error f (q, some touched)

end Charter
