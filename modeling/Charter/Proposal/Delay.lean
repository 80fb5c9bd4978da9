import Charter.Proposal.Attempt

/-! # Delays

The two spans of time behind a ratification: the challenge window, in which the change may be called
before a third chamber, and the cooling-off window of a change to an entrenched provision. Nothing
shortens or restarts a window. -/

namespace Charter

/-- The instant at which a window ends that starts now, if the calendar has it. -/
def windowEnd (now : Instant) (days : UInt32) : Except Fault Instant :=
  demand (now.addDays? days.toNat) (.invalid (.windowPastCalendar days.toNat now))

namespace Proposal

def openChallenge (c : Constitution) (p : Proposal) (now : Instant) : Except Fault Proposal := do
  let closesAt ← windowEnd now c.timing.challengeWindow
  let q ← p.moveTo .challengeWindow now
  return { q with challengeClosesAt := some closesAt }

/-- Calls a ratified change before the challenge chamber, while the challenge window is open. -/
def challenge (p : Proposal) (now : Instant) : Except Fault Proposal := do
  p.expect .challengeWindow
  match p.challengeClosesAt with
  | some t => require (now < t) (.mismatch (.challengeClosed t))
  | none => pure ()
  let q ← p.moveTo .challengeVoting now
  return { q with challengeFiled := true, rounds := q.rounds.set .challenge none }

def startCoolingOff (c : Constitution) (p : Proposal) (now : Instant) :
    Except Fault (Proposal × Window) := do
  p.expect .coolingOff
  let track ← demand p.track (.mismatch .standard)
  match track.window? with
  | some w => throw (.mismatch (.coolingOffRunning w.endsAt))
  | none => pure ()
  let endsAt ← windowEnd now c.timing.coolingOff
  let w : Window := ⟨now, endsAt⟩
  return ({ p with track := some (.coolingOff w) }, w)

/-- Leaves the challenge stage: a standard change is confirmed, an entrenched one enters its
cooling-off and then starts the window. -/
def leaveChallenge (c : Constitution) (p : Proposal) (now : Instant) : Attempt Unit :=
  if p.isEntrenched then
    (Attempt.ofStep p (p.moveTo .coolingOff now)).andThen
      (fun q => (Attempt.ofExcept q (q.startCoolingOff c now)).map (fun _ => ()))
  else Attempt.ofStep p (p.moveTo .confirmed now)

def checkUnchallenged (p : Proposal) (now : Instant) : Except Fault Unit := do
  p.expect .challengeWindow
  match p.challengeClosesAt with
  | some t => require (t ≤ now) (.mismatch (.challengeOpen t))
  | none => pure ()

def advance (c : Constitution) (p : Proposal) (now : Instant) : Attempt Unit :=
  match p.checkUnchallenged now with
  | .error f => Attempt.refused p f
  | .ok _ => p.leaveChallenge c now

end Proposal

end Charter
