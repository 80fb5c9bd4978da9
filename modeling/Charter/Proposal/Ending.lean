import Charter.Proposal.Basic
import Charter.Provision

/-! # Endings

How a proposal leaves the pathway by other ways than a vote: its proposer takes it back, a new phase
sends it to the start, or it is written into the live configuration. Only this last step touches the
live configuration, so it asks again for every stage that the proposal should have passed. -/

namespace Charter.Proposal

/-- Nobody has voted on the proposal yet, as withdrawal asks. -/
def checkUnvoted (p : Proposal) : Except Fault Unit :=
  match p.status with
  | .proposed => .ok ()
  | .proposalVoting => require (p.votesCast = 0) (.mismatch (.votesCast p.votesCast))
  | s => .error (.mismatch (.pastWithdrawal s))

def withdraw (p : Proposal) (caller : VoterId) (now : Instant) : Except Fault Proposal := do
  require (caller = p.proposer) .notProposer
  p.checkUnvoted
  p.moveTo .withdrawn now

inductive Disposition where
  /-- Sent back to the start, from a chamber in which nobody had voted. -/
  | reset (chamber : Chamber)
  /-- Left to finish its vote under the old phase. -/
  | retained (chamber : Chamber)
  | untouched
deriving DecidableEq, Repr

def restarted (p : Proposal) : Proposal :=
  { p with
    rounds := Rounds.empty, challengeFiled := false, challengeClosesAt := none,
    status := .proposed }

def disposition (p : Proposal) : Disposition :=
  match p.status.openChamber? with
  | none => .untouched
  | some c => if p.ballots c.stage = [] then .reset c else .retained c

/-- The proposal under a new phase. This is the only way back. -/
def underNewPhase (p : Proposal) : Proposal :=
  match p.disposition with
  | .reset _ => p.restarted
  | _ => p

def demandStage (p : Proposal) (c : Prop) [Decidable c] (v : Violation) : Except Fault Unit :=
  require c (.violation p.id v)

def checkApplication (p : Proposal) : Except Fault Unit := do
  p.demandStage (p.status = .confirmed) (.unconfirmed p.status)
  p.demandStage (p.ballots .proposal ≠ []) (.noVotes .proposal)
  p.demandStage (p.ballots .ratification ≠ []) (.noVotes .ratification)
  p.demandStage (p.isEntrenched = true → p.coolingOff?.isSome = true) .noCoolingOff
  p.demandStage (p.isEntrenched = true → p.ballots .confirmation ≠ []) .noConfirmation

def apply (p : Proposal) (live : Json) (now : Instant) : Except Fault (Proposal × Json) := do
  p.checkApplication
  match Provision.barred? live p.provision with
  | some segment => throw (.invalid (.noObject p.provision segment))
  | none => pure ()
  let written ← demand (Provision.write? live p.provision p.proposed)
      (.invalid (.noObject p.provision p.provision))
  let q ← p.moveTo .applied now
  return (q, written)

end Charter.Proposal
