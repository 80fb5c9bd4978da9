import Charter.Calendar.Format
import Charter.Constitution.Basic

/-! # Faults

Why an operation is refused. A fault names its cause; its wording is put together in one place, and
its category tells apart an operation that came at the wrong time, an argument that is unfit, and an
attempt to pass over a stage. -/

namespace Charter

/-- An argument that no state of the docket would accept. -/
inductive Invalidity where
  | emptyAttestation
  /-- A window of so many days from this instant would end outside the calendar. -/
  | windowPastCalendar (days : Nat) (start : Instant)
  | emptyKey
  | emptySegment (key : String)
  | formulaOnly (key : String)
  | emptyJustification
  | sameValue
  | idsExhausted
  /-- The way of a provision into the live configuration is barred at this segment. -/
  | noObject (key segment : String)
  | phase (flaw : Constitution.Flaw)
deriving DecidableEq, Repr

/-- A proposal that is not in the state an operation asks for. -/
inductive Mismatch where
  | status (expected actual : Status)
  /-- No edge of the pathway leads from one status to the other. -/
  | noEdge (source target : Status)
  | challengeClosed (since : Instant)
  | challengeOpen (limit : Instant)
  | standard
  | coolingOffRunning (limit : Instant)
  | noCoolingOff
  | coolingOffUnfinished (limit : Instant)
  | votesCast (count : Nat)
  | pastWithdrawal (actual : Status)
deriving DecidableEq, Repr

/-- A stage that a proposal passed over. -/
inductive Violation where
  | unconfirmed (status : Status)
  | noVotes (chamber : Chamber)
  | noCoolingOff
  | noConfirmation
deriving DecidableEq, Repr

inductive Fault where
  | unknownProposal (id : UInt64)
  | invalid (cause : Invalidity)
  | mismatch (cause : Mismatch)
  | alreadyVoted (voter : VoterId) (stage : Stage)
  | notSeated (voter : VoterId) (stage : Stage)
  /-- Only the proposer may take a proposal back. -/
  | notProposer
  | votingClosed (stage : Stage)
  | panelSelected (stage : Stage)
  | panelMissing (stage : Stage)
  | noPanel (cause : PanelFault)
  | violation (id : UInt64) (cause : Violation)
deriving DecidableEq, Repr

def Invalidity.message : Invalidity → String
  | .emptyAttestation => "attestation must not be empty"
  | .windowPastCalendar days start =>
    s!"a {days} day window from {start.display} ends past the supported time range"
  | .emptyKey => "provision key must not be empty"
  | .emptySegment key => s!"provision key '{key}' has an empty segment"
  | .formulaOnly key => s!"'{key}' is formula-determined, not ballot-amendable"
  | .emptyJustification => "justification must not be empty"
  | .sameValue => "proposed value is identical to the current value"
  | .idsExhausted => "proposal id space exhausted"
  | .noObject key segment => s!"cannot write {key}: '{segment}' is not an object"
  | .phase flaw => flaw.message

def Mismatch.expected : Mismatch → String
  | .status expected _ => expected.name
  | .noEdge source _ => s!"valid transition from {source.name}"
  | .challengeClosed _ => "open challenge window"
  | .challengeOpen _ => "closed challenge window"
  | .standard => "entrenched proposal"
  | .coolingOffRunning _ => "cooling-off not yet started"
  | .noCoolingOff => "recorded cooling-off window"
  | .coolingOffUnfinished _ => "elapsed cooling-off"
  | .votesCast _ => "no votes cast"
  | .pastWithdrawal _ => "proposed or proposal_chamber_voting"

def Mismatch.actual : Mismatch → String
  | .status _ actual => actual.name
  | .noEdge _ target => s!"attempted transition to {target.name}"
  | .challengeClosed since => s!"challenge window closed at {since.display}"
  | .challengeOpen limit => s!"challenge window open until {limit.display}"
  | .standard => "standard proposal"
  | .coolingOffRunning limit => s!"cooling-off running until {limit.display}"
  | .noCoolingOff => "no cooling-off window"
  | .coolingOffUnfinished limit => s!"cooling-off ends at {limit.display}"
  | .votesCast count => s!"{count} votes cast"
  | .pastWithdrawal actual => actual.name

def Violation.message : Violation → String
  | .unconfirmed status => s!"status is {status.name}, only confirmed proposals can be applied"
  | .noVotes chamber => s!"no recorded {chamber.name} chamber votes"
  | .noCoolingOff => "no recorded cooling-off window"
  | .noConfirmation => "no recorded confirmation votes"

namespace Fault

def message : Fault → String
  | .unknownProposal id => s!"Proposal not found: {id}"
  | .invalid cause => s!"Validation error: {cause.message}"
  | .mismatch cause => s!"Invalid state: expected {cause.expected}, got {cause.actual}"
  | .alreadyVoted voter stage => s!"{voter} already voted in the {stage.name} stage"
  | .notSeated voter stage => s!"{voter} is not on the {stage.name} panel"
  | .notProposer => "Only the proposer can withdraw"
  | .votingClosed stage => s!"Voting for the {stage.name} stage has closed"
  | .panelSelected stage => s!"A {stage.name} panel has already been selected"
  | .panelMissing stage => s!"No {stage.name} panel has been selected"
  | .noPanel cause => s!"Panel selection failed: {cause.message}"
  | .violation id cause => s!"Constitutional violation on proposal {id}: {cause.message}"

inductive Category where
  /-- The operation came at the wrong time or from the wrong voter. -/
  | state
  /-- An argument is unfit. -/
  | validation
  /-- The operation would pass over a stage. -/
  | violation
  | other
deriving DecidableEq, Repr

def category : Fault → Category
  | .mismatch _ | .alreadyVoted _ _ | .notSeated _ _ | .notProposer | .votingClosed _ |
      .panelSelected _
  | .panelMissing _ => .state
  | .invalid _ => .validation
  | .violation _ _ => .violation
  | .unknownProposal _ | .noPanel _ => .other

end Fault

end Charter
