/-! # Chambers, stages and statuses

Three chambers may vote on a proposal, and a fourth stage confirms a change to an entrenched
provision. The status of a proposal moves along a graph with two pathways: the standard one ends in
confirmation after the challenge window, the entrenched one passes through a cooling-off period and
a confirmation vote first. -/

namespace Charter

/-- The bodies that vote on a proposal in turn. The third meets only if the ratified change is
challenged. -/
inductive Chamber where
  | proposal
  | ratification
  | challenge
deriving DecidableEq, Repr

inductive Stage where
  | proposal
  | ratification
  | challenge
  | confirmation
deriving DecidableEq, Repr

inductive Status where
  /-- Submitted; no panel has been selected. -/
  | proposed
  /-- The proposal chamber votes. -/
  | proposalVoting
  /-- The ratification chamber is convened or votes. -/
  | ratificationVoting
  /-- Ratified, and open to challenge. -/
  | challengeWindow
  /-- Challenged: the challenge chamber is convened or votes. -/
  | challengeVoting
  /-- A change to an entrenched provision waits. -/
  | coolingOff
  /-- The confirmation panel votes. -/
  | confirmationVote
  /-- Every stage has been passed. -/
  | confirmed
  /-- Written into the live configuration. -/
  | applied
  /-- Voted down. -/
  | rejected
  /-- A deadline passed without enough participation. -/
  | lapsed
  /-- Taken back by the proposer before any vote. -/
  | withdrawn
deriving DecidableEq, Repr

namespace Stage

def all : List Stage := [proposal, ratification, challenge, confirmation]

def name : Stage → String
  | proposal => "proposal"
  | ratification => "ratification"
  | challenge => "challenge"
  | confirmation => "confirmation"

def chamber? : Stage → Option Chamber
  | proposal => some .proposal
  | ratification => some .ratification
  | challenge => some .challenge
  | confirmation => none

def votingStatus : Stage → Status
  | proposal => .proposalVoting
  | ratification => .ratificationVoting
  | challenge => .challengeVoting
  | confirmation => .confirmationVote

/-- The status in which the panel for this vote is selected. -/
def selectionStatus : Stage → Status
  | proposal => .proposed
  | ratification => .ratificationVoting
  | challenge => .challengeVoting
  | confirmation => .coolingOff

end Stage

namespace Chamber

def all : List Chamber := [proposal, ratification, challenge]

def stage : Chamber → Stage
  | proposal => .proposal
  | ratification => .ratification
  | challenge => .challenge

def name (c : Chamber) : String := c.stage.name

def votingStatus (c : Chamber) : Status := c.stage.votingStatus

end Chamber

namespace Status

def all : List Status :=
  [proposed, proposalVoting, ratificationVoting, challengeWindow, challengeVoting, coolingOff,
    confirmationVote, confirmed, applied, rejected, lapsed, withdrawn]

def name : Status → String
  | proposed => "proposed"
  | proposalVoting => "proposal_chamber_voting"
  | ratificationVoting => "ratification_chamber_voting"
  | challengeWindow => "challenge_window"
  | challengeVoting => "challenge_chamber_voting"
  | coolingOff => "cooling_off"
  | confirmationVote => "confirmation_vote"
  | confirmed => "confirmed"
  | applied => "applied"
  | rejected => "rejected"
  | lapsed => "lapsed"
  | withdrawn => "withdrawn"

def isTerminal : Status → Bool
  | applied | rejected | lapsed | withdrawn => true
  | _ => false

def openChamber? : Status → Option Chamber
  | proposalVoting => some .proposal
  | ratificationVoting => some .ratification
  | challengeVoting => some .challenge
  | _ => none

/-- The status may be followed by another one, on the entrenched or the standard pathway. -/
def leadsTo (entrenched : Bool) : Status → Status → Bool
  | proposed, proposalVoting => true
  | proposed, withdrawn => true
  | proposalVoting, ratificationVoting => true
  | proposalVoting, rejected => true
  | proposalVoting, lapsed => true
  | proposalVoting, withdrawn => true
  | ratificationVoting, challengeWindow => true
  | ratificationVoting, rejected => true
  | ratificationVoting, lapsed => true
  | challengeWindow, challengeVoting => true
  | challengeWindow, coolingOff => entrenched
  | challengeWindow, confirmed => !entrenched
  | challengeVoting, coolingOff => entrenched
  | challengeVoting, confirmed => !entrenched
  | challengeVoting, rejected => true
  | challengeVoting, lapsed => true
  | coolingOff, confirmationVote => entrenched
  | confirmationVote, confirmed => entrenched
  | confirmationVote, rejected => entrenched
  | confirmationVote, lapsed => entrenched
  | confirmed, applied => true
  | _, _ => false

theorem not_leadsTo_of_isTerminal {s : Status} (h : s.isTerminal = true) (b : Bool) (t : Status) :
    leadsTo b s t = false := by
  cases s <;> cases t <;> simp_all [isTerminal, leadsTo]

end Status

end Charter
