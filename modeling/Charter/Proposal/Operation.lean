import Charter.Proposal.Ending
import Charter.Proposal.Voting

/-! # Operations

Everything that can be done to one proposal, as data, and one function that does it. -/

namespace Charter

inductive Operation where
  | selectPanel (stage : Stage) (candidates : List Voter)
  | cast (stage : Stage) (voter : Voter) (approve : Bool) (attestation : String)
  | close (stage : Stage)
  | challenge (challenger : VoterId)
  | advance
  | startCoolingOff
  | withdraw (caller : VoterId)
  /-- Writes the proposed value into this live configuration. -/
  | apply (live : Json)
deriving DecidableEq, Repr

inductive Reply where
  | panel (members : List VoterId)
  | ballot (id : Digest)
  | outcome (outcome : Outcome)
  /-- The status to which the proposal has advanced. -/
  | status (status : Status)
  | window (window : Window)
  /-- The live configuration after the application. -/
  | live (live : Json)
  | done
deriving DecidableEq, Repr

def Proposal.perform (c : Constitution) (p : Proposal) (op : Operation) (now : Instant) :
    Attempt Reply :=
  match op with
  | .selectPanel stage candidates =>
    (Attempt.ofExcept p (p.selectPanel c stage candidates now)).map .panel
  | .cast stage voter approve attestation =>
    (Attempt.ofExcept p (p.cast stage voter approve attestation now)).map .ballot
  | .close stage => (p.close c stage now).map .outcome
  | .challenge _ => (Attempt.ofStep p (p.challenge now)).map (fun _ => .done)
  | .advance =>
    let a := p.advance c now
    a.map (fun _ => .status a.proposal.status)
  | .startCoolingOff => (Attempt.ofExcept p (p.startCoolingOff c now)).map .window
  | .withdraw caller => (Attempt.ofStep p (p.withdraw caller now)).map (fun _ => .done)
  | .apply live => (Attempt.ofExcept p (p.apply live now)).map .live

end Charter
