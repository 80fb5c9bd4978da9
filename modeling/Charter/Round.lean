import Charter.Calendar.Instant
import Charter.Digest.Basic
import Charter.Status
import Charter.Table

/-! # Rounds

A round is one vote of one panel: the composition in force when the panel was selected, its members
with the region and organization each is seated under, the ballots so far, and the time in which
they may be cast. -/

namespace Charter

abbrev VoterId := String

structure Affiliation where
  region : String
  organization : String
deriving DecidableEq, Repr

/-- A row of the roster. -/
structure Voter where
  id : VoterId
  affiliation : Affiliation
deriving DecidableEq, Repr

/-- The seats of a panel, and the YES votes with which it passes a proposal. -/
structure Composition where
  panelSize : UInt64
  passThreshold : UInt64
deriving DecidableEq, Repr

structure Ballot where
  id : Digest
  voter : VoterId
  stage : Stage
  /-- YES or NO. -/
  approve : Bool
  /-- The voter's statement to have reviewed the proposal. -/
  attestation : String
  castAt : Instant
  /-- The affiliation of the voter's seat. -/
  affiliation : Affiliation
deriving DecidableEq, Repr

namespace Ballot

def textBytes (s : String) : List UInt8 := s.toUTF8.data.toList

/-- The eight bytes of a word, the lowest first. -/
def wordBytes (w : UInt64) : List UInt8 :=
  [w.toUInt8, (w >>> 8).toUInt8, (w >>> 16).toUInt8, (w >>> 24).toUInt8,
    (w >>> 32).toUInt8, (w >>> 40).toUInt8, (w >>> 48).toUInt8, (w >>> 56).toUInt8]

/-- The bytes that name a ballot: the proposal, the stage, a zero and the voter. -/
def nameBytes (proposal : UInt64) (stage : Stage) (voter : VoterId) : List UInt8 :=
  wordBytes proposal ++ textBytes stage.name ++ 0 :: textBytes voter

def identity (proposal : UInt64) (stage : Stage) (voter : VoterId) : Digest :=
  Digest.ofBytes (nameBytes proposal stage voter)

end Ballot

structure Tally where
  yes : Nat
  no : Nat
  seats : Nat
deriving DecidableEq, Repr

namespace Tally

/-- Products are compared up to the largest word of 64 bits; beyond it they stay there. -/
def saturate (n : Nat) : Nat := min n (UInt64.size - 1)

def total (t : Tally) : Nat := t.yes + t.no

def ParticipationReaches (t : Tally) (percent : Nat) : Prop :=
  saturate (t.seats * percent) ≤ saturate (t.total * 100)

/-- Somebody voted, and the YES votes are at least this percentage of the votes cast. -/
def YesShareReaches (t : Tally) (percent : Nat) : Prop :=
  0 < t.total ∧ saturate (t.total * percent) ≤ saturate (t.yes * 100)

instance (t : Tally) (p : Nat) : Decidable (t.ParticipationReaches p) :=
  inferInstanceAs (Decidable (_ ≤ _))
instance (t : Tally) (p : Nat) : Decidable (t.YesShareReaches p) :=
  inferInstanceAs (Decidable (_ ∧ _))

def participation (t : Tally) : Nat := if t.seats = 0 then 0 else saturate (t.total * 100) / t.seats

end Tally

structure Round where
  composition : Composition
  /-- The members in the order in which they were seated. -/
  panel : List VoterId
  /-- The affiliation each member is seated under. -/
  affiliations : Table VoterId Affiliation
  /-- The ballots in the order in which they were cast. -/
  ballots : List Ballot
  openedAt : Instant
  deadline : Instant
deriving DecidableEq, Repr

inductive Outcome where
  | lapsed
  | rejected
  | passed
deriving DecidableEq, Repr

structure Thresholds where
  supermajority : UInt8
  entrenchedParticipation : UInt8
  lapseParticipation : UInt8
deriving DecidableEq, Repr

namespace Round

def ofMembers (composition : Composition) (members : List Voter) (openedAt deadline : Instant) :
    Round where
  composition := composition
  panel := members.map Voter.id
  affiliations := Table.ofList (members.map (fun v => (v.id, v.affiliation)))
  ballots := []
  openedAt := openedAt
  deadline := deadline

def IsMember (r : Round) (v : VoterId) : Prop := v ∈ r.panel

def HasVoted (r : Round) (v : VoterId) : Prop := ∃ b ∈ r.ballots, b.voter = v

def DeadlinePassed (r : Round) (now : Instant) : Prop := r.deadline ≤ now

instance (r : Round) (v : VoterId) : Decidable (r.IsMember v) := inferInstanceAs (Decidable (_ ∈ _))
instance (r : Round) (v : VoterId) : Decidable (r.HasVoted v) :=
  inferInstanceAs (Decidable (∃ b ∈ _, _))
instance (r : Round) (t : Instant) : Decidable (r.DeadlinePassed t) :=
  inferInstanceAs (Decidable (_ ≤ _))

def affiliation? (r : Round) (v : VoterId) : Option Affiliation := r.affiliations.get? v

def tally (r : Round) : Tally where
  yes := r.ballots.countP (fun b => b.approve)
  no := r.ballots.countP (fun b => !b.approve)
  seats := r.panel.length

/-- The conditions under which a round passes. Entrenched rounds ask for participation and a
supermajority besides the YES votes that the composition asks for. -/
def Passes (r : Round) (t : Thresholds) (entrenched : Bool) : Prop :=
  r.composition.passThreshold.toNat ≤ r.tally.yes ∧
  (entrenched = true →
    r.tally.ParticipationReaches t.entrenchedParticipation.toNat ∧
      r.tally.YesShareReaches t.supermajority.toNat)

instance (r : Round) (t : Thresholds) (b : Bool) : Decidable (r.Passes t b) :=
  inferInstanceAs (Decidable (_ ∧ (_ → _)))

/-- Decides a round. After the deadline a round in which too few took part lapses, whatever the
votes. -/
def decide (r : Round) (t : Thresholds) (entrenched : Bool) (now : Instant) : Outcome :=
  if r.DeadlinePassed now ∧ ¬r.tally.ParticipationReaches t.lapseParticipation.toNat then .lapsed
  else if r.Passes t entrenched then .passed
  else .rejected

end Round

end Charter
