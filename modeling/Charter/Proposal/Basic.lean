import Charter.Check
import Charter.Fault
import Charter.Json.Basic

/-! # Proposals

A proposal asks to change the value of one provision. It carries the rounds of the chambers that
have met and, if the provision was entrenched when it was submitted, the track of the second
pathway: a confirmation round exists only behind a cooling-off window. -/

namespace Charter

structure Window where
  startedAt : Instant
  endsAt : Instant
deriving DecidableEq, Repr

/-- How far a change to an entrenched provision has come after its ratification. -/
inductive Track where
  | awaiting
  | coolingOff (window : Window)
  | confirmation (window : Window) (round : Round)
deriving DecidableEq, Repr

structure Rounds where
  proposal : Option Round
  ratification : Option Round
  challenge : Option Round
deriving DecidableEq, Repr

structure Proposal where
  id : UInt64
  proposer : VoterId
  /-- The dotted name of the provision. -/
  provision : String
  current : Json
  proposed : Json
  justification : String
  status : Status
  createdAt : Instant
  /-- When the proposal was confirmed, or left the pathway unapplied. -/
  decidedAt : Option Instant
  appliedAt : Option Instant
  rounds : Rounds
  challengeFiled : Bool
  /-- When the challenge window closes. -/
  challengeClosesAt : Option Instant
  /-- There is a track exactly if the provision was entrenched at submission. -/
  track : Option Track
deriving DecidableEq, Repr

namespace Rounds

def empty : Rounds := ⟨none, none, none⟩

def get (r : Rounds) : Chamber → Option Round
  | .proposal => r.proposal
  | .ratification => r.ratification
  | .challenge => r.challenge

def set (r : Rounds) (c : Chamber) (x : Option Round) : Rounds :=
  match c with
  | .proposal => { r with proposal := x }
  | .ratification => { r with ratification := x }
  | .challenge => { r with challenge := x }

def toList (r : Rounds) : List (Chamber × Round) :=
  Chamber.all.filterMap (fun c => (r.get c).map (fun x => (c, x)))

theorem get_set (r : Rounds) (c d : Chamber) (x : Option Round) :
    (r.set c x).get d = if d = c then x else r.get d := by
  cases c <;> cases d <;> simp [set, get]

end Rounds

namespace Track

def window? : Track → Option Window
  | awaiting => none
  | coolingOff w => some w
  | confirmation w _ => some w

def round? : Track → Option Round
  | confirmation _ r => some r
  | _ => none

end Track

namespace Proposal

/-- The provision was entrenched when the proposal was submitted. -/
def isEntrenched (p : Proposal) : Bool := p.track.isSome

def coolingOff? (p : Proposal) : Option Window := p.track.bind Track.window?

def round? (p : Proposal) : Stage → Option Round
  | .proposal => p.rounds.proposal
  | .ratification => p.rounds.ratification
  | .challenge => p.rounds.challenge
  | .confirmation => p.track.bind Track.round?

/-- Puts a round in place. A confirmation round goes behind the cooling-off window. -/
def putRound (p : Proposal) (s : Stage) (r : Round) : Proposal :=
  match s with
  | .proposal => { p with rounds := p.rounds.set .proposal (some r) }
  | .ratification => { p with rounds := p.rounds.set .ratification (some r) }
  | .challenge => { p with rounds := p.rounds.set .challenge (some r) }
  | .confirmation =>
    match p.coolingOff? with
    | some w => { p with track := some (.confirmation w r) }
    | none => p

/-- The panel of a vote; nobody sits where there is no round. -/
def panel (p : Proposal) (s : Stage) : List VoterId := ((p.round? s).map Round.panel).getD []

def ballots (p : Proposal) (s : Stage) : List Ballot := ((p.round? s).map Round.ballots).getD []

/-- The vote that the status says is running. -/
def openStage? (p : Proposal) : Option Stage :=
  if p.status = .confirmationVote then some .confirmation else
    p.status.openChamber?.map Chamber.stage

def openRound? (p : Proposal) : Option Round := p.openStage?.bind p.round?

/-- Everybody with a seat on any panel, in the order of the votes. -/
def seated (p : Proposal) : List VoterId := Stage.all.flatMap p.panel

def votesCast (p : Proposal) : Nat := (Stage.all.flatMap p.ballots).length

def expect (p : Proposal) (s : Status) : Except Fault Unit :=
  require (p.status = s) (.mismatch (.status s p.status))

/-- The proposal with the time of its new status noted, if the status is a decision or the
application. -/
def stamp (p : Proposal) (s : Status) (now : Instant) : Proposal :=
  match s with
  | .confirmed | .rejected | .lapsed | .withdrawn => { p with status := s, decidedAt := some now }
  | .applied => { p with status := s, appliedAt := some now }
  | _ => { p with status := s }

/-- Moves along an edge of the proposal's pathway. -/
def moveTo (p : Proposal) (s : Status) (now : Instant) : Except Fault Proposal :=
  if p.status.leadsTo p.isEntrenched s then .ok (p.stamp s now)
  else .error (.mismatch (.noEdge p.status s))

def submitted (id : UInt64) (proposer : VoterId) (provision : String) (current proposed : Json)
    (justification : String) (entrenched : Bool) (now : Instant) : Proposal where
  id := id
  proposer := proposer
  provision := provision
  current := current
  proposed := proposed
  justification := justification
  status := .proposed
  createdAt := now
  decidedAt := none
  appliedAt := none
  rounds := Rounds.empty
  challengeFiled := false
  challengeClosesAt := none
  track := if entrenched then some .awaiting else none

theorem moveTo_eq_ok_iff {p q : Proposal} {s : Status} {now : Instant} :
    p.moveTo s now = .ok q ↔ p.status.leadsTo p.isEntrenched s = true ∧ p.stamp s now = q := by
  unfold moveTo
  split <;> simp [*]

section Fields

variable (p : Proposal) (s : Status) (stage : Stage) (r : Round) (now : Instant)

@[simp] theorem status_stamp : (p.stamp s now).status = s := by cases s <;> rfl

@[simp] theorem id_stamp : (p.stamp s now).id = p.id := by cases s <;> rfl

@[simp] theorem proposer_stamp : (p.stamp s now).proposer = p.proposer := by cases s <;> rfl

@[simp] theorem provision_stamp : (p.stamp s now).provision = p.provision := by cases s <;> rfl

@[simp] theorem rounds_stamp : (p.stamp s now).rounds = p.rounds := by cases s <;> rfl

@[simp] theorem track_stamp : (p.stamp s now).track = p.track := by cases s <;> rfl

@[simp] theorem challengeFiled_stamp : (p.stamp s now).challengeFiled = p.challengeFiled := by
  cases s <;> rfl

@[simp] theorem challengeClosesAt_stamp :
    (p.stamp s now).challengeClosesAt = p.challengeClosesAt := by
  cases s <;> rfl

@[simp] theorem isEntrenched_stamp : (p.stamp s now).isEntrenched = p.isEntrenched := by
  simp [isEntrenched]

@[simp] theorem coolingOff?_stamp : (p.stamp s now).coolingOff? = p.coolingOff? := by
  simp [coolingOff?]

@[simp] theorem round?_stamp : (p.stamp s now).round? stage = p.round? stage := by
  cases stage <;> simp [round?]

/-- Putting a round in place touches nothing but the rounds and the track. -/
theorem putRound_eq : p.putRound stage r =
    { p with rounds := (p.putRound stage r).rounds, track := (p.putRound stage r).track } := by
  cases stage <;> simp only [putRound]
  split <;> rfl

@[simp] theorem status_putRound : (p.putRound stage r).status = p.status := by rw [putRound_eq]

@[simp] theorem id_putRound : (p.putRound stage r).id = p.id := by rw [putRound_eq]

@[simp] theorem proposer_putRound : (p.putRound stage r).proposer = p.proposer := by
  rw [putRound_eq]

@[simp] theorem provision_putRound : (p.putRound stage r).provision = p.provision := by
  rw [putRound_eq]

@[simp] theorem decidedAt_putRound : (p.putRound stage r).decidedAt = p.decidedAt := by
  rw [putRound_eq]

@[simp] theorem appliedAt_putRound : (p.putRound stage r).appliedAt = p.appliedAt := by
  rw [putRound_eq]

@[simp] theorem challengeFiled_putRound :
    (p.putRound stage r).challengeFiled = p.challengeFiled := by
  rw [putRound_eq]

@[simp] theorem challengeClosesAt_putRound :
    (p.putRound stage r).challengeClosesAt = p.challengeClosesAt := by
  rw [putRound_eq]

theorem track_putRound_of_ne (h : stage ≠ .confirmation) :
    (p.putRound stage r).track = p.track := by
  cases stage <;> simp_all [putRound]

@[simp] theorem coolingOff?_putRound : (p.putRound stage r).coolingOff? = p.coolingOff? := by
  cases stage <;> simp only [putRound]
  · rfl
  · rfl
  · rfl
  · cases h : p.coolingOff? with
    | none => exact h
    | some w => rfl

@[simp] theorem isEntrenched_putRound : (p.putRound stage r).isEntrenched = p.isEntrenched := by
  cases stage <;> simp only [putRound]
  · rfl
  · rfl
  · rfl
  · cases h : p.track <;> simp [isEntrenched, coolingOff?, h]
    split <;> simp [h]

/-- The round put in place is found, and the others as before; a confirmation round needs its
window. -/
theorem round?_putRound {p : Proposal} {stage : Stage}
    (h : stage = .confirmation → p.coolingOff?.isSome = true) (r : Round) (t : Stage) :
    (p.putRound stage r).round? t = if t = stage then some r else p.round? t := by
  cases stage <;> cases t <;> simp [putRound, round?, Rounds.set]
  all_goals
    obtain ⟨w, hw⟩ := Option.isSome_iff_exists.mp (h rfl)
    simp [hw, Track.round?]

end Fields

end Proposal

end Charter
