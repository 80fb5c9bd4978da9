import Charter.Docket.Basic

/-! # Changes of phase

A new phase gives every chamber a new composition. Votes in which somebody has voted go on as they
began; a proposal whose open chamber holds no ballot starts over. -/

namespace Charter

structure PhaseReport where
  previous : String
  next : String
  /-- The proposals that start over, with the chamber that was open. -/
  reset : List (UInt64 × Chamber)
  /-- The proposals whose open chamber goes on. -/
  retained : List (UInt64 × Chamber)
deriving DecidableEq, Repr

namespace Docket

def phaseEvents (phase : Phase) (p : Proposal) (now : Instant) : List Event :=
  match p.disposition with
  | .reset c =>
    (Happening.phaseReset c phase.name :: Event.ofStatus p.status .proposed).map
      (fun h => ⟨p.id, h, .proposed, now⟩)
  | _ => []

def phaseReport (previous next : Phase) (proposals : List Proposal) : PhaseReport where
  previous := previous.name
  next := next.name
  reset := proposals.filterMap (fun p => match p.disposition with
    | .reset c => some (p.id, c)
    | _ => none)
  retained := proposals.filterMap (fun p => match p.disposition with
    | .retained c => some (p.id, c)
    | _ => none)

/-- Puts a sound phase in force. -/
def changePhase (d : Docket) (phase : Phase) (now : Instant) :
    Except Fault (Docket × PhaseReport) :=
  match Constitution.checkPhase d.constitution.diversity phase with
  | some flaw => .error (.invalid (.phase flaw))
  | none =>
    .ok ({ d with
        constitution := { d.constitution with phase := phase }
        proposals := d.proposals.map (fun e => (e.1, e.2.underNewPhase))
        events := d.events ++ d.proposals.values.flatMap (fun p => phaseEvents phase p now) },
      phaseReport d.constitution.phase phase d.proposals.values)

end Docket

end Charter
