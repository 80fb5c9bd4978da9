import Charter.Docket.PhaseChange

/-! # Runs of a docket

Everything that a caller can ask of a docket, as data, and what comes of a sequence of requests. -/

namespace Charter

inductive Action where
  | propose (proposer : VoterId) (provision : String) (current proposed : Json)
      (justification : String)
  | operate (id : UInt64) (op : Operation)
  | changePhase (phase : Phase)
  /-- Takes the queued events. -/
  | drain
deriving DecidableEq, Repr

inductive Answer where
  | proposed (id : UInt64)
  | operated (reply : Reply)
  | phaseChanged (report : PhaseReport)
  | drained (events : List Event)
deriving DecidableEq, Repr

namespace Docket

def perform (d : Docket) (a : Action) (now : Instant) : Except Fault (Docket × Answer) :=
  match a with
  | .propose proposer provision current proposed justification =>
    (d.propose proposer provision current proposed justification now).map
      (fun r => (r.1, .proposed r.2))
  | .operate id op => (d.operate id op now).map (fun r => (r.1, .operated r.2))
  | .changePhase phase => (d.changePhase phase now).map (fun r => (r.1, .phaseChanged r.2))
  | .drain => .ok (d.drain.1, .drained d.drain.2)

/-- The answer to a request and the docket afterwards, which is the same as before if the request
was refused. -/
def step (d : Docket) (a : Action) (now : Instant) : Docket × Except Fault Answer :=
  match d.perform a now with
  | .ok (e, answer) => (e, .ok answer)
  | .error f => (d, .error f)

def run (d : Docket) : List (Action × Instant) → Docket
  | [] => d
  | (a, now) :: rest => run (d.step a now).1 rest

def answers (d : Docket) : List (Action × Instant) → List (Except Fault Answer)
  | [] => []
  | (a, now) :: rest => (d.step a now).2 :: answers (d.step a now).1 rest

end Docket

end Charter
