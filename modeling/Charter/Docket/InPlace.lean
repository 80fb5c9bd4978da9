import Charter.Docket.Action
import Charter.Proposal.InPlace

/-! # Requests in place

The requests as they work on a docket and on the live configuration that comes with them. An
operation is done to a copy of the proposal, which takes the proposal's place when it is through;
everything else is changed where it stands. -/

namespace Charter

namespace InPlace

variable {α : Type}

/-- Works on a copy of a proposal, but on the live configuration itself. -/
def onCopy (p : Proposal) (x : InPlace (Proposal × Option Json) α) :
    InPlace (Docket × Option Json) (α × Proposal) := fun s =>
  match x (p, s.2) with
  | .ok a t => .ok (a, t.1) (s.1, t.2)
  | .error f t => .error f (s.1, t.2)

def queue (events : List Event) : InPlace Docket Unit :=
  modify (fun d => { d with events := d.events ++ events })

def propose (proposer : VoterId) (provision : String) (current proposed : Json)
    (justification : String) (now : Instant) :
    InPlace Docket UInt64 := do
  let d ← get
  let key := Text.trim provision
  ask (Docket.checkProvision d.constitution key)
  ask (require (¬Text.isEmptyText justification) (.invalid .emptyJustification))
  ask (require (current.same proposed = false) (.invalid .sameValue))
  let entrenched := decide (d.constitution.IsEntrenched key)
  let id := d.nextId
  ask (require (id.toNat + 1 < UInt64.size) (.invalid .idsExhausted))
  modify (fun d => { d with nextId := id + 1 })
  let p :=
    Proposal.submitted id proposer key current proposed (Text.trim justification) entrenched now
  modify (fun d => { d with proposals := d.proposals.insert id p })
  queue [⟨id, .proposed proposer key entrenched, .proposed, now⟩]
  return id

def report (id : UInt64) (status : Status) (now : Instant) (happenings : List Happening) :
    InPlace (Docket × Option Json) Unit :=
  onFirst (queue (happenings.map (fun h => ⟨id, h, status, now⟩)))

def operate (id : UInt64) (op : Operation) (now : Instant) :
    InPlace (Docket × Option Json) Reply := do
  let s ← get
  let p ← ask (demand (s.1.get? id) (.unknownProposal id))
  let r ← onCopy p (op.inPlace s.1.constitution now)
  report id r.2.status now (Event.ofReply op r.1)
  report id r.2.status now (Event.ofWindow p r.2)
  report id r.2.status now (Event.ofStatus p.status r.2.status)
  onFirst (modify (fun d => { d with proposals := d.proposals.insert id r.2 }))
  return r.1

def renew (phase : Phase) (now : Instant) (renewed : Table UInt64 Proposal) :
    Table UInt64 Proposal → InPlace Docket Unit
  | [] => pure ()
  | (id, p) :: rest => do
    modify (fun d => { d with proposals := renewed ++ (id, p.underNewPhase) :: rest })
    queue (Docket.phaseEvents phase p now)
    renew phase now (renewed ++ [(id, p.underNewPhase)]) rest

def changePhase (phase : Phase) (now : Instant) : InPlace Docket PhaseReport := do
  let d ← get
  match Constitution.checkPhase d.constitution.diversity phase with
  | some flaw => throw (.invalid (.phase flaw))
  | none => pure ()
  renew phase now [] d.proposals
  modify (fun d => { d with constitution := { d.constitution with phase := phase } })
  return Docket.phaseReport d.constitution.phase phase d.proposals.values

def drain : InPlace Docket (List Event) := do
  let d ← get
  set { d with events := [] }
  return d.events

end InPlace

def Action.live? : Action → Option Json
  | .operate _ op => op.live?
  | _ => none

def Answer.live? : Answer → Option Json
  | .operated reply => reply.live?
  | _ => none

open InPlace in
/-- A request to a docket, with the live configuration that comes with it. -/
def Action.inPlace (now : Instant) : Action → InPlace (Docket × Option Json) Answer
  | .propose proposer provision current proposed justification => do
    return .proposed (← onFirst
      (InPlace.propose proposer provision current proposed justification now))
  | .operate id op => do return .operated (← InPlace.operate id op now)
  | .changePhase phase => do return .phaseChanged (← onFirst (InPlace.changePhase phase now))
  | .drain => do return .drained (← onFirst InPlace.drain)

structure Aftermath where
  docket : Docket
  live : Option Json
  result : Except Fault Answer

def Docket.carryOut (d : Docket) (a : Action) (now : Instant) : Aftermath :=
  match (a.inPlace now).run (d, a.live?) with
  | .ok answer (e, live) => ⟨e, live, .ok answer⟩
  | .error f (e, live) => ⟨e, live, .error f⟩

end Charter
