import Charter.Event

/-! # The docket

All proposals under one constitution, by number, with the number of the next one and the events that
nobody has taken yet. An operation on a proposal counts only as a whole: a refused one leaves the
docket as it was. -/

namespace Charter

structure Docket where
  constitution : Constitution
  proposals : Table UInt64 Proposal
  nextId : UInt64
  /-- The events not taken yet, the first first. -/
  events : List Event
deriving DecidableEq, Repr

namespace Docket

def empty (c : Constitution) : Docket := ⟨c, [], 1, []⟩

def create (c : Constitution) : Except Constitution.Flaw Docket :=
  match c.check with
  | some flaw => .error flaw
  | none => .ok (empty c)

def get? (d : Docket) (id : UInt64) : Option Proposal := d.proposals.get? id

def withStatus (d : Docket) (s : Status) : List Proposal :=
  d.proposals.values.filter (fun p => p.status = s)

def active (d : Docket) : List Proposal := d.proposals.values.filter (fun p => !p.status.isTerminal)

def drain (d : Docket) : Docket × List Event := ({ d with events := [] }, d.events)

def checkProvision (c : Constitution) (key : String) : Except Fault Unit := do
  require (key ≠ "") (.invalid .emptyKey)
  require (∀ s ∈ Text.segments key, ¬Text.isEmptyText s) (.invalid (.emptySegment key))
  require (¬c.IsFormulaOnly key) (.invalid (.formulaOnly key))

/-- Submits a proposal. The provision stands in the live configuration under its name without blanks
around it. -/
def propose (d : Docket) (proposer : VoterId) (provision : String) (current proposed : Json)
    (justification : String) (now : Instant) : Except Fault (Docket × UInt64) := do
  let key := Text.trim provision
  checkProvision d.constitution key
  require (¬Text.isEmptyText justification) (.invalid .emptyJustification)
  require (current.same proposed = false) (.invalid .sameValue)
  require (d.nextId.toNat + 1 < UInt64.size) (.invalid .idsExhausted)
  let id := d.nextId
  let entrenched := decide (d.constitution.IsEntrenched key)
  let p :=
    Proposal.submitted id proposer key current proposed (Text.trim justification) entrenched now
  let event : Event := ⟨id, .proposed proposer key entrenched, .proposed, now⟩
  return ({ d with
    proposals := d.proposals.insert id p, nextId := id + 1, events := d.events ++ [event] }, id)

def operate (d : Docket) (id : UInt64) (op : Operation) (now : Instant) :
    Except Fault (Docket × Reply) := do
  let p ← demand (d.get? id) (.unknownProposal id)
  let a := p.perform d.constitution op now
  let reply ← a.result
  let events := Event.ofOperation op reply p a.proposal now
  return ({ d with
    proposals := d.proposals.insert id a.proposal, events := d.events ++ events }, reply)

def checkApplication (d : Docket) (id : UInt64) : Except Fault Unit := do
  let p ← demand (d.get? id) (.unknownProposal id)
  p.checkApplication

end Docket

end Charter
