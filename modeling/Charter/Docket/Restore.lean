import Charter.Record.Load

/-! # Keeping a docket

A docket is kept as the records of its proposals by number. It is restored from records in any
order; the events that nobody had taken are not kept. -/

namespace Charter.Docket

def records (d : Docket) : List Record := d.proposals.values.map Record.ofProposal

/-- Takes a proposal in under its number, which must be free and have a successor. -/
def enroll (d : Docket) (p : Proposal) : Except Record.Refusal Docket := do
  require ((d.get? p.id).isNone = true) (.repeatedId p.id)
  require (p.id.toNat + 1 < UInt64.size) (.malformed p.id .lastId)
  return { d with proposals := d.proposals.insert p.id p, nextId := max d.nextId (p.id + 1) }

def enrollAll : Docket → List Record → Except Record.Refusal Docket
  | d, [] => .ok d
  | d, r :: rest => do
    let p ← r.toProposal
    let d ← d.enroll p
    enrollAll d rest

def restore (c : Constitution) (records : List Record) : Except Record.Refusal Docket :=
  match create c with
  | .error flaw => .error (.flawed flaw)
  | .ok d => enrollAll d records

end Charter.Docket
