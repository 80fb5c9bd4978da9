import Charter.Proposal.Operation

/-! # Events

What happens to proposals is queued as events for whoever keeps the books; the docket itself writes
nothing down. -/

namespace Charter

inductive Happening where
  | proposed (proposer : VoterId) (provision : String) (entrenched : Bool)
  | panelSelected (stage : Stage) (size : Nat)
  | voteCast (stage : Stage) (voter : VoterId)
  | challengeFiled (challenger : VoterId)
  | coolingOffStarted (endsAt : Instant)
  | statusChanged (source target : Status)
  /-- Sent back to the start by a new phase. -/
  | phaseReset (chamber : Chamber) (phase : String)
deriving DecidableEq, Repr

/-- A happening, with the status of the proposal after it and the time. -/
structure Event where
  proposal : UInt64
  happening : Happening
  status : Status
  time : Instant
deriving DecidableEq, Repr

namespace Event

/-- The event belongs into the permanent audit: a change was confirmed or applied. -/
def isMilestone (e : Event) : Bool :=
  match e.happening with
  | .statusChanged _ .confirmed => true
  | .statusChanged _ .applied => true
  | _ => false

/-- What an operation itself reports; the other operations show in the status alone. -/
def ofReply (op : Operation) (reply : Reply) : List Happening :=
  match op, reply with
  | .selectPanel stage _, .panel members => [.panelSelected stage members.length]
  | .cast stage voter _ _, .ballot _ => [.voteCast stage voter.id]
  | .challenge challenger, _ => [.challengeFiled challenger]
  | .startCoolingOff, .window w => [.coolingOffStarted w.endsAt]
  | _, _ => []

/-- The start of a cooling-off window that an operation brought along with a new status. -/
def ofWindow (before after : Proposal) : List Happening :=
  if before.coolingOff? = none ∧ after.status = .coolingOff ∧ before.status ≠ after.status then
    (after.coolingOff?.map (fun w => Happening.coolingOffStarted w.endsAt)).toList
  else []

def ofStatus (before after : Status) : List Happening :=
  if before = after then [] else [.statusChanged before after]

def ofOperation (op : Operation) (reply : Reply) (before after : Proposal) (now : Instant) :
    List Event :=
  (ofReply op reply ++ ofWindow before after ++ ofStatus before.status after.status).map
    (fun h => ⟨before.id, h, after.status, now⟩)

end Event

end Charter
