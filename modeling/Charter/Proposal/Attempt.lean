import Charter.Proposal.Basic

/-! # Attempts

What comes of an operation on a proposal: its reply or the fault for which it was refused, and the
proposal afterwards. An operation that checks everything first leaves a refused proposal as it was;
one that moves in two steps leaves the first step behind if the second is refused. -/

namespace Charter

/-- The result of an operation and the proposal afterwards. -/
structure Attempt (α : Type) where
  result : Except Fault α
  proposal : Proposal

namespace Attempt

variable {α β : Type}

def refused (p : Proposal) (f : Fault) : Attempt α := ⟨.error f, p⟩

/-- An operation that changes the proposal and replies, or leaves it alone. -/
def ofExcept (p : Proposal) : Except Fault (Proposal × α) → Attempt α
  | .ok (q, a) => ⟨.ok a, q⟩
  | .error f => refused p f

def ofStep (p : Proposal) : Except Fault Proposal → Attempt Unit
  | .ok q => ⟨.ok (), q⟩
  | .error f => refused p f

def map (g : α → β) (a : Attempt α) : Attempt β := ⟨a.result.map g, a.proposal⟩

/-- Goes on with the proposal as it is now. -/
def andThen (a : Attempt α) (next : Proposal → Attempt β) : Attempt β :=
  match a.result with
  | .ok _ => next a.proposal
  | .error f => refused a.proposal f

/-- The proposal is as before if the operation was refused. -/
def IsAtomic (p : Proposal) (a : Attempt α) : Prop := ∀ f, a.result = .error f → a.proposal = p

theorem isAtomic_refused (p : Proposal) (f : Fault) : IsAtomic p (refused p f : Attempt α) :=
  fun _ _ => rfl

theorem isAtomic_ofExcept (p : Proposal) (x : Except Fault (Proposal × α)) :
    IsAtomic p (ofExcept p x) := by
  intro f h
  cases x with
  | ok q => simp [ofExcept] at h
  | error e => rfl

theorem isAtomic_ofStep (p : Proposal) (x : Except Fault Proposal) : IsAtomic p (ofStep p x) := by
  intro f h
  cases x with
  | ok q => simp [ofStep] at h
  | error e => rfl

theorem isAtomic_map {p : Proposal} {a : Attempt α} (g : α → β) (h : IsAtomic p a) :
    IsAtomic p (a.map g) := by
  intro f hf
  cases hr : a.result with
  | ok x => simp [map, Except.map, hr] at hf
  | error e => exact h e hr

end Attempt

end Charter
