/-! # Checks

An operation that may be refused is a row of checks, each with the reason for which it refuses; the
first that fails decides. -/

namespace Charter

variable {ε α β : Type}

def require (c : Prop) [Decidable c] (fault : ε) : Except ε Unit :=
  if c then .ok () else .error fault

/-- Goes on with what is there and refuses if nothing is. -/
def demand (x : Option α) (fault : ε) : Except ε α :=
  match x with
  | some a => .ok a
  | none => .error fault

theorem require_eq_ok_iff {c : Prop} [Decidable c] {fault : ε} {u : Unit} :
    require c fault = .ok u ↔ c := by
  unfold require
  split <;> simp [*]

theorem require_eq_error_iff {c : Prop} [Decidable c] {fault f : ε} :
    require c fault = .error f ↔ ¬c ∧ fault = f := by
  unfold require
  split <;> simp [*]

theorem demand_eq_ok_iff {x : Option α} {fault : ε} {a : α} :
    demand x fault = .ok a ↔ x = some a := by
  cases x <;> simp [demand]

theorem demand_eq_error_iff {x : Option α} {fault f : ε} :
    demand x fault = .error f ↔ x = none ∧ fault = f := by
  cases x <;> simp [demand]

theorem except_bind_eq_ok_iff {x : Except ε α} {f : α → Except ε β} {b : β} :
    (x >>= f) = .ok b ↔ ∃ a, x = .ok a ∧ f a = .ok b := by
  cases x <;> simp [bind, Except.bind]

theorem except_bind_eq_error_iff {x : Except ε α} {f : α → Except ε β} {fault : ε} :
    (x >>= f) = .error fault ↔ x = .error fault ∨ ∃ a, x = .ok a ∧ f a = .error fault := by
  cases x <;> simp [bind, Except.bind]

theorem except_map_eq_ok_iff {x : Except ε α} {g : α → β} {b : β} :
    x.map g = .ok b ↔ ∃ a, x = .ok a ∧ g a = b := by
  cases x <;> simp [Except.map]

theorem except_map_eq_error_iff {x : Except ε α} {g : α → β} {fault : ε} :
    x.map g = .error fault ↔ x = .error fault := by
  cases x <;> simp [Except.map]

theorem except_toOption_eq_some_iff {x : Except ε α} {a : α} : x.toOption = some a ↔ x = .ok a := by
  cases x <;> simp [Except.toOption]

theorem except_map_bind {γ : Type} {x : Except ε α} {f : α → Except ε β} {g : β → γ} :
    (x >>= f).map g = x >>= fun a => (f a).map g := by
  cases x <;> rfl

theorem except_map_pure {a : α} {g : α → β} : (pure a : Except ε α).map g = pure (g a) := rfl

theorem pure_eq_ok_iff {a b : α} : (pure a : Except ε α) = .ok b ↔ a = b := by
  simp [pure, Except.pure]

theorem throw_eq_ok_iff {fault : ε} {a : α} : (throw fault : Except ε α) = .ok a ↔ False := by
  simp [throw, throwThe, MonadExceptOf.throw]

end Charter
