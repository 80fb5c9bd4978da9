import Charter.Calendar.Date

/-! # Instants

Points in universal time, to the nanosecond, from the start of the year -262143 to the end of the
year 262142. There is no instant outside, so moving by days may fail. -/

namespace Charter

structure Instant where
  nanos : Int
  /-- The point lies within the calendar. -/
  inCalendar : -96465292 * 86400000000000 ≤ nanos ∧ nanos < 95026237 * 86400000000000
deriving DecidableEq, Repr

namespace Instant

def nanosPerDay : Int := 86400000000000

/-- The instant with this many nanoseconds since the start of 1970, if the calendar has it. -/
def ofNanos? (nanos : Int) : Option Instant :=
  if h : -96465292 * 86400000000000 ≤ nanos ∧ nanos < 95026237 * 86400000000000 then
    some ⟨nanos, h⟩
  else none

/-- The first day of the calendar is 1 January -262143, the last 31 December 262142. -/
example : Date.ofNumber (-96465292) = ⟨-262143, 1, 1⟩ ∧
    Date.ofNumber 95026236 = ⟨262142, 12, 31⟩ := by decide

instance : LE Instant := ⟨fun s t => s.nanos ≤ t.nanos⟩
instance : LT Instant := ⟨fun s t => s.nanos < t.nanos⟩
instance (s t : Instant) : Decidable (s ≤ t) := inferInstanceAs (Decidable (s.nanos ≤ t.nanos))
instance (s t : Instant) : Decidable (s < t) := inferInstanceAs (Decidable (s.nanos < t.nanos))

def addDays? (t : Instant) (days : Nat) : Option Instant := ofNanos? (t.nanos + days * nanosPerDay)

def date (t : Instant) : Date := Date.ofNumber (t.nanos / nanosPerDay)

/-- The nanoseconds since the start of the day. -/
def ofDay (t : Instant) : Nat := (t.nanos % nanosPerDay).toNat

end Instant

end Charter
