/-! # Dates

Dates of the Gregorian calendar, extended to all years, and their numbers: the days since 1 January
1970. A year is counted from March, so that the leap day is its last; four hundred such years have
146097 days, a century of them 36524 and the fourth one more, four years 1461 days except at the end
of most centuries. -/

namespace Charter

structure Date where
  year : Int
  month : Nat
  day : Nat
deriving DecidableEq, Repr

namespace Date

def IsLeap (year : Int) : Prop := year % 4 = 0 ∧ (year % 100 ≠ 0 ∨ year % 400 = 0)

instance (year : Int) : Decidable (IsLeap year) := inferInstanceAs (Decidable (_ ∧ _))

def daysInMonth (year : Int) (month : Nat) : Nat :=
  if month = 2 then (if IsLeap year then 29 else 28)
  else if month = 4 ∨ month = 6 ∨ month = 9 ∨ month = 11 then 30
  else 31

def Valid (d : Date) : Prop :=
  1 ≤ d.month ∧ d.month ≤ 12 ∧ 1 ≤ d.day ∧ d.day ≤ daysInMonth d.year d.month

instance (d : Date) : Decidable d.Valid := inferInstanceAs (Decidable (_ ∧ _))

/-- The number of the day from 1 March of the year zero to 1 January 1970. -/
def epoch : Int := 719468

def toNumber (d : Date) : Int :=
  let year := if d.month ≤ 2 then d.year - 1 else d.year
  let month : Int := if d.month ≤ 2 then d.month + 9 else d.month - 3
  365 * year + year / 4 - year / 100 + year / 400 + (153 * month + 2) / 5 + d.day - 1 - epoch

def ofNumber (n : Int) : Date :=
  let n := n + epoch
  let cycle := n / 146097
  let n := n % 146097
  let century := min (n / 36524) 3
  let n := n - 36524 * century
  let four := n / 1461
  let n := n % 1461
  let one := min (n / 365) 3
  let n := n - 365 * one
  let year := 400 * cycle + 100 * century + 4 * four + one
  let month := (5 * n + 2) / 153
  let day := n - (153 * month + 2) / 5 + 1
  if month < 10 then ⟨year, (month + 3).toNat, day.toNat⟩ else
    ⟨year + 1, (month - 9).toNat, day.toNat⟩

end Date

end Charter
