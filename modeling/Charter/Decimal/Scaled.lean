/-! # Scaled significands

Reading a decimal as a binary floating-point number: a significand of at most 64 bits is converted,
then multiplied or divided once by a power of ten. Only below `10 ^ -308` more than one division is
needed. -/

namespace Charter.Decimal

def power (k : Nat) : Float := Float.ofScientific 1 false k

def infinity : Float := 1.0 / 0.0

/-- A number times a power of ten; beyond the range it is infinite or zero. -/
def scale (x : Float) (e : Int) : Float :=
  if 308 < e then (if x == 0.0 then x else infinity)
  else if 0 ≤ e then x * power e.toNat
  else if -308 ≤ e then x / power (-e).toNat
  else if x == 0.0 then x
  else scale (x / power 308) (e + 308)
termination_by (-e).toNat
decreasing_by omega

/-- Takes digits onto a significand while it fits 64 bits, and leaves the digits that do not fit. -/
def takeDigits : Nat → List Char → Nat × List Char
  | n, [] => (n, [])
  | n, c :: s =>
    let n' := 10 * n + (c.toNat - '0'.toNat)
    if n' < UInt64.size then takeDigits n' s else (n, c :: s)

/-- The magnitude written by digits before and after a point and an exponent of ten. Digits before
the point that do not fit the significand still count as places; those after it are dropped. -/
def magnitude (whole fraction : List Char) (exponent : Int) : Float :=
  let (n, excess) := takeDigits 0 whole
  let (n, rest) := takeDigits n fraction
  scale (UInt64.ofNat n).toFloat (exponent + excess.length - (fraction.length - rest.length : Nat))

end Charter.Decimal
