/-! # Shortest decimals

The decimal with the fewest digits that still reads back as a given binary floating-point number. A
number stands for all reals that round to it: the interval between the middles of its gaps to both
neighbours, ends included when its significand is even. Walking from coarse to fine decimal grids,
the first grid with a point in the interval is taken, and on it the point nearest to the number, of
two equally near the even one. -/

namespace Charter

structure Decimal where
  digits : Nat
  exponent : Int
deriving DecidableEq, Repr

namespace Decimal

/-- The number `m * 2 ^ q`. -/
structure Binary where
  m : Nat
  q : Int
  /-- The gap to the number below is half the gap to the number above. -/
  narrow : Bool
deriving DecidableEq, Repr

def Binary.ofFloat (x : Float) : Binary :=
  let e := ((x.toBits >>> 52) &&& 0x7FF).toNat
  let f := (x.toBits &&& 0xFFFFFFFFFFFFF).toNat
  if e = 0 then ⟨f, -1074, false⟩ else ⟨0x10000000000000 + f, (e : Int) - 1075, f = 0 && 1 < e⟩

/-- The point of the grid of multiples of `10 ^ e` that reads back as the number and is nearest to
it, if there is one. All comparisons are of whole multiples of one common unit. -/
def Binary.nearest? (x : Binary) (e : Int) : Option Nat :=
  let unit := Nat.pow 2 (x.q - 2).toNat * Nat.pow 10 (-e).toNat
  let step := Nat.pow 2 (2 - x.q).toNat * Nat.pow 10 e.toNat
  let value := 4 * x.m * unit
  let low := (4 * x.m - if x.narrow then 1 else 2) * unit
  let high := (4 * x.m + 2) * unit
  let closed := x.m % 2 = 0
  let down := value / step
  let up := down + 1
  let downFits := down ≠ 0 ∧ (low < down * step ∨ closed ∧ low = down * step)
  let upFits := up * step < high ∨ closed ∧ up * step = high
  if downFits then
    if upFits then
      if 2 * value < (2 * down + 1) * step then some down
      else if (2 * down + 1) * step < 2 * value then some up
      else if down % 2 = 0 then some down else some up
    else some down
  else if upFits then some up else none

/-- A decimal exponent from which on every grid is too coarse: above the common logarithm of the
number. -/
def Binary.coarsest (x : Binary) : Int := ((x.m.log2 : Int) + x.q + 1) * 1233 / 4096 + 2

def Binary.search (x : Binary) : Nat → Int → Decimal
  | 0, _ => ⟨x.m * Nat.pow 2 x.q.toNat * Nat.pow 5 (-x.q).toNat, if x.q < 0 then x.q else 0⟩
  | n + 1, e =>
    match x.nearest? e with
    | some d => ⟨d, e⟩
    | none => x.search n (e - 1)

/-- The shortest decimal of a positive number. Seventeen digits always suffice, so the search ends
before its bound. -/
def Binary.shortest (x : Binary) : Decimal := x.search 24 x.coarsest

end Decimal

end Charter
