import Charter.Decimal.Scaled
import Charter.Decimal.Shortest

/-! # JSON numbers

A number is an integer of 64 bits, signed or unsigned, or a binary floating-point number; a numeral
is its text, cut into sign, digits before the point, digits after it and exponent. -/

namespace Charter.Json

inductive Number where
  | int (n : Int)
  | float (x : Float)
deriving DecidableEq, Repr

namespace Number

/-- The integers that a document can hold as such. -/
def IsWord (n : Int) : Prop := -0x8000000000000000 ≤ n ∧ n < 0x10000000000000000

instance (n : Int) : Decidable (IsWord n) := inferInstanceAs (Decidable (_ ∧ _))

/-- Numeric equality within a kind: an integer never equals a floating-point number, and both zeros
are one. -/
def same : Number → Number → Bool
  | .int m, .int n => m == n
  | .float x, .float y => x == y
  | _, _ => false

def ofFloat? (x : Float) : Option Number := if x.isFinite then some (.float x) else none

end Number

structure Exponent where
  negative : Bool
  digits : List Char
deriving DecidableEq, Repr

structure Numeral where
  negative : Bool
  whole : List Char
  fraction : Option (List Char)
  exponent : Option Exponent
deriving DecidableEq, Repr

namespace Numeral

def power (x : Numeral) : Int :=
  match x.exponent with
  | none => 0
  | some e =>
    if e.negative then -(Nat.ofDigitChars 10 e.digits 0 : Int) else
      (Nat.ofDigitChars 10 e.digits 0 : Int)

/-- The floating-point number a numeral stands for; infinite if it is too large. -/
def float (x : Numeral) : Float :=
  let m := Decimal.magnitude x.whole (x.fraction.getD []) x.power
  if x.negative then -m else m

/-- The integer that a numeral without point and exponent stands for. The numeral `-0` stands for
none. -/
def int? (x : Numeral) : Option Int :=
  if x.fraction = none ∧ x.exponent = none then
    let n := Nat.ofDigitChars 10 x.whole 0
    if x.negative then (if n = 0 then none else some (-n)) else some n
  else none

/-- The number a numeral stands for: an integer if it is written as one and fits, a floating-point
number otherwise. A numeral beyond the largest of these stands for none. -/
def number? (x : Numeral) : Option Number :=
  match x.int? with
  | some n => if Number.IsWord n then some (.int n) else Number.ofFloat? x.float
  | none => Number.ofFloat? x.float

def readDigits? (s : List Char) : Option (List Char × List Char) :=
  let digits := s.takeWhile Char.isDigit
  if digits = [] then none else some (digits, s.dropWhile Char.isDigit)

/-- Reads the digits before the point: a zero alone, or digits that do not start with one. -/
def readWhole? : List Char → Option (List Char × List Char)
  | '0' :: s => some (['0'], s)
  | s => readDigits? s

def readFraction? : List Char → Option (Option (List Char) × List Char)
  | '.' :: s => (readDigits? s).map (fun r => (some r.1, r.2))
  | s => some (none, s)

def readPower? : List Char → Option (Exponent × List Char)
  | '-' :: s => (readDigits? s).map (fun r => (⟨true, r.1⟩, r.2))
  | '+' :: s => (readDigits? s).map (fun r => (⟨false, r.1⟩, r.2))
  | s => (readDigits? s).map (fun r => (⟨false, r.1⟩, r.2))

def readExponent? : List Char → Option (Option Exponent × List Char)
  | 'e' :: s => (readPower? s).map (fun r => (some r.1, r.2))
  | 'E' :: s => (readPower? s).map (fun r => (some r.1, r.2))
  | s => some (none, s)

def readUnsigned? (negative : Bool) (s : List Char) : Option (Numeral × List Char) := do
  let (whole, s) ← readWhole? s
  let (fraction, s) ← readFraction? s
  let (exponent, s) ← readExponent? s
  some (⟨negative, whole, fraction, exponent⟩, s)

def read? : List Char → Option (Numeral × List Char)
  | '-' :: s => readUnsigned? true s
  | s => readUnsigned? false s

def text (x : Numeral) : List Char :=
  (if x.negative then ['-'] else []) ++ x.whole ++
  (match x.fraction with
    | none => []
    | some digits => '.' :: digits) ++
  (match x.exponent with
    | none => []
    | some e => 'e' :: (if e.negative then '-' else '+') :: e.digits)

def ofInt (n : Int) : Numeral := ⟨n < 0, Nat.toDigits 10 n.natAbs, none, none⟩

/-- The numeral of a decimal: with a point if the leading digit stands between the fifth place after
it and the sixteenth before it, with an exponent otherwise. -/
def ofDecimal (negative : Bool) (d : Decimal) : Numeral :=
  let digits := Nat.toDigits 10 d.digits
  let lead := digits.length + d.exponent - 1
  if lead < -5 ∨ 15 < lead then
    let fraction := digits.drop 1
    ⟨negative, digits.take 1, if fraction = [] then none else some fraction,
      some ⟨lead < 0, Nat.toDigits 10 lead.natAbs⟩⟩
  else if 0 ≤ d.exponent then
    ⟨negative, digits ++ List.replicate d.exponent.toNat '0', some ['0'], none⟩
  else if 0 ≤ lead then
    ⟨negative, digits.take (lead.toNat + 1), some (digits.drop (lead.toNat + 1)), none⟩
  else ⟨negative, ['0'], some (List.replicate (-lead - 1).toNat '0' ++ digits), none⟩

/-- The numeral of a floating-point number. An infinite one is written as a numeral that
overflows. -/
def ofFloat (x : Float) : Numeral :=
  let negative := x.toBits >>> 63 = 1
  if !x.isFinite then ⟨negative, ['1'], none, some ⟨false, ['9', '9', '9']⟩⟩
  else
    let b := Decimal.Binary.ofFloat x
    if b.m = 0 then ⟨negative, ['0'], some ['0'], none⟩ else ofDecimal negative b.shortest

def ofNumber : Number → Numeral
  | .int n => ofInt n
  | .float x => ofFloat x

end Numeral

end Charter.Json
