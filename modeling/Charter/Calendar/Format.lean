import Charter.Calendar.Instant
import Charter.Text.Blank

/-! # The text of instants

An instant is written as date and time of day, a fraction of a second of three, six or nine digits
where one is needed, and the mark of universal time; years outside 0 to 9999 bear a sign. Two forms
differ in what stands between date and time and at the end. Reading is more liberal: it takes parts
of one digit, blanks between parts, a fraction of any length of which nine digits count, and an
offset from universal time. -/

namespace Charter.Instant

def padded (width n : Nat) : List Char :=
  let digits := Nat.toDigits 10 n
  List.replicate (width - digits.length) '0' ++ digits

/-- A year of four digits; outside 0 to 9999 with a sign and as many digits as it needs. -/
def yearText (y : Int) : List Char :=
  if 0 ≤ y ∧ y ≤ 9999 then padded 4 y.toNat
  else (if y < 0 then '-' else '+') :: padded 4 y.natAbs

def dateText (d : Date) : List Char :=
  yearText d.year ++ '-' :: padded 2 d.month ++ '-' :: padded 2 d.day

/-- The fraction of a second with the fewest of three, six and nine digits that lose nothing. -/
def fractionText (nanos : Nat) : List Char :=
  if nanos = 0 then []
  else if nanos % 1000000 = 0 then '.' :: padded 3 (nanos / 1000000)
  else if nanos % 1000 = 0 then '.' :: padded 6 (nanos / 1000)
  else '.' :: padded 9 nanos

def timeText (nanos : Nat) : List Char :=
  let seconds := nanos / 1000000000
  padded 2 (seconds / 3600) ++ ':' :: padded 2 (seconds / 60 % 60) ++
    ':' :: padded 2 (seconds % 60) ++
    fractionText (nanos % 1000000000)

/-- The form in documents, such as `2026-01-15T10:00:00Z`. -/
def text (t : Instant) : String :=
  String.ofList (dateText t.date ++ 'T' :: timeText t.ofDay ++ ['Z'])

/-- The form in messages, such as `2026-01-15 10:00:00 UTC`. -/
def display (t : Instant) : String :=
  String.ofList (dateText t.date ++ ' ' :: timeText t.ofDay ++ " UTC".toList)

/-- Reads one to `most` digits behind blanks. -/
def readNumber? (most : Nat) (s : List Char) : Option (Nat × List Char) :=
  let s := Text.skipBlanks s
  let digits := (s.take most).takeWhile Char.isDigit
  if digits = [] then none else some (Nat.ofDigitChars 10 digits 0, s.drop digits.length)

def readSignedDigits? (s : List Char) : Option (Nat × List Char) :=
  let digits := s.takeWhile Char.isDigit
  if digits = [] then none else some (Nat.ofDigitChars 10 digits 0, s.drop digits.length)

/-- Reads a year: up to four digits, or a sign and any number of digits. -/
def readYear? (s : List Char) : Option (Int × List Char) :=
  match Text.skipBlanks s with
  | '-' :: s => (readSignedDigits? s).map (fun r => (-(r.1 : Int), r.2))
  | '+' :: s => (readSignedDigits? s).map (fun r => ((r.1 : Int), r.2))
  | s => (readNumber? 4 s).map (fun r => ((r.1 : Int), r.2))

def readMark? (mark : Char) (s : List Char) : Option (List Char) :=
  match Text.skipBlanks s with
  | c :: s => if c = mark then some s else none
  | [] => none

/-- Reads a fraction of a second, if a point is there, as nanoseconds; digits past the ninth do not
count. -/
def readFraction? : List Char → Option (Nat × List Char)
  | '.' :: s =>
    let digits := s.takeWhile Char.isDigit
    if digits = [] then none
    else
      let kept := digits.take 9
      some (Nat.ofDigitChars 10 kept 0 * Nat.pow 10 (9 - kept.length), s.drop digits.length)
  | s => some (0, s)

def readPair? : List Char → Option (Nat × List Char)
  | a :: b :: s => if a.isDigit ∧ b.isDigit then some (Nat.ofDigitChars 10 [a, b] 0, s) else none
  | _ => none

/-- Reads the hours and minutes of an offset, colons and blanks between them, as minutes. -/
def readHoursMinutes? (s : List Char) : Option (Nat × List Char) := do
  let (hours, s) ← readPair? s
  let (minutes, s) ← readPair? (s.dropWhile (fun c => c = ':' || Text.isBlank c))
  if minutes < 60 ∧ hours < 24 then some (60 * hours + minutes, s) else none

def readUniversal? : List Char → Option (List Char)
  | a :: b :: c :: s => if [a, b, c].map Char.toUpper = ['U', 'T', 'C'] then some s else none
  | _ => none

def readOffset? (s : List Char) : Option (Int × List Char) :=
  match readUniversal? s with
  | some s => some (0, s)
  | none =>
    match s with
    | 'Z' :: s => some (0, s)
    | 'z' :: s => some (0, s)
    | '+' :: s => (readHoursMinutes? s).map (fun r => ((r.1 : Int), r.2))
    | '-' :: s => (readHoursMinutes? s).map (fun r => (-(r.1 : Int), r.2))
    | '−' :: s => (readHoursMinutes? s).map (fun r => (-(r.1 : Int), r.2))
    | _ => none

def readBreak? : List Char → Option (List Char)
  | 'T' :: s => some s
  | 't' :: s => some s
  | ' ' :: s => some s
  | _ => none

def readDate? (s : List Char) : Option (Date × List Char) := do
  let (year, s) ← readYear? s
  let s ← readMark? '-' s
  let (month, s) ← readNumber? 2 s
  let s ← readMark? '-' s
  let (day, s) ← readNumber? 2 s
  let d : Date := ⟨year, month, day⟩
  if d.Valid then some (d, s) else none

def readTime? (s : List Char) : Option (Nat × List Char) := do
  let (hour, s) ← readNumber? 2 s
  let s ← readMark? ':' s
  let (minute, s) ← readNumber? 2 s
  let s ← readMark? ':' s
  let (second, s) ← readNumber? 2 s
  let (nanos, s) ← readFraction? s
  if hour < 24 ∧ minute < 60 ∧ second < 60 then
    some (((hour * 60 + minute) * 60 + second) * 1000000000 + nanos, s)
  else none

/-- The instant that a text names: the day and time it writes lie in the calendar, with and without
its offset. -/
def ofChars? (s : List Char) : Option Instant := do
  let (d, s) ← readDate? s
  let s ← readBreak? s
  let (nanos, s) ← readTime? s
  let (offset, s) ← readOffset? (Text.skipBlanks s)
  let written ← ofNanos? (d.toNumber * nanosPerDay + nanos)
  if Text.skipBlanks s = [] then ofNanos? (written.nanos - offset * 60000000000) else none

def ofText? (s : String) : Option Instant := ofChars? s.toList

end Charter.Instant
