import Charter.Calendar.Format

/-! # Dates and instants read back

The day with a number has this number, and it is a day of the calendar; so the text of an instant
names that instant, whatever its year and its fraction of a second. -/

namespace Charter

namespace Date

/-- The number of days from 1 March of the year zero to 1 March of a year. -/
def marchStart (year : Int) : Int := 365 * year + year / 4 - year / 100 + year / 400

def afterMarch (year days : Int) : Date :=
  let month := (5 * days + 2) / 153
  let day := days - (153 * month + 2) / 5 + 1
  if month < 10 then ⟨year, (month + 3).toNat, day.toNat⟩ else
    ⟨year + 1, (month - 9).toNat, day.toNat⟩

/-- Counting off cycles, centuries and spans of four years finds the year: its 366th day is there
only before the end of a leap year's February. -/
theorem exists_ofNumber_eq (n : Int) :
    ∃ year days, 0 ≤ days ∧ days ≤ 365 ∧ (days = 365 → IsLeap (year + 1)) ∧
      marchStart year + days = n + epoch ∧
      ofNumber n = afterMarch year days := by
  let cycle := (n + epoch) / 146097
  let ofCycle := (n + epoch) % 146097
  let century := min (ofCycle / 36524) 3
  let ofCentury := ofCycle - 36524 * century
  let four := ofCentury / 1461
  let ofFour := ofCentury % 1461
  let one := min (ofFour / 365) 3
  let days := ofFour - 365 * one
  have hcycle : 146097 * cycle + ofCycle = n + epoch ∧ 0 ≤ ofCycle ∧ ofCycle < 146097 := by omega
  have hcentury : 0 ≤ century ∧ century ≤ 3 ∧ 0 ≤ ofCentury ∧ ofCentury ≤ 36524 ∧
      (ofCentury = 36524 → century = 3) := by
    omega
  have hfour : 0 ≤ four ∧ four ≤ 24 ∧ 1461 * four + ofFour = ofCentury ∧ 0 ≤ ofFour ∧
      ofFour ≤ 1460 := by omega
  have hone : 0 ≤ one ∧ one ≤ 3 ∧ 0 ≤ days ∧ days ≤ 365 ∧
      (days = 365 → one = 3 ∧ ofFour = 1460) := by omega
  obtain ⟨year, hyear⟩ : ∃ year, year = 400 * cycle + 100 * century + 4 * four + one := ⟨_, rfl⟩
  have hquotients : year / 4 = 100 * cycle + 25 * century + four ∧
      year / 100 = 4 * cycle + century ∧ year / 400 = cycle := by
    omega
  refine ⟨year, days, hone.2.2.1, hone.2.2.2.1, ?_, ?_, by rw [hyear]; rfl⟩
  · intro hlast
    obtain ⟨hthree, hend⟩ := hone.2.2.2.2 hlast
    unfold IsLeap
    omega
  · rw [marchStart, hquotients.1, hquotients.2.1, hquotients.2.2]
    omega

theorem toNumber_afterMarch {year days : Int} (hdays : 0 ≤ days ∧ days ≤ 365) :
    (afterMarch year days).toNumber = marchStart year + days - epoch := by
  have hmonth : 0 ≤ (5 * days + 2) / 153 ∧ (5 * days + 2) / 153 ≤ 11 := by omega
  have hday : (153 * ((5 * days + 2) / 153) + 2) / 5 ≤ days := by omega
  simp only [afterMarch]
  generalize (5 * days + 2) / 153 = month at hmonth hday ⊢
  split
  · have hlate : ¬(month + 3).toNat ≤ 2 := by omega
    simp only [toNumber, if_neg hlate, marchStart]
    omega
  · have hearly : (month - 9).toNat ≤ 2 := by omega
    simp only [toNumber, if_pos hearly, marchStart]
    omega

theorem valid_afterMarch {year days : Int} (hdays : 0 ≤ days ∧ days ≤ 365)
    (hleap : days = 365 → IsLeap (year + 1)) :
    (afterMarch year days).Valid := by
  have hmonth : 0 ≤ (5 * days + 2) / 153 ∧ (5 * days + 2) / 153 ≤ 11 := by omega
  have hday : (153 * ((5 * days + 2) / 153) + 2) / 5 ≤ days ∧
      days < (153 * ((5 * days + 2) / 153 + 1) + 2) / 5 := by omega
  simp only [afterMarch]
  generalize (5 * days + 2) / 153 = month at hmonth hday ⊢
  split
  · simp only [Valid, daysInMonth]
    split
    · omega
    · split <;> omega
  · simp only [Valid, daysInMonth]
    split
    · split
      · omega
      · have : days ≠ 365 := fun h => absurd (hleap h) ‹_›
        omega
    · split <;> omega

theorem toNumber_ofNumber (n : Int) : (ofNumber n).toNumber = n := by
  obtain ⟨year, days, hnonneg, hle, -, hnumber, heq⟩ := exists_ofNumber_eq n
  rw [heq, toNumber_afterMarch ⟨hnonneg, hle⟩]
  omega

theorem valid_ofNumber (n : Int) : (ofNumber n).Valid := by
  obtain ⟨year, days, hnonneg, hle, hleap, -, heq⟩ := exists_ofNumber_eq n
  rw [heq]
  exact valid_afterMarch ⟨hnonneg, hle⟩ hleap

end Date

namespace Instant

variable {c : Char} {s : List Char} {width n : Nat}

theorem isDigit_of_mem_padded (h : c ∈ padded width n) : c.isDigit = true := by
  rcases List.mem_append.mp h with h | h
  · rw [List.eq_of_mem_replicate h]
    rfl
  · exact Nat.isDigit_of_mem_toDigits (by decide) (by decide) h

theorem padded_ne_nil : padded width n ≠ [] := by simp [padded, Nat.toDigits_ne_nil]

theorem length_padded (hwidth : 0 < width) (h : n < Nat.pow 10 width) :
    (padded width n).length = width := by
  have hle := (Nat.length_toDigits_le_iff (b := 10) (by decide) hwidth).mpr h
  simp only [padded, List.length_append, List.length_replicate]
  omega

@[simp] theorem ofDigitChars_padded : Nat.ofDigitChars 10 (padded width n) 0 = n := by
  rw [padded, Nat.ofDigitChars_append, Nat.ofDigitChars_replicate_zero, Nat.mul_zero,
    Nat.ofDigitChars_ten_toDigits]

theorem isBlank_of_isDigit (h : c.isDigit = true) : Text.isBlank c = false := by
  have hcode : 48 ≤ c.toNat ∧ c.toNat ≤ 57 := by
    simp only [Char.isDigit, Bool.and_eq_true, decide_eq_true_eq, ge_iff_le,
      UInt32.le_iff_toNat_le] at h
    exact h
  simp [Text.isBlank, Text.blankRanges]
  omega

theorem skipBlanks_cons (h : Text.isBlank c = false) : Text.skipBlanks (c :: s) = c :: s := by
  simp [Text.skipBlanks, h]

theorem skipBlanks_padded : Text.skipBlanks (padded width n ++ s) = padded width n ++ s := by
  cases h : padded width n with
  | nil => exact absurd h padded_ne_nil
  | cons d ds =>
    have hd : d.isDigit = true := isDigit_of_mem_padded (h ▸ List.mem_cons_self)
    exact skipBlanks_cons (isBlank_of_isDigit hd)

theorem takeWhile_padded (hs : ∀ c ∈ s.head?, c.isDigit = false) :
    (padded width n ++ s).takeWhile Char.isDigit = padded width n := by
  have hnone : s.takeWhile Char.isDigit = [] := by
    cases s with
    | nil => rfl
    | cons c s => simp [hs c rfl]
  rw [List.takeWhile_append_of_pos (fun c hc => isDigit_of_mem_padded hc), hnone, List.append_nil]

/-- A number as wide as can be is read back whatever follows. -/
theorem readNumber?_padded (hwidth : 0 < width) (h : n < Nat.pow 10 width) :
    readNumber? width (padded width n ++ s) = some (n, s) := by
  have hlength := length_padded hwidth h
  have hdigits : (padded width n).takeWhile Char.isDigit = padded width n := by
    simpa using takeWhile_padded (s := []) (by simp)
  simp only [readNumber?, skipBlanks_padded, List.take_left' hlength, hdigits, if_neg padded_ne_nil,
    ofDigitChars_padded, List.drop_left]

theorem readSignedDigits?_padded (hs : ∀ c ∈ s.head?, c.isDigit = false) :
    readSignedDigits? (padded width n ++ s) = some (n, s) := by
  simp only [readSignedDigits?, takeWhile_padded hs, if_neg padded_ne_nil, ofDigitChars_padded,
    List.drop_left]

theorem readMark?_cons (h : Text.isBlank c = false) : readMark? c (c :: s) = some s := by
  simp [readMark?, skipBlanks_cons h]

/-- A year is read back where no digit follows: outside 0 to 9999 it is as long as it needs
to be. -/
theorem readYear?_yearText (y : Int) (hs : ∀ c ∈ s.head?, c.isDigit = false) :
    readYear? (yearText y ++ s) = some (y, s) := by
  unfold yearText
  split
  · rename_i hplain
    have hwidth : y.toNat < 10000 := by omega
    have hread : readNumber? 4 (padded 4 y.toNat ++ s) = some (y.toNat, s) :=
      readNumber?_padded (by decide) hwidth
    have hdigit : ∀ d t, padded 4 y.toNat ++ s = d :: t → d.isDigit = true := by
      intro d t h
      obtain ⟨e, es, hes⟩ : ∃ e es, padded 4 y.toNat = e :: es :=
        List.exists_cons_of_ne_nil padded_ne_nil
      rw [hes, List.cons_append, List.cons.injEq] at h
      exact isDigit_of_mem_padded (h.1 ▸ hes ▸ List.mem_cons_self)
    unfold readYear?
    rw [skipBlanks_padded]
    split
    · rename_i t ht
      exact absurd (hdigit _ _ ht) (by decide)
    · rename_i t ht
      exact absurd (hdigit _ _ ht) (by decide)
    · rw [hread, Option.map_some, Int.toNat_of_nonneg hplain.1]
  · have hread : readSignedDigits? (padded 4 y.natAbs ++ s) = some (y.natAbs, s) :=
      readSignedDigits?_padded hs
    split
    · rename_i hneg
      have hvalue : -(y.natAbs : Int) = y := by omega
      rw [List.cons_append, readYear?, skipBlanks_cons (by decide)]
      simp only [hread, Option.map_some, hvalue]
    · have hvalue : (y.natAbs : Int) = y := by omega
      rw [List.cons_append, readYear?, skipBlanks_cons (by decide)]
      simp only [hread, Option.map_some, hvalue]

theorem readDate?_dateText {d : Date} (h : d.Valid) :
    readDate? (dateText d ++ s) = some (d, s) := by
  have hmonth : d.month < 100 := by
    have := h.2.1
    omega
  have hday : d.day < 100 := by
    have := h.2.2.2
    have : Date.daysInMonth d.year d.month ≤ 31 := by
      unfold Date.daysInMonth
      repeat' split
      all_goals omega
    omega
  have hhyphen : Text.isBlank '-' = false := by decide
  simp only [readDate?, dateText, List.append_assoc, List.cons_append]
  rw [readYear?_yearText _ (by simp)]
  simp only [Option.bind_eq_bind, Option.bind_some, readMark?_cons hhyphen,
    readNumber?_padded Nat.two_pos hmonth, readNumber?_padded Nat.two_pos hday]
  exact if_pos h

theorem readFraction?_padded (hwidth : 0 < width ∧ width ≤ 9) (h : n < Nat.pow 10 width)
    (hs : ∀ c ∈ s.head?, c.isDigit = false) :
    readFraction? ('.' :: padded width n ++ s) = some (n * Nat.pow 10 (9 - width), s) := by
  have hlength := length_padded hwidth.1 h
  have htake : (padded width n).take 9 = padded width n := List.take_of_length_le (by omega)
  simp only [readFraction?, List.cons_append, takeWhile_padded hs, if_neg padded_ne_nil, htake,
    ofDigitChars_padded, hlength, List.drop_left' hlength]

theorem readFraction?_fractionText (h : n < 1000000000)
    (hs : ∀ c ∈ s.head?, c.isDigit = false ∧ c ≠ '.') :
    readFraction? (fractionText n ++ s) = some (n, s) := by
  have hdigit : ∀ c ∈ s.head?, c.isDigit = false := fun c hc => (hs c hc).1
  unfold fractionText
  split
  · rename_i hzero
    unfold readFraction?
    split
    · rename_i t ht
      rw [List.nil_append] at ht
      exact absurd rfl (hs '.' (by rw [ht]; rfl)).2
    · rw [hzero, List.nil_append]
  · split
    · have hwidth : n / 1000000 < 1000 := by omega
      have hvalue : n / 1000000 * 1000000 = n := by omega
      exact (readFraction?_padded (by decide) hwidth hdigit).trans
        (congrArg (fun m => some (m, s)) hvalue)
    · split
      · have hwidth : n / 1000 < 1000000 := by omega
        have hvalue : n / 1000 * 1000 = n := by omega
        exact (readFraction?_padded (by decide) hwidth hdigit).trans
          (congrArg (fun m => some (m, s)) hvalue)
      · exact (readFraction?_padded (by decide) h hdigit).trans
          (congrArg (fun m => some (m, s)) (Nat.mul_one n))

theorem readTime?_timeText (h : n < 86400 * 1000000000)
    (hs : ∀ c ∈ s.head?, c.isDigit = false ∧ c ≠ '.') :
    readTime? (timeText n ++ s) = some (n, s) := by
  have hhour : n / 1000000000 / 3600 < 100 := by omega
  have hminute : n / 1000000000 / 60 % 60 < 100 := by omega
  have hsecond : n / 1000000000 % 60 < 100 := by omega
  have hcolon : Text.isBlank ':' = false := by decide
  have hfraction := readFraction?_fractionText (Nat.mod_lt n (show 1000000000 > 0 by decide)) hs
  simp only [readTime?, timeText, List.append_assoc, List.cons_append, Option.bind_eq_bind,
    Option.bind_some, readMark?_cons hcolon, readNumber?_padded Nat.two_pos hhour,
    readNumber?_padded Nat.two_pos hminute, readNumber?_padded Nat.two_pos hsecond, hfraction]
  rw [if_pos (by omega)]
  simp only [Option.some.injEq, Prod.mk.injEq, and_true]
  omega

theorem ofNanos?_nanos (t : Instant) : ofNanos? t.nanos = some t := dif_pos t.inCalendar

/-- The text of an instant names it. -/
@[simp] theorem ofText?_text (t : Instant) : ofText? t.text = some t := by
  have hday : 0 ≤ t.nanos % nanosPerDay ∧ t.nanos % nanosPerDay < nanosPerDay := by
    unfold nanosPerDay
    omega
  have hofDay : t.ofDay < 86400 * 1000000000 := by
    unfold ofDay nanosPerDay at *
    omega
  have hdate : readDate? (dateText t.date ++ 'T' :: (timeText t.ofDay ++ ['Z'])) =
      some (t.date, 'T' :: (timeText t.ofDay ++ ['Z'])) :=
    readDate?_dateText (Date.valid_ofNumber _)
  have htime : readTime? (timeText t.ofDay ++ ['Z']) = some (t.ofDay, ['Z']) :=
    readTime?_timeText hofDay (by simp)
  have hoffset : readOffset? (Text.skipBlanks ['Z']) = some (0, []) := by decide
  have hnanos : t.date.toNumber * nanosPerDay + (t.ofDay : Int) = t.nanos := by
    rw [date, Date.toNumber_ofNumber, ofDay, Int.toNat_of_nonneg hday.1, Int.mul_comm]
    exact Int.mul_ediv_add_emod _ _
  simp only [ofText?, text, String.toList_ofList, ofChars?, List.append_assoc, List.cons_append,
    hdate, Option.bind_eq_bind, Option.bind_some, readBreak?, htime, hoffset, hnanos,
    ofNanos?_nanos]
  simp [Text.skipBlanks, ofNanos?_nanos]

/-- The last instant of the calendar, and one before the year one: a sign and nine digits only where
they are needed. -/
example :
    (⟨95026237 * 86400000000000 - 1, by decide⟩ : Instant).text =
      "+262142-12-31T23:59:59.999999999Z" ∧
    (⟨-62135596800000000000 - 10000000, by decide⟩ : Instant).text =
      "0000-12-31T23:59:59.990Z" := by decide

end Instant

end Charter
