import Charter.Json.Number
import Charter.Json.Quoted

/-! # Tokens of JSON text

Brackets, separators, the three words, numbers and quoted texts, with blanks between them
left out. -/

namespace Charter.Json

inductive Token where
  | openArr
  | closeArr
  | openObj
  | closeObj
  | comma
  | colon
  | null
  | bool (b : Bool)
  /-- A numeral, with the number it stands for, if there is one. -/
  | num (n : Option Number)
  /-- A quoted text, with its characters, if it has any that are whole. -/
  | str (s : Option String)
deriving DecidableEq, Repr

namespace Token

/-- The four characters that may stand between tokens. -/
def isSpace (c : Char) : Bool := c = ' ' || c = '\t' || c = '\n' || c = '\r'

def next? (c : Char) (s : List Char) : Option (Token × List Char) :=
  if c = '[' then some (.openArr, s)
  else if c = ']' then some (.closeArr, s)
  else if c = '{' then some (.openObj, s)
  else if c = '}' then some (.closeObj, s)
  else if c = ',' then some (.comma, s)
  else if c = ':' then some (.colon, s)
  else if c = '"' then (Quoted.read? s).map (fun r => (.str (r.1.map String.ofList), r.2))
  else if c = 'n' then match s with
    | 'u' :: 'l' :: 'l' :: s => some (.null, s)
    | _ => none
  else if c = 't' then match s with
    | 'r' :: 'u' :: 'e' :: s => some (.bool true, s)
    | _ => none
  else if c = 'f' then match s with
    | 'a' :: 'l' :: 's' :: 'e' :: s => some (.bool false, s)
    | _ => none
  else (Numeral.read? (c :: s)).map (fun r => (.num r.1.number?, r.2))

theorem length_dropWhile_le (p : Char → Bool) (s : List Char) : (s.dropWhile p).length ≤ s.length :=
  (List.dropWhile_sublist p).length_le

theorem length_of_readDigits? {s d r : List Char} (h : Numeral.readDigits? s = some (d, r)) :
    r.length < s.length := by
  simp only [Numeral.readDigits?] at h
  split at h
  · simp at h
  · next hd =>
    simp only [Option.some.injEq, Prod.mk.injEq] at h
    obtain ⟨_, rfl⟩ := h
    cases s with
    | nil => simp at hd
    | cons c s =>
      have hc : c.isDigit = true := by
        by_cases hc : c.isDigit = true
        · exact hc
        · simp [hc] at hd
      have := length_dropWhile_le Char.isDigit s
      simp [hc]
      omega

theorem length_of_readWhole? {s d r : List Char} (h : Numeral.readWhole? s = some (d, r)) :
    r.length < s.length := by
  unfold Numeral.readWhole? at h
  split at h
  · simp only [Option.some.injEq, Prod.mk.injEq] at h
    simp [← h.2]
  · exact length_of_readDigits? h

theorem length_of_readFraction? {s r : List Char} {d : Option (List Char)}
    (h : Numeral.readFraction? s = some (d, r)) : r.length ≤ s.length := by
  unfold Numeral.readFraction? at h
  split at h
  · simp only [Option.map_eq_some_iff, Prod.mk.injEq] at h
    obtain ⟨⟨_, _⟩, h, _, rfl⟩ := h
    have := length_of_readDigits? h
    simp; omega
  · simp only [Option.some.injEq, Prod.mk.injEq] at h
    simp [h.2]

theorem length_of_readPower? {s r : List Char} {e : Exponent}
    (h : Numeral.readPower? s = some (e, r)) :
    r.length < s.length := by
  unfold Numeral.readPower? at h
  split at h <;>
  · simp only [Option.map_eq_some_iff, Prod.mk.injEq] at h
    obtain ⟨⟨_, _⟩, h, _, rfl⟩ := h
    have := length_of_readDigits? h
    simp; omega

theorem length_of_readExponent? {s r : List Char} {e : Option Exponent}
    (h : Numeral.readExponent? s = some (e, r)) : r.length ≤ s.length := by
  unfold Numeral.readExponent? at h
  split at h
  · simp only [Option.map_eq_some_iff, Prod.mk.injEq] at h
    obtain ⟨⟨_, _⟩, h, _, rfl⟩ := h
    have := length_of_readPower? h
    simp; omega
  · simp only [Option.map_eq_some_iff, Prod.mk.injEq] at h
    obtain ⟨⟨_, _⟩, h, _, rfl⟩ := h
    have := length_of_readPower? h
    simp; omega
  · simp only [Option.some.injEq, Prod.mk.injEq] at h
    simp [h.2]

theorem length_of_readUnsigned? {b : Bool} {s r : List Char} {x : Numeral}
    (h : Numeral.readUnsigned? b s = some (x, r)) : r.length < s.length := by
  simp only [Numeral.readUnsigned?, Option.bind_eq_bind, Option.bind_eq_some_iff, Option.some.injEq,
    Prod.mk.injEq, Prod.exists] at h
  obtain ⟨_, s₁, h₁, _, s₂, h₂, _, s₃, h₃, _, rfl⟩ := h
  have := length_of_readWhole? h₁
  have := length_of_readFraction? h₂
  have := length_of_readExponent? h₃
  omega

theorem length_of_readNumeral? {s r : List Char} {x : Numeral} (h : Numeral.read? s = some (x, r)) :
    r.length < s.length := by
  unfold Numeral.read? at h
  split at h
  · have := length_of_readUnsigned? h
    simp; omega
  · exact length_of_readUnsigned? h

theorem length_of_next? {c : Char} {s r : List Char} {t : Token} (h : next? c s = some (t, r)) :
    r.length ≤ s.length := by
  unfold next? at h
  iterate 6
    split at h
    · simp only [Option.some.injEq, Prod.mk.injEq] at h
      simp [h.2]
  split at h
  · simp only [Option.map_eq_some_iff, Prod.mk.injEq, Prod.exists] at h
    obtain ⟨_, _, h, _, rfl⟩ := h
    exact Nat.le_of_lt (Quoted.length_of_read? h)
  iterate 3
    split at h
    · split at h
      · simp only [Option.some.injEq, Prod.mk.injEq] at h
        simp only [← h.2, List.length_cons]; omega
      · simp at h
  simp only [Option.map_eq_some_iff, Prod.mk.injEq, Prod.exists] at h
  obtain ⟨_, _, h, _, rfl⟩ := h
  have := length_of_readNumeral? h
  simp only [List.length_cons] at this
  omega

def scan? (s : List Char) : Option (List Token) :=
  match s with
  | [] => some []
  | c :: s =>
    if isSpace c then scan? s
    else match h : next? c s with
      | none => none
      | some (t, rest) =>
        have := length_of_next? h
        (scan? rest).map (t :: ·)
termination_by s.length

end Token

end Charter.Json
