import Charter.Text.Hex

/-! # Quoted texts

Inside quotes a quote, a reverse solidus and the control characters below U+0020 are escaped,
nothing else. Reading also takes the escape of the solidus and escapes by four hexadecimal digits;
above U+FFFF these come in pairs of surrogates, and a surrogate without its partner stands for no
character. -/

namespace Charter.Json.Quoted

def letter? (c : Char) : Option Char :=
  if c = '"' then some '"'
  else if c = '\\' then some '\\'
  else if c.toNat = 8 then some 'b'
  else if c.toNat = 12 then some 'f'
  else if c = '\n' then some 'n'
  else if c = '\r' then some 'r'
  else if c = '\t' then some 't'
  else none

def escape (c : Char) : List Char :=
  match letter? c with
  | some l => ['\\', l]
  | none =>
    if c.toNat < 0x20 then
      ['\\', 'u', '0', '0', Text.hexDigit (c.toNat / 16), Text.hexDigit (c.toNat % 16)]
    else [c]

/-- The written form of a text, quotes included. -/
def encode (s : List Char) : List Char := '"' :: s.flatMap escape ++ ['"']

def unletter? (c : Char) : Option Nat :=
  if c = '"' then some '"'.toNat
  else if c = '\\' then some '\\'.toNat
  else if c = '/' then some '/'.toNat
  else if c = 'b' then some 8
  else if c = 'f' then some 12
  else if c = 'n' then some '\n'.toNat
  else if c = 'r' then some '\r'.toNat
  else if c = 't' then some '\t'.toNat
  else none

def fourDigits? (a b c d : Char) : Option Nat :=
  match Text.hexValue? a, Text.hexValue? b, Text.hexValue? c, Text.hexValue? d with
  | some a, some b, some c, some d => some (((a * 16 + b) * 16 + c) * 16 + d)
  | _, _, _, _ => none

/-- Reads to the closing quote: the code points and surrogates up to it, and the text behind it. -/
def codes? : List Char → Option (List Nat × List Char)
  | [] => none
  | '"' :: s => some ([], s)
  | '\\' :: 'u' :: a :: b :: c :: d :: s =>
    match fourDigits? a b c d, codes? s with
    | some n, some (ns, rest) => some (n :: ns, rest)
    | _, _ => none
  | '\\' :: l :: s =>
    match unletter? l, codes? s with
    | some n, some (ns, rest) => some (n :: ns, rest)
    | _, _ => none
  | c :: s =>
    if c.toNat < 0x20 ∨ c = '\\' then none
    else match codes? s with
      | some (ns, rest) => some (c.toNat :: ns, rest)
      | none => none

/-- The first half of a pair of surrogates. -/
def IsHigh (n : Nat) : Prop := 0xD800 ≤ n ∧ n < 0xDC00

def IsLow (n : Nat) : Prop := 0xDC00 ≤ n ∧ n < 0xE000

instance (n : Nat) : Decidable (IsHigh n) := inferInstanceAs (Decidable (_ ∧ _))
instance (n : Nat) : Decidable (IsLow n) := inferInstanceAs (Decidable (_ ∧ _))

def characters? : List Nat → Option (List Char)
  | [] => some []
  | [n] => if IsHigh n ∨ IsLow n then none else some [Char.ofNat n]
  | m :: n :: ns =>
    if IsHigh m then
      if IsLow n then (characters? ns).map
        (Char.ofNat (0x10000 + (m - 0xD800) * 0x400 + (n - 0xDC00)) :: ·) else none
    else if IsLow m then none
    else (characters? (n :: ns)).map (Char.ofNat m :: ·)

/-- Reads a text whose opening quote has been read. It is well written, but has no characters, if a
surrogate in it lacks its partner. -/
def read? (s : List Char) : Option (Option (List Char) × List Char) :=
  (codes? s).map (fun r => (characters? r.1, r.2))

theorem length_of_codes? {s : List Char} {ns : List Nat} {rest : List Char}
    (h : codes? s = some (ns, rest)) :
    rest.length < s.length := by
  fun_induction codes? s generalizing ns rest with
  | case1 => simp at h
  | case2 s => simp at h; simp [h.2]
  | case3 a b c d s n ns' rest' hs hn ih => simp at h; have := ih hs; simp [← h.2]; omega
  | case4 => simp at h
  | case5 l s hl n ns' rest' hs hn ih => simp at h; have := ih hs; simp [← h.2]; omega
  | case6 => simp at h
  | case7 => simp at h
  | case8 c s _ _ _ hc ns' rest' hs ih => simp at h; have := ih hs; simp [← h.2]; omega
  | case9 => simp at h

theorem length_of_read? {s rest : List Char} {cs : Option (List Char)}
    (h : read? s = some (cs, rest)) :
    rest.length < s.length := by
  simp only [read?, Option.map_eq_some_iff, Prod.mk.injEq, Prod.exists] at h
  obtain ⟨_, _, h, _, rfl⟩ := h
  exact length_of_codes? h

end Charter.Json.Quoted
