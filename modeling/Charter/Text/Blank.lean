/-! # Blank characters

White space in the sense of the Unicode property `White_Space` (25 characters), trimming of texts,
and the cutting of a dotted name into its segments. -/

namespace Charter.Text

/-- The closed ranges of code points that are white space, ascending and apart. -/
def blankRanges : List (Nat × Nat) :=
  [(0x09, 0x0D), (0x20, 0x20), (0x85, 0x85), (0xA0, 0xA0), (0x1680, 0x1680), (0x2000, 0x200A),
    (0x2028, 0x2029), (0x202F, 0x202F), (0x205F, 0x205F), (0x3000, 0x3000)]

def isBlank (c : Char) : Bool := blankRanges.any (fun r => r.1 ≤ c.toNat && c.toNat ≤ r.2)

theorem isBlank_of_isWhitespace {c : Char} (h : c.isWhitespace = true) : isBlank c = true := by
  simp [Char.isWhitespace] at h
  rcases h with ((h | h) | h) | h <;> subst h <;> decide

def skipBlanks (s : List Char) : List Char := s.dropWhile isBlank

def trimChars (s : List Char) : List Char := (skipBlanks (skipBlanks s).reverse).reverse

def trim (s : String) : String := String.ofList (trimChars s.toList)

def isEmptyText (s : String) : Bool := s.toList.all isBlank

/-- Cuts at every occurrence of a separator; there is always one piece more than separators. -/
def cutAt (sep : Char) : List Char → List (List Char)
  | [] => [[]]
  | c :: s =>
    if c = sep then [] :: cutAt sep s
    else match cutAt sep s with
      | [] => [[c]]
      | piece :: pieces => (c :: piece) :: pieces

theorem cutAt_ne_nil (sep : Char) (s : List Char) : cutAt sep s ≠ [] := by
  induction s with
  | nil => simp [cutAt]
  | cons c s ih =>
    unfold cutAt
    split
    · simp
    · split <;> simp

def segments (name : String) : List String := (cutAt '.' name.toList).map String.ofList

theorem segments_ne_nil (name : String) : segments name ≠ [] := by
  simp [segments, cutAt_ne_nil]

end Charter.Text
