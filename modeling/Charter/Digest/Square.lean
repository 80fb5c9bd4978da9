/-! # The mixing square

Sixteen 32-bit words in four rows of four, mixed by additions, exclusive ors and rotations: first
down the columns, then down the diagonals. Seven such rounds, each under its own order of the
sixteen message words, make the compression function on which the digest of a text is built. -/

namespace Charter.Digest

structure Quad where
  w : UInt32
  x : UInt32
  y : UInt32
  z : UInt32
deriving DecidableEq, Repr

namespace Quad

def add (p q : Quad) : Quad := ⟨p.w + q.w, p.x + q.x, p.y + q.y, p.z + q.z⟩

def xor (p q : Quad) : Quad := ⟨p.w ^^^ q.w, p.x ^^^ q.x, p.y ^^^ q.y, p.z ^^^ q.z⟩

def rotateWord (v n : UInt32) : UInt32 := (v >>> n) ||| (v <<< (32 - n))

def rotate (p : Quad) (n : UInt32) : Quad :=
  ⟨rotateWord p.w n, rotateWord p.x n, rotateWord p.y n, rotateWord p.z n⟩

/-- Moves each word one place to the left, the first to the end. -/
def turn (p : Quad) : Quad := ⟨p.x, p.y, p.z, p.w⟩

def toList (p : Quad) : List UInt32 := [p.w, p.x, p.y, p.z]

end Quad

structure Square where
  a : Quad
  b : Quad
  c : Quad
  d : Quad
deriving DecidableEq, Repr

namespace Square

def mixColumns (s : Square) (m n : Quad) : Square :=
  let a := (s.a.add s.b).add m
  let d := (s.d.xor a).rotate 16
  let c := s.c.add d
  let b := (s.b.xor c).rotate 12
  let a := (a.add b).add n
  let d := (d.xor a).rotate 8
  let c := c.add d
  let b := (b.xor c).rotate 7
  ⟨a, b, c, d⟩

/-- Turns the rows so that the diagonals stand as columns. -/
def slant (s : Square) : Square := ⟨s.a, s.b.turn, s.c.turn.turn, s.d.turn.turn.turn⟩

def unslant (s : Square) : Square := ⟨s.a, s.b.turn.turn.turn, s.c.turn.turn, s.d.turn⟩

theorem unslant_slant (s : Square) : s.slant.unslant = s := rfl

/-- One round: the columns with the first eight message words, the diagonals with the last eight. -/
def mixRound (s : Square) (m : List UInt32) : Square :=
  let word := fun i => m.getD i 0
  let s := s.mixColumns ⟨word 0, word 2, word 4, word 6⟩ ⟨word 1, word 3, word 5, word 7⟩
  (s.slant.mixColumns ⟨word 8, word 10, word 12, word 14⟩
    ⟨word 9, word 11, word 13, word 15⟩).unslant

end Square

def wordOrder : List Nat := [2, 6, 3, 10, 7, 0, 4, 13, 1, 11, 12, 5, 9, 14, 15, 8]

def reorder (m : List UInt32) : List UInt32 := wordOrder.map (fun i => m.getD i 0)

def mixRounds : Nat → Square → List UInt32 → Square
  | 0, s, _ => s
  | n + 1, s, m => mixRounds n (s.mixRound m) (reorder m)

/-- Eight words that stand for all that has been absorbed so far. -/
structure Chain where
  lo : Quad
  hi : Quad
deriving DecidableEq, Repr

def initialChain : Chain :=
  ⟨⟨0x6A09E667, 0xBB67AE85, 0x3C6EF372, 0xA54FF53A⟩,
    ⟨0x510E527F, 0x9B05688C, 0x1F83D9AB, 0x5BE0CD19⟩⟩

/-- Absorbs sixteen message words: seven rounds on the chain, the initial words, the counter, the
number of bytes in the block and the flags, then the lower half of the square folded onto the
upper. -/
def compress (chain : Chain) (message : List UInt32) (counter : UInt64) (length flags : UInt32) :
    Chain :=
  let s := mixRounds 7
    ⟨chain.lo, chain.hi, initialChain.lo,
      ⟨counter.toUInt32, (counter >>> 32).toUInt32, length, flags⟩⟩ message
  ⟨s.a.xor s.c, s.b.xor s.d⟩

end Charter.Digest
