import Charter.Digest.Square
import Charter.Text.Hex

/-! # Digests

The digest of a list of bytes is 32 bytes. Bytes are taken in chunks of 1024, a chunk in blocks of
64 through one chain of compressions; the chunks are the leaves of a binary tree whose left subtrees
are as large as a power of two allows, and the two chains of a node's children are one block. The
last compression, at the root, is marked as such. -/

namespace Charter

structure Digest where
  /-- The bytes in order. -/
  bytes : List UInt8
  /-- There are thirty-two of them. -/
  length_bytes : bytes.length = 32
deriving DecidableEq, Repr

namespace Digest

def chunkStart : UInt32 := 1
def chunkEnd : UInt32 := 2
def parentNode : UInt32 := 4
def rootNode : UInt32 := 8

/-- A compression that has not been carried out yet, because it is not known whether it is the
last. -/
structure Pending where
  chain : Chain
  message : List UInt32
  counter : UInt64
  length : UInt32
  flags : UInt32
deriving DecidableEq, Repr

def Pending.inner (p : Pending) : Chain := compress p.chain p.message p.counter p.length p.flags

def Pending.root (p : Pending) : Chain :=
  compress p.chain p.message 0 p.length (p.flags ||| rootNode)

def wordOfBytes (a b c d : UInt8) : UInt32 :=
  a.toUInt32 ||| (b.toUInt32 <<< 8) ||| (c.toUInt32 <<< 16) ||| (d.toUInt32 <<< 24)

def bytesOfWord (v : UInt32) : List UInt8 :=
  [v.toUInt8, (v >>> 8).toUInt8, (v >>> 16).toUInt8, (v >>> 24).toUInt8]

/-- The first words of a list of bytes, with zeros after its end. -/
def wordsOfBytes : Nat → List UInt8 → List UInt32
  | 0, _ => []
  | n + 1, bs =>
    wordOfBytes (bs.getD 0 0) (bs.getD 1 0) (bs.getD 2 0) (bs.getD 3 0) ::
      wordsOfBytes n (bs.drop 4)

/-- Takes the blocks of a chunk through the chain and leaves the last block pending. -/
def absorb (counter : UInt64) (chain : Chain) (start : UInt32) (bytes : List UInt8) : Pending :=
  if 64 < bytes.length then
    absorb counter (compress chain (wordsOfBytes 16 (bytes.take 64)) counter 64 start) 0
      (bytes.drop 64)
  else
    ⟨chain, wordsOfBytes 16 bytes, counter, UInt32.ofNat bytes.length, start ||| chunkEnd⟩
termination_by bytes.length
decreasing_by simp; omega

/-- How many of more than 1024 bytes go to the left: the largest power of two of whole chunks that
leaves some over. -/
def leftLength (length : Nat) : Nat := 1024 * Nat.pow 2 ((length - 1) / 1024).log2

theorem leftLength_bounds {n : Nat} (h : 1024 < n) : 0 < leftLength n ∧ leftLength n < n := by
  have hpos : (n - 1) / 1024 ≠ 0 := by omega
  have hle : Nat.pow 2 ((n - 1) / 1024).log2 ≤ (n - 1) / 1024 := Nat.log2_self_le hpos
  have hp : 0 < Nat.pow 2 ((n - 1) / 1024).log2 := Nat.two_pow_pos _
  unfold leftLength
  omega

/-- The node over some bytes, the first of which belong to the chunk of this number. -/
def node (counter : UInt64) (bytes : List UInt8) : Pending :=
  if h : 1024 < bytes.length then
    let left := leftLength bytes.length
    have := leftLength_bounds h
    let l := (node counter (bytes.take left)).inner
    let r := (node (counter + UInt64.ofNat (left / 1024)) (bytes.drop left)).inner
    ⟨initialChain, l.lo.toList ++ l.hi.toList ++ r.lo.toList ++ r.hi.toList, 0, 64, parentNode⟩
  else absorb counter initialChain chunkStart bytes
termination_by bytes.length
decreasing_by
  · rw [List.length_take]
    omega
  · rw [List.length_drop]
    omega

def ofChain (c : Chain) : Digest where
  bytes := (c.lo.toList ++ c.hi.toList).flatMap bytesOfWord
  length_bytes := by simp [Quad.toList, bytesOfWord]

def ofBytes (bytes : List UInt8) : Digest := ofChain (node 0 bytes).root

def hex (d : Digest) : String := String.ofList (Text.hexOfBytes d.bytes)

/-- The first sixteen digits, enough to tell digests apart by eye. -/
def short (d : Digest) : String := String.ofList (Text.hexOfBytes (d.bytes.take 8))

def ofList? (bytes : List UInt8) : Option Digest :=
  if h : bytes.length = 32 then some ⟨bytes, h⟩ else none

def ofHex? (s : String) : Option Digest := (Text.bytesOfHex? s.toList).bind ofList?

theorem ofHex?_hex (d : Digest) : ofHex? d.hex = some d := by
  simp [ofHex?, hex, Text.bytesOfHex?_hexOfBytes, ofList?, d.length_bytes]

/-- The digits that were read, in lower case. -/
theorem hex_of_ofHex? {s : String} {d : Digest} (h : ofHex? s = some d) : d.hex = s.toLower := by
  obtain ⟨bytes, hbytes, hd⟩ := Option.bind_eq_some_iff.mp h
  unfold ofList? at hd
  split at hd
  · have hlower : s.toLower = s.map Char.toLower := rfl
    cases hd
    rw [hex, Text.hexOfBytes_of_bytesOfHex? hbytes, hlower, ← String.toList_map,
      String.ofList_toList]
  · cases hd

end Digest

end Charter
