/-! # Hexadecimal text

Bytes written as two lower-case hexadecimal digits each, high half first; reading takes digits of
either case. -/

namespace Charter.Text

def hexDigit (n : Nat) : Char := if n < 10 then Char.ofNat (48 + n) else Char.ofNat (87 + n)

def hexValue? (c : Char) : Option Nat :=
  if '0' ≤ c ∧ c ≤ '9' then some (c.toNat - 48)
  else if 'a' ≤ c ∧ c ≤ 'f' then some (c.toNat - 87)
  else if 'A' ≤ c ∧ c ≤ 'F' then some (c.toNat - 55)
  else none

def hexOfBytes : List UInt8 → List Char
  | [] => []
  | b :: bs => hexDigit (b.toNat / 16) :: hexDigit (b.toNat % 16) :: hexOfBytes bs

/-- Reads bytes from an even number of digits. -/
def bytesOfHex? : List Char → Option (List UInt8)
  | [] => some []
  | [_] => none
  | h :: l :: s =>
    match hexValue? h, hexValue? l, bytesOfHex? s with
    | some h, some l, some bs => some (UInt8.ofNat (16 * h + l) :: bs)
    | _, _, _ => none

theorem hexValue?_hexDigit {n : Nat} (h : n < 16) : hexValue? (hexDigit n) = some n := by
  have all : ∀ i : Fin 16, hexValue? (hexDigit i) = some i.val := by decide
  exact all ⟨n, h⟩

theorem bytesOfHex?_hexOfBytes (bs : List UInt8) : bytesOfHex? (hexOfBytes bs) = some bs := by
  induction bs with
  | nil => rfl
  | cons b bs ih =>
    have hb := b.toNat_lt
    have hhi : b.toNat / 16 < 16 := by omega
    have hlo : b.toNat % 16 < 16 := by omega
    have hsum : 16 * (b.toNat / 16) + b.toNat % 16 = b.toNat := Nat.div_add_mod _ _
    simp [hexOfBytes, bytesOfHex?, hexValue?_hexDigit hhi, hexValue?_hexDigit hlo, ih, hsum]

theorem hexDigit_of_hexValue? {c : Char} {n : Nat} (h : hexValue? c = some n) :
    n < 16 ∧ hexDigit n = c.toLower := by
  have all : ∀ i : Fin 128, ∀ n ∈ hexValue? (Char.ofNat i), n < 16 ∧
      hexDigit n = (Char.ofNat i).toLower := by decide
  have hc : c.toNat < 128 := by
    have hle : ∀ limit : Char, c ≤ limit → c.toNat ≤ limit.toNat :=
      fun limit hlimit => UInt32.le_iff_toNat_le.mp hlimit
    unfold hexValue? at h
    split at h
    · rename_i hrange
      exact Nat.lt_of_le_of_lt (hle '9' hrange.2) (by decide)
    · split at h
      · rename_i hrange
        exact Nat.lt_of_le_of_lt (hle 'f' hrange.2) (by decide)
      · split at h
        · rename_i hrange
          exact Nat.lt_of_le_of_lt (hle 'F' hrange.2) (by decide)
        · cases h
  have hdigit := all ⟨c.toNat, hc⟩ n
  rw [Char.ofNat_toNat] at hdigit
  exact hdigit h

/-- What is read is written in lower case. -/
theorem hexOfBytes_of_bytesOfHex? {s : List Char} {bs : List UInt8} (h : bytesOfHex? s = some bs) :
    hexOfBytes bs = s.map Char.toLower := by
  fun_induction bytesOfHex? s generalizing bs with
  | case1 =>
    cases h
    rfl
  | case2 => cases h
  | case3 high low s hi lo bytes hbytes hlow hhigh ih =>
    obtain ⟨hhi, hdigit⟩ := hexDigit_of_hexValue? hhigh
    obtain ⟨hlo, hdigit'⟩ := hexDigit_of_hexValue? hlow
    have hbyte : (UInt8.ofNat (16 * hi + lo)).toNat = 16 * hi + lo := by
      rw [UInt8.toNat_ofNat']
      omega
    have hdiv : (16 * hi + lo) / 16 = hi := by omega
    have hmod : (16 * hi + lo) % 16 = lo := by omega
    cases h
    rw [hexOfBytes, hbyte, hdiv, hmod, hdigit, hdigit', ih hbytes, List.map_cons, List.map_cons]
  | case4 => cases h

end Charter.Text
