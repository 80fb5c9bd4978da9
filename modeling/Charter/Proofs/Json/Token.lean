import Charter.Json.Printer
import Charter.Json.Token

/-! # The tokens of a written text

A document is written as a row of tokens with blanks between them, and scanning the text gives this
row back, whatever follows the document. Only a number must be told apart from what stands behind
it: it may not be followed by a character that would go on with it. -/

namespace Charter.Json

variable {c : Char} {s rest digits : List Char}

namespace Quoted

theorem unletter?_of_letter? {l : Char} (h : letter? c = some l) :
    unletter? l = some c.toNat ∧ l ≠ 'u' := by
  have hcode : ∀ n, c.toNat = n → c = Char.ofNat n := by
    rintro n rfl
    exact (Char.ofNat_toNat c).symm
  unfold letter? at h
  repeat' split at h
  all_goals cases h
  all_goals first
    | (rename_i hc; subst hc; decide)
    | (rename_i hc; rw [hcode _ hc]; decide)

theorem fourDigits?_hexDigit {n : Nat} (h : n < 0x20) :
    fourDigits? '0' '0' (Text.hexDigit (n / 16)) (Text.hexDigit (n % 16)) = some n := by
  have hhigh : Text.hexValue? (Text.hexDigit (n / 16)) = some (n / 16) :=
    Text.hexValue?_hexDigit (by omega)
  have hlow : Text.hexValue? (Text.hexDigit (n % 16)) = some (n % 16) :=
    Text.hexValue?_hexDigit (by omega)
  have hzero : Text.hexValue? '0' = some 0 := by decide
  simp only [fourDigits?, hzero, hhigh, hlow, Option.some.injEq]
  omega

theorem codes?_escape (c : Char) (s : List Char) :
    codes? (escape c ++ s) = (codes? s).map (fun r => (c.toNat :: r.1, r.2)) := by
  unfold escape
  split
  · rename_i l hl
    obtain ⟨hcode, hu⟩ := unletter?_of_letter? hl
    cases hs : codes? s <;> simp [codes?, hcode, hu, hs]
  · rename_i hl
    split
    · rename_i hcontrol
      have hcode := fourDigits?_hexDigit hcontrol
      cases hs : codes? s <;> simp [codes?, hcode, hs]
    · rename_i hplain
      have hquote : c ≠ '"' := by
        rintro rfl
        simp [letter?] at hl
      have hslash : c ≠ '\\' := by
        rintro rfl
        simp [letter?] at hl
      rw [List.singleton_append, codes?, if_neg (by simp [hplain, hslash])]
      · cases codes? s <;> rfl
      · exact hquote
      · exact fun _ _ _ _ _ hc _ => hslash hc
      · exact fun _ _ hc _ => hslash hc

theorem codes?_encode (cs s : List Char) :
    codes? (cs.flatMap escape ++ '"' :: s) = some (cs.map Char.toNat, s) := by
  induction cs with
  | nil => rfl
  | cons c cs ih =>
    rw [List.flatMap_cons, List.append_assoc, codes?_escape, ih, Option.map_some, List.map_cons]

theorem not_surrogate (c : Char) : ¬IsHigh c.toNat ∧ ¬IsLow c.toNat := by
  have hvalid : c.toNat < 0xD800 ∨ 0xDFFF < c.toNat ∧ c.toNat < 0x110000 := c.valid
  unfold IsHigh IsLow
  omega

theorem characters?_map_toNat (cs : List Char) : characters? (cs.map Char.toNat) = some cs := by
  induction cs with
  | nil => rfl
  | cons c cs ih =>
    obtain ⟨hhigh, hlow⟩ := not_surrogate c
    cases cs with
    | nil => simp [characters?, hhigh, hlow, Char.ofNat_toNat]
    | cons d cs =>
      rw [List.map_cons] at ih
      simp [characters?, hhigh, hlow, ih, Char.ofNat_toNat]

/-- Any text is read back from its written form. -/
theorem read?_encode (cs s : List Char) :
    read? (cs.flatMap escape ++ '"' :: s) = some (some cs, s) := by
  rw [read?, codes?_encode, Option.map_some, characters?_map_toNat]

end Quoted

namespace Numeral

/-- A numeral that ends before this text is not continued by it. -/
def Ends (s : List Char) : Prop := ∀ c ∈ s.head?, c.isDigit = false ∧ c ≠ '.' ∧ c ≠ 'e' ∧ c ≠ 'E'

theorem ends_nil : Ends [] := by
  intro c hc
  cases hc

theorem readDigits?_append (hdigits : ∀ c ∈ digits, c.isDigit = true) (hne : digits ≠ [])
    (hrest : Ends rest) :
    readDigits? (digits ++ rest) = some (digits, rest) := by
  have htake : rest.takeWhile Char.isDigit = [] ∧ rest.dropWhile Char.isDigit = rest := by
    cases rest with
    | nil => exact ⟨rfl, rfl⟩
    | cons c rest => simp [(hrest c rfl).1]
  simp [readDigits?, List.takeWhile_append_of_pos hdigits,
    List.dropWhile_append_of_pos hdigits, htake, hne]

/-- Only zero is written with a zero in front. -/
theorem head_toDigits {n : Nat} (h : 0 < n) : (Nat.toDigits 10 n).head? ≠ some '0' := by
  induction n using Nat.strongRecOn with
  | _ n ih =>
    rcases Nat.lt_or_ge n 10 with hlt | hge
    · have hdigit : ∀ i : Fin 10, i.val ≠ 0 → i.val.digitChar ≠ '0' := by decide
      rw [Nat.toDigits_of_lt_base hlt]
      simpa using hdigit ⟨n, hlt⟩ (by simp; omega)
    · have hfront := ih (n / 10) (by omega) (by omega)
      rw [Nat.toDigits_of_base_le (by decide) hge, List.head?_append]
      cases hhead : (Nat.toDigits 10 (n / 10)).head? with
      | none => exact absurd (List.head?_eq_none_iff.mp hhead) Nat.toDigits_ne_nil
      | some d => rwa [hhead] at hfront

theorem readWhole?_toDigits (n : Nat) (hrest : Ends rest) :
    readWhole? (Nat.toDigits 10 n ++ rest) = some (Nat.toDigits 10 n, rest) := by
  rcases Nat.eq_zero_or_pos n with rfl | hpos
  · rfl
  · have hread :=
      readDigits?_append (fun c hc => Nat.isDigit_of_mem_toDigits (by decide) (by decide) hc)
      (Nat.toDigits_ne_nil (n := n) (b := 10)) hrest
    have hhead := head_toDigits hpos
    unfold readWhole?
    split
    · rename_i t ht
      cases hdigits : Nat.toDigits 10 n with
      | nil => exact absurd hdigits Nat.toDigits_ne_nil
      | cons d ds =>
        rw [hdigits] at ht hhead
        simp only [List.cons_append, List.cons.injEq] at ht
        simp [ht.1] at hhead
    · exact hread

theorem readUnsigned?_toDigits (negative : Bool) (n : Nat) (hrest : Ends rest) :
    readUnsigned? negative (Nat.toDigits 10 n ++ rest) =
      some (⟨negative, Nat.toDigits 10 n, none, none⟩, rest) := by
  have hfraction : readFraction? rest = some (none, rest) := by
    unfold readFraction?
    split
    · exact absurd rfl (hrest '.' rfl).2.1
    · rfl
  have hexponent : readExponent? rest = some (none, rest) := by
    unfold readExponent?
    split
    · exact absurd rfl (hrest 'e' rfl).2.2.1
    · exact absurd rfl (hrest 'E' rfl).2.2.2
    · rfl
  simp [readUnsigned?, readWhole?_toDigits n hrest, hfraction, hexponent]

theorem text_ofInt (n : Int) :
    (ofInt n).text = (if n < 0 then ['-'] else []) ++ Nat.toDigits 10 n.natAbs := by
  simp [ofInt, text]

theorem exists_toDigits_eq_cons (n : Nat) :
    ∃ d ds, Nat.toDigits 10 n = d :: ds ∧ d.isDigit = true := by
  cases hdigits : Nat.toDigits 10 n with
  | nil => exact absurd hdigits Nat.toDigits_ne_nil
  | cons d ds =>
    have hmem : d ∈ Nat.toDigits 10 n := hdigits ▸ List.mem_cons_self
    exact ⟨d, ds, rfl, Nat.isDigit_of_mem_toDigits (by decide) (by decide) hmem⟩

theorem read?_text_ofInt (n : Int) (hrest : Ends rest) :
    read? ((ofInt n).text ++ rest) = some (ofInt n, rest) := by
  have hread := readUnsigned?_toDigits (decide (n < 0)) n.natAbs hrest
  rw [text_ofInt]
  by_cases hneg : n < 0
  · rw [if_pos hneg, List.singleton_append, List.cons_append, read?]
    simpa [ofInt, hneg] using hread
  · obtain ⟨d, ds, hdigits, hd⟩ := exists_toDigits_eq_cons n.natAbs
    have hminus : d ≠ '-' := by
      rintro rfl
      exact absurd hd (by decide)
    rw [if_neg hneg, List.nil_append]
    rw [hdigits, List.cons_append] at hread ⊢
    rw [read?]
    · simpa [ofInt, hneg, hdigits] using hread
    · simpa using hminus

theorem number?_ofInt {n : Int} (h : Number.IsWord n) : (ofInt n).number? = some (.int n) := by
  have hint : (ofInt n).int? = some n := by
    simp only [ofInt, int?, Nat.ofDigitChars_ten_toDigits, and_self, if_true, decide_eq_true_eq]
    split
    · rename_i hneg
      rw [if_neg (by omega)]
      congr 1
      omega
    · congr 1
      omega
  simp [number?, hint, h]

end Numeral

namespace Token

variable {t : Token} {ts us : List Token}

/-- The text starts with these tokens, and `rest` is what is left to scan behind them. -/
def StartsWith (s : List Char) (ts : List Token) (rest : List Char) : Prop :=
  scan? s = (scan? rest).map (ts ++ ·)

theorem StartsWith.refl (s : List Char) : StartsWith s [] s := by
  simp [StartsWith]

theorem StartsWith.trans {middle : List Char} (h : StartsWith s ts middle)
    (h' : StartsWith middle us rest) :
    StartsWith s (ts ++ us) rest := by
  rw [StartsWith, h, h', Option.map_map]
  simp [Function.comp_def]

theorem startsWith_of_isSpace (h : isSpace c = true) : StartsWith (c :: s) [] s := by
  simp [StartsWith, scan?, h]

theorem startsWith_of_next? (hspace : isSpace c = false) (h : next? c s = some (t, rest)) :
    StartsWith (c :: s) [t] rest := by
  rw [StartsWith, scan?, if_neg (by simp [hspace])]
  split
  · rename_i hnone
    rw [h] at hnone
    cases hnone
  · rename_i t' rest' hsome
    rw [h] at hsome
    cases hsome
    rfl

theorem startsWith_newline (level : Nat) (s : List Char) :
    StartsWith (newline level ++ s) [] s := by
  have hblanks : ∀ n, StartsWith (List.replicate n ' ' ++ s) [] s := by
    intro n
    induction n with
    | zero => exact .refl s
    | succ n ih => exact (startsWith_of_isSpace rfl).trans ih
  exact (startsWith_of_isSpace rfl).trans (hblanks _)

theorem startsWith_encode (k : String) (s : List Char) :
    StartsWith (Quoted.encode k.toList ++ s) [.str (some k)] s := by
  have hread := Quoted.read?_encode k.toList s
  have hnext : next? '"' (k.toList.flatMap Quoted.escape ++ '"' :: s) =
      some (.str (some k), s) := by
    simp [next?, hread, String.ofList_toList]
  rw [Quoted.encode, List.append_assoc, List.cons_append]
  exact startsWith_of_next? rfl hnext

theorem startsWith_colon (s : List Char) : StartsWith (": ".toList ++ s) [.colon] s :=
  (startsWith_of_next? rfl rfl).trans (startsWith_of_isSpace rfl)

theorem ne_of_isDigit {d : Char} (h : c.isDigit = true ∨ c = '-') (hd : d.isDigit = false)
    (hminus : d ≠ '-') : c ≠ d := by
  rintro rfl
  rcases h with h | h
  · rw [hd] at h
    cases h
  · exact hminus h

theorem next?_of_isDigit (h : c.isDigit = true ∨ c = '-') (s : List Char) :
    next? c s = (Numeral.read? (c :: s)).map (fun r => (.num r.1.number?, r.2)) := by
  have hne : ∀ d : Char, d.isDigit = false → d ≠ '-' → c ≠ d := fun d => ne_of_isDigit h
  simp [next?, hne '[', hne ']', hne '{', hne '}', hne ',', hne ':', hne '"', hne 'n',
    hne 't', hne 'f']

theorem startsWith_ofInt {n : Int} (h : Number.IsWord n) (hs : Numeral.Ends s) :
    StartsWith ((Numeral.ofInt n).text ++ s) [.num (some (.int n))] s := by
  have hread := Numeral.read?_text_ofInt n hs
  have hstart : ∃ c t, (Numeral.ofInt n).text = c :: t ∧ (c.isDigit = true ∨ c = '-') := by
    obtain ⟨d, ds, hdigits, hd⟩ := Numeral.exists_toDigits_eq_cons n.natAbs
    rw [Numeral.text_ofInt, hdigits]
    split
    · exact ⟨'-', d :: ds, rfl, .inr rfl⟩
    · exact ⟨d, ds, rfl, .inl hd⟩
  obtain ⟨c, t, htext, hc⟩ := hstart
  rw [htext, List.cons_append] at hread ⊢
  have hspace : isSpace c = false := by
    simp [isSpace, ne_of_isDigit hc]
  refine startsWith_of_next? hspace ?_
  rw [next?_of_isDigit hc, hread, Option.map_some, Numeral.number?_ofInt h]

end Token

mutual

/-- Every part of the document is fit, and every number in it is an integer of 64 bits. -/
def isIntegral : Json → Bool
  | .null | .bool _ | .str _ => true
  | .num (.int n) => decide (Number.IsWord n)
  | .num (.float _) => false
  | .unfit => false
  | .arr items => areIntegral items
  | .obj members => haveIntegral members

def areIntegral : List Json → Bool
  | [] => true
  | a :: as => isIntegral a && areIntegral as

def haveIntegral : List (String × Json) → Bool
  | [] => true
  | (_, a) :: as => isIntegral a && haveIntegral as

end

mutual

def tokens : Json → List Token
  | .null => [.null]
  | .bool b => [.bool b]
  | .num n => [.num (some n)]
  | .str s => [.str (some s)]
  | .unfit => [.num none]
  | .arr [] => [.openArr, .closeArr]
  | .arr (a :: as) => .openArr :: (tokens a ++ (itemTokens as ++ [.closeArr]))
  | .obj [] => [.openObj, .closeObj]
  | .obj ((k, a) :: as) =>
    .openObj :: .str (some k) :: .colon :: (tokens a ++ (memberTokens as ++ [.closeObj]))

def itemTokens : List Json → List Token
  | [] => []
  | a :: as => .comma :: (tokens a ++ itemTokens as)

def memberTokens : List (String × Json) → List Token
  | [] => []
  | (k, a) :: as => .comma :: .str (some k) :: .colon :: (tokens a ++ memberTokens as)

end

namespace Token

theorem ends_newline (level : Nat) (s : List Char) : Numeral.Ends (newline level ++ s) := by
  intro c hc
  cases hc
  decide

theorem ends_prettyItems (level : Nat) (items : List Json) (hs : Numeral.Ends s) :
    Numeral.Ends (prettyItems level items ++ s) := by
  cases items with
  | nil => exact hs
  | cons a as =>
    intro c hc
    cases hc
    decide

theorem ends_prettyMembers (level : Nat) (members : List (String × Json)) (hs : Numeral.Ends s) :
    Numeral.Ends (prettyMembers level members ++ s) := by
  cases members with
  | nil => exact hs
  | cons a as =>
    intro c hc
    cases hc
    decide

mutual

/-- A written document starts with its tokens, if what follows does not go on with a number. -/
theorem startsWith_prettyChars : ∀ (level : Nat) (j : Json) (s : List Char), j.isIntegral = true →
    Numeral.Ends s →
    StartsWith (prettyChars level j ++ s) j.tokens s
  | _, .null, _, _, _ => startsWith_of_next? rfl rfl
  | _, .bool true, _, _, _ => startsWith_of_next? rfl rfl
  | _, .bool false, _, _, _ => startsWith_of_next? rfl rfl
  | _, .num (.int _), _, hj, hs => startsWith_ofInt (of_decide_eq_true hj) hs
  | _, .str k, s, _, _ => startsWith_encode k s
  | level, .arr [], s, _, _ => by
    have hopen : StartsWith ('[' :: ']' :: s) [.openArr] (']' :: s) := startsWith_of_next? rfl rfl
    exact hopen.trans (startsWith_of_next? rfl rfl)
  | level, .arr (a :: as), s, hj, _ => by
    have hparts : a.isIntegral = true ∧ areIntegral as = true := by
      simpa [isIntegral, areIntegral] using hj
    have hopen : ∀ s, StartsWith ('[' :: s) [.openArr] s := fun s => startsWith_of_next? rfl rfl
    have hclose : StartsWith (newline level ++ ']' :: s) [.closeArr] s :=
      (startsWith_newline level _).trans (startsWith_of_next? rfl rfl)
    have hitems := startsWith_prettyItems (level + 1) as _ hparts.2 (ends_newline level (']' :: s))
    have hfirst := startsWith_prettyChars (level + 1) a _ hparts.1
      (ends_prettyItems (level + 1) as (ends_newline level (']' :: s)))
    have hall := (hopen _).trans
      ((startsWith_newline (level + 1) _).trans (hfirst.trans (hitems.trans hclose)))
    simpa [prettyChars, tokens] using hall
  | level, .obj [], s, _, _ => by
    have hopen : StartsWith ('{' :: '}' :: s) [.openObj] ('}' :: s) := startsWith_of_next? rfl rfl
    exact hopen.trans (startsWith_of_next? rfl rfl)
  | level, .obj ((k, a) :: as), s, hj, _ => by
    have hparts : a.isIntegral = true ∧ haveIntegral as = true := by
      simpa [isIntegral, haveIntegral] using hj
    have hopen : ∀ s, StartsWith ('{' :: s) [.openObj] s := fun s => startsWith_of_next? rfl rfl
    have hclose : StartsWith (newline level ++ '}' :: s) [.closeObj] s :=
      (startsWith_newline level _).trans (startsWith_of_next? rfl rfl)
    have hmembers :=
      startsWith_prettyMembers (level + 1) as _ hparts.2 (ends_newline level ('}' :: s))
    have hfirst := startsWith_prettyChars (level + 1) a _ hparts.1
      (ends_prettyMembers (level + 1) as (ends_newline level ('}' :: s)))
    have hname := (startsWith_encode k _).trans ((startsWith_colon _).trans hfirst)
    have hall := (hopen _).trans
      ((startsWith_newline (level + 1) _).trans (hname.trans (hmembers.trans hclose)))
    simpa [prettyChars, tokens] using hall

theorem startsWith_prettyItems :
    ∀ (level : Nat) (items : List Json) (s : List Char), areIntegral items = true →
    Numeral.Ends s → StartsWith (prettyItems level items ++ s) (itemTokens items) s
  | _, [], s, _, _ => .refl s
  | level, a :: as, s, h, hs => by
    have hparts : a.isIntegral = true ∧ areIntegral as = true := by simpa [areIntegral] using h
    have hcomma : ∀ s, StartsWith (',' :: s) [.comma] s := fun s => startsWith_of_next? rfl rfl
    have hfirst := startsWith_prettyChars level a _ hparts.1 (ends_prettyItems level as hs)
    have hall := (startsWith_newline level _).trans
      (hfirst.trans (startsWith_prettyItems level as s hparts.2 hs))
    simpa [prettyItems, itemTokens] using (hcomma _).trans hall

theorem startsWith_prettyMembers : ∀ (level : Nat) (members : List (String × Json)) (s : List Char),
    haveIntegral members = true → Numeral.Ends s →
      StartsWith (prettyMembers level members ++ s) (memberTokens members) s
  | _, [], s, _, _ => .refl s
  | level, (k, a) :: as, s, h, hs => by
    have hparts : a.isIntegral = true ∧ haveIntegral as = true := by simpa [haveIntegral] using h
    have hcomma : ∀ s, StartsWith (',' :: s) [.comma] s := fun s => startsWith_of_next? rfl rfl
    have hfirst := startsWith_prettyChars level a _ hparts.1 (ends_prettyMembers level as hs)
    have hname := (startsWith_encode k _).trans ((startsWith_colon _).trans hfirst)
    have hall := (startsWith_newline level _).trans
      (hname.trans (startsWith_prettyMembers level as s hparts.2 hs))
    simpa [prettyMembers, memberTokens] using (hcomma _).trans hall

end

theorem scan?_pretty {j : Json} (h : j.isIntegral = true) :
    scan? j.pretty.toList = some j.tokens := by
  have hstarts := startsWith_prettyChars 0 j [] h Numeral.ends_nil
  rw [StartsWith, List.append_nil] at hstarts
  rw [pretty, String.toList_ofList, hstarts]
  simp [scan?]

end Token

end Charter.Json
