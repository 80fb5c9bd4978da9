import Charter.Json.Reader
import Charter.Proofs.Json.Token
import Charter.Proofs.Table

/-! # Written documents read back

The tokens of a document build it again, whatever is open around it. Hence the text of a document
whose numbers are integers reads back as the document. A document is the value it stands for if the
names of each object ascend and it is not nested too deeply. -/

namespace Charter.Json

theorem exists_tokens_eq_cons (j : Json) : ∃ t ts, j.tokens = t :: ts ∧ t ≠ .closeArr := by
  cases j with
  | arr items => cases items <;> simp [tokens]
  | obj members => rcases members with _ | ⟨_, _⟩ <;> simp [tokens]
  | _ => simp [tokens]

theorem build?_firstItem (j : Json) (frames : List Frame) (ts : List Token) :
    build? .firstItem frames (j.tokens ++ ts) =
      build? .value (.items [] :: frames) (j.tokens ++ ts) := by
  obtain ⟨t, rest, htokens, hne⟩ := j.exists_tokens_eq_cons
  rw [htokens, List.cons_append]
  cases t <;> first | rfl | exact absurd rfl hne

theorem object_map_some (members : List (String × Json)) :
    object (members.map (fun m => (some m.1, m.2))) = .obj members := by
  have hnames : (members.map (fun m => (some m.1, m.2))).mapM
      (fun m => m.1.map (fun name => (name, m.2))) = some members := by
    induction members with
    | nil => rfl
    | cons m members ih => simp [ih]
  rw [object, hnames]

mutual

/-- The tokens of a document build it, whatever is open around it and whatever follows. -/
theorem build?_tokens : ∀ (j : Json) (frames : List Frame) (ts : List Token),
    build? .value frames (j.tokens ++ ts) = build? (.after j) frames ts
  | .null, _, _ | .bool _, _, _ | .num _, _, _ | .str _, _, _ | .unfit, _, _ | .arr [], _, _
  | .obj [], _, _ => rfl
  | .arr (a :: as), frames, ts => calc
      build? .value frames ((Json.arr (a :: as)).tokens ++ ts)
        = build? .firstItem frames (a.tokens ++ (itemTokens as ++ .closeArr :: ts)) := by
          simp [tokens, build?, advance?, begin?]
      _ = build? .value (.items [] :: frames) (a.tokens ++ (itemTokens as ++ .closeArr :: ts)) :=
        build?_firstItem a _ _
      _ = build? (.after a) (.items [] :: frames) (itemTokens as ++ .closeArr :: ts) :=
        build?_tokens a _ _
      _ = build? (.after (.arr (a :: as))) frames ts := build?_itemTokens as a [] frames ts
  | .obj ((k, a) :: as), frames, ts => calc
      build? .value frames ((Json.obj ((k, a) :: as)).tokens ++ ts)
        = build? .value (.member [] (some k) :: frames)
            (a.tokens ++ (memberTokens as ++ .closeObj :: ts)) := by
          simp [tokens, build?, advance?, begin?]
      _ = build? (.after a) (.member [] (some k) :: frames) (memberTokens as ++ .closeObj :: ts) :=
        build?_tokens a _ _
      _ = build? (.after (.obj ((k, a) :: as))) frames ts := build?_memberTokens as k a [] frames ts

theorem build?_itemTokens :
    ∀ (items : List Json) (j : Json) (done : List Json) (frames : List Frame) (ts : List Token),
    build? (.after j) (.items done :: frames) (itemTokens items ++ .closeArr :: ts) =
      build? (.after (.arr ((j :: done).reverse ++ items))) frames ts
  | [], j, done, frames, ts => by simp [itemTokens, build?, advance?]
  | a :: as, j, done, frames, ts => calc
      build? (.after j) (.items done :: frames) (itemTokens (a :: as) ++ .closeArr :: ts)
        = build? .value (.items (j :: done) :: frames)
            (a.tokens ++ (itemTokens as ++ .closeArr :: ts)) := by
          simp [itemTokens, build?, advance?]
      _ = build? (.after a) (.items (j :: done) :: frames) (itemTokens as ++ .closeArr :: ts) :=
        build?_tokens a _ _
      _ = build? (.after (.arr ((a :: j :: done).reverse ++ as))) frames ts :=
        build?_itemTokens as a (j :: done) frames ts
      _ = build? (.after (.arr ((j :: done).reverse ++ a :: as))) frames ts := by simp

theorem build?_memberTokens :
    ∀ (members : List (String × Json)) (k : String) (j : Json) (done : List (String × Json))
    (frames : List Frame) (ts : List Token),
    build? (.after j) (.member (done.map (fun m => (some m.1, m.2))) (some k) :: frames)
        (memberTokens members ++ .closeObj :: ts) =
      build? (.after (.obj (((k, j) :: done).reverse ++ members))) frames ts
  | [], k, j, done, frames, ts => by
    have hobject : object ((some k, j) :: done.map (fun m => (some m.1, m.2))).reverse =
        .obj ((k, j) :: done).reverse := by
      rw [← object_map_some, List.map_reverse]
      rfl
    rw [List.append_nil, ← hobject]
    rfl
  | (l, a) :: as, k, j, done, frames, ts => calc
      build? (.after j) (.member (done.map (fun m => (some m.1, m.2))) (some k) :: frames)
          (memberTokens ((l, a) :: as) ++ .closeObj :: ts)
        = build? .value
            (.member (((k, j) :: done).map (fun m => (some m.1, m.2))) (some l) :: frames)
            (a.tokens ++ (memberTokens as ++ .closeObj :: ts)) := by
          simp [memberTokens, build?, advance?]
      _ = build? (.after a)
        (.member (((k, j) :: done).map (fun m => (some m.1, m.2))) (some l) :: frames)
            (memberTokens as ++ .closeObj :: ts) := build?_tokens a _ _
      _ = build? (.after (.obj (((l, a) :: (k, j) :: done).reverse ++ as))) frames ts :=
          build?_memberTokens as l a ((k, j) :: done) frames ts
      _ = build? (.after (.obj (((k, j) :: done).reverse ++ (l, a) :: as))) frames ts := by simp

end

/-- A document whose numbers are integers is read back from its text. -/
theorem ofText?_pretty {j : Json} (h : j.isIntegral = true) : ofText? j.pretty = some j := by
  have hbuild := build?_tokens j [] []
  rw [List.append_nil] at hbuild
  rw [ofText?, Token.scan?_pretty h]
  exact hbuild

instance {κ ν : Type} [LT κ] [DecidableLT κ] (t : Table κ ν) : Decidable t.Ascending :=
  inferInstanceAs (Decidable (List.Pairwise _ _))

mutual

/-- The document is a value: the names of each object ascend without repetition, and every part
is fit. -/
def isValue : Json → Bool
  | .null | .bool _ | .num _ | .str _ => true
  | .unfit => false
  | .arr items => areValues items
  | .obj members => decide (Table.Ascending members) && haveValues members

def areValues : List Json → Bool
  | [] => true
  | a :: as => isValue a && areValues as

def haveValues : List (String × Json) → Bool
  | [] => true
  | (_, a) :: as => isValue a && haveValues as

end

mutual

/-- The number of containers that the innermost part of a document stands in. -/
def depth : Json → Nat
  | .null | .bool _ | .num _ | .str _ | .unfit => 0
  | .arr items => itemsDepth items + 1
  | .obj members => membersDepth members + 1

def itemsDepth : List Json → Nat
  | [] => 0
  | a :: as => max (depth a) (itemsDepth as)

def membersDepth : List (String × Json) → Nat
  | [] => 0
  | (_, a) :: as => max (depth a) (membersDepth as)

end

mutual

theorem value?_of_isValue : ∀ (d : Nat) (j : Json), j.isValue = true →
    value? d j = if j.depth ≤ d then some j else none
  | d, .null, _ | d, .bool _, _ | d, .num _, _ | d, .str _, _ => by cases d <;> rfl
  | 0, .arr items, _ => rfl
  | 0, .obj members, _ => rfl
  | d + 1, .arr items, h => by
    rw [value?, valueItems?_of_areValues d items h, depth]
    split
    · rw [if_pos (by omega), Option.map_some]
    · rw [if_neg (by omega), Option.map_none]
  | d + 1, .obj members, h => by
    obtain ⟨hascending, hvalues⟩ : Table.Ascending members ∧ haveValues members = true := by
      simpa [isValue] using h
    rw [value?, valueMembers?_of_haveValues d members hvalues, depth]
    split
    · rw [if_pos (by omega), Option.map_some, Table.ofList_of_ascending hascending]
    · rw [if_neg (by omega), Option.map_none]

theorem valueItems?_of_areValues : ∀ (d : Nat) (items : List Json), areValues items = true →
    valueItems? d items = if itemsDepth items ≤ d then some items else none
  | d, [], _ => by simp [valueItems?, itemsDepth]
  | d, a :: as, h => by
    obtain ⟨ha, has⟩ : a.isValue = true ∧ areValues as = true := by simpa [areValues] using h
    simp only [valueItems?, value?_of_isValue d a ha, valueItems?_of_areValues d as has,
      itemsDepth, Nat.max_le]
    by_cases h₁ : a.depth ≤ d <;> by_cases h₂ : itemsDepth as ≤ d <;> simp [h₁, h₂]

theorem valueMembers?_of_haveValues :
    ∀ (d : Nat) (members : List (String × Json)), haveValues members = true →
    valueMembers? d members = if membersDepth members ≤ d then some members else none
  | d, [], _ => by simp [valueMembers?, membersDepth]
  | d, (k, a) :: as, h => by
    obtain ⟨ha, has⟩ : a.isValue = true ∧ haveValues as = true := by simpa [haveValues] using h
    simp only [valueMembers?, value?_of_isValue d a ha, valueMembers?_of_haveValues d as has,
      membersDepth, Nat.max_le]
    by_cases h₁ : a.depth ≤ d <;> by_cases h₂ : membersDepth as ≤ d <;> simp [h₁, h₂]

end

end Charter.Json
