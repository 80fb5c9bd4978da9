import Charter.Json.Number
import Charter.Table

/-! # JSON documents

A document keeps the members of an object in the order in which they are written, repetitions
included. It may have parts that are well written but stand for nothing; they do no harm as long as
nobody asks for them. A *value* is a document in normal form: the members of each object ascend by
name without repetition and every part stands for something. The provisions of the live
configuration and the two values of an amendment are values. -/

namespace Charter

open Json (Number)

inductive Json where
  | null
  | bool (b : Bool)
  | num (n : Number)
  | str (s : String)
  | arr (items : List Json)
  | obj (members : List (String × Json))
  /-- A part that stands for nothing: a numeral beyond all numbers, or a text or an object's name
  with half a pair of surrogates. -/
  | unfit
deriving Repr

namespace Json

instance : Inhabited Json := ⟨.null⟩

mutual

/-- Equality of values: numbers by their numeric equality, all else part by part. -/
def same : Json → Json → Bool
  | .null, .null => true
  | .bool a, .bool b => a == b
  | .num a, .num b => a.same b
  | .str a, .str b => a == b
  | .arr a, .arr b => sameItems a b
  | .obj a, .obj b => sameMembers a b
  | .unfit, .unfit => true
  | _, _ => false

def sameItems : List Json → List Json → Bool
  | [], [] => true
  | a :: as, b :: bs => same a b && sameItems as bs
  | _, _ => false

def sameMembers : List (String × Json) → List (String × Json) → Bool
  | [], [] => true
  | (j, a) :: as, (k, b) :: bs => j == k && same a b && sameMembers as bs
  | _, _ => false

end

mutual

/-- Identity of documents, part by part. -/
def identical : Json → Json → Bool
  | .null, .null => true
  | .bool a, .bool b => a == b
  | .num a, .num b => decide (a = b)
  | .str a, .str b => a == b
  | .arr a, .arr b => identicalItems a b
  | .obj a, .obj b => identicalMembers a b
  | .unfit, .unfit => true
  | _, _ => false

def identicalItems : List Json → List Json → Bool
  | [], [] => true
  | a :: as, b :: bs => identical a b && identicalItems as bs
  | _, _ => false

def identicalMembers : List (String × Json) → List (String × Json) → Bool
  | [], [] => true
  | (j, a) :: as, (k, b) :: bs => j == k && identical a b && identicalMembers as bs
  | _, _ => false

end

mutual

theorem eq_of_identical : ∀ {a b : Json}, identical a b = true → a = b
  | .null, b, h => by cases b <;> simp [identical] at h ⊢
  | .bool a, b, h => by cases b <;> simp [identical] at h ⊢; exact h
  | .num a, b, h => by cases b <;> simp [identical] at h ⊢; exact h
  | .str a, b, h => by cases b <;> simp [identical] at h ⊢; exact h
  | .arr a, b, h => by
    cases b <;> simp [identical] at h ⊢
    exact eq_of_identicalItems h
  | .obj a, b, h => by
    cases b <;> simp [identical] at h ⊢
    exact eq_of_identicalMembers h
  | .unfit, b, h => by cases b <;> simp [identical] at h ⊢

theorem eq_of_identicalItems : ∀ {a b : List Json}, identicalItems a b = true → a = b
  | [], [], _ => rfl
  | a :: as, b :: bs, h => by
    simp [identicalItems] at h
    rw [eq_of_identical h.1, eq_of_identicalItems h.2]
  | [], _ :: _, h => by simp [identicalItems] at h
  | _ :: _, [], h => by simp [identicalItems] at h

theorem eq_of_identicalMembers :
    ∀ {a b : List (String × Json)}, identicalMembers a b = true → a = b
  | [], [], _ => rfl
  | (j, a) :: as, (k, b) :: bs, h => by
    simp [identicalMembers] at h
    rw [h.1.1, eq_of_identical h.1.2, eq_of_identicalMembers h.2]
  | [], _ :: _, h => by simp [identicalMembers] at h
  | _ :: _, [], h => by simp [identicalMembers] at h

end

mutual

theorem identical_self : ∀ a : Json, identical a a = true
  | .null | .bool _ | .num _ | .str _ | .unfit => by simp [identical]
  | .arr a => by simpa [identical] using identicalItems_self a
  | .obj a => by simpa [identical] using identicalMembers_self a

theorem identicalItems_self : ∀ a : List Json, identicalItems a a = true
  | [] => rfl
  | a :: as => by simp [identicalItems, identical_self a, identicalItems_self as]

theorem identicalMembers_self : ∀ a : List (String × Json), identicalMembers a a = true
  | [] => rfl
  | (_, a) :: as => by simp [identicalMembers, identical_self a, identicalMembers_self as]

end

instance : DecidableEq Json := fun a b =>
  decidable_of_iff (identical a b = true) ⟨eq_of_identical, fun h => h ▸ identical_self a⟩

mutual

/-- The value that a document stands for, if it is nested no deeper than a number of levels and all
its parts are fit: of members with one name the last counts. -/
def value? : Nat → Json → Option Json
  | _, .null => some .null
  | _, .bool b => some (.bool b)
  | _, .num n => some (.num n)
  | _, .str s => some (.str s)
  | d + 1, .arr items => (valueItems? d items).map .arr
  | d + 1, .obj members => (valueMembers? d members).map (fun ms => .obj (Table.ofList ms))
  | 0, .arr _ => none
  | 0, .obj _ => none
  | _, .unfit => none

def valueItems? : Nat → List Json → Option (List Json)
  | _, [] => some []
  | d, a :: as =>
    match value? d a, valueItems? d as with
    | some v, some vs => some (v :: vs)
    | _, _ => none

def valueMembers? : Nat → List (String × Json) → Option (List (String × Json))
  | _, [] => some []
  | d, (k, a) :: as =>
    match value? d a, valueMembers? d as with
    | some v, some vs => some ((k, v) :: vs)
    | _, _ => none

end

/-- How deeply a text may be nested where it is used. -/
def maxDepth : Nat := 127

/-- The document stands for a value: it is nested no deeper than a number of levels and all its
parts are fit. -/
def isFit (depth : Nat) (j : Json) : Bool := (value? depth j).isSome

def get? : Json → String → Option Json
  | .obj members, name => Table.get? members name
  | _, _ => none

def isObject : Json → Bool
  | .obj _ => true
  | _ => false

end Json

end Charter
