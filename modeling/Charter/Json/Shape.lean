import Charter.Json.Basic

/-! # Shapes of documents

How the library's own data stand in documents: a structure as an object with a member for each
field, or as an array of exactly its fields; a choice among names as a text, or as an object with
that name and nothing behind it; a missing or `null` field as nothing where it may be left out.
Members that a structure does not know are skipped, whatever they hold; a member it knows may not be
repeated. -/

namespace Charter.Json

/-- The fields of a structure with these names, in their order; a field may be missing from an
object. -/
def fields? (names : List String) : Json → Option (List (Option Json))
  | .obj members =>
    names.mapM (fun name => match members.filter (fun m => m.1 = name) with
      | [] => some none
      | [m] => some (some m.2)
      | _ => none)
  | .arr items => if items.length = names.length then some (items.map some) else none
  | _ => none

def needed? {α : Type} (read : Json → Option α) (field : Option Json) : Option α := field.bind read

/-- A field that may be missing or `null`. -/
def optional? {α : Type} (read : Json → Option α) : Option Json → Option (Option α)
  | none => some none
  | some .null => some none
  | some j => (read j).map some

def text? : Json → Option String
  | .str s => some s
  | _ => none

def truth? : Json → Option Bool
  | .bool b => some b
  | _ => none

/-- An integer from zero up to a bound, the bound left out. -/
def natBelow? (bound : Nat) : Json → Option Nat
  | .num (.int n) => if 0 ≤ n ∧ n < bound then some n.toNat else none
  | _ => none

def word64? (j : Json) : Option UInt64 := (natBelow? UInt64.size j).map UInt64.ofNat

def word32? (j : Json) : Option UInt32 := (natBelow? UInt32.size j).map UInt32.ofNat

def byte? (j : Json) : Option UInt8 := (natBelow? UInt8.size j).map UInt8.ofNat

/-- The document adds nothing to a name: it is `null` or, where that is allowed, an object without
members. -/
def addsNothing (lenient : Bool) : Json → Bool
  | .null => true
  | .obj [] => lenient
  | _ => false

def choice? {α : Type} (lenient : Bool) (all : List α) (name : α → String) : Json → Option α
  | .str s => all.find? (fun a => name a = s)
  | .obj [(s, rest)] => if addsNothing lenient rest then all.find? (fun a => name a = s) else none
  | _ => none

def list? {α : Type} (read : Json → Option α) : Json → Option (List α)
  | .arr items => items.mapM read
  | _ => none

def table? {α : Type} (read : Json → Option α) : Json → Option (Table String α)
  | .obj members => (members.mapM (fun m => (read m.2).map (fun a => (m.1, a)))).map Table.ofList
  | _ => none

def ofNat (n : Nat) : Json := .num (.int n)

def ofOption {α : Type} (write : α → Json) : Option α → Json
  | none => .null
  | some a => write a

def ofList {α : Type} (write : α → Json) (l : List α) : Json := .arr (l.map write)

def ofTable {α : Type} (write : α → Json) (t : Table String α) : Json :=
  .obj (t.map (fun e => (e.1, write e.2)))

end Charter.Json
