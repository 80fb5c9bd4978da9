import Charter.Json.Basic
import Charter.Json.Quoted

/-! # Writing JSON text

Two layouts: a compact one without blanks, and one with a line for each item and member, indented by
two blanks for each level, in which empty containers stay on their line. A part that stands for
nothing is written as a numeral beyond all numbers. -/

namespace Charter.Json

/-- A numeral that stands for nothing. -/
def unfitChars : List Char := "1e999".toList

def newline (level : Nat) : List Char := '\n' :: List.replicate (2 * level) ' '

mutual

/-- The document on lines of its own, its own parts indented one level more than it. -/
def prettyChars (level : Nat) : Json → List Char
  | .null => "null".toList
  | .bool true => "true".toList
  | .bool false => "false".toList
  | .num n => (Numeral.ofNumber n).text
  | .str s => Quoted.encode s.toList
  | .unfit => unfitChars
  | .arr [] => "[]".toList
  | .arr (a :: as) =>
    '[' :: (newline (level + 1) ++ prettyChars (level + 1) a ++ prettyItems (level + 1) as) ++
      newline level ++ [']']
  | .obj [] => ['{', '}']
  | .obj ((k, a) :: as) => '{' :: (newline (level + 1) ++ Quoted.encode k.toList ++ ": ".toList ++
      prettyChars (level + 1) a ++ prettyMembers (level + 1) as) ++ newline level ++ ['}']

def prettyItems (level : Nat) : List Json → List Char
  | [] => []
  | a :: as => ',' :: newline level ++ prettyChars level a ++ prettyItems level as

def prettyMembers (level : Nat) : List (String × Json) → List Char
  | [] => []
  | (k, a) :: as =>
    ',' :: newline level ++ Quoted.encode k.toList ++ ": ".toList ++ prettyChars level a ++
      prettyMembers level as

end

def pretty (j : Json) : String := String.ofList (prettyChars 0 j)

mutual

/-- The document without blanks. -/
def compactChars : Json → List Char
  | .null => "null".toList
  | .bool true => "true".toList
  | .bool false => "false".toList
  | .num n => (Numeral.ofNumber n).text
  | .str s => Quoted.encode s.toList
  | .unfit => unfitChars
  | .arr [] => "[]".toList
  | .arr (a :: as) => '[' :: (compactChars a ++ compactItems as) ++ [']']
  | .obj [] => ['{', '}']
  | .obj ((k, a) :: as) =>
    '{' :: (Quoted.encode k.toList ++ ':' :: compactChars a ++ compactMembers as) ++ ['}']

def compactItems : List Json → List Char
  | [] => []
  | a :: as => ',' :: compactChars a ++ compactItems as

def compactMembers : List (String × Json) → List Char
  | [] => []
  | (k, a) :: as => ',' :: Quoted.encode k.toList ++ ':' :: compactChars a ++ compactMembers as

end

def compact (j : Json) : String := String.ofList (compactChars j)

end Charter.Json
