import Charter.Json.Basic
import Charter.Text.Blank

/-! # Provisions

A dotted name leads through nested objects to the value of a provision. Writing creates the objects
that are missing on the way, and is barred where something else than an object stands. -/

namespace Charter.Provision

def emptyObject : Json := .obj []

def read? : Json → List String → Option Json
  | j, [] => some j
  | j, s :: path => (j.get? s).bind (fun child => read? child path)

/-- The first segment of a path that leads to something else than an object, the last segment
left out. -/
def barrier? : Json → List String → Option String
  | _, [] => none
  | _, [_] => none
  | j, s :: path =>
    match j.get? s with
    | some child => if child.isObject then barrier? child path else some s
    | none => none

/-- The first segment that bars the way of a provision; the root counts as one. -/
def barred? (root : Json) (key : String) : Option String :=
  if root.isObject then barrier? root (Text.segments key) else some "<root>"

def writePath? : Json → List String → Json → Option Json
  | _, [], v => some v
  | .obj members, s :: path, v =>
    (match path with
      | [] => some v
      | _ => writePath? ((Table.get? members s).getD emptyObject) path v).map
      (fun child => .obj (Table.insert members s child))
  | _, _ :: _, _ => none

def write? (root : Json) (key : String) (v : Json) : Option Json :=
  writePath? root (Text.segments key) v

end Charter.Provision
