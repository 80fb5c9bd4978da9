import Charter.Json.Basic
import Charter.Json.Token

/-! # Reading JSON text

A document is built from its tokens one at a time. What has been begun and not closed yet is a stack
of frames, and a mode says what may come next. -/

namespace Charter.Json

/-- A container that is still open, with its parts so far, the last first. -/
inductive Frame where
  | items (done : List Json)
  /-- The value of the member with this name is being read; the name is missing if it is no text. -/
  | member (done : List (Option String × Json)) (name : Option String)
deriving Repr

inductive Mode where
  /-- A document. -/
  | value
  /-- The first item of an array, or its end. -/
  | firstItem
  /-- The name of the first member of an object, or its end. -/
  | firstName
  /-- The name of a further member, after these. -/
  | name (done : List (Option String × Json))
  /-- The colon behind a name. -/
  | colon (done : List (Option String × Json)) (name : Option String)
  /-- What follows a document that is complete. -/
  | after (j : Json)
deriving Repr

/-- The object with these members; it is unfit if a name among them is missing. -/
def object (members : List (Option String × Json)) : Json :=
  match members.mapM (fun m => m.1.map (fun name => (name, m.2))) with
  | some members => .obj members
  | none => .unfit

def begin? (frames : List Frame) : Token → Option (Mode × List Frame)
  | .openArr => some (.firstItem, frames)
  | .openObj => some (.firstName, frames)
  | .null => some (.after .null, frames)
  | .bool b => some (.after (.bool b), frames)
  | .num n => some (.after ((n.map Json.num).getD .unfit), frames)
  | .str s => some (.after ((s.map Json.str).getD .unfit), frames)
  | _ => none

def advance? : Mode → List Frame → Token → Option (Mode × List Frame)
  | .value, frames, t => begin? frames t
  | .firstItem, frames, .closeArr => some (.after (.arr []), frames)
  | .firstItem, frames, t => begin? (.items [] :: frames) t
  | .firstName, frames, .closeObj => some (.after (.obj []), frames)
  | .firstName, frames, .str k => some (.colon [] k, frames)
  | .name done, frames, .str k => some (.colon done k, frames)
  | .colon done k, frames, .colon => some (.value, .member done k :: frames)
  | .after j, .items done :: frames, .comma => some (.value, .items (j :: done) :: frames)
  | .after j, .items done :: frames, .closeArr => some (.after (.arr (j :: done).reverse), frames)
  | .after j, .member done k :: frames, .comma => some (.name ((k, j) :: done), frames)
  | .after j, .member done k :: frames, .closeObj =>
    some (.after (object ((k, j) :: done).reverse), frames)
  | _, _, _ => none

/-- Takes tokens to the end, where one document must be complete and nothing open. -/
def build? : Mode → List Frame → List Token → Option Json
  | .after j, [], [] => some j
  | _, _, [] => none
  | mode, frames, t :: ts =>
    match advance? mode frames t with
    | some (mode, frames) => build? mode frames ts
    | none => none

def ofText? (text : String) : Option Json :=
  match Token.scan? text.toList with
  | some tokens => build? .value [] tokens
  | none => none

def valueOfText? (text : String) : Option Json := (ofText? text).bind (value? maxDepth)

end Charter.Json
