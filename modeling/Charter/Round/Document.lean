import Charter.Calendar.Format
import Charter.Constitution.Document

/-! # Rounds in documents

The form of a round and its parts as JSON documents: instants as their texts, stages and chambers by
their names, the identifiers of ballots as lists of bytes. -/

namespace Charter

open Json (fields? needed?)

def Instant.ofJson? (j : Json) : Option Instant := (Json.text? j).bind Instant.ofText?

def Instant.toJson (t : Instant) : Json := .str t.text

/-- Reads a stage, leniently if an empty object may stand behind its name. -/
def Stage.ofJson? (lenient : Bool) (j : Json) : Option Stage :=
  Json.choice? lenient Stage.all Stage.name j

def Chamber.ofJson? (j : Json) : Option Chamber := Json.choice? false Chamber.all Chamber.name j

def Affiliation.ofJson? (j : Json) : Option Affiliation := do
  match ← fields? ["region", "organization"] j with
  | [region, organization] => some ⟨← needed? Json.text? region, ← needed? Json.text? organization⟩
  | _ => none

def Affiliation.toJson (a : Affiliation) : Json :=
  .obj [("region", .str a.region), ("organization", .str a.organization)]

def Digest.ofJson? (j : Json) : Option Digest := (Json.list? Json.byte? j).bind Digest.ofList?

def Digest.toJson (d : Digest) : Json := .ofList (fun b => .ofNat b.toNat) d.bytes

def Ballot.ofJson? (lenient : Bool) (j : Json) : Option Ballot := do
  match ← fields? ["id", "voter", "stage", "approve", "attestation", "cast_at", "region",
    "organization"] j with
  | [id, voter, stage, approve, attestation, castAt, region, organization] =>
    some ⟨← needed? Digest.ofJson? id, ← needed? Json.text? voter,
      ← needed? (Stage.ofJson? lenient) stage, ← needed? Json.truth? approve,
      ← needed? Json.text? attestation, ← needed? Instant.ofJson? castAt,
      ⟨← needed? Json.text? region, ← needed? Json.text? organization⟩⟩
  | _ => none

def Ballot.toJson (b : Ballot) : Json :=
  .obj [("id", b.id.toJson), ("voter", .str b.voter), ("stage", .str b.stage.name),
    ("approve", .bool b.approve), ("attestation", .str b.attestation), ("cast_at", b.castAt.toJson),
    ("region", .str b.affiliation.region), ("organization", .str b.affiliation.organization)]

def Round.ofJson? (lenient : Bool) (j : Json) : Option Round := do
  match ← fields? ["definition", "panel", "affiliations", "votes", "opened_at", "deadline"] j with
  | [composition, panel, affiliations, ballots, openedAt, deadline] =>
    some ⟨← needed? Composition.ofJson? composition, ← needed? (Json.list? Json.text?) panel,
      ← needed? (Json.table? Affiliation.ofJson?) affiliations,
      ← needed? (Json.list? (Ballot.ofJson? lenient)) ballots, ← needed? Instant.ofJson? openedAt,
      ← needed? Instant.ofJson? deadline⟩
  | _ => none

def Round.toJson (r : Round) : Json :=
  .obj [("definition", r.composition.toJson), ("panel", .ofList .str r.panel),
    ("affiliations", .ofTable Affiliation.toJson r.affiliations),
    ("votes", .ofList Ballot.toJson r.ballots), ("opened_at", r.openedAt.toJson),
    ("deadline", r.deadline.toJson)]

end Charter
