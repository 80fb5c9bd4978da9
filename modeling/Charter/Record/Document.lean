import Charter.Proposal.Document
import Charter.Record.Basic

/-! # Records in documents

A record is kept as the text of a JSON object. The two values of a proposal are the only parts that
may be nested to any depth that texts allow. -/

namespace Charter

open Json (fields? needed? optional?)

def BallotRecord.ofJson? (j : Json) : Option BallotRecord := do
  match ← fields? ["id", "voter", "stage", "approve", "attestation", "cast_at", "region",
    "organization"] j with
  | [id, voter, stage, approve, attestation, castAt, region, organization] =>
    some ⟨← needed? Json.text? id, ← needed? Json.text? voter,
      ← needed? (Stage.ofJson? false) stage, ← needed? Json.truth? approve,
      ← needed? Json.text? attestation, ← needed? Instant.ofJson? castAt,
      ⟨← needed? Json.text? region, ← needed? Json.text? organization⟩⟩
  | _ => none

def BallotRecord.toJson (b : BallotRecord) : Json :=
  .obj [("id", .str b.id), ("voter", .str b.voter), ("stage", .str b.stage.name),
    ("approve", .bool b.approve), ("attestation", .str b.attestation), ("cast_at", b.castAt.toJson),
    ("region", .str b.affiliation.region), ("organization", .str b.affiliation.organization)]

def RoundRecord.ofJson? (j : Json) : Option RoundRecord := do
  match ← fields? ["panel_size", "pass_threshold", "panel", "affiliations", "votes", "opened_at",
    "deadline"] j with
  | [size, threshold, panel, affiliations, ballots, openedAt, deadline] =>
    some ⟨⟨← needed? Json.word64? size, ← needed? Json.word64? threshold⟩,
      ← needed? (Json.list? Json.text?) panel,
      ← needed? (Json.table? Affiliation.ofJson?) affiliations,
      ← needed? (Json.list? BallotRecord.ofJson?) ballots, ← needed? Instant.ofJson? openedAt,
      ← needed? Instant.ofJson? deadline⟩
  | _ => none

def RoundRecord.toJson (r : RoundRecord) : Json :=
  .obj [("panel_size", .ofNat r.composition.panelSize.toNat),
    ("pass_threshold", .ofNat r.composition.passThreshold.toNat), ("panel", .ofList .str r.panel),
    ("affiliations", .ofTable Affiliation.toJson r.affiliations),
    ("votes", .ofList BallotRecord.toJson r.ballots), ("opened_at", r.openedAt.toJson),
    ("deadline", r.deadline.toJson)]

def ChamberRecord.ofJson? (j : Json) : Option ChamberRecord := do
  match ← fields? ["kind", "round"] j with
  | [chamber, round] =>
    some ⟨← needed? Chamber.ofJson? chamber, ← needed? RoundRecord.ofJson? round⟩
  | _ => none

def ChamberRecord.toJson (c : ChamberRecord) : Json :=
  .obj [("kind", .str c.chamber.name), ("round", c.round.toJson)]

namespace Record

def fieldNames : List String :=
  ["schema_version", "id", "proposer", "provision_key", "current_value", "proposed_value",
    "justification", "is_entrenched", "status", "created_at", "decided_at", "applied_at",
    "chambers", "challenge_filed", "challenge_window_closes_at", "cooling_off_started_at",
    "cooling_off_ends_at", "confirmation"]

def ofJson? (j : Json) : Option Record := do
  match ← fields? fieldNames j with
  | [version, id, proposer, provision, current, proposed, justification, entrenched, status,
      createdAt, decidedAt, appliedAt, chambers, challengeFiled, challengeClosesAt,
      coolingOffStartedAt, coolingOffEndsAt, confirmation] =>
    some ⟨← needed? Json.word32? version, ← needed? Json.word64? id, ← needed? Json.text? proposer,
      ← needed? Json.text? provision, ← needed? (Json.value? (Json.maxDepth - 1)) current,
      ← needed? (Json.value? (Json.maxDepth - 1)) proposed, ← needed? Json.text? justification,
      ← needed? Json.truth? entrenched, ← needed? Status.ofJson? status,
      ← needed? Instant.ofJson? createdAt, ← optional? Instant.ofJson? decidedAt,
      ← optional? Instant.ofJson? appliedAt, ← needed? (Json.list? ChamberRecord.ofJson?) chambers,
      ← needed? Json.truth? challengeFiled, ← optional? Instant.ofJson? challengeClosesAt,
      ← optional? Instant.ofJson? coolingOffStartedAt, ← optional? Instant.ofJson? coolingOffEndsAt,
      ← optional? RoundRecord.ofJson? confirmation⟩
  | _ => none

def toJson (r : Record) : Json :=
  .obj [("schema_version", .ofNat r.version.toNat), ("id", .ofNat r.id.toNat),
    ("proposer", .str r.proposer), ("provision_key", .str r.provision),
    ("current_value", r.current), ("proposed_value", r.proposed),
    ("justification", .str r.justification), ("is_entrenched", .bool r.entrenched),
    ("status", .str r.status.name),
    ("created_at", r.createdAt.toJson), ("decided_at", .ofOption Instant.toJson r.decidedAt),
    ("applied_at", .ofOption Instant.toJson r.appliedAt),
    ("chambers", .ofList ChamberRecord.toJson r.chambers),
    ("challenge_filed", .bool r.challengeFiled),
    ("challenge_window_closes_at", .ofOption Instant.toJson r.challengeClosesAt),
    ("cooling_off_started_at", .ofOption Instant.toJson r.coolingOffStartedAt),
    ("cooling_off_ends_at", .ofOption Instant.toJson r.coolingOffEndsAt),
    ("confirmation", .ofOption RoundRecord.toJson r.confirmation)]

def ofText? (text : String) : Option Record := (Json.ofText? text).bind ofJson?

def text (r : Record) : String := r.toJson.pretty

end Record

end Charter
