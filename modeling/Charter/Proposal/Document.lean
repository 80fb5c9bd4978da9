import Charter.Proposal.Basic
import Charter.Round.Document

/-! # Proposals in documents

The form of a proposal as a JSON document: all of it, the rounds keyed by their chambers and the
track as an object that names how far it has come. -/

namespace Charter

open Json (fields? needed? optional?)

def Status.ofJson? (j : Json) : Option Status := Json.choice? false Status.all Status.name j

/-- Reads the rounds of the chambers; of two rounds of one chamber the later counts. -/
def Rounds.ofMembers? : Rounds → List (String × Json) → Option Rounds
  | rounds, [] => some rounds
  | rounds, (name, j) :: rest => do
    let chamber ← Chamber.ofJson? (.str name)
    let round ← Round.ofJson? false j
    Rounds.ofMembers? (rounds.set chamber (some round)) rest

def Rounds.ofJson? : Json → Option Rounds
  | .obj members => Rounds.ofMembers? Rounds.empty members
  | _ => none

def Rounds.toJson (r : Rounds) : Json := .obj (r.toList.map (fun e => (e.1.name, e.2.toJson)))

def Window.ofJson? (j : Json) : Option Window := do
  match ← fields? ["started_at", "ends_at"] j with
  | [startedAt, endsAt] =>
    some ⟨← needed? Instant.ofJson? startedAt, ← needed? Instant.ofJson? endsAt⟩
  | _ => none

def Window.toJson (w : Window) : Json :=
  .obj [("started_at", w.startedAt.toJson), ("ends_at", w.endsAt.toJson)]

namespace Track

/-- Reads a track whose name is known from the rest of its document. A track that only waits has no
parts; members of an object that it does not know are skipped, but an array must be empty. The round
of a confirmation is read leniently. -/
def ofRest? (name : String) (rest : Json) : Option Track :=
  if name = "awaiting_cooling_off" then (fields? [] rest).map (fun _ => .awaiting)
  else if name = "cooling_off" then do
    match ← fields? ["window"] rest with
    | [window] => some (.coolingOff (← needed? Window.ofJson? window))
    | _ => none
  else if name = "confirmation" then do
    match ← fields? ["window", "round"] rest with
    | [window, round] =>
      some (.confirmation (← needed? Window.ofJson? window) (← needed? (Round.ofJson? true) round))
    | _ => none
  else none

def ofParts? : Json → Option Track
  | .obj members => do
    match members.filter (fun m => m.1 = "stage") with
    | [m] => ofRest? (← Json.text? m.2) (.obj (members.filter (fun m => m.1 ≠ "stage")))
    | _ => none
  | .arr (name :: rest) => do ofRest? (← Json.text? name) (.arr rest)
  | _ => none

/-- Reads a track. Its name may stand behind its other parts, so all of them are taken in first: a
track must be fit as a whole, members that it skips included. -/
def ofJson? (j : Json) : Option Track :=
  if j.isFit (Json.maxDepth - 1) then ofParts? j else none

def toJson : Track → Json
  | .awaiting => .obj [("stage", .str "awaiting_cooling_off")]
  | .coolingOff w => .obj [("stage", .str "cooling_off"), ("window", w.toJson)]
  | .confirmation w r =>
    .obj [("stage", .str "confirmation"), ("window", w.toJson), ("round", r.toJson)]

end Track

namespace Proposal

def fieldNames : List String :=
  ["id", "proposer", "provision_key", "current_value", "proposed_value", "justification", "status",
    "created_at", "decided_at", "applied_at", "chambers", "challenge_filed",
    "challenge_window_closes_at", "entrenchment"]

def ofJson? (j : Json) : Option Proposal := do
  match ← fields? fieldNames j with
  | [id, proposer, provision, current, proposed, justification, status, createdAt, decidedAt,
      appliedAt, rounds, challengeFiled, challengeClosesAt, track] =>
    some ⟨← needed? Json.word64? id, ← needed? Json.text? proposer, ← needed? Json.text? provision,
      ← needed? (Json.value? (Json.maxDepth - 1)) current,
      ← needed? (Json.value? (Json.maxDepth - 1)) proposed, ← needed? Json.text? justification,
      ← needed? Status.ofJson? status, ← needed? Instant.ofJson? createdAt,
      ← optional? Instant.ofJson? decidedAt, ← optional? Instant.ofJson? appliedAt,
      ← needed? Rounds.ofJson? rounds, ← needed? Json.truth? challengeFiled,
      ← optional? Instant.ofJson? challengeClosesAt, ← optional? Track.ofJson? track⟩
  | _ => none

def toJson (p : Proposal) : Json :=
  .obj [("id", .ofNat p.id.toNat), ("proposer", .str p.proposer),
    ("provision_key", .str p.provision), ("current_value", p.current),
    ("proposed_value", p.proposed), ("justification", .str p.justification),
    ("status", .str p.status.name), ("created_at", p.createdAt.toJson),
    ("decided_at", .ofOption Instant.toJson p.decidedAt),
    ("applied_at", .ofOption Instant.toJson p.appliedAt),
    ("chambers", p.rounds.toJson), ("challenge_filed", .bool p.challengeFiled),
    ("challenge_window_closes_at", .ofOption Instant.toJson p.challengeClosesAt),
    ("entrenchment", .ofOption Track.toJson p.track)]

end Proposal

end Charter
