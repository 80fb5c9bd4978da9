import Charter.Proofs.Calendar
import Charter.Proofs.Json.Shape
import Charter.Record.Document

/-! # Records read back

The text of a record holds that record, whatever its texts, names, numbers and instants are. Only
the two values of the proposal set a limit: they may be nested no deeper than texts allow, and a
number in them must be an integer. -/

namespace Charter

open Json (bind_fields?_obj)

@[simp] theorem Instant.ofJson?_toJson (t : Instant) : ofJson? t.toJson = some t := by
  rw [ofJson?, toJson, Json.text?_str, Option.bind_some, ofText?_text]

@[simp] theorem Stage.ofJson?_name (lenient : Bool) (s : Stage) :
    ofJson? lenient (.str s.name) = some s :=
  Json.choice?_str (by cases s <;> decide) (by cases s <;> decide)

@[simp] theorem Chamber.ofJson?_name (c : Chamber) : ofJson? (.str c.name) = some c :=
  Json.choice?_str (by cases c <;> decide) (by cases c <;> decide)

@[simp] theorem Status.ofJson?_name (s : Status) : ofJson? (.str s.name) = some s :=
  Json.choice?_str (by cases s <;> decide) (by cases s <;> decide)

@[simp] theorem Affiliation.ofJson?_toJson (a : Affiliation) : ofJson? a.toJson = some a := by
  simp [ofJson?, toJson, bind_fields?_obj]

@[simp] theorem BallotRecord.ofJson?_toJson (b : BallotRecord) : ofJson? b.toJson = some b := by
  rw [ofJson?, toJson, Option.bind_eq_bind, bind_fields?_obj]
  · simp
  · rfl
  · decide

theorem RoundRecord.ofJson?_toJson {r : RoundRecord} (h : r.affiliations.Ascending) :
    ofJson? r.toJson = some r := by
  have hpanel := Json.list?_ofList (l := r.panel) (fun s _ => Json.text?_str s)
  have haffiliations := Json.table?_ofTable h Affiliation.ofJson?_toJson
  have hballots := Json.list?_ofList (l := r.ballots) (fun b _ => BallotRecord.ofJson?_toJson b)
  rw [ofJson?, toJson, Option.bind_eq_bind, bind_fields?_obj]
  · simp [hpanel, haffiliations, hballots]
  · rfl
  · decide

theorem ChamberRecord.ofJson?_toJson {c : ChamberRecord} (h : c.round.affiliations.Ascending) :
    ofJson? c.toJson = some c := by
  simp [ofJson?, toJson, bind_fields?_obj, RoundRecord.ofJson?_toJson h]

theorem RoundRecord.isIntegral_toJson (r : RoundRecord) : r.toJson.isIntegral = true := by
  simp [toJson, BallotRecord.toJson, Affiliation.toJson, Instant.toJson, Json.isIntegral,
    Json.haveIntegral]

namespace Record

variable {r : Record}

/-- The tables of a record are in order, and its two values are values. -/
structure InOrder (r : Record) : Prop where
  current : r.current.isValue = true
  proposed : r.proposed.isValue = true
  chambers : ∀ c ∈ r.chambers, c.round.affiliations.Ascending
  confirmation : ∀ round ∈ r.confirmation, round.affiliations.Ascending

theorem value?_eq_ite {j : Json} (h : j.isValue = true) :
    Json.value? (Json.maxDepth - 1) j = if j.depth < Json.maxDepth then some j else none := by
  have hlimit : j.depth ≤ Json.maxDepth - 1 ↔ j.depth < Json.maxDepth :=
    Nat.le_sub_one_iff_lt (by decide)
  simp only [Json.value?_of_isValue _ _ h, hlimit]

theorem optional?_instant (x : Option Instant) :
    Json.optional? Instant.ofJson? (some (.ofOption Instant.toJson x)) = some x :=
  Json.optional?_ofOption (fun t _ => ⟨by simp [Instant.toJson], Instant.ofJson?_toJson t⟩)

theorem ofJson?_toJson (h : r.InOrder) :
    ofJson? r.toJson = if r.current.depth < Json.maxDepth ∧ r.proposed.depth < Json.maxDepth then
    some r else none := by
  have hchambers := Json.list?_ofList (fun c hc => ChamberRecord.ofJson?_toJson (h.chambers c hc))
  have hconfirmation := Json.optional?_ofOption (fun round hround =>
    ⟨by simp [RoundRecord.toJson], RoundRecord.ofJson?_toJson (h.confirmation round hround)⟩)
  rw [ofJson?, toJson, Option.bind_eq_bind, bind_fields?_obj]
  · simp only [List.map_cons, List.map_nil, Json.needed?_some, Option.bind_eq_bind,
      Option.bind_some, Json.word32?_ofNat, Json.word64?_ofNat, Json.text?_str, Json.truth?_bool,
      Status.ofJson?_name, Instant.ofJson?_toJson, optional?_instant, hchambers, hconfirmation,
      value?_eq_ite h.current, value?_eq_ite h.proposed]
    by_cases hc : r.current.depth < Json.maxDepth <;> by_cases hp :
      r.proposed.depth < Json.maxDepth <;>
      simp only [hc, hp, and_self, and_false, false_and, if_true, if_false, Option.bind_some,
        Option.bind_none]
  · rfl
  · decide

theorem isIntegral_toJson (hcurrent : r.current.isIntegral = true)
    (hproposed : r.proposed.isIntegral = true) :
    r.toJson.isIntegral = true := by
  simp [toJson, ChamberRecord.toJson, RoundRecord.isIntegral_toJson, Instant.toJson,
    Json.isIntegral, Json.haveIntegral, hcurrent, hproposed]

/-- The text of a record is read as that record, unless a value is nested too deeply, in which case
it is refused. -/
theorem text_is_read_back (h : r.InOrder) (hcurrent : r.current.isIntegral = true)
    (hproposed : r.proposed.isIntegral = true) :
    ofText? r.text =
      if r.current.depth < Json.maxDepth ∧ r.proposed.depth < Json.maxDepth then some r
        else none := by
  rw [ofText?, text, Json.ofText?_pretty (isIntegral_toJson hcurrent hproposed), Option.bind_some,
    ofJson?_toJson h]

def intricateRound : RoundRecord where
  composition := ⟨18446744073709551615, 0⟩
  panel := ["", "\"", "\""]
  affiliations := [("", ⟨"\t", "\\u0000"⟩), ("\x00", ⟨"é", "\u2028"⟩), ("😀", ⟨"/", "\x7f"⟩)]
  ballots := [⟨"not a digest", "\n", .confirmation, false, "\\",
    ⟨-62135596800000000000 - 1, by decide⟩, ⟨"", ""⟩⟩]
  openedAt := ⟨-8334601228800000000000, by decide⟩
  deadline := ⟨8210266876799999999999, by decide⟩

def nested : Nat → Json
  | 0 => .null
  | n + 1 => .arr [nested n]

def intricate (levels : Nat) : Record where
  version := 4294967295
  id := 18446744073709551615
  proposer := "\r\n\x1f"
  provision := ""
  current := .obj [("", .num (.int (-9223372036854775808))), ("\x00", .arr []), ("ü", .obj []),
    ("😀", nested levels)]
  proposed := .arr [.num (.int 18446744073709551615), .str "\x08\x0c", .bool false]
  justification := "\"quoted\" and \\ back"
  entrenched := true
  status := .challengeVoting
  createdAt := ⟨253402300800000000000, by decide⟩
  decidedAt := none
  appliedAt := some ⟨1768471200120000000, by decide⟩
  chambers :=
    [⟨.challenge, intricateRound⟩, ⟨.proposal, intricateRound⟩, ⟨.challenge, intricateRound⟩]
  challengeFiled := false
  challengeClosesAt := some ⟨-1000, by decide⟩
  coolingOffStartedAt := none
  coolingOffEndsAt := some ⟨1, by decide⟩
  confirmation := some intricateRound

/-- The record is read back with its value nested as deeply as texts allow, and refused with one
level more. -/
theorem text_is_read_back_intricate :
    ofText? (intricate 125).text = some (intricate 125) ∧ ofText? (intricate 126).text = none := by
  constructor
  · rw [text_is_read_back ⟨by decide +kernel, by decide, by decide, by decide⟩ (by decide +kernel)
      (by decide)]
    exact if_pos (by decide +kernel)
  · rw [text_is_read_back ⟨by decide +kernel, by decide, by decide, by decide⟩ (by decide +kernel)
      (by decide)]
    exact if_neg (by decide +kernel)

end Record

end Charter
