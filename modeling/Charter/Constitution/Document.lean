import Charter.Constitution.Basic
import Charter.Json.Printer
import Charter.Json.Reader
import Charter.Json.Shape

/-! # Constitutions in documents

A constitution is kept as a JSON object. What is read is checked before it is used; what is written
has its lists of provisions in ascending order without repetition. -/

namespace Charter

open Json (fields? needed?)

def Composition.ofJson? (j : Json) : Option Composition := do
  match ← fields? ["panel_size", "pass_threshold"] j with
  | [size, threshold] => some ⟨← needed? Json.word64? size, ← needed? Json.word64? threshold⟩
  | _ => none

def Composition.toJson (c : Composition) : Json :=
  .obj [("panel_size", .ofNat c.panelSize.toNat), ("pass_threshold", .ofNat c.passThreshold.toNat)]

def Thresholds.ofJson? (j : Json) : Option Thresholds := do
  match ← fields? ["supermajority_percent", "entrenched_participation_percent",
    "lapse_participation_percent"] j with
  | [supermajority, participation, lapse] =>
    some ⟨← needed? Json.byte? supermajority, ← needed? Json.byte? participation,
      ← needed? Json.byte? lapse⟩
  | _ => none

def Thresholds.toJson (t : Thresholds) : Json :=
  .obj [("supermajority_percent", .ofNat t.supermajority.toNat),
    ("entrenched_participation_percent", .ofNat t.entrenchedParticipation.toNat),
    ("lapse_participation_percent", .ofNat t.lapseParticipation.toNat)]

def Timing.ofJson? (j : Json) : Option Timing := do
  match ← fields? ["voting_window_days", "challenge_window_days", "cooling_off_days"] j with
  | [voting, challenge, coolingOff] =>
    some ⟨← needed? Json.word32? voting, ← needed? Json.word32? challenge,
      ← needed? Json.word32? coolingOff⟩
  | _ => none

def Timing.toJson (t : Timing) : Json :=
  .obj [("voting_window_days", .ofNat t.votingWindow.toNat),
    ("challenge_window_days", .ofNat t.challengeWindow.toNat),
    ("cooling_off_days", .ofNat t.coolingOff.toNat)]

def Diversity.ofJson? (j : Json) : Option Diversity := do
  match ← fields? ["min_regions", "min_organizations", "max_concentration_percent"] j with
  | [regions, organizations, share] =>
    some ⟨← needed? Json.word64? regions, ← needed? Json.word64? organizations,
      ← needed? Json.byte? share⟩
  | _ => none

def Diversity.toJson (d : Diversity) : Json :=
  .obj [("min_regions", .ofNat d.minRegions.toNat),
    ("min_organizations", .ofNat d.minOrganizations.toNat),
    ("max_concentration_percent", .ofNat d.maxConcentration.toNat)]

def Phase.ofJson? (j : Json) : Option Phase := do
  match ← fields? ["name", "proposal", "ratification", "challenge"] j with
  | [name, proposal, ratification, challenge] =>
    some ⟨← needed? Json.text? name, ← needed? Composition.ofJson? proposal,
      ← needed? Composition.ofJson? ratification, ← needed? Composition.ofJson? challenge⟩
  | _ => none

def Phase.toJson (p : Phase) : Json :=
  .obj [("name", .str p.name), ("proposal", p.proposal.toJson),
    ("ratification", p.ratification.toJson), ("challenge", p.challenge.toJson)]

namespace Constitution

def provisions? (j : Json) : Option (List String) := (Json.list? Json.text? j).map ascendingKeys

/-- Reads a constitution, sound or not. -/
def ofJson? (j : Json) : Option Constitution := do
  match ← fields? ["entrenched_provisions", "formula_only_provisions", "thresholds", "timing",
    "diversity", "confirmation", "phase"] j with
  | [entrenched, formulaOnly, thresholds, timing, diversity, confirmation, phase] =>
    some ⟨← needed? provisions? entrenched, ← needed? provisions? formulaOnly,
      ← needed? Thresholds.ofJson? thresholds, ← needed? Timing.ofJson? timing,
      ← needed? Diversity.ofJson? diversity, ← needed? Composition.ofJson? confirmation,
      ← needed? Phase.ofJson? phase⟩
  | _ => none

def toJson (c : Constitution) : Json :=
  .obj [("entrenched_provisions", .ofList .str c.entrenched),
    ("formula_only_provisions", .ofList .str c.formulaOnly), ("thresholds", c.thresholds.toJson),
    ("timing", c.timing.toJson), ("diversity", c.diversity.toJson),
    ("confirmation", c.confirmation.toJson), ("phase", c.phase.toJson)]

inductive LoadFault where
  /-- There is no text to read. -/
  | unreadable
  /-- The text is no constitution. -/
  | unparsable
  | flawed (flaw : Flaw)
deriving DecidableEq, Repr

def ofText (text : String) : Except LoadFault Constitution :=
  match (Json.ofText? text).bind ofJson? with
  | none => .error .unparsable
  | some c =>
    match c.check with
    | some flaw => .error (.flawed flaw)
    | none => .ok c

def ofBytes (bytes : ByteArray) : Except LoadFault Constitution :=
  match String.fromUTF8? bytes with
  | none => .error .unreadable
  | some text => ofText text

def text (c : Constitution) : String := c.toJson.pretty

end Constitution

end Charter
