import Charter.Panel
import Charter.Text.Blank

/-! # The constitution

The configuration that governs the docket: which provisions are entrenched and which are computed by
formula and never put to a vote, the thresholds and windows, the diversity asked of every panel, the
composition of the confirmation panel and the phase, which gives the compositions of the three
chambers. `Constitution.check` names the first flaw, in a fixed order. -/

namespace Charter

/-- The windows of the procedure, in whole days. -/
structure Timing where
  votingWindow : UInt32
  challengeWindow : UInt32
  coolingOff : UInt32
deriving DecidableEq, Repr

structure Diversity where
  minRegions : UInt64
  minOrganizations : UInt64
  maxConcentration : UInt8
deriving DecidableEq, Repr

structure Phase where
  name : String
  proposal : Composition
  ratification : Composition
  challenge : Composition
deriving DecidableEq, Repr

structure Constitution where
  /-- The provisions on the entrenched pathway, ascending. -/
  entrenched : List String
  /-- The provisions computed by formula, ascending. -/
  formulaOnly : List String
  thresholds : Thresholds
  timing : Timing
  diversity : Diversity
  /-- The composition of the panel that confirms changes to entrenched provisions. -/
  confirmation : Composition
  phase : Phase
deriving DecidableEq, Repr

def Phase.composition (p : Phase) : Chamber → Composition
  | .proposal => p.proposal
  | .ratification => p.ratification
  | .challenge => p.challenge

def Diversity.quota (d : Diversity) (c : Composition) : Quota where
  size := c.panelSize.toNat
  minRegions := d.minRegions.toNat
  minOrganizations := d.minOrganizations.toNat
  maxSharePercent := d.maxConcentration.toNat

namespace Constitution

inductive Field where
  | supermajority
  | entrenchedParticipation
  | lapseParticipation
  | votingWindow
  | challengeWindow
  | coolingOff
  | maxConcentration
  | phaseName
  | chamber (c : Chamber)
  | confirmation
  | entrenchedProvisions
deriving DecidableEq, Repr

/-- The name of a part, from the root of the constitution. -/
def Field.name : Field → String
  | .supermajority => "thresholds.supermajority_percent"
  | .entrenchedParticipation => "thresholds.entrenched_participation_percent"
  | .lapseParticipation => "thresholds.lapse_participation_percent"
  | .votingWindow => "timing.voting_window_days"
  | .challengeWindow => "timing.challenge_window_days"
  | .coolingOff => "timing.cooling_off_days"
  | .maxConcentration => "diversity.max_concentration_percent"
  | .phaseName => "phase.name"
  | .chamber c => s!"phase.{c.name}"
  | .confirmation => "confirmation"
  | .entrenchedProvisions => "entrenched_provisions"

/-- The longest window that is accepted, about a century. -/
def maxWindow : Nat := 36500

inductive Flaw where
  | percent (field : Field) (value : UInt8)
  | window (field : Field) (days : UInt32)
  | emptyPhaseName
  | emptyPanel (field : Field)
  | threshold (field : Field) (composition : Composition)
  /-- The panel has fewer seats than the groups it must represent. -/
  | belowDiversity (field : Field)
  /-- A provision is both entrenched and computed by formula. -/
  | overlap (key : String)
deriving DecidableEq, Repr

namespace Flaw

def field : Flaw → Field
  | .percent f _ => f
  | .window f _ => f
  | .emptyPhaseName => .phaseName
  | .emptyPanel f => f
  | .threshold f _ => f
  | .belowDiversity f => f
  | .overlap _ => .entrenchedProvisions

def reason : Flaw → String
  | .percent _ value => s!"{value} is not in 1..=100"
  | .window _ days => s!"{days} days is not in 1..={maxWindow}"
  | .emptyPhaseName => "must not be empty"
  | .emptyPanel _ => "panel_size must be positive"
  | .threshold _ c => s!"pass_threshold {c.passThreshold} must be in 1..={c.panelSize}"
  | .belowDiversity _ => "panel_size is smaller than the diversity minimums"
  | .overlap key => s!"'{key}' is also formula-only"

def message (f : Flaw) : String := s!"Invalid {f.field.name}: {f.reason}"

end Flaw

/-- The first flaw found, or none: the first of two checks that finds one decides. -/
def firstFlaw (checks : List (Option Flaw)) : Option Flaw := checks.findSome? id

def checkPercent (field : Field) (value : UInt8) : Option Flaw :=
  if value.toNat = 0 ∨ 100 < value.toNat then some (.percent field value) else none

def checkWindow (field : Field) (days : UInt32) : Option Flaw :=
  if days.toNat = 0 ∨ maxWindow < days.toNat then some (.window field days) else none

/-- A panel has seats, its threshold can be met, and it can represent the groups it must. -/
def checkComposition (d : Diversity) (field : Field) (c : Composition) : Option Flaw :=
  if c.panelSize.toNat = 0 then some (.emptyPanel field)
  else if c.passThreshold.toNat = 0 ∨ c.panelSize.toNat < c.passThreshold.toNat then
    some (.threshold field c)
  else if c.panelSize.toNat < d.minRegions.toNat ∨ c.panelSize.toNat < d.minOrganizations.toNat then
    some (.belowDiversity field)
  else none

def checkPhase (d : Diversity) (p : Phase) : Option Flaw :=
  firstFlaw [
    if Text.isEmptyText p.name then some .emptyPhaseName else none,
    checkComposition d (.chamber .proposal) p.proposal,
    checkComposition d (.chamber .ratification) p.ratification,
    checkComposition d (.chamber .challenge) p.challenge]

def check (c : Constitution) : Option Flaw :=
  firstFlaw [
    checkPercent .supermajority c.thresholds.supermajority,
    checkPercent .entrenchedParticipation c.thresholds.entrenchedParticipation,
    checkPercent .lapseParticipation c.thresholds.lapseParticipation,
    checkWindow .votingWindow c.timing.votingWindow,
    checkWindow .challengeWindow c.timing.challengeWindow,
    checkWindow .coolingOff c.timing.coolingOff,
    checkPercent .maxConcentration c.diversity.maxConcentration,
    checkPhase c.diversity c.phase,
    checkComposition c.diversity .confirmation c.confirmation,
    (c.entrenched.find? (fun key => key ∈ c.formulaOnly)).map .overlap]

/-- The constitution accepts the entrenched pathway for this provision. -/
def IsEntrenched (c : Constitution) (key : String) : Prop := key ∈ c.entrenched

def IsFormulaOnly (c : Constitution) (key : String) : Prop := key ∈ c.formulaOnly

instance (c : Constitution) (key : String) : Decidable (c.IsEntrenched key) :=
  inferInstanceAs (Decidable (_ ∈ _))
instance (c : Constitution) (key : String) : Decidable (c.IsFormulaOnly key) :=
  inferInstanceAs (Decidable (_ ∈ _))

/-- The constitution in force where nothing else is said. -/
def standard : Constitution where
  entrenched :=
    ["governance.cooling_off_days", "governance.supermajority_percent", "rights.anonymity",
      "rights.voluntary_exit"]
  formulaOnly := ["commission_floor", "treasury.emission_rate"]
  thresholds := ⟨80, 50, 50⟩
  timing := ⟨14, 10, 90⟩
  diversity := ⟨3, 3, 40⟩
  confirmation := ⟨11, 9⟩
  phase := ⟨"bootstrap", ⟨11, 6⟩, ⟨11, 8⟩, ⟨11, 6⟩⟩

end Constitution

end Charter
