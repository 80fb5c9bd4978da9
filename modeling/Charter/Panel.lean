import Charter.Round

/-! # Panels

The selection of a panel from a list of candidates, in the order of the list. Each candidate counts
once, under the first row with its name; some may be excluded. First one candidate of each new
region is seated until enough regions are represented, then seats are filled in order; at no time
does a region or an organization hold more seats than its cap. The walk is greedy: it never takes a
seat back. -/

namespace Charter

inductive Dimension where
  | region
  | organization
deriving DecidableEq, Repr

inductive PanelFault where
  | tooFewCandidates (requested available : Nat)
  /-- Not enough regions or organizations are there, or were reached. -/
  | tooFewGroups (dimension : Dimension) (needed available : Nat)
  | panelTooSmall (dimension : Dimension) (size needed : Nat)
  /-- The caps stopped the walk before all seats were filled. -/
  | capExhausted (cap selected requested : Nat)
deriving DecidableEq, Repr

def Dimension.plural : Dimension → String
  | .region => "regions"
  | .organization => "organizations"

def Dimension.group (d : Dimension) (v : Voter) : String :=
  match d with
  | .region => v.affiliation.region
  | .organization => v.affiliation.organization

def PanelFault.message : PanelFault → String
  | .tooFewCandidates requested available =>
    s!"Requested panel of {requested} seats but only {available} eligible candidates"
  | .tooFewGroups d needed available =>
    s!"Need {needed} distinct {d.plural}, only {available} available"
  | .panelTooSmall d size needed =>
    s!"Panel of {size} seats cannot represent {needed} distinct {d.plural}"
  | .capExhausted cap selected requested =>
    s!"Concentration cap of {cap} per group leaves panel at {selected}/{requested} seats"

structure Quota where
  size : Nat
  minRegions : Nat
  minOrganizations : Nat
  /-- The share of the seats that one group may hold. -/
  maxSharePercent : Nat
deriving DecidableEq, Repr

namespace Quota

/-- The seats that one group may hold: the share, rounded down, but at least one. -/
def cap (q : Quota) : Nat := max (q.size * q.maxSharePercent / 100) 1

def minimum (q : Quota) : Dimension → Nat
  | .region => q.minRegions
  | .organization => q.minOrganizations

end Quota

namespace Panel

/-- The rows of a list, each name at its first place only. -/
def firstRows : List Voter → List Voter
  | [] => []
  | v :: rows => v :: (firstRows rows).filter (fun w => w.id ≠ v.id)

def pool (candidates : List Voter) (excluded : List VoterId) : List Voter :=
  firstRows (candidates.filter (fun v => v.id ∉ excluded))

def groups (d : Dimension) (voters : List Voter) : Nat := (firsts (voters.map d.group)).length

def share (d : Dimension) (group : String) (voters : List Voter) : Nat :=
  voters.countP (fun v => d.group v = group)

/-- A voter may take a seat: the voter has none yet, and neither group of the voter holds
its cap. -/
def Admits (q : Quota) (seats : List Voter) (v : Voter) : Prop :=
  (∀ w ∈ seats, w.id ≠ v.id) ∧
  share .region v.affiliation.region seats < q.cap ∧
  share .organization v.affiliation.organization seats < q.cap

instance (q : Quota) (seats : List Voter) (v : Voter) : Decidable (Admits q seats v) :=
  inferInstanceAs (Decidable ((∀ _ ∈ _, _) ∧ _ ∧ _))

/-- Seats one candidate of each region not yet seated, until enough regions are. -/
def seatRegions (q : Quota) : List Voter → List Voter → List Voter
  | [], seats => seats
  | v :: pool, seats =>
    if q.minRegions ≤ groups .region seats then seats
    else if share .region v.affiliation.region seats = 0 ∧ Admits q seats v then
      seatRegions q pool (seats ++ [v])
    else seatRegions q pool seats

def fillSeats (q : Quota) : List Voter → List Voter → List Voter
  | [], seats => seats
  | v :: pool, seats =>
    if q.size ≤ seats.length then seats
    else if Admits q seats v then fillSeats q pool (seats ++ [v])
    else fillSeats q pool seats

def select (candidates : List Voter) (q : Quota) (excluded : List VoterId) :
    Except PanelFault (List Voter) :=
  let pool := pool candidates excluded
  if pool.length < q.size then .error (.tooFewCandidates q.size pool.length)
  else if q.size < q.minRegions then .error (.panelTooSmall .region q.size q.minRegions)
  else if q.size < q.minOrganizations then
    .error (.panelTooSmall .organization q.size q.minOrganizations)
  else if groups .region pool < q.minRegions then
    .error (.tooFewGroups .region q.minRegions (groups .region pool))
  else if groups .organization pool < q.minOrganizations then
    .error (.tooFewGroups .organization q.minOrganizations (groups .organization pool))
  else
    let first := seatRegions q pool []
    if groups .region first < q.minRegions then
      .error (.tooFewGroups .region q.minRegions (groups .region first))
    else
      let seats := fillSeats q pool first
      if seats.length < q.size then .error (.capExhausted q.cap seats.length q.size)
      else if groups .organization seats < q.minOrganizations then
        .error (.tooFewGroups .organization q.minOrganizations (groups .organization seats))
      else .ok seats

def selectIds (candidates : List Voter) (q : Quota) (excluded : List VoterId) :
    Except PanelFault (List VoterId) :=
  (select candidates q excluded).map (List.map Voter.id)

end Panel

end Charter
