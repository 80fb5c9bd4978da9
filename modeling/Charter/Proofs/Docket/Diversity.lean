import Charter.Proofs.Diversity
import Charter.Proofs.Docket.History

/-! # Diversity in a run

Whatever is requested, the panels of a docket stay as diverse as they were selected, and what passes
has YES votes of several groups. -/

namespace Charter.Docket

variable {c : Constitution} {d : Docket}

theorem kept_isDiverse (c : Constitution) :
    Kept c (fun p => ∀ stage r, p.round? stage = some r → r.IsDiverse c.diversity) := by
  refine kept_rounds (P := fun _ _ r => r.IsDiverse c.diversity) ?_
    (fun _ record h => h.record record)
  intro c' now deadline id stage candidates members excluded hc selected window
  have hpolicy : c'.diversity = c.diversity := by rw [hc.amended]
  rw [hpolicy] at selected
  exact Round.isDiverse_ofMembers selected

theorem round_of_close {id : UInt64} {stage : Stage} {now : Instant} {outcome : Outcome}
    (closed : (d.step (.operate id (.close stage)) now).2 = .ok (.operated (.outcome outcome))) :
    ∃ p r q, d.get? id = some p ∧ p.round? stage = some r ∧
      r.decide d.constitution.thresholds (p.hasEntrenchedRules stage) now = outcome ∧
      (d.step (.operate id (.close stage)) now).1.get? id = some q ∧ q.round? stage = some r := by
  rcases d.step_cases (.operate id (.close stage)) now with ⟨f, hrefused⟩ | ⟨e, answer, hs, hdone⟩
  · rw [hrefused] at closed
    cases closed
  · obtain ⟨p, r, outcome', q, hp, hq, rfl, -, running, decided, concludes⟩ := close_of_step hs
    rw [hdone] at closed ⊢
    cases closed
    exact ⟨p, r, q, hp, running, decided, hq,
      (Proposal.round?_of_concludes concludes stage).trans running⟩

/-- In every run of a new docket every panel is as diverse as the constitution asks for: counted by
the recorded affiliations, its members represent enough regions and organizations, and none of these
holds more than its share of the seats that the panel was selected for, whatever phase is in force
by now. -/
theorem panels_stay_diverse (h : create c = .ok d) (requests : List (Action × Instant)) :
    (d.run requests).All (fun p => ∀ stage r, p.round? stage = some r → r.IsDiverse c.diversity) :=
  (kept_isDiverse c).all_run_of_create h requests

/-- A constitution under which no group may hold more than two of four seats. -/
def councilConstitution : Constitution where
  entrenched := []
  formulaOnly := []
  thresholds := ⟨80, 50, 50⟩
  timing := ⟨1, 1, 1⟩
  diversity := ⟨2, 2, 50⟩
  confirmation := ⟨4, 3⟩
  phase := ⟨"council", ⟨4, 3⟩, ⟨4, 3⟩, ⟨4, 3⟩⟩

def councilRoster : List Voter :=
  [⟨"amy", ⟨"north", "guild"⟩⟩, ⟨"amy", ⟨"south", "union"⟩⟩, ⟨"ben", ⟨"north", "union"⟩⟩,
    ⟨"cleo", ⟨"south", "guild"⟩⟩, ⟨"dan", ⟨"south", "union"⟩⟩]

/-- Three of four members vote YES under affiliations that are not those of their seats, and a new
phase with other panels comes into force meanwhile. -/
def councilRequests : List (Action × Instant) :=
  let ballot := fun voter =>
    (Action.operate 1 (.cast .proposal ⟨voter, ⟨"east", "lodge"⟩⟩ true "read"), firstDay)
  [(.propose "joe" "fees" .null (.bool true) "due", firstDay),
    (.operate 1 (.selectPanel .proposal councilRoster), firstDay), ballot "amy",
    (.changePhase ⟨"assembly", ⟨6, 1⟩, ⟨6, 1⟩, ⟨6, 1⟩⟩, firstDay), ballot "ben", ballot "cleo"]

/-- The panel that the council selected is counted as it was seated, after the assembly has come
into force. -/
theorem panels_stay_diverse_council :
    ((empty councilConstitution).run councilRequests).constitution.phase.proposal = ⟨6, 1⟩ ∧
      ∃ p r, ((empty councilConstitution).run councilRequests).get? 1 = some p ∧
        p.round? .proposal = some r ∧
        r.composition = ⟨4, 3⟩ ∧
        r.seats = [⟨"amy", ⟨"north", "guild"⟩⟩, ⟨"cleo", ⟨"south", "guild"⟩⟩,
          ⟨"ben", ⟨"north", "union"⟩⟩, ⟨"dan", ⟨"south", "union"⟩⟩] ∧
        r.IsDiverse councilConstitution.diversity := by
  have hcreate : create councilConstitution = .ok (empty councilConstitution) := by rfl
  have hphase : ((empty councilConstitution).run councilRequests).constitution.phase.proposal =
      ⟨6, 1⟩ := by decide +kernel
  have hrun : ((((empty councilConstitution).run councilRequests).get? 1).bind
      (fun p => p.round? .proposal)).map (fun r => (r.composition, r.seats)) =
        some (⟨4, 3⟩, [⟨"amy", ⟨"north", "guild"⟩⟩, ⟨"cleo", ⟨"south", "guild"⟩⟩,
          ⟨"ben", ⟨"north", "union"⟩⟩, ⟨"dan", ⟨"south", "union"⟩⟩]) := by decide +kernel
  obtain ⟨r, hround, hseats⟩ := Option.map_eq_some_iff.mp hrun
  obtain ⟨p, hp, hr⟩ := Option.bind_eq_some_iff.mp hround
  obtain ⟨hcomposition, hseats⟩ := Prod.mk.inj hseats
  exact ⟨hphase, p, r, hp, hr, hcomposition, hseats,
    panels_stay_diverse hcreate councilRequests 1 p hp .proposal r hr⟩

/-- In every run of a new docket a vote that is closed as passed has its YES ballots from seats of
several groups: of as many regions, and of as many organizations, as it takes to cast the ballots
that pass it. Hence no group passes alone a vote that asks for more YES ballots than the seats it
may hold. -/
theorem no_group_passes_alone (h : create c = .ok d) {requests : List (Action × Instant)}
    {id : UInt64} {stage : Stage} {now : Instant}
    (passed : ((d.run requests).step (.operate id (.close stage)) now).2 =
      .ok (.operated (.outcome .passed))) :
    ∃ p r q, (d.run requests).get? id = some p ∧ p.round? stage = some r ∧
      ((d.run requests).step (.operate id (.close stage)) now).1.get? id = some q ∧
      q.round? stage = some r ∧
      ∀ dimension : Dimension,
        (c.diversity.quota r.composition).groupsFor r.composition.passThreshold.toNat ≤
            Panel.groups dimension r.supporters ∧
          ((c.diversity.quota r.composition).cap < r.composition.passThreshold.toNat →
            ∀ group, ∃ v ∈ r.supporters, dimension.group v ≠ group) := by
  obtain ⟨p, r, q, hp, hr, decided, hq, hqr⟩ := round_of_close passed
  have hpasses : r.Passes _ _ := (Round.decide_eq_passed_iff.mp decided).2
  have hsound : r.Sound p.id stage :=
    (kept_hasSoundRounds c).all_run_of_create h requests id p hp stage r hr
  have hdiverse : r.IsDiverse c.diversity :=
    (kept_isDiverse c).all_run_of_create h requests id p hp stage r hr
  refine ⟨p, r, q, hp, hr, hq, hqr, ?_⟩
  intro dimension
  exact ⟨hdiverse.groupsFor_le_groups hsound hpasses dimension,
    fun above group =>
    hdiverse.exists_supporter_of_other_group hsound hpasses above dimension group⟩

/-- The three YES ballots of the council come from two regions, though the voters have given one and
the same. -/
theorem no_group_passes_alone_council :
    ∃ p r, ((empty councilConstitution).run councilRequests).get? 1 = some p ∧
      p.round? .proposal = some r ∧
      r.supporters.map Voter.id = ["amy", "cleo", "ben"] ∧
      2 ≤ Panel.groups .region r.supporters ∧
      ∃ v ∈ r.supporters, v.affiliation.region ≠ "north" := by
  have hcreate : create councilConstitution = .ok (empty councilConstitution) := by rfl
  have hpassed : (((empty councilConstitution).run councilRequests).step
      (.operate 1 (.close .proposal)) firstDay).2 =
      .ok (.operated (.outcome .passed)) := by decide +kernel
  have hrun : ((((empty councilConstitution).run councilRequests).get? 1).bind
      (fun p => p.round? .proposal)).map (fun r => (r.composition, r.supporters.map Voter.id)) =
        some (⟨4, 3⟩, ["amy", "cleo", "ben"]) := by decide +kernel
  obtain ⟨p, r, -, hp, hr, -, -, hgroups⟩ := no_group_passes_alone hcreate hpassed
  obtain ⟨hleast, hnone⟩ := hgroups .region
  rw [hp, Option.bind_some, hr, Option.map_some, Option.some.injEq, Prod.mk.injEq] at hrun
  obtain ⟨hcomposition, hsupporters⟩ := hrun
  rw [hcomposition] at hleast hnone
  exact ⟨p, r, hp, hr, hsupporters, hleast, hnone (by decide) "north"⟩

end Charter.Docket
