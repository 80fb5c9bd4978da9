import Charter.Docket.Action
import Charter.Proofs.Proposal.Step
import Charter.Proofs.Table

/-! # What a run preserves

`Step` lists everything that a request can have done to a docket. A property that proposals have
from the start and that no operation and no new phase takes away holds of every proposal in every
run (`all_run`). -/

namespace Charter

namespace Constitution

theorem firstFlaw_eq_none_iff {checks : List (Option Flaw)} :
    firstFlaw checks = none ↔ ∀ x ∈ checks, x = none := by
  simp [firstFlaw, List.findSome?_eq_none_iff]

theorem checkPhase_eq_none_iff {d : Diversity} {phase : Phase} : checkPhase d phase = none ↔
    Text.isEmptyText phase.name = false ∧
      ∀ chamber, checkComposition d (.chamber chamber) (phase.composition chamber) = none := by
  simp only [checkPhase, firstFlaw_eq_none_iff, List.forall_mem_cons]
  constructor
  · rintro ⟨hname, hproposal, hratification, hchallenge, -⟩
    refine ⟨by simpa using hname, ?_⟩
    rintro (_ | _ | _)
    · exact hproposal
    · exact hratification
    · exact hchallenge
  · rintro ⟨hname, hall⟩
    exact ⟨by simpa using hname, hall .proposal, hall .ratification, hall .challenge, by simp⟩

theorem check_eq_none_iff {c : Constitution} : c.check = none ↔
    (checkPercent .supermajority c.thresholds.supermajority = none ∧
      checkPercent .entrenchedParticipation c.thresholds.entrenchedParticipation = none ∧
      checkPercent .lapseParticipation c.thresholds.lapseParticipation = none) ∧
    (checkWindow .votingWindow c.timing.votingWindow = none ∧
      checkWindow .challengeWindow c.timing.challengeWindow = none ∧
      checkWindow .coolingOff c.timing.coolingOff = none) ∧
    checkPercent .maxConcentration c.diversity.maxConcentration = none ∧
    checkPhase c.diversity c.phase = none ∧
    checkComposition c.diversity .confirmation c.confirmation = none ∧
    (c.entrenched.find? (fun key => key ∈ c.formulaOnly)).map Flaw.overlap = none := by
  simp [check, firstFlaw_eq_none_iff, and_assoc]

/-- The constitution `c` with another phase, still without flaw. -/
structure InForce (c c' : Constitution) : Prop where
  sound : c'.check = none
  amended : c' = { c with phase := c'.phase }

theorem InForce.refl {c : Constitution} (h : c.check = none) : InForce c c := ⟨h, rfl⟩

theorem InForce.withPhase {c c' : Constitution} (h : InForce c c') {phase : Phase}
    (hp : checkPhase c'.diversity phase = none) : InForce c { c' with phase := phase } := by
  obtain ⟨hc, hc'⟩ := h
  refine ⟨?_, ?_⟩
  · obtain ⟨hthresholds, htiming, hconcentration, -, hrest⟩ := check_eq_none_iff.mp hc
    exact check_eq_none_iff.mpr ⟨hthresholds, htiming, hconcentration, hp, hrest⟩
  · rw [hc']

end Constitution

namespace Docket

open Constitution (InForce)

variable {c : Constitution} {d e : Docket} {now : Instant}

theorem create_eq_ok_iff : create c = .ok d ↔ c.check = none ∧ d = empty c := by
  unfold create
  split
  · simp [*]
  · simp [*, eq_comm]

def submission (d : Docket) (proposer : VoterId) (key : String) (current proposed : Json)
    (justification : String) (now : Instant) : Proposal :=
  Proposal.submitted d.nextId proposer key current proposed (Text.trim justification)
    (decide (d.constitution.IsEntrenched key)) now

/-- Everything that a request can have done that was carried out. -/
inductive Step (d : Docket) (now : Instant) : Action → Docket → Answer → Prop
  | propose {proposer : VoterId} {provision : String} {current proposed : Json}
      {justification : String}
      (permitted : checkProvision d.constitution (Text.trim provision) = .ok ())
      (justified : Text.isEmptyText justification = false) (changes : current.same proposed = false)
      (room : d.nextId.toNat + 1 < UInt64.size) :
      Step d now (.propose proposer provision current proposed justification)
        { d with
          proposals := d.proposals.insert d.nextId
            (d.submission proposer (Text.trim provision) current proposed justification now)
          nextId := d.nextId + 1
          events := d.events ++ [⟨d.nextId, .proposed proposer (Text.trim provision)
            (decide (d.constitution.IsEntrenched (Text.trim provision))), .proposed, now⟩] }
        (.proposed d.nextId)
  | operate {id : UInt64} {op : Operation} {p q : Proposal} {reply : Reply}
      (found : d.get? id = some p)
      (step : p.Step d.constitution now op q reply) :
      Step d now (.operate id op)
        { d with
          proposals := d.proposals.insert id q
          events := d.events ++ Event.ofOperation op reply p q now }
        (.operated reply)
  | changePhase {phase : Phase}
      (sound : Constitution.checkPhase d.constitution.diversity phase = none) :
      Step d now (.changePhase phase)
        { d with
          constitution := { d.constitution with phase := phase }
          proposals := d.proposals.map (fun e => (e.1, e.2.underNewPhase))
          events := d.events ++ d.proposals.values.flatMap (fun p => phaseEvents phase p now) }
        (.phaseChanged (phaseReport d.constitution.phase phase d.proposals.values))
  | drain : Step d now .drain { d with events := [] } (.drained d.events)

theorem propose_eq_ok_iff {proposer : VoterId} {provision : String} {current proposed : Json}
    {justification : String} {id : UInt64} :
    d.propose proposer provision current proposed justification now = .ok (e, id) ↔
        Step d now (.propose proposer provision current proposed justification) e
        (.proposed id) := by
  simp only [propose, except_bind_eq_ok_iff, require_eq_ok_iff, pure_eq_ok_iff]
  constructor
  · rintro ⟨_, hp, _, hj, _, hv, _, hr, h⟩
    obtain ⟨rfl, rfl⟩ := Prod.mk.inj h
    exact .propose hp (by simpa using hj) hv hr
  · intro h
    cases h with
    | propose hp hj hv hr => exact ⟨(), hp, (), by simpa using hj, (), hv, (), hr, rfl⟩

theorem operate_eq_ok_iff {id : UInt64} {op : Operation} {reply : Reply} :
    d.operate id op now = .ok (e, reply) ↔ Step d now (.operate id op) e (.operated reply) := by
  simp only [operate, except_bind_eq_ok_iff, demand_eq_ok_iff, pure_eq_ok_iff]
  constructor
  · rintro ⟨p, hp, r, hr, h⟩
    obtain ⟨rfl, rfl⟩ := Prod.mk.inj h
    refine .operate hp (Proposal.perform_eq_ok_iff.mp ?_)
    rw [← hr]
  · intro h
    cases h with
    | @operate _ _ p q _ hp hs =>
      have ha := Proposal.perform_eq_ok_iff.mpr hs
      refine ⟨p, hp, reply, ?_, ?_⟩ <;> rw [ha]

theorem changePhase_eq_ok_iff {phase : Phase} {report : PhaseReport} :
    d.changePhase phase now = .ok (e, report) ↔
      Step d now (.changePhase phase) e (.phaseChanged report) := by
  unfold changePhase
  constructor
  · intro h
    split at h
    · cases h
    · rename_i hp
      obtain ⟨rfl, rfl⟩ := Prod.mk.inj (Except.ok.inj h)
      exact .changePhase hp
  · intro h
    cases h with
    | changePhase hp => rw [hp]

/-- The requests do what `Step` says and nothing else. -/
theorem perform_eq_ok_iff {a : Action} {answer : Answer} :
    d.perform a now = .ok (e, answer) ↔ Step d now a e answer := by
  cases a with
  | propose proposer provision current proposed justification =>
    simp only [perform, except_map_eq_ok_iff, Prod.mk.injEq]
    constructor
    · rintro ⟨⟨_, id⟩, h, rfl, rfl⟩
      exact propose_eq_ok_iff.mp h
    · intro h
      obtain ⟨id, rfl⟩ : ∃ id, answer = .proposed id := by cases h; exact ⟨_, rfl⟩
      exact ⟨(e, id), propose_eq_ok_iff.mpr h, rfl, rfl⟩
  | operate id op =>
    simp only [perform, except_map_eq_ok_iff, Prod.mk.injEq]
    constructor
    · rintro ⟨⟨_, reply⟩, h, rfl, rfl⟩
      exact operate_eq_ok_iff.mp h
    · intro h
      obtain ⟨reply, rfl⟩ : ∃ reply, answer = .operated reply := by cases h; exact ⟨_, rfl⟩
      exact ⟨(e, reply), operate_eq_ok_iff.mpr h, rfl, rfl⟩
  | changePhase phase =>
    simp only [perform, except_map_eq_ok_iff, Prod.mk.injEq]
    constructor
    · rintro ⟨⟨_, report⟩, h, rfl, rfl⟩
      exact changePhase_eq_ok_iff.mp h
    · intro h
      obtain ⟨report, rfl⟩ : ∃ report, answer = .phaseChanged report := by cases h; exact ⟨_, rfl⟩
      exact ⟨(e, report), changePhase_eq_ok_iff.mpr h, rfl, rfl⟩
  | drain =>
    simp only [perform, Except.ok.injEq, Prod.mk.injEq]
    constructor
    · rintro ⟨rfl, rfl⟩
      exact .drain
    · intro h
      cases h
      exact ⟨rfl, rfl⟩

theorem step_eq_of_perform_error {a : Action} {f : Fault} (h : d.perform a now = .error f) :
    d.step a now = (d, .error f) := by
  rw [step, h]

theorem step_snd_eq_error_iff {a : Action} {f : Fault} :
    (d.step a now).2 = .error f ↔ d.perform a now = .error f := by
  rw [step]
  split <;> simp [*]

theorem step_of_step {a : Action} {answer : Answer} (h : Step d now a e answer) :
    d.step a now = (e, .ok answer) := by
  rw [step, perform_eq_ok_iff.mpr h]

theorem step_operate_of_error {id : UInt64} {op : Operation} {p : Proposal} {f : Fault}
    (hp : d.get? id = some p) (h : (p.perform d.constitution op now).result = .error f) :
    d.step (.operate id op) now = (d, .error f) := by
  simp only [step, perform, operate, hp, h, demand, bind, Except.bind, Except.map]

/-- A request is refused and changes nothing, or it does what `Step` says. -/
theorem step_cases (d : Docket) (a : Action) (now : Instant) :
    (∃ f, d.step a now = (d, .error f)) ∨ ∃ e answer, Step d now a e answer ∧
    d.step a now = (e, .ok answer) := by
  cases h : d.perform a now with
  | error f => exact .inl ⟨f, step_eq_of_perform_error h⟩
  | ok r =>
    have hs := perform_eq_ok_iff.mp h
    exact .inr ⟨r.1, r.2, hs, step_of_step hs⟩

theorem run_induction_of_forall {P : Docket → Prop} {Q : Action → Prop}
    (step : ∀ {d e : Docket} {a : Action} {now : Instant} {answer : Answer}, Q a →
      Step d now a e answer → P d → P e)
    (hd : P d) {requests : List (Action × Instant)} (kind : ∀ request ∈ requests, Q request.1) :
    P (d.run requests) := by
  induction requests generalizing d with
  | nil => exact hd
  | cons request rest ih =>
    obtain ⟨a, now⟩ := request
    obtain ⟨ha, hrest⟩ := List.forall_mem_cons.mp kind
    rcases d.step_cases a now with ⟨f, hrefused⟩ | ⟨e, answer, hs, hdone⟩
    · rw [run, hrefused]
      exact ih hd hrest
    · rw [run, hdone]
      exact ih (step ha hs hd) hrest

theorem run_induction {P : Docket → Prop}
    (step : ∀ {d e : Docket} {a : Action} {now : Instant} {answer : Answer},
      Step d now a e answer → P d → P e)
    (hd : P d) (requests : List (Action × Instant)) : P (d.run requests) :=
  run_induction_of_forall (Q := fun _ => True) (fun _ => step) hd (fun _ _ => trivial)

theorem inForce_step {a : Action} {answer : Answer} (h : Step d now a e answer)
    (hc : InForce c d.constitution) :
    InForce c e.constitution := by
  cases h with
  | propose | operate | drain => exact hc
  | changePhase hp => exact hc.withPhase hp

def All (P : Proposal → Prop) (d : Docket) : Prop := ∀ id p, d.get? id = some p → P p

/-- A property that proposals have from the start and keep, under every constitution that may come
into force. -/
structure Kept (c : Constitution) (P : Proposal → Prop) : Prop where
  submitted : ∀ {d : Docket} {proposer : VoterId} {provision : String} {current proposed : Json}
    {justification : String} {now : Instant}, InForce c d.constitution →
    checkProvision d.constitution (Text.trim provision) = .ok () →
    d.nextId.toNat + 1 < UInt64.size →
    P (d.submission proposer (Text.trim provision) current proposed justification now)
  step : ∀ {c' : Constitution} {now : Instant} {p q : Proposal} {op : Operation} {reply : Reply},
    InForce c c' → p.Step c' now op q reply → P p → P q
  newPhase : ∀ {p : Proposal}, P p → P p.underNewPhase

theorem all_empty (P : Proposal → Prop) : (empty c).All P := by
  intro id p h
  cases h

theorem Kept.all_step {P : Proposal → Prop} (hP : Kept c P) {a : Action} {answer : Answer}
    (h : Step d now a e answer) (hc : InForce c d.constitution) (hd : d.All P) : e.All P := by
  intro id p hp
  cases h with
  | propose permitted _ _ room =>
    rcases Table.get?_insert_eq_some hp with ⟨-, rfl⟩ | ⟨-, hp⟩
    · exact hP.submitted hc permitted room
    · exact hd id p hp
  | @operate _ _ p' q _ found step =>
    rcases Table.get?_insert_eq_some hp with ⟨-, rfl⟩ | ⟨-, hp⟩
    · exact hP.step hc step (hd _ p' found)
    · exact hd id p hp
  | changePhase =>
    simp only [get?, Table.get?_map, Option.map_eq_some_iff] at hp
    obtain ⟨p', hp', rfl⟩ := hp
    exact hP.newPhase (hd id p' hp')
  | drain => exact hd id p hp

theorem Kept.all_run {P : Proposal → Prop} (hP : Kept c P) (hc : InForce c d.constitution)
    (hd : d.All P) (requests : List (Action × Instant)) : (d.run requests).All P := by
  have h : InForce c (d.run requests).constitution ∧ (d.run requests).All P := by
    refine run_induction (P := fun d => InForce c d.constitution ∧ d.All P) ?_ ⟨hc, hd⟩ requests
    intro d e a now answer hs hd
    exact ⟨inForce_step hs hd.1, hP.all_step hs hd.1 hd.2⟩
  exact h.2

theorem Kept.all_run_of_create {P : Proposal → Prop} (hP : Kept c P) (h : create c = .ok d)
    (requests : List (Action × Instant)) : (d.run requests).All P := by
  obtain ⟨hc, rfl⟩ := create_eq_ok_iff.mp h
  exact hP.all_run (.refl hc) (all_empty P) requests

/-- A constitution under which one voter is a panel. -/
def soloConstitution : Constitution where
  entrenched := ["rights.voluntary_exit"]
  formulaOnly := ["treasury.emission_rate"]
  thresholds := ⟨80, 50, 50⟩
  timing := ⟨1, 1, 1⟩
  diversity := ⟨1, 1, 100⟩
  confirmation := ⟨1, 1⟩
  phase := ⟨"solo", ⟨1, 1⟩, ⟨1, 1⟩, ⟨1, 1⟩⟩

def firstDay : Instant := ⟨0, by decide⟩

def secondDay : Instant := ⟨86400000000000, by decide⟩

def soloVotes : List (Action × Instant) :=
  let ratifier : Voter := ⟨"ben", ⟨"north", "guild"⟩⟩
  let proponent : Voter := ⟨"amy", ⟨"north", "guild"⟩⟩
  [(.operate 1 (.selectPanel .proposal [proponent]), firstDay),
    (.operate 1 (.cast .proposal proponent true "read"), firstDay),
    (.operate 1 (.close .proposal), firstDay),
    (.operate 1 (.selectPanel .ratification [ratifier]), firstDay),
    (.operate 1 (.cast .ratification ratifier true "read"), firstDay),
    (.operate 1 (.close .ratification), firstDay),
    (.operate 1 .advance, secondDay)]

def soloRequests (provision : String) (current proposed : Json) : List (Action × Instant) :=
  (.propose "joe" provision current proposed "due", firstDay) :: soloVotes

def soloVote (stage : Stage) (voter : VoterId) (now : Instant) : List (Action × Instant) :=
  let member : Voter := ⟨voter, ⟨"north", "guild"⟩⟩
  [(.operate 1 (.selectPanel stage [member]), now),
    (.operate 1 (.cast stage member true "read"), now), (.operate 1 (.close stage), now)]

/-- The longest pathway: a change to an entrenched provision is challenged, and all four panels vote
for it. -/
def challengedRequests : List (Action × Instant) :=
  (.propose "joe" "rights.voluntary_exit" .null (.bool true) "due", firstDay) ::
    (soloVote .proposal "amy" firstDay ++ soloVote .ratification "ben" firstDay ++
      (.operate 1 (.challenge "eve"), firstDay) :: soloVote .challenge "cleo" firstDay ++
        soloVote .confirmation "amy" secondDay)

end Docket

end Charter
