import Charter.Proofs.Docket.Condition
import Charter.Proofs.Docket.History

/-! # What a new phase does

A new phase lists the proposals whose chamber is open. Those without a ballot there become what they
were when they were submitted, the others stay as they are, and asking for the same phase again
changes nothing. -/

namespace Charter

namespace Proposal

variable {p q : Proposal} {now : Instant} {chamber : Chamber}

namespace Disposition

def reset? : Disposition → Option Chamber
  | reset chamber => some chamber
  | _ => none

def retained? : Disposition → Option Chamber
  | retained chamber => some chamber
  | _ => none

theorem reset?_eq_none_iff {disposition : Disposition} :
    disposition.reset? = none ↔ ∀ chamber, disposition ≠ .reset chamber := by
  cases disposition <;> simp [reset?]

end Disposition

theorem openChamber?_eq_some_iff : p.status.openChamber? = some chamber ↔
    p.status = chamber.votingStatus := by
  refine ⟨status_eq_of_openChamber?, ?_⟩
  intro hs
  rw [hs]
  cases chamber <;> rfl

theorem ballots_eq_nil_iff {stage : Stage} :
    p.ballots stage = [] ↔ ∀ r, p.round? stage = some r → r.ballots = [] := by
  unfold ballots
  cases p.round? stage <;> simp

theorem reset?_disposition_eq_some_iff :
    p.disposition.reset? = some chamber ↔ p.status = chamber.votingStatus ∧
    p.ballots chamber.stage = [] := by
  rw [← openChamber?_eq_some_iff, ← disposition_eq_reset_iff]
  cases p.disposition <;> simp [Disposition.reset?]

theorem retained?_disposition_eq_some_iff :
    p.disposition.retained? = some chamber ↔ p.status = chamber.votingStatus ∧
    p.ballots chamber.stage ≠ [] := by
  rw [← openChamber?_eq_some_iff]
  unfold disposition
  cases hs : p.status.openChamber? with
  | none => simp [Disposition.retained?]
  | some opened =>
    by_cases hb : p.ballots opened.stage = []
    · simp only [hb, if_true, Disposition.retained?, reduceCtorEq, Option.some.injEq,
        false_iff, not_and]
      rintro rfl
      exact not_not_intro hb
    · simp only [hb, if_false, Disposition.retained?, Option.some.injEq]
      constructor
      · rintro rfl
        exact ⟨rfl, hb⟩
      · exact And.left

theorem underNewPhase_of_not_reset (h : p.disposition.reset? = none) : p.underNewPhase = p := by
  rcases underNewPhase_cases p with ⟨hp, -⟩ | ⟨chamber, hreset, -⟩
  · exact hp
  · exact absurd hreset (Disposition.reset?_eq_none_iff.mp h chamber)

theorem underNewPhase_of_reset (h : p.disposition.reset? = some chamber) :
    p.underNewPhase = p.restarted := by
  rcases underNewPhase_cases p with ⟨-, hnot⟩ | ⟨_, -, -, hp⟩
  · rw [Disposition.reset?_eq_none_iff.mpr hnot] at h
    cases h
  · exact hp

/-- A new phase finds nothing to send back where another has just been put in force, and retains the
same votes. -/
theorem disposition_underNewPhase (p : Proposal) :
    p.underNewPhase.disposition.reset? = none ∧
    p.underNewPhase.disposition.retained? = p.disposition.retained? := by
  rcases underNewPhase_cases p with ⟨hp, hnot⟩ | ⟨chamber, hreset, -, hp⟩
  · rw [hp]
    exact ⟨Disposition.reset?_eq_none_iff.mpr hnot, rfl⟩
  · rw [hp, hreset]
    exact ⟨rfl, rfl⟩

def asSubmitted (p : Proposal) : Proposal :=
  submitted p.id p.proposer p.provision p.current p.proposed p.justification
    p.isEntrenched p.createdAt

theorem asSubmitted_submitted (id : UInt64) (proposer : VoterId) (key : String)
    (current proposed : Json) (justification : String) (entrenched : Bool) :
    (submitted id proposer key current proposed justification entrenched now).asSubmitted =
      submitted id proposer key current proposed justification entrenched now := by
  cases entrenched <;> rfl

theorem SameSubmission.asSubmitted_eq (h : p.SameSubmission q) : q.asSubmitted = p.asSubmitted := by
  rw [asSubmitted, h.id, h.proposer, h.provision, h.current, h.proposed, h.justification,
    h.isEntrenched, h.createdAt, asSubmitted]

/-- While a chamber is open nothing is decided and the second pathway has not begun, so that without
the rounds nothing but the submission remains. -/
theorem restarted_eq_asSubmitted (hfits : p.Fits) (hdated : p.IsDated)
    (hs : p.status = chamber.votingStatus) :
    p.restarted = p.asSubmitted := by
  obtain ⟨hdecided, happlied⟩ := hdated.undated hs
  have htrack := (hfits.isIdle hs).track_eq
  rw [restarted, asSubmitted, submitted, hdecided, happlied, ← htrack]

end Proposal

namespace Docket

open Proposal (Disposition)

variable {c : Constitution} {d e : Docket} {now : Instant} {id : UInt64} {p : Proposal}

def treated (way : Disposition → Option Chamber) (proposals : List Proposal) :
    List (UInt64 × Chamber) :=
  proposals.filterMap (fun p => (way p.disposition).map (fun chamber => (p.id, chamber)))

theorem phaseReport_eq (previous next : Phase) (proposals : List Proposal) :
    phaseReport previous next proposals =
      ⟨previous.name, next.name, treated Disposition.reset? proposals,
        treated Disposition.retained? proposals⟩ := by
  rw [phaseReport, treated, treated]
  congr 1 <;> refine List.filterMap_congr ?_ <;> intro p _ <;> cases p.disposition <;> rfl

variable {way : Disposition → Option Chamber} {chamber : Chamber}

theorem Orderly.mem_treated_iff (hd : d.Orderly) : (id, chamber) ∈ treated way d.proposals.values ↔
    ∃ p, d.get? id = some p ∧ way p.disposition = some chamber := by
  simp only [treated, List.mem_filterMap, hd.mem_values_iff, Option.map_eq_some_iff, Prod.mk.injEq]
  constructor
  · rintro ⟨p, hp, _, hway, rfl, rfl⟩
    exact ⟨p, hp, hway⟩
  · rintro ⟨p, hp, hway⟩
    obtain rfl := hd.filed id p hp
    exact ⟨p, hp, chamber, hway, rfl, rfl⟩

theorem Orderly.ascending_treated (hd : d.Orderly) (way : Disposition → Option Chamber) :
    (treated way d.proposals.values).Pairwise (fun a b => a.1 < b.1) := by
  refine Table.ascending_filterMap_values hd.ascending hd.filed_of_mem ?_
  intro p x hx
  obtain ⟨_, -, rfl⟩ := Option.map_eq_some_iff.mp hx
  rfl

/-- The report lists each proposal whose chamber is open once, with this chamber, by number: on one
side the proposals whose open chamber has met and holds a ballot, on the other side the rest. -/
structure IsReportedBy (d : Docket) (report : PhaseReport) : Prop where
  listed : ∀ id chamber, (id, chamber) ∈ report.reset ++ report.retained ↔
    ∃ p, d.get? id = some p ∧ p.status = chamber.votingStatus
  retained : ∀ id chamber, (id, chamber) ∈ report.retained ↔
    ∃ p r, d.get? id = some p ∧ p.status = chamber.votingStatus ∧ p.round? chamber.stage = some r ∧
      r.ballots ≠ []
  once : ((report.reset ++ report.retained).map Prod.fst).Nodup
  resetOrder : report.reset.Pairwise (fun a b => a.1 < b.1)
  retainedOrder : report.retained.Pairwise (fun a b => a.1 < b.1)

theorem Orderly.isReportedBy (hd : d.Orderly) (previous phase : Phase) :
    d.IsReportedBy (phaseReport previous phase d.proposals.values) := by
  rw [phaseReport_eq]
  refine ⟨?_, ?_, ?_, hd.ascending_treated _, hd.ascending_treated _⟩
  · intro id chamber
    simp only [List.mem_append, hd.mem_treated_iff, Proposal.reset?_disposition_eq_some_iff,
      Proposal.retained?_disposition_eq_some_iff]
    constructor
    · rintro (⟨p, hp, hs, -⟩ | ⟨p, hp, hs, -⟩) <;> exact ⟨p, hp, hs⟩
    · rintro ⟨p, hp, hs⟩
      by_cases hb : p.ballots chamber.stage = []
      · exact .inl ⟨p, hp, hs, hb⟩
      · exact .inr ⟨p, hp, hs, hb⟩
  · intro id chamber
    simp only [hd.mem_treated_iff, Proposal.retained?_disposition_eq_some_iff, ne_eq,
      Proposal.ballots_eq_nil_iff, not_forall]
    constructor
    · rintro ⟨p, hp, hs, r, hr, hb⟩
      exact ⟨p, r, hp, hs, hr, hb⟩
    · rintro ⟨p, r, hp, hs, hr, hb⟩
      exact ⟨p, hp, hs, r, hr, hb⟩
  · rw [List.map_append, List.nodup_append]
    have hnodup (way : Disposition → Option Chamber) :
        ((treated way d.proposals.values).map Prod.fst).Nodup :=
      List.pairwise_map.mpr ((hd.ascending_treated way).imp Std.ne_of_lt)
    refine ⟨hnodup _, hnodup _, ?_⟩
    -- nothing is sent back and retained at once
    rintro id hid _ hid' rfl
    obtain ⟨⟨_, chamber⟩, hmem, rfl⟩ := List.mem_map.mp hid
    obtain ⟨⟨id, chamber'⟩, hmem', heq⟩ := List.mem_map.mp hid'
    obtain rfl : id = _ := heq
    obtain ⟨p, hp, hreset⟩ := hd.mem_treated_iff.mp hmem
    obtain ⟨p', hp', hretained⟩ := hd.mem_treated_iff.mp hmem'
    obtain rfl := Option.some.inj (hp.symm.trans hp')
    cases hdisposition : p.disposition <;>
      simp [hdisposition, Disposition.reset?, Disposition.retained?] at hreset hretained

def inPhase (d : Docket) (phase : Phase) (now : Instant) : Docket :=
  { d with
    constitution := { d.constitution with phase := phase }
    proposals := d.proposals.map (fun e => (e.1, e.2.underNewPhase))
    events := d.events ++ d.proposals.values.flatMap (fun p => phaseEvents phase p now) }

theorem get?_inPhase (d : Docket) (phase : Phase) (now : Instant) (id : UInt64) :
    (d.inPhase phase now).get? id = (d.get? id).map Proposal.underNewPhase := Table.get?_map _ _ _

theorem step_changePhase {phase : Phase}
    (sound : Constitution.checkPhase d.constitution.diversity phase = none) (now : Instant) :
    d.step (.changePhase phase) now =
        (d.inPhase phase now,
          .ok (.phaseChanged (phaseReport d.constitution.phase phase d.proposals.values))) :=
  step_of_step (.changePhase sound)

theorem step_changePhase_of_flaw {phase : Phase} {flaw : Constitution.Flaw}
    (h : Constitution.checkPhase d.constitution.diversity phase = some flaw) (now : Instant) :
    d.step (.changePhase phase) now = (d, .error (.invalid (.phase flaw))) := by
  simp only [step, perform, changePhase, h, Except.map]

theorem Orderly.get?_inPhase_of_not_reset (hd : d.Orderly) {previous phase : Phase}
    (h : ∀ chamber, (id, chamber) ∉ (phaseReport previous phase d.proposals.values).reset)
    (now : Instant) :
    (d.inPhase phase now).get? id = d.get? id := by
  rw [get?_inPhase]
  cases hp : d.get? id with
  | none => rfl
  | some p =>
    have hnot : p.disposition.reset? = none := by
      rw [Option.eq_none_iff_forall_ne_some]
      intro chamber hreset
      refine h chamber ?_
      rw [phaseReport_eq]
      exact hd.mem_treated_iff.mpr ⟨p, hp, hreset⟩
    rw [Option.map_some, Proposal.underNewPhase_of_not_reset hnot]

theorem Orderly.get?_inPhase_of_reset (hd : d.Orderly) (hkept : d.All (fun p => p.Fits ∧ p.IsDated))
    {previous phase : Phase}
    (h : (id, chamber) ∈ (phaseReport previous phase d.proposals.values).reset) (now : Instant) :
    ∃ p, d.get? id = some p ∧ (d.inPhase phase now).get? id = some p.asSubmitted := by
  rw [phaseReport_eq] at h
  obtain ⟨p, hp, hreset⟩ := hd.mem_treated_iff.mp h
  obtain ⟨hfits, hdated⟩ := hkept id p hp
  refine ⟨p, hp, ?_⟩
  rw [get?_inPhase, hp, Option.map_some, Proposal.underNewPhase_of_reset hreset,
    Proposal.restarted_eq_asSubmitted hfits hdated
    (Proposal.reset?_disposition_eq_some_iff.mp hreset).1]

theorem values_inPhase (d : Docket) (phase : Phase) (now : Instant) :
    (d.inPhase phase now).proposals.values = d.proposals.values.map Proposal.underNewPhase := by
  simp [inPhase, Table.values]

theorem phaseEvents_of_not_reset (h : p.disposition.reset? = none) (phase : Phase) :
    phaseEvents phase p now = [] := by
  unfold phaseEvents
  split
  · rename_i hreset
    exact absurd hreset (Proposal.Disposition.reset?_eq_none_iff.mp h _)
  · rfl

theorem inPhase_inPhase (d : Docket) (phase : Phase) (now later : Instant) :
    (d.inPhase phase now).inPhase phase later = d.inPhase phase now := by
  have hevents : (d.inPhase phase now).proposals.values.flatMap
      (fun p => phaseEvents phase p later) = [] := by
    rw [values_inPhase, List.flatMap_map, List.flatMap_eq_nil_iff]
    intro p _
    exact phaseEvents_of_not_reset p.disposition_underNewPhase.1 phase
  have hproposals : (d.inPhase phase now).proposals.map (fun e => (e.1, e.2.underNewPhase)) =
      (d.inPhase phase now).proposals := by
    rw [inPhase, List.map_map]
    refine List.map_congr_left ?_
    intro entry _
    simp [Proposal.underNewPhase_of_not_reset entry.2.disposition_underNewPhase.1]
  rw [inPhase, hevents, hproposals, List.append_nil]
  rfl

theorem treated_inPhase (way : Disposition → Option Chamber) (d : Docket) (phase : Phase)
    (now : Instant) :
    treated way (d.inPhase phase now).proposals.values = d.proposals.values.filterMap
      (fun p => (way p.underNewPhase.disposition).map (fun chamber => (p.id, chamber))) := by
  rw [values_inPhase, treated, List.filterMap_map]
  refine List.filterMap_congr ?_
  intro p _
  rw [Function.comp, (Proposal.sameSubmission_underNewPhase p).id]

theorem phaseReport_inPhase (d : Docket) (previous phase : Phase) (now : Instant) :
    phaseReport phase phase (d.inPhase phase now).proposals.values =
      { phaseReport previous phase d.proposals.values with
        previous := phase.name, reset := [] } := by
  have hreset : treated Disposition.reset? (d.inPhase phase now).proposals.values = [] := by
    rw [treated_inPhase, List.filterMap_eq_nil_iff]
    intro p _
    rw [p.disposition_underNewPhase.1, Option.map_none]
  have hretained : treated Disposition.retained? (d.inPhase phase now).proposals.values =
      treated Disposition.retained? d.proposals.values := by
    rw [treated_inPhase, treated]
    refine List.filterMap_congr ?_
    intro p _
    rw [p.disposition_underNewPhase.2]
  rw [phaseReport_eq, phaseReport_eq, hreset, hretained]

theorem step_changePhase_inPhase {phase : Phase}
    (sound : Constitution.checkPhase d.constitution.diversity phase = none) (now later : Instant) :
    (d.inPhase phase now).step (.changePhase phase) later = (d.inPhase phase now, .ok (.phaseChanged
      { phaseReport d.constitution.phase phase d.proposals.values with
        previous := phase.name, reset := [] })) := by
  have hsound : Constitution.checkPhase (d.inPhase phase now).constitution.diversity phase = none :=
    sound
  have hphase : (d.inPhase phase now).constitution.phase = phase := rfl
  rw [step_changePhase hsound, inPhase_inPhase, hphase, phaseReport_inPhase d d.constitution.phase]

/-- In this run the proposal was submitted in just this form: a submission was answered with its
number, and left it there. -/
def Submits (d : Docket) (requests : List (Action × Instant)) (id : UInt64) (p : Proposal) : Prop :=
  ∃ earlier a now later e, requests = earlier ++ (a, now) :: later ∧
    (d.run earlier).step a now = (e, .ok (.proposed id)) ∧ e.get? id = some p

theorem Submits.cons {requests : List (Action × Instant)} {a : Action}
    (h : (d.step a now).1.Submits requests id p) :
    d.Submits ((a, now) :: requests) id p := by
  obtain ⟨earlier, b, t, later, e, rfl, hstep, he⟩ := h
  exact ⟨(a, now) :: earlier, b, t, later, e, rfl, hstep, he⟩

/-- What stands in the docket and did not stand there before was submitted. -/
theorem Orderly.submits_run (hd : d.Orderly) (hnone : d.get? id = none)
    {requests : List (Action × Instant)} (hp : (d.run requests).get? id = some p) :
    d.Submits requests id p.asSubmitted := by
  induction requests generalizing d with
  | nil =>
    change d.get? id = some p at hp
    rw [hnone] at hp
    cases hp
  | cons request rest ih =>
    obtain ⟨a, now⟩ := request
    have hd' : (d.step a now).1.Orderly := hd.run [(a, now)]
    cases hq : (d.step a now).1.get? id with
    | none => exact (ih hd' hq hp).cons
    | some q =>
      have hsame : q.SameSubmission p := hd'.sameSubmission_run hq hp
      rcases d.step_cases a now with ⟨f, hrefused⟩ | ⟨e, answer, hs, hdone⟩
      · rw [hrefused, hnone] at hq
        cases hq
      · rw [hdone] at hq
        obtain ⟨rfl, _, _, _, _, _, hsubmission⟩ := submitted_of_step hs hnone hq
        have hq' : q.asSubmitted = q := by
          rw [hsubmission, submission, Proposal.asSubmitted_submitted]
        refine ⟨[], a, now, rest, e, rfl, hdone, ?_⟩
        rw [hsame.asSubmitted_eq, hq', hq]

/-- In every run of a new docket a sound phase is put in force. Its report lists the proposals whose
chamber is open. Those without a ballot there are what they were right after their submission, all
others are as before, and asking for the same phase again retains the same votes and changes
nothing. -/
theorem phase_change_restarts_the_unvoted (h : create c = .ok d)
    (requests : List (Action × Instant)) {phase : Phase}
    (sound : Constitution.checkPhase (d.run requests).constitution.diversity phase = none)
    (now : Instant) :
    ∃ e report, (d.run requests).step (.changePhase phase) now = (e, .ok (.phaseChanged report)) ∧
      e.constitution = { (d.run requests).constitution with phase := phase } ∧
      (d.run requests).IsReportedBy report ∧
      (∀ id, (∀ chamber, (id, chamber) ∉ report.reset) → e.get? id = (d.run requests).get? id) ∧
      (∀ id chamber, (id, chamber) ∈ report.reset → ∃ p, (d.run requests).get? id = some p ∧
        e.get? id = some p.asSubmitted ∧ d.Submits requests id p.asSubmitted) ∧
      ∀ later, e.step (.changePhase phase) later =
        (e, .ok (.phaseChanged { report with previous := phase.name, reset := [] })) := by
  have hkept : (d.run requests).All (fun p => p.Fits ∧ p.IsDated) := by
    intro id p hp
    obtain ⟨hfits, hdated, -⟩ := (kept_isDated c).all_run_of_create h requests id p hp
    exact ⟨hfits, hdated⟩
  obtain ⟨-, rfl⟩ := create_eq_ok_iff.mp h
  have hempty : (empty c).Orderly := orderly_empty c
  have horderly : ((empty c).run requests).Orderly := hempty.run requests
  refine ⟨_, _, step_changePhase sound now, rfl, horderly.isReportedBy _ phase, ?_, ?_, ?_⟩
  · intro id hnot
    exact horderly.get?_inPhase_of_not_reset hnot now
  · intro id chamber hreset
    obtain ⟨p, hp, hsubmitted⟩ := horderly.get?_inPhase_of_reset hkept hreset now
    exact ⟨p, hp, hsubmitted, hempty.submits_run rfl hp⟩
  · exact step_changePhase_inPhase sound now

def mixedRequests : List (Action × Instant) :=
  let proponent : Voter := ⟨"amy", ⟨"north", "guild"⟩⟩
  [(.propose "joe" "rights.voluntary_exit" .null (.bool true) "due", firstDay),
    (.propose "joe" "fees.base" .null (.bool true) "due", firstDay),
    (.operate 1 (.selectPanel .proposal [proponent]), firstDay),
    (.operate 2 (.selectPanel .proposal [proponent]), firstDay),
    (.operate 2 (.cast .proposal proponent true "read"), firstDay)]

/-- The first proposal starts over as it was submitted, the second goes on. -/
theorem phase_change_restarts_the_unvoted_mixed :
    ∃ e report, ((empty soloConstitution).run mixedRequests).step
    (.changePhase soloConstitution.phase) secondDay =
        (e, .ok (.phaseChanged report)) ∧
      report.reset = [(1, .proposal)] ∧ report.retained = [(2, .proposal)] ∧
      (∃ p, e.get? 1 = some p ∧ (empty soloConstitution).Submits mixedRequests 1 p) ∧
      e.get? 2 = ((empty soloConstitution).run mixedRequests).get? 2 ∧
      e.step (.changePhase soloConstitution.phase) secondDay =
        (e, .ok (.phaseChanged { report with reset := [] })) := by
  have hcreate : create soloConstitution = .ok (empty soloConstitution) := rfl
  have hsound :
      Constitution.checkPhase ((empty soloConstitution).run mixedRequests).constitution.diversity
      soloConstitution.phase = none := by decide +kernel
  obtain ⟨e, report, hstep, -, -, hothers, hrestarted, hagain⟩ :=
    phase_change_restarts_the_unvoted hcreate mixedRequests hsound secondDay
  have hanswer : (((empty soloConstitution).run mixedRequests).step
      (.changePhase soloConstitution.phase) secondDay).2 =
      .ok (.phaseChanged ⟨"solo", "solo", [(1, .proposal)], [(2, .proposal)]⟩) := by decide +kernel
  rw [hstep] at hanswer
  obtain rfl : report = ⟨"solo", "solo", [(1, .proposal)], [(2, .proposal)]⟩ := by
    simpa using hanswer
  obtain ⟨p, -, hp, hsubmitted⟩ := hrestarted 1 .proposal (by simp)
  exact ⟨e, _, hstep, rfl, rfl, ⟨_, hp, hsubmitted⟩, hothers 2 (by simp), hagain secondDay⟩

end Docket

end Charter
