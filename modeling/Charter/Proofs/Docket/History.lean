import Mathlib.Data.List.Induction
import Charter.Proofs.Docket.Reload

/-! # The history of a proposal

What becomes of one proposal while requests come in: an operation on it, a new phase, or nothing. A
proposal is never lost, and none is there that was not submitted or restored. -/

namespace Charter.Docket

variable {c : Constitution} {d e : Docket} {now : Instant} {id : UInt64} {p q : Proposal}
  {a : Action} {answer : Answer}

theorem run_append (d : Docket) (before after : List (Action × Instant)) :
    d.run (before ++ after) = (d.run before).run after := by
  induction before generalizing d with
  | nil => rfl
  | cons request before ih =>
    obtain ⟨a, now⟩ := request
    rw [List.cons_append, run, run, ih]

inductive Fate (d : Docket) (now : Instant) (id : UInt64) (p : Proposal) :
    Action → Answer → Proposal → Prop
  | untouched {a : Action} {answer : Answer} (elsewhere : ∀ op, a ≠ .operate id op) :
      Fate d now id p a answer p
  | operated {op : Operation} {q : Proposal} {reply : Reply}
      (step : p.Step d.constitution now op q reply) :
      Fate d now id p (.operate id op) (.operated reply) q
  | newPhase {phase : Phase} {report : PhaseReport} :
      Fate d now id p (.changePhase phase) (.phaseChanged report) p.underNewPhase

theorem Orderly.fate_of_step (hd : d.Orderly) (hs : Step d now a e answer)
    (hp : d.get? id = some p) :
    ∃ q, e.get? id = some q ∧ Fate d now id p a answer q := by
  cases hs with
  | propose =>
    have hne : id ≠ d.nextId := by
      rintro rfl
      rw [hd.free] at hp
      cases hp
    refine ⟨p, ?_, .untouched (by simp)⟩
    simp only [get?, Table.get?_insert, if_neg hne]
    exact hp
  | @operate j op p' q reply found step =>
    by_cases hid : id = j
    · subst hid
      obtain rfl := Option.some.inj (hp.symm.trans found)
      exact ⟨q, by simp only [get?, Table.get?_insert, if_true], .operated step⟩
    · refine ⟨p, ?_, .untouched ?_⟩
      · simp only [get?, Table.get?_insert, if_neg hid]
        exact hp
      · rintro op' heq
        cases heq
        exact hid rfl
  | changePhase =>
    refine ⟨p.underNewPhase, ?_, .newPhase⟩
    simp only [get?, Table.get?_map, Option.map_eq_some_iff]
    exact ⟨p, hp, rfl⟩
  | drain => exact ⟨p, hp, .untouched (by simp)⟩

theorem submitted_of_step (hs : Step d now a e answer) (hnone : d.get? id = none)
    (hq : e.get? id = some q) :
    answer = .proposed id ∧ ∃ proposer key current proposed justification,
      q = d.submission proposer key current proposed justification now := by
  cases hs with
  | propose =>
    rcases Table.get?_insert_eq_some hq with ⟨rfl, rfl⟩ | ⟨-, hq⟩
    · exact ⟨rfl, _, _, _, _, _, rfl⟩
    · rw [get?, hq] at hnone
      cases hnone
  | operate found =>
    rcases Table.get?_insert_eq_some hq with ⟨rfl, -⟩ | ⟨-, hq⟩
    · rw [found] at hnone
      cases hnone
    · rw [get?, hq] at hnone
      cases hnone
  | changePhase =>
    simp only [get?, Table.get?_map, Option.map_eq_some_iff] at hq
    obtain ⟨p, hp, -⟩ := hq
    rw [get?, hp] at hnone
    cases hnone
  | drain =>
    change d.get? id = some q at hq
    rw [hq] at hnone
    cases hnone

theorem close_of_step {stage : Stage} (hs : Step d now (.operate id (.close stage)) e answer) :
    ∃ p r outcome q, d.get? id = some p ∧ e.get? id = some q ∧
      answer = .operated (.outcome outcome) ∧
      p.status = stage.votingStatus ∧ p.round? stage = some r ∧
      r.decide d.constitution.thresholds (p.hasEntrenchedRules stage) now = outcome ∧
      Proposal.Concludes d.constitution now p stage outcome q := by
  cases hs with
  | @operate _ _ p q _ found step =>
    cases step with
    | @close _ r outcome _ status running decided concludes =>
      have hq : (d.proposals.insert id q).get? id = some q := by rw [Table.get?_insert, if_pos rfl]
      exact ⟨p, r, outcome, q, found, hq, rfl, status, running, decided, concludes⟩

theorem Orderly.origin_of_step (hd : d.Orderly) (hs : Step d now a e answer)
    (hq : e.get? id = some q) :
    (∃ proposer key current proposed justification,
      q = d.submission proposer key current proposed justification now) ∨
      ∃ p, d.get? id = some p ∧ Fate d now id p a answer q := by
  cases hp : d.get? id with
  | none => exact .inl (submitted_of_step hs hp hq).2
  | some p =>
    obtain ⟨q', hq', hfate⟩ := hd.fate_of_step hs hp
    obtain rfl := Option.some.inj (hq.symm.trans hq')
    exact .inr ⟨p, rfl, hfate⟩

/-- What operations on a proposal and new phases keep, every run keeps. -/
theorem Orderly.run_of_fate {P : Proposal → Prop} (hd : d.Orderly)
    (step : ∀ {c : Constitution} {now : Instant} {p q : Proposal} {op : Operation} {reply : Reply},
      p.Step c now op q reply → P p → P q)
    (newPhase : ∀ {p : Proposal}, P p → P p.underNewPhase) (hp : d.get? id = some p) (h : P p)
    (requests : List (Action × Instant)) : ∃ q, (d.run requests).get? id = some q ∧ P q := by
  have hrun : (d.run requests).Orderly ∧ ∃ q, (d.run requests).get? id = some q ∧ P q := by
    refine run_induction (P := fun e => e.Orderly ∧ ∃ q, e.get? id = some q ∧ P q) ?_
      ⟨hd, p, hp, h⟩ requests
    rintro d e a now answer hs ⟨hd, p, hp, h⟩
    obtain ⟨q, hq, hfate⟩ := hd.fate_of_step hs hp
    refine ⟨hd.step hs, q, hq, ?_⟩
    cases hfate with
    | untouched => exact h
    | operated hstep => exact step hstep h
    | newPhase => exact newPhase h
  exact hrun.2

theorem Orderly.run (hd : d.Orderly) (requests : List (Action × Instant)) :
    (d.run requests).Orderly :=
  run_induction (fun hs hd => hd.step hs) hd requests

theorem Orderly.request_cases (hd : d.Orderly) (hp : d.get? id = some p) (a : Action)
    (now : Instant) :
    ∃ q, (d.step a now).1.get? id = some q ∧
      (q = p ∨ (∃ op reply, a = .operate id op ∧ p.Step d.constitution now op q reply) ∨
        ∃ phase, a = .changePhase phase ∧
          Constitution.checkPhase d.constitution.diversity phase = none ∧
          q = p.underNewPhase) := by
  rcases d.step_cases a now with ⟨f, hrefused⟩ | ⟨e, answer, hs, hdone⟩
  · rw [hrefused]
    exact ⟨p, hp, .inl rfl⟩
  · rw [hdone]
    obtain ⟨q, hq, hfate⟩ := hd.fate_of_step hs hp
    refine ⟨q, hq, ?_⟩
    cases hfate with
    | untouched => exact .inl rfl
    | operated step => exact .inr (.inl ⟨_, _, rfl, step⟩)
    | newPhase =>
      cases hs with
      | changePhase sound => exact .inr (.inr ⟨_, rfl, sound, rfl⟩)

theorem Orderly.exists_sameSubmission_run (hd : d.Orderly) (hp : d.get? id = some p)
    (requests : List (Action × Instant)) :
    ∃ q, (d.run requests).get? id = some q ∧ p.SameSubmission q :=
  hd.run_of_fate (P := p.SameSubmission) (fun hs h => h.trans (.of_step hs))
    (fun h => h.trans (Proposal.sameSubmission_underNewPhase _)) hp (.refl p) requests

/-- What was submitted under a number is what stands there ever after. -/
theorem Orderly.sameSubmission_run (hd : d.Orderly) (hp : d.get? id = some p)
    {requests : List (Action × Instant)} (hq : (d.run requests).get? id = some q) :
    p.SameSubmission q := by
  obtain ⟨q', hq', hsame⟩ := hd.exists_sameSubmission_run hp requests
  obtain rfl := Option.some.inj (hq.symm.trans hq')
  exact hsame

/-- The request puts a new phase in force, and its report names the proposal among those that start
over. -/
def sendsBack (d : Docket) (id : UInt64) (a : Action) (now : Instant) : Bool :=
  match (d.step a now).2 with
  | .ok (.phaseChanged report) => report.reset.any (fun r => r.1 = id)
  | _ => false

def Uninterrupted (id : UInt64) : Docket → List (Action × Instant) → Prop
  | _, [] => True
  | d, (a, now) :: rest => d.sendsBack id a now = false ∧ Uninterrupted id (d.step a now).1 rest

instance Uninterrupted.decidable (id : UInt64) :
    (d : Docket) → (requests : List (Action × Instant)) → Decidable (Uninterrupted id d requests)
  | _, [] => inferInstanceAs (Decidable True)
  | d, (a, now) :: rest =>
    have := Uninterrupted.decidable id (d.step a now).1 rest
    inferInstanceAs (Decidable (_ ∧ _))

theorem Orderly.sendsBack_of_reset (hd : d.Orderly) (hp : d.get? id = some p) {phase : Phase}
    {chamber : Chamber} (sound : Constitution.checkPhase d.constitution.diversity phase = none)
    (hr : p.disposition = .reset chamber) :
    d.sendsBack id (.changePhase phase) now = true := by
  have hmem : p ∈ d.proposals.values := List.mem_map_of_mem (Table.mem_of_get? hp)
  have hreset : (p.id, chamber) ∈
      (phaseReport d.constitution.phase phase d.proposals.values).reset :=
    List.mem_filterMap.mpr ⟨p, hmem, by rw [hr]⟩
  rw [sendsBack, step_of_step (.changePhase sound)]
  exact List.any_eq_true.mpr ⟨_, hreset, by simp [hd.filed id p hp]⟩

theorem Orderly.step_of_not_sendsBack (hd : d.Orderly) (hp : d.get? id = some p)
    (h : d.sendsBack id a now = false) :
    ∃ q, (d.step a now).1.get? id = some q ∧
      (q = p ∨ ∃ op reply, p.Step d.constitution now op q reply) := by
  obtain ⟨q, hq, hcases⟩ := hd.request_cases hp a now
  refine ⟨q, hq, ?_⟩
  rcases hcases with rfl | ⟨op, reply, -, step⟩ | ⟨phase, rfl, sound, rfl⟩
  · exact .inl rfl
  · exact .inr ⟨op, reply, step⟩
  · rcases Proposal.underNewPhase_cases p with ⟨hsame, -⟩ | ⟨chamber, hr, -⟩
    · exact .inl hsame
    · rw [hd.sendsBack_of_reset hp sound hr] at h
      cases h

/-- What operations on a proposal keep, holds of it until it is sent back. -/
theorem Orderly.run_of_uninterrupted {P : Proposal → Prop} (hd : d.Orderly)
    (step : ∀ {c : Constitution} {now : Instant} {p q : Proposal} {op : Operation} {reply : Reply},
      p.Step c now op q reply → P p → P q)
    {requests : List (Action × Instant)} (uninterrupted : d.Uninterrupted id requests)
    (hp : d.get? id = some p) (h : P p) :
    ∃ q, (d.run requests).get? id = some q ∧ P q := by
  induction requests generalizing d p with
  | nil => exact ⟨p, hp, h⟩
  | cons request rest ih =>
    obtain ⟨a, now⟩ := request
    obtain ⟨hback, hrest⟩ := uninterrupted
    obtain ⟨q, hq, hcases⟩ := hd.step_of_not_sendsBack hp hback
    have hQ : P q := by
      rcases hcases with rfl | ⟨op, reply, hs⟩
      · exact h
      · exact step hs h
    exact ih (hd.run [(a, now)]) hrest hq hQ

/-- In a run whose times do not decrease, what holds up to the time of a request and survives it
holds up to any time after the last request. -/
theorem run_induction_of_ordered {P : Instant → Docket → Prop}
    (wait : ∀ {s t : Instant} {d : Docket}, s ≤ t → P s d → P t d)
    (step : ∀ {d e : Docket} {a : Action} {now : Instant} {answer : Answer}, Step d now a e answer →
      P now d → P now e)
    (hd : ∀ t, P t d) {requests : List (Action × Instant)}
    (ordered : requests.Pairwise (fun r s => r.2 ≤ s.2)) {t : Instant}
    (ht : ∀ r ∈ requests, r.2 ≤ t) : P t (d.run requests) := by
  -- from the right, since the times of all requests are bounded by the time of the last
  induction requests using List.reverseRecOn generalizing t with
  | nil => exact hd t
  | append_singleton requests request ih =>
    obtain ⟨a, now⟩ := request
    obtain ⟨ordered, -, hbefore⟩ := List.pairwise_append.mp ordered
    have hnow : P now (d.run requests) := ih ordered (fun r hr => hbefore r hr (a, now) (by simp))
    have hle : now ≤ t := ht (a, now) (by simp)
    rw [run_append, run, run]
    rcases (d.run requests).step_cases a now with ⟨f, hrefused⟩ | ⟨e, answer, hs, hdone⟩
    · rw [hrefused]
      exact wait hle hnow
    · rw [hdone]
      exact wait hle (step hs hnow)

end Charter.Docket
