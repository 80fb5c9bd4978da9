import Charter.Docket.InPlace
import Charter.Proofs.Docket.Opened
import Charter.Proofs.Proposal.InPlace

/-! # Refused requests

In place, a request comes to what `Docket.step` says: whatever it has changed when it can still be
refused is a copy. So a refused request leaves the docket and the live configuration as they were,
and an operation changes nothing but its proposal. -/

namespace Charter

namespace InPlace

variable {d : Docket} {now : Instant} {id : UInt64}

theorem run_propose (proposer : VoterId) (provision : String) (current proposed : Json)
    (justification : String) :
    (propose proposer provision current proposed justification now).run d =
      match d.propose proposer provision current proposed justification now with
      | .ok (e, id) => .ok id e
      | .error f => .error f d := by
  simp only [propose, Docket.propose, queue, EStateM.run_bind, EStateM.run_get,
    EStateM.run_modify, run_ask]
  cases Docket.checkProvision d.constitution (Text.trim provision) with
  | error f => rfl
  | ok _ =>
    cases require (¬Text.isEmptyText justification) (Fault.invalid .emptyJustification) with
    | error f => rfl
    | ok _ =>
      cases require (current.same proposed = false) (Fault.invalid .sameValue) with
      | error f => rfl
      | ok _ =>
        cases require (d.nextId.toNat + 1 < UInt64.size) (Fault.invalid .idsExhausted) <;> rfl

theorem run_renew (phase : Phase) (renewed rest : Table UInt64 Proposal)
    (h : d.proposals = renewed ++ rest) :
    (renew phase now renewed rest).run d = .ok ()
      { d with
        proposals := renewed ++ rest.map (fun e => (e.1, e.2.underNewPhase))
        events := d.events ++
          (Table.values rest).flatMap (fun p => Docket.phaseEvents phase p now) } := by
  -- on the proposals to come; those in front of them stand renewed
  induction rest generalizing d renewed with
  | nil => simp [renew, Table.values, ← h]
  | cons entry rest ih =>
    obtain ⟨id, p⟩ := entry
    simp only [renew, queue, EStateM.run_bind, EStateM.run_modify]
    rw [ih _ (by simp)]
    simp [Table.values]

theorem run_changePhase (phase : Phase) : (changePhase phase now).run d =
    match d.changePhase phase now with
    | .ok (e, report) => .ok report e
    | .error f => .error f d := by
  simp only [changePhase, Docket.changePhase, EStateM.run_bind, EStateM.run_get]
  cases Constitution.checkPhase d.constitution.diversity phase with
  | some flaw => rfl
  | none =>
    simp only [EStateM.run_bind, run_renew phase [] d.proposals rfl]
    rfl

theorem run_onCopy {α : Type} {live : Option Json} (p : Proposal)
    (x : InPlace (Proposal × Option Json) α) :
    (onCopy p x).run (d, live) = match x.run (p, live) with
      | .ok a t => .ok (a, t.1) (d, t.2)
      | .error f t => .error f (d, t.2) := rfl

theorem run_report {live : Option Json} (status : Status) (happenings : List Happening) :
    (report id status now happenings).run (d, live) =
      .ok () ({ d with events := d.events ++ happenings.map (fun h => ⟨id, h, status, now⟩) },
        live) := rfl

/-- The events are queued in three groups, under the number that was asked for, which is the number
of the proposal. -/
theorem run_operate (filed : ∀ p, d.get? id = some p → p.id = id) (op : Operation) :
    (operate id op now).run (d, op.live?) =
      match d.operate id op now with
      | .ok (e, reply) => .ok reply (e, reply.live?)
      | .error f => .error f (d, op.live?) := by
  simp only [operate, Docket.operate, EStateM.run_bind, EStateM.run_get, run_ask]
  cases hp : d.get? id with
  | none => rfl
  | some p =>
    simp only [demand, run_onCopy, Operation.run_inPlace, Attempt.leaving, bind, Except.bind]
    cases (p.perform d.constitution op now).result with
    | error f => rfl
    | ok reply =>
      simp only [run_report, run_onFirst, EStateM.run_modify, EStateM.run_pure]
      simp [Event.ofOperation, filed p hp, pure, Except.pure]

end InPlace

namespace Docket

variable {c : Constitution} {d e : Docket} {now : Instant} {id : UInt64}

theorem run_inPlace (hd : d.Orderly) (a : Action) : (a.inPlace now).run (d, a.live?) =
    match d.perform a now with
    | .ok (e, answer) => .ok answer (e, answer.live?)
    | .error f => .error f (d, a.live?) := by
  cases a with
  | propose proposer provision current proposed justification =>
    simp only [Action.inPlace, EStateM.run_bind, InPlace.run_onFirst, InPlace.run_propose, perform]
    cases d.propose proposer provision current proposed justification now <;> rfl
  | operate id op =>
    simp only [Action.inPlace, EStateM.run_bind, Action.live?,
      InPlace.run_operate (hd.filed id), perform]
    cases d.operate id op now <;> rfl
  | changePhase phase =>
    simp only [Action.inPlace, EStateM.run_bind, InPlace.run_onFirst,
      InPlace.run_changePhase, perform]
    cases d.changePhase phase now <;> rfl
  | drain => rfl

theorem carryOut_eq (hd : d.Orderly) (a : Action) (now : Instant) : d.carryOut a now =
    match d.perform a now with
    | .ok (e, answer) => ⟨e, answer.live?, .ok answer⟩
    | .error f => ⟨d, a.live?, .error f⟩ := by
  rw [carryOut, run_inPlace hd]
  cases d.perform a now <;> rfl

structure ConcernsOnly (id : UInt64) (d e : Docket) : Prop where
  constitution : e.constitution = d.constitution
  nextId : e.nextId = d.nextId
  others : ∀ other, other ≠ id → e.get? other = d.get? other
  events : ∃ news, e.events = d.events ++ news ∧ ∀ event ∈ news, event.proposal = id

theorem concernsOnly_of_step {op : Operation} {answer : Answer} (hd : d.Orderly)
    (hs : Step d now (.operate id op) e answer) : ConcernsOnly id d e := by
  cases hs with
  | @operate _ _ p q reply found step =>
    refine ⟨rfl, rfl, ?_, Event.ofOperation op reply p q now, rfl, ?_⟩
    · intro other hne
      simp only [get?, Table.get?_insert, if_neg hne]
    · intro event hevent
      obtain ⟨_, -, rfl⟩ := List.mem_map.mp hevent
      exact hd.filed id p found

/-- What a request does in place is what `step` says, all of it or nothing: if it is refused, the
docket and the live configuration are as before, and if it is an operation on a proposal, everything
but this proposal is. -/
structure IsAllOrNothing (d : Docket) (a : Action) (now : Instant) : Prop where
  step : d.step a now = ((d.carryOut a now).docket, (d.carryOut a now).result)
  refused : ∀ f, (d.carryOut a now).result = .error f → (d.carryOut a now).docket = d ∧
    (d.carryOut a now).live = a.live?
  operated : ∀ id op answer, a = .operate id op → (d.carryOut a now).result = .ok answer →
    ConcernsOnly id d (d.carryOut a now).docket

theorem Orderly.isAllOrNothing (hd : d.Orderly) (a : Action) (now : Instant) :
    d.IsAllOrNothing a now := by
  have heq := carryOut_eq hd a now
  cases hperform : d.perform a now with
  | error f =>
    rw [hperform] at heq
    refine ⟨?_, ?_, ?_⟩
    · rw [step_eq_of_perform_error hperform, heq]
    · intro _ _
      rw [heq]
      exact ⟨rfl, rfl⟩
    · intro id op answer _ hok
      rw [heq] at hok
      cases hok
  | ok r =>
    obtain ⟨e, answer⟩ := r
    have hs := perform_eq_ok_iff.mp hperform
    rw [hperform] at heq
    refine ⟨?_, ?_, ?_⟩
    · rw [step_of_step hs, heq]
    · intro f hf
      rw [heq] at hf
      cases hf
    · rintro id op _ rfl -
      rw [heq]
      exact concernsOnly_of_step hd hs

/-- In every run of an opened docket every request is carried out as a whole or not at all. -/
theorem requests_are_all_or_nothing
    (opened : create c = .ok d ∨ ∃ records, restore c records = .ok d)
    (before : List (Action × Instant)) (a : Action) (now : Instant) :
    (d.run before).IsAllOrNothing a now := by
  have horderly : (d.run before).Orderly := ((sound_of_opened opened).run before).orderly
  exact horderly.isAllOrNothing a now

/-- A confirmed change of `fees.base` cannot be applied where `fees` is no object, and nothing is
written then; where there is no `fees` yet, the object is made. -/
theorem requests_are_all_or_nothing_solo :
    let d := (empty soloConstitution).run (soloRequests "fees.base" .null (.bool true))
    let barred := d.carryOut (.operate 1 (.apply (.obj [("fees", .bool false)]))) secondDay
    let written := d.carryOut (.operate 1 (.apply (.obj []))) secondDay
    barred.docket = d ∧ barred.live = some (.obj [("fees", .bool false)]) ∧
      written.live = some (.obj [("fees", .obj [("base", .bool true)])]) ∧
      ConcernsOnly 1 d written.docket := by
  intro d barred written
  have hcreate : create soloConstitution = .ok (empty soloConstitution) := rfl
  have hall :=
    requests_are_all_or_nothing (.inl hcreate) (soloRequests "fees.base" .null (.bool true))
  have hbarred : barred.result = .error (.invalid (.noObject "fees.base" "fees")) := by
    decide +kernel
  have hwritten : written.result =
      .ok (.operated (.live (.obj [("fees", .obj [("base", .bool true)])]))) := by
    decide +kernel
  have hlive : written.live = some (.obj [("fees", .obj [("base", .bool true)])]) := by
    decide +kernel
  obtain ⟨hdocket, hsame⟩ := (hall _ secondDay).refused _ hbarred
  exact ⟨hdocket, hsame, hlive, (hall _ secondDay).operated 1 _ _ rfl hwritten⟩

end Docket

end Charter
