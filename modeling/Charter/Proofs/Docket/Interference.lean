import Charter.Proofs.Docket.Atomicity
import Charter.Proofs.Docket.Log
import Charter.Proofs.Docket.PhaseChange

/-! # Interference between proposals

What can be seen of a run from one proposal does not depend on the operations on other proposals.
Two dockets agree on a proposal if they have the same constitution, the same next number, and this
proposal in common; an operation on another proposal leads to a docket that agrees, and dockets that
agree do the same with every request that is not such an operation. -/

namespace Charter

def Action.regards (id : UInt64) : Action → Bool
  | .operate other _ => other = id
  | _ => true

theorem Action.regards_of_ne {id other : UInt64} (h : other ≠ id) (op : Operation) :
    (Action.operate other op).regards id = false := decide_eq_false h

def Event.about (id : UInt64) (log : List Event) : List Event :=
  log.filter (fun e => e.proposal = id)

/-- What an answer says about a proposal. Submissions and operations are answered about one proposal
as it is. -/
def Answer.about (id : UInt64) : Answer → Answer
  | .phaseChanged report => .phaseChanged { report with
      reset := report.reset.filter (fun entry => entry.1 = id)
      retained := report.retained.filter (fun entry => entry.1 = id) }
  | .drained events => .drained (Event.about id events)
  | answer => answer

/-- The live configuration that a caller has after the request was answered. -/
def Action.liveAfter (a : Action) : Except Fault Answer → Option Json
  | .ok answer => answer.live?
  | .error _ => a.live?

theorem Answer.live?_about (id : UInt64) (answer : Answer) :
    (answer.about id).live? = answer.live? := by
  cases answer <;> rfl

theorem Action.liveAfter_congr {a : Action} {id : UInt64} {x y : Except Fault Answer}
    (h : x.map (Answer.about id) = y.map (Answer.about id)) : a.liveAfter x = a.liveAfter y := by
  cases x with
  | error f =>
    cases y with
    | error g => rfl
    | ok answer => cases h
  | ok answer =>
    cases y with
    | error g => cases h
    | ok answer' =>
      have habout : answer.about id = answer'.about id := Except.ok.inj h
      rw [liveAfter, liveAfter, ← answer.live?_about id, habout, answer'.live?_about id]

namespace Docket

variable {c : Constitution} {d e : Docket} {now : Instant} {id : UInt64} {a : Action}

/-- What the requests that count get back in a run: the answer, and the live configuration that came
with the request. -/
def handedBack (counts : Action → Bool) :
    Docket → List (Action × Instant) → List (Except Fault Answer × Option Json)
  | _, [] => []
  | d, (a, now) :: rest =>
    let after := d.carryOut a now
    let later := handedBack counts after.docket rest
    if counts a then (after.result, after.live) :: later else later

def seenFrom (id : UInt64) (r : Except Fault Answer × Option Json) :
    Except Fault Answer × Option Json :=
  (r.1.map (Answer.about id), r.2)

theorem Orderly.carryOut_eq_step (hd : d.Orderly) (a : Action) (now : Instant) :
    d.carryOut a now = ⟨(d.step a now).1, a.liveAfter (d.step a now).2, (d.step a now).2⟩ := by
  rw [carryOut_eq hd, Docket.step]
  cases d.perform a now <;> rfl

theorem Orderly.handedBack_cons (hd : d.Orderly) (counts : Action → Bool)
    (rest : List (Action × Instant)) :
    d.handedBack counts ((a, now) :: rest) = if counts a then
      ((d.step a now).2, a.liveAfter (d.step a now).2) :: (d.step a now).1.handedBack counts rest
    else (d.step a now).1.handedBack counts rest := by
  rw [handedBack, hd.carryOut_eq_step]

theorem about_append (id : UInt64) (log log' : List Event) :
    Event.about id (log ++ log') = Event.about id log ++ Event.about id log' :=
  List.filter_append ..

theorem about_taken (id : UInt64) (r : Except Fault Answer) :
    Event.about id (taken [r]) = taken [r.map (Answer.about id)] := by
  cases r with
  | error f => rfl
  | ok answer => cases answer <;> simp [taken, Event.about, Except.map, Answer.about]

theorem about_log_cons (d : Docket) (a : Action) (now : Instant) (rest : List (Action × Instant)) :
    Event.about id (d.log ((a, now) :: rest)) =
      taken [(d.step a now).2.map (Answer.about id)] ++
        Event.about id ((d.step a now).1.log rest) := by
  have hlog : d.log ((a, now) :: rest) = taken [(d.step a now).2] ++ (d.step a now).1.log rest := by
    simp [log, answers, run, taken]
  rw [hlog, about_append, about_taken]

theorem propose_congr (hc : d.constitution = e.constitution) (hn : d.nextId = e.nextId)
    (proposer : VoterId) (provision : String) (current proposed : Json) (justification : String)
    (now : Instant) :
    let a := Action.propose proposer provision current proposed justification
    (∃ f, d.step a now = (d, .error f) ∧ e.step a now = (e, .error f)) ∨
      ∃ p news answer,
        d.step a now = ({ d with
          proposals := d.proposals.insert d.nextId p, nextId := d.nextId + 1,
          events := d.events ++ news }, .ok answer) ∧
        e.step a now = ({ e with
          proposals := e.proposals.insert e.nextId p, nextId := e.nextId + 1,
          events := e.events ++ news }, .ok answer) := by
  simp only [step, perform, propose, hc, hn]
  cases checkProvision e.constitution (Text.trim provision) with
  | error f => exact .inl ⟨f, rfl, rfl⟩
  | ok _ =>
    cases require (¬Text.isEmptyText justification) (Fault.invalid .emptyJustification) with
    | error f => exact .inl ⟨f, rfl, rfl⟩
    | ok _ =>
      cases require (current.same proposed = false) (Fault.invalid .sameValue) with
      | error f => exact .inl ⟨f, rfl, rfl⟩
      | ok _ =>
        cases require (e.nextId.toNat + 1 < UInt64.size) (Fault.invalid .idsExhausted) with
        | error f => exact .inl ⟨f, rfl, rfl⟩
        | ok _ => exact .inr ⟨_, _, _, rfl, rfl⟩

theorem operate_congr {op : Operation} (hproposal : d.get? id = e.get? id)
    (hperform : ∀ p : Proposal, p.perform d.constitution op now = p.perform e.constitution op now) :
    (∃ f, d.step (.operate id op) now = (d, .error f) ∧
      e.step (.operate id op) now = (e, .error f)) ∨
      ∃ p q reply, d.get? id = some p ∧ p.Step d.constitution now op q reply ∧
        d.step (.operate id op) now = ({ d with
          proposals := d.proposals.insert id q,
          events := d.events ++ Event.ofOperation op reply p q now }, .ok (.operated reply)) ∧
        e.step (.operate id op) now = ({ e with
          proposals := e.proposals.insert id q,
          events := e.events ++ Event.ofOperation op reply p q now }, .ok (.operated reply)) := by
  cases hp : d.get? id with
  | none =>
    have hp' := hproposal.symm.trans hp
    refine .inl ⟨.unknownProposal id, ?_, ?_⟩
    · simp only [step, perform, operate, hp, demand, bind, Except.bind, Except.map]
    · simp only [step, perform, operate, hp', demand, bind, Except.bind, Except.map]
  | some p =>
    have hp' := hproposal.symm.trans hp
    have hboth := hperform p
    cases hattempt : p.perform d.constitution op now with
    | mk result q =>
      rw [hattempt] at hboth
      cases result with
      | error f =>
        exact .inl ⟨f, step_operate_of_error hp (by rw [hattempt]),
          step_operate_of_error hp' (by rw [← hboth])⟩
      | ok reply =>
        have hstep : p.Step d.constitution now op q reply := Proposal.perform_eq_ok_iff.mp hattempt
        have hstep' : p.Step e.constitution now op q reply :=
          Proposal.perform_eq_ok_iff.mp hboth.symm
        exact .inr ⟨p, q, reply, rfl, hstep, step_of_step (.operate hp hstep),
          step_of_step (.operate hp' hstep')⟩

/-- Two dockets agree on everything that requests read when they are not about another proposal. -/
structure AgreesOn (id : UInt64) (d e : Docket) : Prop where
  constitution : d.constitution = e.constitution
  nextId : d.nextId = e.nextId
  proposal : d.get? id = e.get? id
  events : Event.about id d.events = Event.about id e.events

theorem AgreesOn.refl (id : UInt64) (d : Docket) : AgreesOn id d d := ⟨rfl, rfl, rfl, rfl⟩

theorem AgreesOn.trans {d₁ d₂ d₃ : Docket} (h : AgreesOn id d₁ d₂) (h' : AgreesOn id d₂ d₃) :
    AgreesOn id d₁ d₃ where
  constitution := h.constitution.trans h'.constitution
  nextId := h.nextId.trans h'.nextId
  proposal := h.proposal.trans h'.proposal
  events := h.events.trans h'.events

theorem Orderly.agreesOn_elsewhere (hd : d.Orderly) (h : a.regards id = false) (now : Instant) :
    AgreesOn id (d.step a now).1 d := by
  cases a with
  | propose | changePhase | drain => cases h
  | operate other op =>
    have hne : other ≠ id := of_decide_eq_false h
    rcases d.step_cases (.operate other op) now with ⟨f, hrefused⟩ | ⟨e, answer, hs, hdone⟩
    · rw [hrefused]
      exact .refl id d
    · rw [hdone]
      have hconcerns := concernsOnly_of_step hd hs
      obtain ⟨news, hevents, habout⟩ := hconcerns.events
      refine ⟨hconcerns.constitution, hconcerns.nextId, hconcerns.others id (Ne.symm hne), ?_⟩
      have hnews : Event.about id news = [] := by
        rw [Event.about, List.filter_eq_nil_iff]
        intro event hevent
        simp [habout event hevent, hne]
      rw [hevents, about_append, hnews, List.append_nil]

theorem AgreesOn.insert (h : AgreesOn id d e) (k : UInt64) (p : Proposal) (news : List Event)
    {m n : UInt64} (hmn : m = n) :
    AgreesOn id { d with
      proposals := d.proposals.insert k p, nextId := m, events := d.events ++ news }
      { e with proposals := e.proposals.insert k p, nextId := n, events := e.events ++ news } := by
  refine ⟨h.constitution, hmn, ?_, ?_⟩
  · have hproposal : d.proposals.get? id = e.proposals.get? id := h.proposal
    simp only [get?, Table.get?_insert, hproposal]
  · simp only [about_append, h.events]

theorem Orderly.about_phaseEvents (hd : d.Orderly) (id : UInt64) (phase : Phase) (now : Instant) :
    Event.about id (d.proposals.values.flatMap (fun p => phaseEvents phase p now)) =
      ((d.get? id).map (fun p => phaseEvents phase p now)).getD [] :=
  filter_phaseEvents hd.ascending hd.filed_of_mem phase id

theorem Orderly.filter_treated (hd : d.Orderly) (way : Proposal.Disposition → Option Chamber)
    (id : UInt64) :
    (treated way d.proposals.values).filter (fun entry => entry.1 = id) =
      ((d.get? id).map (fun p =>
        ((way p.disposition).map (fun chamber => (p.id, chamber))).toList)).getD [] := by
  rw [treated, List.filterMap_eq_flatMap_toList]
  refine Table.filter_flatMap_values hd.ascending hd.filed_of_mem ?_ id
  intro p entry hentry
  obtain ⟨_, -, rfl⟩ := Option.map_eq_some_iff.mp (Option.mem_toList.mp hentry)
  rfl

theorem AgreesOn.changePhase (h : AgreesOn id d e) (hd : d.Orderly) (he : e.Orderly) (phase : Phase)
    (now : Instant) :
    AgreesOn id (d.inPhase phase now) (e.inPhase phase now) ∧
      (Answer.phaseChanged (phaseReport d.constitution.phase phase d.proposals.values)).about id =
        (Answer.phaseChanged (phaseReport e.constitution.phase phase e.proposals.values)).about
        id := by
  refine ⟨⟨?_, h.nextId, ?_, ?_⟩, ?_⟩
  · simp only [inPhase, h.constitution]
  · rw [get?_inPhase, get?_inPhase, h.proposal]
  · simp only [inPhase, about_append, h.events, hd.about_phaseEvents,
      he.about_phaseEvents, h.proposal]
  · simp only [phaseReport_eq, Answer.about, hd.filter_treated, he.filter_treated, h.proposal,
      h.constitution]

/-- What is not an operation on another proposal has the same answer and keeps the agreement. -/
theorem AgreesOn.step (h : AgreesOn id d e) (hd : d.Orderly) (he : e.Orderly)
    (hr : a.regards id = true) (now : Instant) :
    AgreesOn id (d.step a now).1 (e.step a now).1 ∧
      (d.step a now).2.map (Answer.about id) = (e.step a now).2.map (Answer.about id) := by
  cases a with
  | propose proposer provision current proposed justification =>
    rcases propose_congr h.constitution h.nextId proposer provision current proposed
      justification now with
      ⟨f, hd', he'⟩ | ⟨p, news, answer, hd', he'⟩ <;> rw [hd', he']
    · exact ⟨h, rfl⟩
    · refine ⟨?_, rfl⟩
      rw [h.nextId]
      exact h.insert e.nextId p news rfl
  | operate other op =>
    obtain rfl : other = id := of_decide_eq_true hr
    have hperform (p : Proposal) :
        p.perform d.constitution op now = p.perform e.constitution op now := by
      rw [h.constitution]
    rcases operate_congr h.proposal hperform with ⟨f, hd', he'⟩ | ⟨p, q, reply, -, -, hd', he'⟩ <;>
      rw [hd', he']
    · exact ⟨h, rfl⟩
    · exact ⟨h.insert other q _ h.nextId, rfl⟩
  | changePhase phase =>
    cases hcheck : Constitution.checkPhase d.constitution.diversity phase with
    | some flaw =>
      rw [step_changePhase_of_flaw hcheck, step_changePhase_of_flaw (h.constitution ▸ hcheck)]
      exact ⟨h, rfl⟩
    | none =>
      rw [step_changePhase hcheck, step_changePhase (h.constitution ▸ hcheck)]
      obtain ⟨hagrees, hreport⟩ := h.changePhase hd he phase now
      exact ⟨hagrees, congrArg Except.ok hreport⟩
  | drain =>
    rw [step_of_step .drain, step_of_step .drain]
    exact ⟨⟨h.constitution, h.nextId, h.proposal, rfl⟩,
      congrArg (fun events => Except.ok (Answer.drained events)) h.events⟩

def regarding (id : UInt64) (requests : List (Action × Instant)) : List (Action × Instant) :=
  requests.filter (fun request => request.1.regards id)

theorem AgreesOn.run (h : AgreesOn id d e) (hd : d.Orderly) (he : e.Orderly)
    (requests : List (Action × Instant)) :
    AgreesOn id (d.run requests) (e.run (regarding id requests)) ∧
      (d.handedBack (Action.regards id) requests).map (seenFrom id) =
        (e.handedBack (Action.regards id) (regarding id requests)).map (seenFrom id) ∧
      Event.about id (d.log requests) = Event.about id (e.log (regarding id requests)) := by
  -- only the first docket moves with an operation on another proposal, and both move
  -- with any other request
  induction requests generalizing d e with
  | nil => exact ⟨h, rfl, h.events⟩
  | cons request rest ih =>
    obtain ⟨a, now⟩ := request
    have hd' : (d.step a now).1.Orderly := hd.run [(a, now)]
    rw [Docket.run, hd.handedBack_cons, about_log_cons, regarding, List.filter_cons]
    cases hr : a.regards id with
    | false =>
      obtain ⟨hrun, hback, hlog⟩ := ih ((hd.agreesOn_elsewhere hr now).trans h) hd' he
      have hnone : taken [(d.step a now).2.map (Answer.about id)] = [] := by
        rw [← about_taken, taken_cons (step_snd_ne_drained (by rintro rfl; cases hr))]
        rfl
      rw [hnone, List.nil_append]
      exact ⟨hrun, hback, hlog⟩
    | true =>
      have he' : (e.step a now).1.Orderly := he.run [(a, now)]
      obtain ⟨hstep, hanswer⟩ := h.step hd he hr now
      obtain ⟨hrun, hback, hlog⟩ := ih hstep hd' he'
      have hseen : seenFrom id ((d.step a now).2, a.liveAfter (d.step a now).2) =
          seenFrom id ((e.step a now).2, a.liveAfter (e.step a now).2) := by
        rw [seenFrom, seenFrom, hanswer, Action.liveAfter_congr hanswer]
      simp only [if_true, List.map_cons]
      rw [Docket.run, he.handedBack_cons, if_pos hr, about_log_cons, List.map_cons, hseen, hback,
        hanswer, hlog]
      exact ⟨hrun, rfl, rfl⟩

theorem Orderly.answer_elsewhere (hd : d.Orderly) {other : UInt64} (hne : id ≠ other)
    (op op' : Operation) (s t : Instant) :
    ((d.step (.operate other op') t).1.step (.operate id op) s).2 =
      (d.step (.operate id op) s).2 := by
  have hagrees : AgreesOn id (d.step (.operate other op') t).1 d :=
    hd.agreesOn_elsewhere (Action.regards_of_ne (Ne.symm hne) op') t
  have hperform (p : Proposal) :
      p.perform (d.step (.operate other op') t).1.constitution op s =
        p.perform d.constitution op s := by
    rw [hagrees.constitution]
  rcases operate_congr hagrees.proposal hperform with ⟨f, h, h'⟩ |
    ⟨_, _, _, -, -, h, h'⟩ <;> rw [h, h']

theorem regarding_swap {other : UInt64} (hne : id ≠ other) (op op' : Operation) (s t : Instant)
    (k : UInt64) :
    regarding k [(.operate other op', t), (.operate id op, s)] =
      regarding k [(.operate id op, s), (.operate other op', t)] := by
  by_cases hid : id = k
  · have hother : other ≠ k := fun h => hne (hid.trans h.symm)
    simp [regarding, Action.regards, hid, hother]
  · by_cases hother : other = k <;> simp [regarding, Action.regards, hid, hother]

/-- Operations on two proposals can change places. -/
theorem Orderly.operations_commute (hd : d.Orderly) {other : UInt64} (hne : id ≠ other)
    (op op' : Operation) (s t : Instant) :
    d.handedBack (fun _ => true) [(.operate other op', t), (.operate id op, s)] =
        (d.handedBack (fun _ => true) [(.operate id op, s), (.operate other op', t)]).reverse ∧
      ∀ k, (d.run [(.operate other op', t), (.operate id op, s)]).get? k =
        (d.run [(.operate id op, s), (.operate other op', t)]).get? k := by
  refine ⟨?_, ?_⟩
  · have hd₁ : (d.step (.operate id op) s).1.Orderly := hd.run [(.operate id op, s)]
    have hd₂ : (d.step (.operate other op') t).1.Orderly := hd.run [(.operate other op', t)]
    simp only [hd.handedBack_cons, hd₁.handedBack_cons, hd₂.handedBack_cons, if_true,
      hd.answer_elsewhere hne, hd.answer_elsewhere (Ne.symm hne)]
    rfl
  · -- seen from any one proposal, at most one of the two is left, in whichever order they come
    intro k
    have hleft :=
      ((AgreesOn.refl k d).run hd hd [(.operate other op', t), (.operate id op, s)]).1.proposal
    have hright :=
      ((AgreesOn.refl k d).run hd hd [(.operate id op, s), (.operate other op', t)]).1.proposal
    rw [hleft, regarding_swap hne, hright]

/-- In every run of an opened docket proposals do not interfere. Without the operations on other
proposals, all other requests are answered the same as far as a proposal is concerned, with the same
live configurations; the events about it are the same, in the same order, and the proposal itself
becomes the same, so that it can be applied in either case or in none. Operations on two proposals
have the same answers and lead to the same proposals in either order. -/
theorem proposals_do_not_interfere
    (opened : create c = .ok d ∨ ∃ records, restore c records = .ok d)
    (before : List (Action × Instant)) :
    (∀ id requests,
      ((d.run before).handedBack (Action.regards id) requests).map (seenFrom id) =
          ((d.run before).handedBack (Action.regards id)
            (regarding id requests)).map (seenFrom id) ∧
        Event.about id ((d.run before).log requests) =
          Event.about id ((d.run before).log (regarding id requests)) ∧
        ((d.run before).run requests).get? id =
          ((d.run before).run (regarding id requests)).get? id ∧
        ((d.run before).run requests).checkApplication id =
          ((d.run before).run (regarding id requests)).checkApplication id) ∧
    ∀ id other op op' s t, id ≠ other →
      (d.run before).handedBack (fun _ => true) [(.operate other op', t), (.operate id op, s)] =
          ((d.run before).handedBack (fun _ => true)
            [(.operate id op, s), (.operate other op', t)]).reverse ∧
        ∀ k, ((d.run before).run [(.operate other op', t), (.operate id op, s)]).get? k =
          ((d.run before).run [(.operate id op, s), (.operate other op', t)]).get? k := by
  have horderly : (d.run before).Orderly := (sound_of_opened opened).orderly.run before
  refine ⟨?_, ?_⟩
  · intro id requests
    obtain ⟨hagrees, hback, hlog⟩ :=
      (AgreesOn.refl id (d.run before)).run horderly horderly requests
    refine ⟨hback, hlog, hagrees.proposal, ?_⟩
    rw [checkApplication, checkApplication, hagrees.proposal]
  · intro id other op op' s t hne
    exact horderly.operations_commute hne op op' s t

/-- Of two proposals the second is voted on, with and without the selection for the first. -/
theorem proposals_do_not_interfere_mixed :
    let d := (empty soloConstitution).run (mixedRequests.take 2)
    let later := mixedRequests.drop 2 ++ [(.changePhase soloConstitution.phase, secondDay)]
    regarding 2 later = later.drop 1 ∧
      (d.handedBack (Action.regards 2) later).map (seenFrom 2) =
        (d.handedBack (Action.regards 2) (later.drop 1)).map (seenFrom 2) ∧
      (d.run later).get? 2 = (d.run (later.drop 1)).get? 2 ∧
      ((d.run (later.drop 1)).get? 2).map Proposal.votesCast = some 1 := by
  intro d later
  have hcreate : create soloConstitution = .ok (empty soloConstitution) := rfl
  have hregarding : regarding 2 later = later.drop 1 := by decide +kernel
  have hvotes : ((d.run (later.drop 1)).get? 2).map Proposal.votesCast = some 1 := by decide +kernel
  obtain ⟨hback, -, hsame, -⟩ :=
    (proposals_do_not_interfere (.inl hcreate) (mixedRequests.take 2)).1 2 later
  rw [hregarding] at hback hsame
  exact ⟨hregarding, hback, hsame, hvotes⟩

end Docket

end Charter
