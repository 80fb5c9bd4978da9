import Charter.Proofs.Docket.Reload
import Charter.Proofs.Proposal.Story

/-! # The log of a docket

All events that were ever queued, whether somebody has taken them or not, tell for each proposal
what the docket stores. -/

namespace Charter

namespace Event

variable {id : UInt64} {earlier later log log' : List Event}

def story (id : UInt64) (log : List Event) : List Happening :=
  (log.filter (fun e => e.proposal = id)).map Event.happening

theorem story_append (id : UInt64) (log log' : List Event) :
    story id (log ++ log') = story id log ++ story id log' := by
  rw [story, List.filter_append, List.map_append, story, story]

theorem story_map (id proposal : UInt64) (status : Status) (time : Instant)
    (news : List Happening) :
    story id (news.map (fun h => ⟨proposal, h, status, time⟩)) =
      if proposal = id then news else [] := by
  by_cases h : proposal = id
  · subst h
    simp [story, List.filter_map, Function.comp_def]
  · simp [story, List.filter_map, Function.comp_def, h]

/-- Each change back to the start stands right behind the return of the same proposal, from the
chamber that was open. -/
def ResetsAnnounced (log : List Event) : Prop :=
  ∀ earlier later e source, log = earlier ++ e :: later →
    e.happening = .statusChanged source .proposed →
    ∃ front reset chamber phase, earlier = front ++ [reset] ∧ reset.proposal = e.proposal ∧
      reset.happening = .phaseReset chamber phase ∧ source.openChamber? = some chamber

theorem resetsAnnounced_of_no_return
    (h : ∀ e ∈ log, ∀ s, e.happening ≠ .statusChanged s .proposed) :
    ResetsAnnounced log := by
  rintro earlier later e source rfl he
  exact absurd he (h e (by simp) source)

theorem ResetsAnnounced.append (h : ResetsAnnounced log) (h' : ResetsAnnounced log') :
    ResetsAnnounced (log ++ log') := by
  intro earlier later e source hlog he
  rcases List.append_eq_append_iff.mp hlog with ⟨between, hearlier, hlater⟩ |
    ⟨between, hfront, hback⟩
  · obtain ⟨front, reset, chamber, phase, hbetween, hreset⟩ := h' _ _ _ _ hlater he
    exact ⟨log ++ front, reset, chamber,
      phase, by rw [hearlier, hbetween, List.append_assoc], hreset⟩
  · -- what the second log begins with cannot be a return, for nothing stands before it there
    cases between with
    | nil =>
      obtain ⟨front, reset, chamber, phase, hnil, -⟩ := h' [] _ _ _ hback.symm he
      simp at hnil
    | cons e' between =>
      rw [List.cons_append, List.cons.injEq] at hback
      obtain ⟨rfl, -⟩ := hback
      exact h _ _ _ _ hfront he

end Event

namespace Docket

open Constitution (InForce)
open Event (story ResetsAnnounced)

variable {c : Constitution} {d e : Docket} {now : Instant} {past : List Event}

structure IsLoggedBy (d : Docket) (past : List Event) : Prop where
  told : ∀ id p, d.get? id = some p → p.IsToldBy (story id past)
  silent : ∀ id, d.get? id = none → story id past = []
  announced : ResetsAnnounced past

theorem isLoggedBy_empty (c : Constitution) : (empty c).IsLoggedBy [] := by
  refine ⟨?_, fun _ _ => rfl, Event.resetsAnnounced_of_no_return (by simp)⟩
  intro id p hp
  cases hp

theorem IsLoggedBy.insert {id : UInt64} {q : Proposal} {new : List Event} {news : List Happening}
    (h : d.IsLoggedBy past) (hnew : ∀ j, story j new = if id = j then news else [])
    (hannounced : ResetsAnnounced new) (htold : q.IsToldBy (story id past ++ news)) (n : UInt64)
    (events : List Event) :
    IsLoggedBy { d with
      proposals := d.proposals.insert id q, nextId := n, events := events } (past ++ new) := by
  refine ⟨?_, ?_, h.announced.append hannounced⟩
  · intro j r hr
    rw [Event.story_append, hnew]
    rcases Table.get?_insert_eq_some hr with ⟨rfl, rfl⟩ | ⟨hj, hr⟩
    · rw [if_pos rfl]
      exact htold
    · rw [if_neg (Ne.symm hj), List.append_nil]
      exact h.told j r hr
  · intro j hr
    obtain ⟨hj, hr⟩ := Table.get?_insert_eq_none hr
    rw [Event.story_append, hnew, if_neg (Ne.symm hj), List.append_nil]
    exact h.silent j hr

theorem IsLoggedBy.propose (h : d.IsLoggedBy past) (ho : d.Orderly) (proposer : VoterId)
    (key : String) (current proposed : Json) (justification : String) (n : UInt64)
    (events : List Event) :
    IsLoggedBy { d with
        proposals := d.proposals.insert d.nextId
          (d.submission proposer key current proposed justification now)
        nextId := n
        events := events }
      (past ++ [⟨d.nextId, .proposed proposer key (decide (d.constitution.IsEntrenched key)),
        .proposed, now⟩]) := by
  refine h.insert (fun id => Event.story_map id d.nextId .proposed now [_])
    (Event.resetsAnnounced_of_no_return (by simp)) ?_ n events
  rw [h.silent _ ho.free, List.nil_append]
  exact .submitted ..

theorem not_return_of_step {p q : Proposal} {op : Operation} {reply : Reply}
    (hs : p.Step d.constitution now op q reply) :
    ∀ e ∈ Event.ofOperation op reply p q now, ∀ s, e.happening ≠ .statusChanged s .proposed := by
  intro e he s hreturn
  obtain ⟨happening, hnews, rfl⟩ := List.mem_map.mp he
  change happening = _ at hreturn
  subst hreturn
  have hchange : (s, Status.proposed) ∈ (Event.news op reply p q).filterMap Happening.change? :=
    List.mem_filterMap.mpr ⟨_, hnews, rfl⟩
  rw [Event.change?_news] at hchange
  rcases Event.ofStatus_cases p.status q.status with ⟨h, -⟩ | ⟨h, hne⟩ <;> rw [h] at hchange
  · cases hchange
  · -- no edge of the pathway leads to the start
    simp only [List.filterMap_cons, Happening.change?, List.filterMap_nil, List.mem_singleton,
      Prod.mk.injEq] at hchange
    rcases Proposal.leadsTo_of_step hs with heq | hleads
    · exact hne heq.symm
    · rw [← hchange.2] at hleads
      cases hp : p.status <;> simp [hp, Status.leadsTo] at hleads

theorem IsLoggedBy.operate (h : d.IsLoggedBy past) (ho : d.Orderly) (hf : d.All Proposal.Fits)
    {id : UInt64} {op : Operation} {p q : Proposal} {reply : Reply} (found : d.get? id = some p)
    (hs : p.Step d.constitution now op q reply) (events : List Event) :
    IsLoggedBy { d with proposals := d.proposals.insert id q, events := events }
      (past ++ Event.ofOperation op reply p q now) := by
  have hid := ho.filed id p found
  have hstory : ∀ j, story j (Event.ofOperation op reply p q now) = if id = j then
      Event.news op reply p q else [] := by
    intro j
    rw [← hid]
    exact Event.story_map j p.id q.status now _
  exact h.insert hstory (Event.resetsAnnounced_of_no_return (not_return_of_step hs))
    ((h.told id p found).of_step (hf id p found) hs) _ events

def phaseNews (phase : Phase) (p : Proposal) : List Happening :=
  match p.disposition with
  | .reset c => .phaseReset c phase.name :: Event.ofStatus p.status .proposed
  | _ => []

theorem phaseEvents_eq (phase : Phase) (p : Proposal) :
    phaseEvents phase p now = (phaseNews phase p).map (fun h => ⟨p.id, h, .proposed, now⟩) := by
  unfold phaseEvents phaseNews
  cases p.disposition <;> rfl

theorem phaseNews_cases (phase : Phase) (p : Proposal) :
    phaseNews phase p = [] ∧ p.underNewPhase = p ∨
    ∃ chamber, phaseNews phase p =
      [.phaseReset chamber phase.name, .statusChanged p.status .proposed] ∧
      p.underNewPhase = p.restarted ∧ p.status = chamber.votingStatus ∧
      p.status.openChamber? = some chamber := by
  rcases Proposal.underNewPhase_cases p with ⟨hp, hd⟩ | ⟨chamber, hd, hs, hp⟩
  · refine .inl ⟨?_, hp⟩
    unfold phaseNews
    split
    · rename_i hr
      exact absurd hr (hd _)
    · rfl
  · refine .inr ⟨chamber, ?_, hp, hs, (Proposal.disposition_eq_reset_iff.mp hd).1⟩
    have hne : p.status ≠ .proposed := by
      rw [hs]
      cases chamber <;> decide
    rw [phaseNews, hd, Event.ofStatus, if_neg hne]

theorem filter_phaseEvents {t : Table UInt64 Proposal} (ascending : t.Ascending)
    (filed : ∀ e ∈ t, e.2.id = e.1) (phase : Phase) (id : UInt64) :
    (t.values.flatMap (fun p => phaseEvents phase p now)).filter (fun e => e.proposal = id) =
      ((Table.get? t id).map (fun p => phaseEvents phase p now)).getD [] := by
  refine Table.filter_flatMap_values ascending filed ?_ id
  intro p event hevent
  rw [phaseEvents_eq] at hevent
  obtain ⟨_, -, rfl⟩ := List.mem_map.mp hevent
  rfl

theorem story_phaseEvents {t : Table UInt64 Proposal} (ascending : t.Ascending)
    (filed : ∀ e ∈ t, e.2.id = e.1) (phase : Phase) (id : UInt64) :
    story id (t.values.flatMap (fun p => phaseEvents phase p now)) =
        ((Table.get? t id).map (phaseNews phase)).getD [] := by
  rw [story, filter_phaseEvents ascending filed]
  cases Table.get? t id with
  | none => rfl
  | some p => simp [phaseEvents_eq, Function.comp_def]

theorem resetsAnnounced_phaseEvents (phase : Phase) (proposals : List Proposal) :
    ResetsAnnounced (proposals.flatMap (fun p => phaseEvents phase p now)) := by
  induction proposals with
  | nil => exact Event.resetsAnnounced_of_no_return (by simp)
  | cons p proposals ih =>
    rw [List.flatMap_cons]
    refine Event.ResetsAnnounced.append ?_ ih
    rw [phaseEvents_eq]
    rcases phaseNews_cases phase p with ⟨h, -⟩ | ⟨chamber, h, -, -, hopen⟩ <;> rw [h]
    · exact Event.resetsAnnounced_of_no_return (by simp)
    · intro earlier later e source hsplit he
      rcases earlier with _ | ⟨first, _ | ⟨second, earlier⟩⟩
      · simp only [List.map_cons, List.nil_append, List.cons.injEq] at hsplit
        rw [← hsplit.1] at he
        cases he
      · simp only [List.map_cons, List.map_nil, List.cons_append, List.nil_append,
          List.cons.injEq] at hsplit
        obtain ⟨rfl, rfl, -⟩ := hsplit
        cases he
        exact ⟨[], _, chamber, phase.name, rfl, rfl, rfl, hopen⟩
      · simp at hsplit

theorem IsLoggedBy.changePhase (h : d.IsLoggedBy past) (ho : d.Orderly) (hf : d.All Proposal.Fits)
    (phase : Phase) (c : Constitution) (events : List Event) :
    IsLoggedBy { d with
        constitution := c
        proposals := d.proposals.map (fun e => (e.1, e.2.underNewPhase))
        events := events }
      (past ++ d.proposals.values.flatMap (fun p => phaseEvents phase p now)) := by
  have hstory : ∀ id, story id (d.proposals.values.flatMap (fun p => phaseEvents phase p now)) =
      ((d.proposals.get? id).map (phaseNews phase)).getD [] :=
    story_phaseEvents ho.ascending ho.filed_of_mem phase
  refine ⟨?_, ?_, h.announced.append (resetsAnnounced_phaseEvents phase _)⟩
  · intro id q hq
    simp only [get?, Table.get?_map, Option.map_eq_some_iff] at hq
    obtain ⟨p, hp, rfl⟩ := hq
    have htold := h.told id p hp
    rw [Event.story_append, hstory, hp, Option.map_some, Option.getD_some]
    rcases phaseNews_cases phase p with ⟨hnews, hsame⟩ | ⟨chamber, hnews, hrestarted, hs, -⟩
    · rw [hnews, hsame, List.append_nil]
      exact htold
    · rw [hnews, hrestarted]
      exact htold.restarted ((hf id p hp).isIdle hs) chamber phase.name
  · intro id hq
    simp only [get?, Table.get?_map, Option.map_eq_none_iff] at hq
    rw [Event.story_append, hstory, hq, h.silent id hq]
    rfl

/-- A request that takes no events adds its own to the log. -/
theorem IsLoggedBy.step {a : Action} {answer : Answer} (h : d.IsLoggedBy past) (ho : d.Orderly)
    (hf : d.All Proposal.Fits) (hs : Step d now a e answer) (hne : a ≠ .drain) :
    ∃ new, e.events = d.events ++ new ∧ e.IsLoggedBy (past ++ new) := by
  cases hs with
  | propose => exact ⟨_, rfl, h.propose ho ..⟩
  | operate found step => exact ⟨_, rfl, h.operate ho hf found step _⟩
  | changePhase => exact ⟨_, rfl, h.changePhase ho hf _ _ _⟩
  | drain => exact absurd rfl hne

def taken (answers : List (Except Fault Answer)) : List Event :=
  answers.flatMap (fun answer => match answer with
    | .ok (.drained events) => events
    | _ => [])

/-- All events of a run in the order in which they were queued: those that were taken, and those
still there. -/
def log (d : Docket) (requests : List (Action × Instant)) : List Event :=
  taken (d.answers requests) ++ (d.run requests).events

theorem taken_cons {answer : Except Fault Answer} (h : ∀ events, answer ≠ .ok (.drained events))
    (rest : List (Except Fault Answer)) : taken (answer :: rest) = taken rest := by
  cases answer with
  | error f => rfl
  | ok a =>
    cases a with
    | drained events => exact absurd rfl (h events)
    | proposed | operated | phaseChanged => rfl

theorem isLoggedBy_run (hc : InForce c d.constitution) (ho : d.Orderly) (hf : d.All Proposal.Fits)
    (h : d.IsLoggedBy (past ++ d.events)) (requests : List (Action × Instant)) :
    (d.run requests).IsLoggedBy (past ++ d.log requests) := by
  -- what was taken moves from the queue of the docket to the past, so that the two
  -- together stay the same
  induction requests generalizing d past with
  | nil => exact h
  | cons request rest ih =>
    obtain ⟨a, now⟩ := request
    rcases d.step_cases a now with ⟨f, hrefused⟩ | ⟨e, answer, hs, hstep⟩
    · rw [run, log, run, answers, hrefused, taken_cons (by simp)]
      exact ih hc ho hf h
    · have he : InForce c e.constitution ∧ e.Orderly ∧ e.All Proposal.Fits :=
        ⟨inForce_step hs hc, ho.step hs, (kept_fits c).all_step hs hc hf⟩
      rw [run, log, run, answers, hstep]
      by_cases hdrain : a = .drain
      · subst hdrain
        cases hs
        have hdrained : IsLoggedBy { d with events := [] } ((past ++ d.events) ++ []) := by
          rw [List.append_nil]
          exact ⟨h.told, h.silent, h.announced⟩
        have hlater := ih he.1 he.2.1 he.2.2 hdrained
        rw [List.append_assoc] at hlater
        simpa [log, taken] using hlater
      · obtain ⟨new, hevents, hlogged⟩ := h.step ho hf hs hdrain
        have hnot : ∀ taken, (d.step a now).2 ≠ .ok (.drained taken) := step_snd_ne_drained hdrain
        rw [hstep] at hnot
        rw [taken_cons hnot]
        refine ih he.1 he.2.1 he.2.2 ?_
        rw [hevents, ← List.append_assoc]
        exact hlogged

/-- The log of every run of a new docket tells of each proposal what is stored: it begins with the
submission, its changes of status are a path to the present one, the ballots and panels since the
last return to the start are those of the rounds, and a cooling-off window is reported once. Each
return to the start is announced, and a refused request adds nothing. -/
theorem log_is_faithful {c : Constitution} {d : Docket} (h : create c = .ok d)
    (requests : List (Action × Instant)) :
    (∀ id p, (d.run requests).get? id = some p → p.IsToldBy (story id (d.log requests))) ∧
      ResetsAnnounced (d.log requests) ∧
      ∀ a now f, ((d.run requests).step a now).2 = .error f →
        ((d.run requests).step a now).1 = d.run requests := by
  obtain ⟨hc, rfl⟩ := create_eq_ok_iff.mp h
  have hlogged : ((empty c).run requests).IsLoggedBy ([] ++ (empty c).log requests) :=
    isLoggedBy_run (.refl hc) (orderly_empty c) (all_empty _) (isLoggedBy_empty c) requests
  refine ⟨hlogged.told, hlogged.announced, ?_⟩
  intro a now f hf
  unfold step at hf ⊢
  split at hf
  · cases hf
  · rfl

/-- The longest pathway, where the events are taken and a new phase comes before the first vote. -/
def drainedRequests : List (Action × Instant) :=
  challengedRequests.take 2 ++ (.drain, firstDay) ::
    (.changePhase soloConstitution.phase, firstDay) :: challengedRequests.drop 1

/-- On the shortest pathway nobody takes the events. On the longest some are taken, the new phase
sends the proposal back, and what is refused at the end changes nothing. -/
theorem log_is_faithful_drained :
    let solo := soloRequests "fees" .null (.bool true)
    let d := (empty soloConstitution).run drainedRequests
    let log := (empty soloConstitution).log drainedRequests
    let close := Action.operate 1 (.close .challenge)
    create soloConstitution = .ok (empty soloConstitution) ∧
      (∃ p, ((empty soloConstitution).run solo).get? 1 = some p ∧ p.status = .confirmed ∧
        p.IsToldBy (story 1 ((empty soloConstitution).log solo))) ∧
      (∃ p, d.get? 1 = some p ∧ p.status = .confirmed ∧ p.isEntrenched = true ∧
        p.challengeFiled = true ∧ p.IsToldBy (story 1 log)) ∧
      d.events.length < log.length ∧ .phaseReset .proposal "solo" ∈ story 1 log ∧
      ResetsAnnounced log ∧
      (d.step close secondDay).2 = .error (.mismatch (.status .challengeVoting .confirmed)) ∧
      (d.step close secondDay).1 = d := by
  intro solo d log close
  have hcreate : create soloConstitution = .ok (empty soloConstitution) := rfl
  have hsolo : (((empty soloConstitution).run solo).get? 1).map Proposal.status =
      some .confirmed := by decide +kernel
  have hrun : (d.get? 1).map (fun p => (p.status, p.isEntrenched, p.challengeFiled)) =
      some (.confirmed, true, true) := by decide +kernel
  have htaken : d.events.length < log.length := by decide +kernel
  have hreset : .phaseReset .proposal "solo" ∈ story 1 log := by decide +kernel
  have hrefused : (d.step close secondDay).2 =
      .error (.mismatch (.status .challengeVoting .confirmed)) := by decide +kernel
  obtain ⟨htold, hannounced, hsame⟩ := log_is_faithful hcreate drainedRequests
  have hunchanged : (d.step close secondDay).1 = d := hsame close secondDay _ hrefused
  refine ⟨hcreate, ?_, ?_, htaken, hreset, hannounced, hrefused, hunchanged⟩
  · obtain ⟨p, hp, hs⟩ := Option.map_eq_some_iff.mp hsolo
    exact ⟨p, hp, hs, (log_is_faithful hcreate solo).1 1 p hp⟩
  · obtain ⟨p, hp, hdata⟩ := Option.map_eq_some_iff.mp hrun
    simp only [Prod.mk.injEq] at hdata
    exact ⟨p, hp, hdata.1, hdata.2.1, hdata.2.2, htold 1 p hp⟩

end Docket

end Charter
