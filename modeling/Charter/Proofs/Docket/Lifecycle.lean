import Charter.Proofs.Docket.History
import Charter.Proofs.Docket.Opened
import Charter.Proofs.Status

/-! # Moving forward

Requests move a proposal along its pathway; the one way back is a new phase that finds the open
chamber without a ballot. Between two returns to the start a proposal therefore passes through each
status at most once, and what has ended stays as it is. -/

namespace Charter

variable {c : Constitution} {d e : Docket} {now : Instant} {id : UInt64} {p q : Proposal}
  {a : Action} {stage : Stage}

namespace Proposal

/-- What one request may do to the status of a proposal: a new phase leaves the proposal alone or
takes it from an open chamber without ballots to the start, and everything else keeps the status or
moves it along an edge of the pathway. -/
def MovesBy (p : Proposal) (a : Action) (q : Proposal) : Prop :=
  match a with
  | .changePhase _ =>
    q = p ∨ q.status = .proposed ∧ ∃ chamber : Chamber, p.status = chamber.votingStatus ∧
      p.ballots chamber.stage = []
  | _ => q.status = p.status ∨ p.status.leadsTo p.isEntrenched q.status = true

theorem movesBy_self (p : Proposal) (a : Action) : p.MovesBy a p := by
  cases a <;> exact .inl rfl

theorem movesBy_underNewPhase (p : Proposal) (phase : Phase) :
    p.MovesBy (.changePhase phase) p.underNewPhase := by
  rcases underNewPhase_cases p with ⟨hp, -⟩ | ⟨chamber, hreset, hs, hp⟩
  · exact .inl hp
  · refine .inr ⟨?_, chamber, hs, (disposition_eq_reset_iff.mp hreset).2⟩
    rw [hp]
    rfl

theorem underNewPhase_of_isTerminal (h : p.status.isTerminal = true) : p.underNewPhase = p := by
  rcases underNewPhase_cases p with ⟨hp, -⟩ | ⟨chamber, -, hs, -⟩
  · exact hp
  · rw [hs] at h
    cases chamber <;> cases h

end Proposal

namespace Docket

theorem Orderly.movesBy (hd : d.Orderly) (hp : d.get? id = some p) (a : Action) (now : Instant) :
    ∃ q, (d.step a now).1.get? id = some q ∧ p.MovesBy a q := by
  obtain ⟨q, hq, hcases⟩ := hd.request_cases hp a now
  refine ⟨q, hq, ?_⟩
  rcases hcases with rfl | ⟨op, reply, rfl, step⟩ | ⟨phase, rfl, -, rfl⟩
  · exact q.movesBy_self a
  · exact Proposal.leadsTo_of_step step
  · exact p.movesBy_underNewPhase phase

def status? (d : Docket) (id : UInt64) : Option Status := (d.get? id).map Proposal.status

/-- The statuses through which a proposal passes in a run, one entry for each time it enters one.
The first is that in which it stands before the run, or in which it is submitted. -/
def trail (id : UInt64) : Docket → List (Action × Instant) → List Status
  | d, [] => (d.status? id).toList
  | d, (a, now) :: rest =>
    let e := (d.step a now).1
    if d.status? id = e.status? id then trail id e rest else
      (d.status? id).toList ++ trail id e rest

def decisions (id : UInt64) (stage : Stage) : Docket → List (Action × Instant) → Nat
  | _, [] => 0
  | d, (a, now) :: rest =>
    (if a = .operate id (.close stage) ∧ (d.step a now).2.isOk = true then 1 else 0) +
      decisions id stage (d.step a now).1 rest

theorem status?_eq (hp : d.get? id = some p) : d.status? id = some p.status := by
  rw [status?, hp, Option.map_some]

theorem Orderly.head?_trail (hd : d.Orderly) (hp : d.get? id = some p)
    (requests : List (Action × Instant)) :
    (trail id d requests).head? = some p.status := by
  induction requests generalizing d p with
  | nil => simp [trail, status?_eq hp]
  | cons request rest ih =>
    obtain ⟨a, now⟩ := request
    obtain ⟨q, hq, -⟩ := hd.request_cases hp a now
    have hrest : (trail id (d.step a now).1 rest).head? = some q.status := ih (hd.run [(a, now)]) hq
    simp only [trail, status?_eq hp, status?_eq hq]
    split
    · rename_i hsame
      rw [hsame]
      exact hrest
    · rfl

theorem Orderly.isOnPathway_trail (hd : d.Orderly) {requests : List (Action × Instant)}
    (uninterrupted : d.Uninterrupted id requests) (hq : (d.run requests).get? id = some q) :
    Status.IsOnPathway q.isEntrenched (trail id d requests) := by
  -- from the front: the rest of the trail begins in the status that the first request leaves behind
  induction requests generalizing d with
  | nil =>
    unfold trail Status.IsOnPathway
    cases d.status? id <;> simp
  | cons request rest ih =>
    obtain ⟨a, now⟩ := request
    obtain ⟨hback, hrest⟩ := uninterrupted
    have hd' : (d.step a now).1.Orderly := hd.run [(a, now)]
    have htail := ih hd' hrest hq
    simp only [trail]
    split
    · exact htail
    · rename_i hne
      cases hp : d.get? id with
      | none =>
        rw [status?, hp]
        exact htail
      | some p =>
        obtain ⟨p', hp', hcases⟩ := hd.step_of_not_sendsBack hp hback
        have hsame : p.SameSubmission q := hd.sameSubmission_run hp hq
        rw [status?_eq hp, status?_eq hp'] at hne
        rw [status?_eq hp, Option.toList_some, List.singleton_append]
        refine List.isChain_cons.mpr ⟨?_, htail⟩
        intro t ht
        rw [hd'.head?_trail hp'] at ht
        cases ht
        rw [hsame.isEntrenched]
        rcases hcases with rfl | ⟨op, reply, hs⟩
        · exact absurd rfl hne
        · rcases Proposal.leadsTo_of_step hs with heq | hleads
          · exact absurd (congrArg some heq.symm) hne
          · exact hleads

theorem status?_of_close (h : (d.step (.operate id (.close stage)) now).2.isOk = true) :
    d.status? id = some stage.votingStatus ∧
      (d.step (.operate id (.close stage)) now).1.status? id ≠ some stage.votingStatus := by
  rcases d.step_cases (.operate id (.close stage)) now with ⟨f, hrefused⟩ | ⟨e, answer, hs, hdone⟩
  · rw [hrefused] at h
    cases h
  · obtain ⟨p, r, outcome, q, hp, hq, -, status, -, -, concludes⟩ := close_of_step hs
    rw [hdone, status?_eq hp, status?_eq hq, status]
    exact ⟨rfl, fun heq => Proposal.status_ne_of_concludes concludes (Option.some.inj heq)⟩

/-- Every decision of a vote takes the proposal out of the status of this vote, into which it must
have come. -/
theorem decisions_le_count (id : UInt64) (stage : Stage) (d : Docket)
    (requests : List (Action × Instant)) :
    decisions id stage d requests ≤ (trail id d requests).count stage.votingStatus := by
  induction requests generalizing d with
  | nil => exact Nat.zero_le _
  | cons request rest ih =>
    obtain ⟨a, now⟩ := request
    have hrest := ih (d.step a now).1
    simp only [decisions, trail]
    by_cases hclosed : a = .operate id (.close stage) ∧ (d.step a now).2.isOk = true
    · obtain ⟨rfl, hok⟩ := hclosed
      obtain ⟨hbefore, hafter⟩ := status?_of_close hok
      rw [if_pos ⟨rfl, hok⟩, hbefore, if_neg (Ne.symm hafter), Option.toList_some,
        List.singleton_append, List.count_cons_self]
      omega
    · rw [if_neg hclosed]
      split
      · omega
      · rw [List.count_append]
        omega

theorem Orderly.get?_run_of_isTerminal (hd : d.Orderly) (hp : d.get? id = some p)
    (ht : p.status.isTerminal = true) (requests : List (Action × Instant)) :
    (d.run requests).get? id = some p := by
  have hrun : ∃ q, (d.run requests).get? id = some q ∧ q = p := by
    refine hd.run_of_fate (P := fun q => q = p) ?_ ?_ hp rfl requests
    · rintro _ _ _ _ _ _ hs rfl
      rw [Proposal.isTerminal_eq_false_of_step hs] at ht
      cases ht
    · rintro _ rfl
      exact Proposal.underNewPhase_of_isTerminal ht
  obtain ⟨q, hq, rfl⟩ := hrun
  exact hq

theorem refused_of_isTerminal (hp : d.get? id = some p) (ht : p.status.isTerminal = true)
    (op : Operation) (now : Instant) : ∃ f, (d.step (.operate id op) now).2 = .error f := by
  rcases d.step_cases (.operate id op) now with ⟨f, hrefused⟩ | ⟨e, answer, hs, -⟩
  · exact ⟨f, by rw [hrefused]⟩
  · cases hs with
    | operate found step =>
      obtain rfl := Option.some.inj (hp.symm.trans found)
      rw [Proposal.isTerminal_eq_false_of_step step] at ht
      cases ht

theorem not_checkApplication_of_isTerminal (hp : d.get? id = some p)
    (ht : p.status.isTerminal = true) :
    d.checkApplication id ≠ .ok () := by
  intro h
  simp only [checkApplication, except_bind_eq_ok_iff, demand_eq_ok_iff] at h
  obtain ⟨p', hp', hcheck⟩ := h
  obtain rfl := Option.some.inj (hp.symm.trans hp')
  rw [(Proposal.checkApplication_eq_ok_iff.mp hcheck).1] at ht
  cases ht

/-- In every run of an opened docket requests move a proposal forward, but for a new phase that
takes it back to the start. Between two returns it passes along its pathway, through each status at
most once and through no more of them than the longest pathway has, and no vote is decided twice. In
a terminal status it stays as it is for good, and everything that is asked of it is refused. -/
theorem lifecycle_moves_forward (opened : create c = .ok d ∨ ∃ records, restore c records = .ok d)
    (before : List (Action × Instant)) (id : UInt64) :
    (∀ a now p, (d.run before).get? id = some p →
      ∃ q, ((d.run before).step a now).1.get? id = some q ∧ p.MovesBy a q) ∧
    (∀ later q, (d.run before).Uninterrupted id later →
      ((d.run before).run later).get? id = some q →
      Status.IsOnPathway q.isEntrenched (trail id (d.run before) later) ∧
        (trail id (d.run before) later).Nodup ∧
        (trail id (d.run before) later).length ≤ (Status.pathway q.isEntrenched).length ∧
        ∀ stage, decisions id stage (d.run before) later ≤ 1) ∧
    ∀ p, (d.run before).get? id = some p → p.status.isTerminal = true →
      ∀ later, ((d.run before).run later).get? id = some p ∧
        (∀ op now, ∃ f, (((d.run before).run later).step (.operate id op) now).2 = .error f) ∧
        ((d.run before).run later).checkApplication id ≠ .ok () := by
  have horderly : (d.run before).Orderly := (sound_of_opened opened).orderly.run before
  refine ⟨?_, ?_, ?_⟩
  · intro a now p hp
    exact horderly.movesBy hp a now
  · intro later q uninterrupted hq
    have hpathway := horderly.isOnPathway_trail uninterrupted hq
    refine ⟨hpathway, hpathway.nodup, hpathway.length_le, ?_⟩
    intro stage
    have honce := List.nodup_iff_count_le_one.mp hpathway.nodup stage.votingStatus
    exact (decisions_le_count id stage (d.run before) later).trans honce
  · intro p hp ht later
    have hlater := horderly.get?_run_of_isTerminal hp ht later
    exact ⟨hlater, refused_of_isTerminal hlater ht, not_checkApplication_of_isTerminal hlater ht⟩

def restartedRequests : List (Action × Instant) :=
  challengedRequests.take 2 ++ [(.changePhase soloConstitution.phase, firstDay)]

def appliedRequests : List (Action × Instant) :=
  challengedRequests.drop 1 ++ [(.operate 1 (.apply (.obj [])), secondDay)]

/-- The new phase sends the proposal back, the longest pathway is passed through in full, and
nothing changes any more. -/
theorem lifecycle_moves_forward_restarted :
    let d := (empty soloConstitution).run restartedRequests
    ((empty soloConstitution).run (challengedRequests.take 2)).sendsBack 1
      (.changePhase soloConstitution.phase) firstDay = true ∧
      d.Uninterrupted 1 appliedRequests ∧
      trail 1 d appliedRequests = Status.pathway true ∧ (trail 1 d appliedRequests).Nodup ∧
      decisions 1 .challenge d appliedRequests = 1 ∧
      ∃ p, (d.run appliedRequests).get? 1 = some p ∧ p.status = .applied ∧
        ∀ later, ((d.run appliedRequests).run later).get? 1 = some p ∧
          ∃ f, (((d.run appliedRequests).run later).step (.operate 1 (.close .challenge))
            secondDay).2 = .error f := by
  intro d
  have hopened : create soloConstitution = .ok (empty soloConstitution) := rfl
  have hback : ((empty soloConstitution).run (challengedRequests.take 2)).sendsBack 1
      (.changePhase soloConstitution.phase)
      firstDay = true := by decide +kernel
  have huninterrupted : d.Uninterrupted 1 appliedRequests := by decide +kernel
  have htrail : trail 1 d appliedRequests = Status.pathway true := by decide +kernel
  have hdecided : decisions 1 .challenge d appliedRequests = 1 := by decide +kernel
  have happlied : ((d.run appliedRequests).get? 1).map Proposal.status = some .applied := by
    decide +kernel
  obtain ⟨p, hp, hs⟩ := Option.map_eq_some_iff.mp happlied
  obtain ⟨-, hnodup, -⟩ := (lifecycle_moves_forward (.inl hopened) restartedRequests 1).2.1
    appliedRequests p huninterrupted hp
  refine ⟨hback, huninterrupted, htrail, hnodup, hdecided, p, hp, hs, ?_⟩
  intro later
  have hend : ((empty soloConstitution).run (restartedRequests ++ appliedRequests)).get? 1 =
      some p := by
    rw [run_append]
    exact hp
  have hfinal :=
    (lifecycle_moves_forward (.inl hopened) (restartedRequests ++ appliedRequests) 1).2.2 p hend
    (by rw [hs]; rfl) later
  rw [run_append] at hfinal
  exact ⟨hfinal.1, hfinal.2.1 _ _⟩

end Docket

end Charter
