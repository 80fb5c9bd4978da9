import Charter.Proofs.Docket.Diversity
import Charter.Proofs.Docket.Interference

/-! # Running votes and new phases

A chamber that holds a ballot goes on under the phase in which it was convened. Casting a ballot and
closing a vote do not read the phase, and a new phase leaves the proposal alone, so the vote does
not show how often the phase has changed meanwhile. -/

namespace Charter

def Action.isPhaseChange : Action → Bool
  | .changePhase _ => true
  | _ => false

def Action.IsBallot (id : UInt64) (stage : Stage) (a : Action) : Prop :=
  ∃ voter approve attestation, a = .operate id (.cast stage voter approve attestation)

theorem Action.IsBallot.isPhaseChange_eq {id : UInt64} {stage : Stage} {a : Action}
    (h : a.IsBallot id stage) :
    a.isPhaseChange = false := by
  obtain ⟨_, _, _, rfl⟩ := h
  rfl

namespace Proposal

variable {c : Constitution} {p q : Proposal} {now : Instant} {chamber : Chamber}

structure IsUnderway (p : Proposal) (chamber : Chamber) : Prop where
  opened : p.status.openChamber? = some chamber
  voted : p.ballots chamber.stage ≠ []

theorem IsUnderway.underNewPhase_eq (h : p.IsUnderway chamber) : p.underNewPhase = p := by
  have hretained : p.disposition = .retained chamber := by
    rw [disposition, h.opened]
    exact if_neg h.voted
  rw [underNewPhase, hretained]

theorem IsUnderway.cast (h : p.IsUnderway chamber) {voter : Voter} {approve : Bool}
    {attestation : String} {reply : Reply}
    (hs : p.Step c now (.cast chamber.stage voter approve attestation) q reply) :
    q.IsUnderway chamber := by
  cases hs with
  | cast _ _ running record =>
    obtain ⟨-, -, -, -, _, -, rfl⟩ := Round.record_eq_ok_iff.mp record
    refine ⟨by rw [status_putRound, h.opened], ?_⟩
    rw [ballots, round?_putRound_of_round running, if_pos rfl]
    simp

end Proposal

namespace Docket

variable {c : Constitution} {d e : Docket} {now : Instant} {id : UInt64} {chamber : Chamber}
  {a : Action}

/-- Two dockets have the same vote going on, under constitutions that differ at most in the
phase. -/
structure VotesAlike (id : UInt64) (chamber : Chamber) (d e : Docket) : Prop where
  constitution : d.constitution = { e.constitution with phase := d.constitution.phase }
  proposal : d.get? id = e.get? id
  underway : ∃ p, d.get? id = some p ∧ p.IsUnderway chamber

theorem VotesAlike.newPhase (h : VotesAlike id chamber d e) (ha : a.isPhaseChange = true)
    (now : Instant) :
    VotesAlike id chamber (d.step a now).1 e := by
  cases a with
  | propose | operate | drain => cases ha
  | changePhase phase =>
    cases hcheck : Constitution.checkPhase d.constitution.diversity phase with
    | some flaw =>
      rw [step_changePhase_of_flaw hcheck]
      exact h
    | none =>
      rw [step_changePhase hcheck]
      obtain ⟨p, hp, hunderway⟩ := h.underway
      have hsame : (d.inPhase phase now).get? id = some p := by
        rw [get?_inPhase, hp, Option.map_some, hunderway.underNewPhase_eq]
      have hconstitution :
          (d.inPhase phase now).constitution = { e.constitution with phase := phase } := by
        rw [inPhase, h.constitution]
      exact ⟨hconstitution, hsame.trans (hp.symm.trans h.proposal), p, hsame, hunderway⟩

theorem VotesAlike.ballot (h : VotesAlike id chamber d e) (ha : a.IsBallot id chamber.stage)
    (now : Instant) :
    (d.step a now).2 = (e.step a now).2 ∧
    VotesAlike id chamber (d.step a now).1 (e.step a now).1 := by
  obtain ⟨voter, approve, attestation, rfl⟩ := ha
  have hperform (p : Proposal) :
      p.perform d.constitution (.cast chamber.stage voter approve attestation) now =
      p.perform e.constitution (.cast chamber.stage voter approve attestation) now := rfl
  rcases operate_congr h.proposal hperform with ⟨f, hd, he⟩ |
    ⟨p, q, reply, hp, hstep, hd, he⟩ <;> rw [hd, he]
  · exact ⟨rfl, h⟩
  · obtain ⟨p', hp', hunderway⟩ := h.underway
    obtain rfl := Option.some.inj (hp.symm.trans hp')
    refine ⟨rfl, h.constitution, ?_, q, ?_, hunderway.cast hstep⟩ <;>
      simp only [get?, Table.get?_insert, if_true]

/-- The close reads the thresholds and the windows of the constitution, and these are the same. -/
theorem VotesAlike.close (h : VotesAlike id chamber d e) (now : Instant) :
    (d.step (.operate id (.close chamber.stage)) now).2 =
      (e.step (.operate id (.close chamber.stage)) now).2 ∧
      (d.step (.operate id (.close chamber.stage)) now).1.get? id =
        (e.step (.operate id (.close chamber.stage)) now).1.get? id := by
  have hperform (p : Proposal) :
      p.perform d.constitution (.close chamber.stage) now =
        p.perform e.constitution (.close chamber.stage) now := by
    rw [h.constitution]
    rfl
  rcases operate_congr h.proposal hperform with ⟨f, hd, he⟩ |
    ⟨p, q, reply, -, -, hd, he⟩ <;> rw [hd, he]
  · exact ⟨rfl, h.proposal⟩
  · refine ⟨rfl, ?_⟩
    simp only [get?, Table.get?_insert, if_true]

def withoutPhases (requests : List (Action × Instant)) : List (Action × Instant) :=
  requests.filter (fun request => !request.1.isPhaseChange)

theorem VotesAlike.run (h : VotesAlike id chamber d e) (hd : d.Orderly) (he : e.Orderly)
    {requests : List (Action × Instant)}
    (vote : ∀ request ∈ requests, request.1.isPhaseChange = true ∨
      request.1.IsBallot id chamber.stage)
    (now : Instant) :
    let close := (Action.operate id (.close chamber.stage), now)
    d.handedBack (fun a => !a.isPhaseChange) (requests ++ [close]) =
        e.handedBack (fun a => !a.isPhaseChange) (withoutPhases requests ++ [close]) ∧
      (d.run (requests ++ [close])).get? id =
        (e.run (withoutPhases requests ++ [close])).get? id := by
  intro close
  -- only the first docket moves with a new phase, and both move with a ballot
  induction requests generalizing d e with
  | nil =>
    obtain ⟨hanswer, hproposal⟩ := h.close now
    refine ⟨?_, hproposal⟩
    change d.handedBack _ [close] = e.handedBack _ [close]
    rw [hd.handedBack_cons, he.handedBack_cons, hanswer]
    rfl
  | cons request rest ih =>
    obtain ⟨a, t⟩ := request
    have hd' : (d.step a t).1.Orderly := hd.run [(a, t)]
    obtain ⟨ha, hrest⟩ := List.forall_mem_cons.mp vote
    rw [List.cons_append, hd.handedBack_cons, Docket.run, withoutPhases, List.filter_cons]
    rcases ha with hphase | hballot
    · rw [hphase]
      exact ih (h.newPhase hphase t) hd' he hrest
    · obtain ⟨hanswer, halike⟩ := h.ballot hballot t
      have he' : (e.step a t).1.Orderly := he.run [(a, t)]
      obtain ⟨hback, hproposal⟩ := ih halike hd' he' hrest
      have hcounts : (!a.isPhaseChange) = true := by rw [hballot.isPhaseChange_eq]; rfl
      simp only [hcounts, if_true, List.cons_append]
      rw [he.handedBack_cons, if_pos hcounts, Docket.run, hanswer, hback]
      exact ⟨rfl, hproposal⟩

/-- In every run of an opened docket a chamber that holds a ballot is immune to new phases: however
many of them are asked for between further ballots, every ballot and the close have the answers that
they would have had otherwise, and the proposal after the close is the same. -/
theorem running_vote_is_immune (opened : create c = .ok d ∨ ∃ records, restore c records = .ok d)
    (before : List (Action × Instant)) {p : Proposal} (hp : (d.run before).get? id = some p)
    (hchamber : p.IsUnderway chamber) {requests : List (Action × Instant)}
    (vote : ∀ request ∈ requests, request.1.isPhaseChange = true ∨
      request.1.IsBallot id chamber.stage)
    (now : Instant) :
    let close := (Action.operate id (.close chamber.stage), now)
    (d.run before).handedBack (fun a => !a.isPhaseChange) (requests ++ [close]) =
        (d.run before).handedBack (fun a => !a.isPhaseChange) (withoutPhases requests ++ [close]) ∧
      ((d.run before).run (requests ++ [close])).get? id =
        ((d.run before).run (withoutPhases requests ++ [close])).get? id := by
  have horderly : (d.run before).Orderly := (sound_of_opened opened).orderly.run before
  have halike : VotesAlike id chamber (d.run before) (d.run before) := ⟨rfl, rfl, p, hp, hchamber⟩
  exact halike.run horderly horderly vote now

/-- The council votes as it would have voted if the assembly had not come into force meanwhile. -/
theorem running_vote_is_immune_council :
    let d := (empty councilConstitution).run (councilRequests.take 3)
    let later := councilRequests.drop 3
    let close := (Action.operate 1 (.close .proposal), firstDay)
    withoutPhases later = later.drop 1 ∧
      d.handedBack (fun a => !a.isPhaseChange) (later ++ [close]) =
        d.handedBack (fun a => !a.isPhaseChange) (later.drop 1 ++ [close]) ∧
      (d.run (later ++ [close])).get? 1 = (d.run (later.drop 1 ++ [close])).get? 1 ∧
      ((d.run (later ++ [close])).get? 1).map Proposal.status = some .ratificationVoting := by
  intro d later close
  have hcreate : create councilConstitution = .ok (empty councilConstitution) := by rfl
  have hwithout : withoutPhases later = later.drop 1 := by decide +kernel
  have hpassed : ((d.run (later ++ [close])).get? 1).map Proposal.status =
      some .ratificationVoting := by decide +kernel
  have hdata : (d.get? 1).map (fun p => (p.status.openChamber?, (p.ballots .proposal).length)) =
      some (some .proposal, 1) := by
    decide +kernel
  obtain ⟨p, hp, hchamber⟩ := Option.map_eq_some_iff.mp hdata
  obtain ⟨hopened, hvoted⟩ := Prod.mk.inj hchamber
  have hunderway : p.IsUnderway .proposal := ⟨hopened, List.ne_nil_of_length_eq_add_one hvoted⟩
  have hvote : ∀ request ∈ later, request.1.isPhaseChange = true ∨
      request.1.IsBallot 1 .proposal := by
    intro request hmem
    simp only [later, councilRequests, List.drop_succ_cons, List.drop_zero, List.mem_cons,
      List.not_mem_nil, or_false] at hmem
    rcases hmem with rfl | rfl | rfl
    · exact .inl rfl
    · exact .inr ⟨_, _, _, rfl⟩
    · exact .inr ⟨_, _, _, rfl⟩
  obtain ⟨hback, hsame⟩ :=
    running_vote_is_immune (.inl hcreate) (councilRequests.take 3) hp hunderway hvote firstDay
  rw [hwithout] at hback hsame
  exact ⟨hwithout, hback, hsame, hpassed⟩

end Docket

end Charter
