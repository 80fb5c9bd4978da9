import Mathlib.Data.List.Perm.Basic
import Charter.Proofs.Proposal.Atomicity

/-! # Calls to a vote

What a round does with calls to cast a ballot, one after another. A call is judged by what it says
and by the ballots of its own voter, so calls of different voters do not see each other, and of the
calls of one voter the first that could be taken is. -/

namespace Charter

structure Call where
  voter : Voter
  approve : Bool
  attestation : String
  time : Instant
deriving DecidableEq

namespace Round

variable {r : Round} {id : UInt64} {stage : Stage} {x : Call} {b : Ballot} {news : List Ballot}
  {calls : List Call} {f : Fault}

/-- The ballot that a round takes from a call, or why it takes none. -/
def judge (r : Round) (id : UInt64) (stage : Stage) (x : Call) : Except Fault Ballot := do
  require (¬Text.isEmptyText x.attestation) (.invalid .emptyAttestation)
  require (¬r.DeadlinePassed x.time) (.votingClosed stage)
  let affiliation ← demand (if r.IsMember x.voter.id then r.affiliation? x.voter.id else none)
    (.notSeated x.voter.id stage)
  require (¬r.HasVoted x.voter.id) (.alreadyVoted x.voter.id stage)
  return ⟨Ballot.identity id stage x.voter.id, x.voter.id, stage, x.approve,
    Text.trim x.attestation, x.time, affiliation⟩

def withBallots (r : Round) (news : List Ballot) : Round := { r with ballots := r.ballots ++ news }

@[simp] theorem withBallots_nil (r : Round) : r.withBallots [] = r := by
  rw [withBallots, List.append_nil]

@[simp] theorem withBallots_withBallots (r : Round) (news later : List Ballot) :
    (r.withBallots news).withBallots later = r.withBallots (news ++ later) := by
  simp only [withBallots, List.append_assoc]

def verdicts (r : Round) (id : UInt64) (stage : Stage) : List Call → List (Except Fault Ballot)
  | [] => []
  | x :: calls =>
    let verdict := r.judge id stage x
    verdict :: (r.withBallots verdict.toOption.toList).verdicts id stage calls

def taken (verdicts : List (Except Fault Ballot)) : List Ballot :=
  verdicts.filterMap Except.toOption

/-- The first ballot of a voter that the round, as it is, would take. -/
def firstFor (r : Round) (id : UInt64) (stage : Stage) (voter : VoterId) (calls : List Call) :
    Option Ballot :=
  calls.findSome? (fun x => if x.voter.id = voter then (r.judge id stage x).toOption else none)

theorem judge_withBallots (others : ∀ b ∈ news, b.voter ≠ x.voter.id) :
    (r.withBallots news).judge id stage x = r.judge id stage x := by
  have hvoted : (r.withBallots news).HasVoted x.voter.id ↔ r.HasVoted x.voter.id := by
    simp only [HasVoted, withBallots, List.mem_append]
    constructor
    · rintro ⟨b, hb | hb, hvoter⟩
      · exact ⟨b, hb, hvoter⟩
      · exact absurd hvoter (others b hb)
    · rintro ⟨b, hb, hvoter⟩
      exact ⟨b, .inl hb, hvoter⟩
  simp only [judge, hvoted]
  rfl

theorem judge_eq_ok_iff : r.judge id stage x = .ok b ↔
    Text.isEmptyText x.attestation = false ∧ ¬r.DeadlinePassed x.time ∧
      ∃ affiliation, (if r.IsMember x.voter.id then r.affiliation? x.voter.id else none) =
        some affiliation ∧
        ¬r.HasVoted x.voter.id ∧
        ⟨Ballot.identity id stage x.voter.id, x.voter.id, stage, x.approve, Text.trim x.attestation,
          x.time, affiliation⟩ = b := by
  simp only [judge, except_bind_eq_ok_iff, require_eq_ok_iff, demand_eq_ok_iff, pure_eq_ok_iff,
    exists_const, Bool.not_eq_true]

theorem voter_of_judge (h : r.judge id stage x = .ok b) : b.voter = x.voter.id := by
  obtain ⟨-, -, _, -, -, rfl⟩ := judge_eq_ok_iff.mp h
  rfl

theorem voter_of_mem_toOption (h : b ∈ (r.judge id stage x).toOption.toList) :
    b.voter = x.voter.id := by
  have hjudge : r.judge id stage x = .ok b :=
    except_toOption_eq_some_iff.mp (Option.mem_toList.mp h)
  exact voter_of_judge hjudge

theorem toOption_judge_of_hasVoted (h : r.HasVoted x.voter.id) :
    (r.judge id stage x).toOption = none := by
  cases hj : r.judge id stage x with
  | error f => rfl
  | ok b =>
    obtain ⟨-, -, _, -, hfirst, -⟩ := judge_eq_ok_iff.mp hj
    exact absurd h hfirst

/-- Each of several voters is judged as if nobody else had called. -/
theorem verdicts_of_nodup (distinct : (calls.map (fun x => x.voter.id)).Nodup) :
    r.verdicts id stage calls = calls.map (r.judge id stage) := by
  induction calls generalizing r with
  | nil => rfl
  | cons x calls ih =>
    obtain ⟨hx, hcalls⟩ := List.nodup_cons.mp distinct
    rw [verdicts, List.map_cons, ih hcalls]
    congr 1
    refine List.map_congr_left ?_
    intro y hy
    refine judge_withBallots ?_
    intro b hb heq
    rw [voter_of_mem_toOption hb] at heq
    exact hx (List.mem_map.mpr ⟨y, hy, heq.symm⟩)

theorem firstFor_of_hasVoted {voter : VoterId} (h : r.HasVoted voter) (calls : List Call) :
    r.firstFor id stage voter calls = none := by
  refine List.findSome?_eq_none_iff.mpr ?_
  intro x _
  split
  · rename_i hvoter
    exact toOption_judge_of_hasVoted (hvoter ▸ h)
  · rfl

theorem firstFor_withBallots {voter : VoterId} (others : ∀ b ∈ news, b.voter ≠ voter)
    (calls : List Call) :
    (r.withBallots news).firstFor id stage voter calls = r.firstFor id stage voter calls := by
  unfold firstFor
  congr 1
  funext x
  split
  · rename_i hvoter
    rw [judge_withBallots (hvoter ▸ others)]
  · rfl

theorem taken_verdicts_cons (r : Round) (id : UInt64) (stage : Stage) (x : Call)
    (calls : List Call) :
    taken (r.verdicts id stage (x :: calls)) = (r.judge id stage x).toOption.toList ++
      taken ((r.withBallots (r.judge id stage x).toOption.toList).verdicts id stage calls) := by
  rw [verdicts, taken, List.filterMap_cons]
  cases (r.judge id stage x).toOption <;> rfl

/-- However often a voter calls, the first ballot that the round would take is taken, and no
other. -/
theorem filter_taken_verdicts (r : Round) (id : UInt64) (stage : Stage) (voter : VoterId)
    (calls : List Call) :
    (taken (r.verdicts id stage calls)).filter (fun b => b.voter = voter) =
      (r.firstFor id stage voter calls).toList := by
  induction calls generalizing r with
  | nil => rfl
  | cons x calls ih =>
    have hfirst : r.firstFor id stage voter (x :: calls) =
        ((if x.voter.id = voter then (r.judge id stage x).toOption else none).or
          (r.firstFor id stage voter calls)) := by
      rw [firstFor, List.findSome?_cons]
      cases (if x.voter.id = voter then (r.judge id stage x).toOption else none) <;> rfl
    rw [taken_verdicts_cons, List.filter_append, ih, hfirst]
    cases hj : (r.judge id stage x).toOption with
    | none => simp
    | some b =>
      have hb : b.voter = x.voter.id := voter_of_mem_toOption (Option.mem_toList.mpr hj)
      by_cases hvoter : x.voter.id = voter
      · have hvoted : (r.withBallots [b]).HasVoted voter :=
          ⟨b, by simp [withBallots], hb.trans hvoter⟩
        simp [hb, hvoter, firstFor_of_hasVoted hvoted]
      · have hother : ∀ b' ∈ [b], b'.voter ≠ voter := by
          simpa [hb] using hvoter
        simp [hb, hvoter, firstFor_withBallots hother]

theorem decide_congr_of_perm {order : List Ballot} (h : order.Perm news) (t : Thresholds)
    (entrenched : Bool) (now : Instant) :
    (r.withBallots order).decide t entrenched now =
      (r.withBallots news).decide t entrenched now := by
  have htally : (r.withBallots order).tally = (r.withBallots news).tally := by
    simp only [tally, withBallots, List.countP_append, h.countP_eq]
  simp only [decide, Passes, DeadlinePassed, htally]
  rfl

end Round

namespace Proposal

variable {c : Constitution} {p q : Proposal} {stage : Stage} {r : Round} {now : Instant}

@[simp] theorem putRound_putRound (p : Proposal) (stage : Stage) (r r' : Round) :
    (p.putRound stage r).putRound stage r' = p.putRound stage r' := by
  cases stage with
  | proposal | ratification | challenge => rfl
  | confirmation =>
    cases hw : p.coolingOff? with
    | none =>
      have hput : ∀ x, p.putRound .confirmation x = p := fun x => by simp only [putRound, hw]
      rw [hput r]
    | some w =>
      have hput : ∀ x, p.putRound .confirmation x = { p with track := some (.confirmation w x) } :=
        fun x => by simp only [putRound, hw]
      rw [hput r, hput r']
      rfl

theorem putRound_of_round (running : p.round? stage = some r) : p.putRound stage r = p := by
  cases stage with
  | proposal | ratification | challenge =>
    rw [putRound, ← running]
    rfl
  | confirmation =>
    obtain ⟨w, hw⟩ := track_of_confirmation_round running
    have hwindow : p.coolingOff? = some w := by simp [coolingOff?, hw, Track.window?]
    simp only [putRound, hwindow]
    rw [← hw]

/-- At a vote that runs, a call is left to the round. -/
theorem cast_eq_judge (status : p.status = stage.votingStatus) (running : p.round? stage = some r)
    (x : Call) :
    p.cast stage x.voter x.approve x.attestation x.time =
      (r.judge p.id stage x).map (fun b => (p.putRound stage (r.withBallots [b]), b.id)) := by
  have hexpect : p.expect stage.votingStatus = pure () := expect_eq_ok_iff.mpr status
  have hrunning : p.running stage = pure r := running_eq_ok_iff.mpr running
  simp only [cast, Round.judge, Round.record, hexpect, hrunning, except_map_bind,
    except_map_pure, pure_bind]
  cases require (¬Text.isEmptyText x.attestation = true) (Fault.invalid .emptyAttestation) with
  | error f => rfl
  | ok _ =>
    cases require (¬r.DeadlinePassed x.time) (Fault.votingClosed stage) with
    | error f => rfl
    | ok _ =>
      cases demand (if r.IsMember x.voter.id then r.affiliation? x.voter.id else none)
        (Fault.notSeated x.voter.id stage) with
      | error f => rfl
      | ok affiliation =>
        cases require (¬r.HasVoted x.voter.id) (Fault.alreadyVoted x.voter.id stage) <;> rfl

structure Agree {α : Type} (a b : Attempt α) : Prop where
  result : a.result = b.result
  status : a.proposal.status = b.proposal.status

theorem Agree.map {α β : Type} {a b : Attempt α} (h : Agree a b) (g : α → β) :
    Agree (a.map g) (b.map g) where
  result := congrArg (Except.map g) h.result
  status := h.status

theorem Agree.refused {α : Type} (h : q.status = p.status) (f : Fault) :
    Agree (Attempt.refused q f : Attempt α) (Attempt.refused p f) := ⟨rfl, h⟩

theorem agree_moveTo (hstatus : q.status = p.status) (hentrenched : q.isEntrenched = p.isEntrenched)
    (s : Status) :
    Agree (Attempt.ofStep q (q.moveTo s now)) (Attempt.ofStep p (p.moveTo s now)) := by
  simp only [moveTo, hstatus, hentrenched]
  split
  · exact ⟨rfl, by simp [Attempt.ofStep]⟩
  · exact .refused hstatus _

theorem agree_openChallenge (hstatus : q.status = p.status)
    (hentrenched : q.isEntrenched = p.isEntrenched) :
    Agree (Attempt.ofStep q (q.openChallenge c now))
    (Attempt.ofStep p (p.openChallenge c now)) := by
  simp only [openChallenge, moveTo, hstatus, hentrenched]
  cases windowEnd now c.timing.challengeWindow with
  | error f => exact .refused hstatus f
  | ok closesAt =>
    split
    · exact ⟨rfl, rfl⟩
    · exact .refused hstatus _

theorem agree_startCoolingOff (hstatus : q.status = p.status) (htrack : q.track = p.track) :
    Agree (Attempt.ofExcept q (q.startCoolingOff c now))
    (Attempt.ofExcept p (p.startCoolingOff c now)) := by
  simp only [startCoolingOff, expect, hstatus, htrack]
  cases require (p.status = .coolingOff) (Fault.mismatch (.status .coolingOff p.status)) with
  | error f => exact .refused hstatus f
  | ok _ =>
    cases demand p.track (Fault.mismatch .standard) with
    | error f => exact .refused hstatus f
    | ok track =>
      cases track with
      | coolingOff w | confirmation w r => exact .refused hstatus _
      | awaiting =>
        cases windowEnd now c.timing.coolingOff with
        | error f => exact .refused hstatus f
        | ok endsAt => exact ⟨rfl, rfl⟩

theorem agree_leaveChallenge (hs : p.status = .challengeVoting) (hstatus : q.status = p.status)
    (htrack : q.track = p.track) :
    Agree (q.leaveChallenge c now) (p.leaveChallenge c now) := by
  have hentrenched : q.isEntrenched = p.isEntrenched := by rw [isEntrenched, htrack, isEntrenched]
  cases he : p.isEntrenched with
  | false =>
    rw [leaveChallenge, leaveChallenge, hentrenched, he]
    exact agree_moveTo hstatus hentrenched .confirmed
  | true =>
    rw [leaveChallenge_of_entrenched (.inr hs) he,
      leaveChallenge_of_entrenched (.inr (hstatus.trans hs)) (hentrenched.trans he)]
    refine Agree.map (agree_startCoolingOff ?_ ?_) _
    · rfl
    · exact htrack

/-- After a vote a proposal goes on as its status, its pathway and, at the challenge, its
track say. -/
theorem agree_conclude (hs : p.status = stage.votingStatus) (hstatus : q.status = p.status)
    (hentrenched : q.isEntrenched = p.isEntrenched)
    (htrack : stage = .challenge → q.track = p.track) (outcome : Outcome) :
    Agree (q.conclude c stage outcome now) (p.conclude c stage outcome now) := by
  cases outcome with
  | lapsed => exact agree_moveTo hstatus hentrenched .lapsed
  | rejected => exact agree_moveTo hstatus hentrenched .rejected
  | passed =>
    cases stage with
    | proposal => exact agree_moveTo hstatus hentrenched .ratificationVoting
    | ratification => exact agree_openChallenge hstatus hentrenched
    | challenge => exact agree_leaveChallenge hs hstatus (htrack rfl)
    | confirmation => exact agree_moveTo hstatus hentrenched .confirmed

theorem agree_close (status : p.status = stage.votingStatus) (running : p.round? stage = some r)
    {order news : List Ballot} (h : order.Perm news) :
    Agree ((p.putRound stage (r.withBallots order)).close c stage now)
    ((p.putRound stage (r.withBallots news)).close c stage now) := by
  have hclose : ∀ bs, (p.putRound stage (r.withBallots bs)).close c stage now =
      ((p.putRound stage (r.withBallots bs)).conclude c stage
        ((r.withBallots bs).decide c.thresholds (p.hasEntrenchedRules stage) now) now).map
          (fun _ => (r.withBallots bs).decide c.thresholds (p.hasEntrenchedRules stage) now) := by
    intro bs
    have hround : (p.putRound stage (r.withBallots bs)).round? stage = some (r.withBallots bs) := by
      rw [round?_putRound_of_round running, if_pos rfl]
    rw [close, checkClosing_eq_ok_iff.mpr ⟨(status_putRound ..).trans status, hround⟩]
    simp only [hasEntrenchedRules, isEntrenched_putRound]
  rw [hclose, hclose, Round.decide_congr_of_perm h]
  refine Agree.map (agree_conclude ((status_putRound ..).trans status) ?_ ?_ ?_ _) _
  · rw [status_putRound, status_putRound]
  · rw [isEntrenched_putRound, isEntrenched_putRound]
  · rintro rfl
    rfl

end Proposal

end Charter
