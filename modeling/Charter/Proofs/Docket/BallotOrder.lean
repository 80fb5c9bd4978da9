import Charter.Proofs.Docket.Closing
import Charter.Proofs.Docket.Diversity
import Charter.Proofs.Proposal.BallotOrder

/-! # The order of ballots

Calls of different voters to one vote may come in any order: each is answered as if it were the only
one, and the order shows nowhere but in the list of the ballots. -/

namespace Charter

def Call.request (id : UInt64) (stage : Stage) (x : Call) : Action × Instant :=
  (.operate id (.cast stage x.voter x.approve x.attestation), x.time)

def Call.answer (verdict : Except Fault Ballot) : Except Fault Answer :=
  verdict.map (fun b => .operated (.ballot b.id))

namespace Docket

variable {d e : Docket} {id : UInt64} {p q : Proposal} {stage : Stage} {r : Round} {now : Instant}

theorem step_call (hp : d.get? id = some p) (status : p.status = stage.votingStatus)
    (running : p.round? stage = some r) (x : Call) :
    ∃ e, d.step (.operate id (.cast stage x.voter x.approve x.attestation)) x.time =
          (e, Call.answer (r.judge p.id stage x)) ∧
        e.get? id = some (p.putRound stage (r.withBallots (r.judge p.id stage x).toOption.toList)) ∧
        e.constitution = d.constitution := by
  have hcast := Proposal.cast_eq_judge status running x
  cases hj : r.judge p.id stage x with
  | error f =>
    rw [hj] at hcast
    have hsame : p.putRound stage (r.withBallots []) = p := by
      rw [Round.withBallots_nil, Proposal.putRound_of_round running]
    refine ⟨d, step_operate_of_error hp ?_, hp.trans (congrArg some hsame.symm), rfl⟩
    rw [Proposal.perform, hcast]
    rfl
  | ok b =>
    rw [hj] at hcast
    refine ⟨_, step_of_step (.operate hp (Proposal.cast_eq_ok_iff.mp hcast)), ?_, rfl⟩
    simp only [get?, Table.get?_insert, if_true]
    rfl

/-- Calls that come one after another are answered as the round judges them, and its ballots are
those it has taken. -/
theorem run_calls (hp : d.get? id = some p) (status : p.status = stage.votingStatus)
    (running : p.round? stage = some r) (calls : List Call) :
    d.answers (calls.map (Call.request id stage)) = (r.verdicts p.id stage calls).map Call.answer ∧
      (d.run (calls.map (Call.request id stage))).get? id =
        some (p.putRound stage (r.withBallots (Round.taken (r.verdicts p.id stage calls)))) ∧
      (d.run (calls.map (Call.request id stage))).constitution = d.constitution := by
  induction calls generalizing d p r with
  | nil =>
    refine ⟨rfl, hp.trans (congrArg some ?_), rfl⟩
    rw [Round.verdicts, Round.taken, List.filterMap_nil, Round.withBallots_nil,
      Proposal.putRound_of_round running]
  | cons x calls ih =>
    obtain ⟨e, hstep, hfound, hconstitution⟩ := step_call hp status running x
    have hround : ∀ s, (p.putRound stage s).round? stage = some s := by
      intro s
      rw [Proposal.round?_putRound_of_round running, if_pos rfl]
    obtain ⟨hanswers, hrest, hsame⟩ :=
      ih hfound ((Proposal.status_putRound ..).trans status) (hround _)
    rw [Proposal.id_putRound] at hanswers hrest
    rw [List.map_cons, Call.request, answers, run, hstep]
    refine ⟨?_, ?_, hsame.trans hconstitution⟩
    · rw [hanswers, Round.verdicts, List.map_cons]
    · rw [hrest, Round.taken_verdicts_cons, Proposal.putRound_putRound,
        Round.withBallots_withBallots]

theorem step_close_congr (hp : d.get? id = some p) (hq : e.get? id = some q)
    (hc : e.constitution = d.constitution) (hstatus : q.status = p.status)
    (h : Proposal.Agree (q.close d.constitution stage now) (p.close d.constitution stage now)) :
    (e.step (.operate id (.close stage)) now).2 = (d.step (.operate id (.close stage)) now).2 ∧
      (e.step (.operate id (.close stage)) now).1.status? id =
        (d.step (.operate id (.close stage)) now).1.status? id := by
  have hresult := h.result
  cases hr : (p.close d.constitution stage now).result with
  | error f =>
    rw [hr, ← hc] at hresult
    rw [step_close_of_error hp hr, step_close_of_error hq hresult, status?_eq hp,
      status?_eq hq, hstatus]
    exact ⟨rfl, rfl⟩
  | ok outcome =>
    rw [hr, ← hc] at hresult
    have hstep : p.Step d.constitution now (.close stage)
        (p.close d.constitution stage now).proposal (.outcome outcome) :=
      Proposal.close_eq_ok_iff.mp (by rw [← hr])
    have hstep' : q.Step e.constitution now (.close stage)
        (q.close e.constitution stage now).proposal (.outcome outcome) :=
      Proposal.close_eq_ok_iff.mp (by rw [← hresult])
    have hafter : ∀ (t : Table UInt64 Proposal) (p : Proposal),
        ((t.insert id p).get? id).map Proposal.status = some p.status := by
      intro t p
      rw [Table.get?_insert, if_pos rfl, Option.map_some]
    rw [step_of_step (.operate hp hstep), step_of_step (.operate hq hstep')]
    refine ⟨rfl, ?_⟩
    simp only [status?, get?, hafter, hc, h.status]

/-- The order of ballots does not matter. Calls of different voters to a vote that runs are answered
in any order as if each were the only one, and two orders leave proposals that differ in the order
of the new ballots alone and are closed at any time with the same answer and the same status. If
voters call more than once, the first of the calls of each voter that the round would take is
recorded, and no other. -/
theorem ballot_order_does_not_matter (d : Docket) {id : UInt64} {p : Proposal} {stage : Stage}
    {r : Round} (hp : d.get? id = some p) (status : p.status = stage.votingStatus)
    (running : p.round? stage = some r) (calls : List Call) :
    let after := fun order : List Call => d.run (order.map (Call.request id stage))
    let close := Action.operate id (.close stage)
    ((calls.map (fun x => x.voter.id)).Nodup → ∀ order : List Call, order.Perm calls →
      d.answers (order.map (Call.request id stage)) =
          order.map (fun x =>
            (d.step (.operate id (.cast stage x.voter x.approve x.attestation)) x.time).2) ∧
        (∃ news ordered, ordered.Perm news ∧
          (after calls).get? id = some (p.putRound stage { r with ballots := r.ballots ++ news }) ∧
          (after order).get? id =
            some (p.putRound stage { r with ballots := r.ballots ++ ordered })) ∧
        ∀ now, ((after order).step close now).2 = ((after calls).step close now).2 ∧
          ((after order).step close now).1.status? id =
            ((after calls).step close now).1.status? id) ∧
    ∃ news, (after calls).get? id =
      some (p.putRound stage { r with ballots := r.ballots ++ news }) ∧
      ∀ voter, news.filter (fun b => b.voter = voter) =
        (r.firstFor p.id stage voter calls).toList := by
  intro after close
  obtain ⟨-, hfound, hconstitution⟩ := run_calls hp status running calls
  refine ⟨?_, _, hfound, fun voter => r.filter_taken_verdicts p.id stage voter calls⟩
  intro distinct order hperm
  obtain ⟨hanswers, hfound', hconstitution'⟩ := run_calls hp status running order
  have hdistinct : (order.map (fun x => x.voter.id)).Nodup := (hperm.map _).nodup_iff.mpr distinct
  have hnews : (Round.taken (r.verdicts p.id stage order)).Perm
      (Round.taken (r.verdicts p.id stage calls)) := by
    rw [Round.verdicts_of_nodup distinct, Round.verdicts_of_nodup hdistinct]
    exact (hperm.map _).filterMap _
  refine ⟨?_, ⟨_, _, hnews, hfound, hfound'⟩, ?_⟩
  · rw [hanswers, Round.verdicts_of_nodup hdistinct, List.map_map]
    refine List.map_congr_left ?_
    intro x _
    obtain ⟨e, hstep, -, -⟩ := step_call hp status running x
    rw [hstep]
    rfl
  · intro now
    refine step_close_congr hfound hfound' (hconstitution'.trans hconstitution.symm) ?_ ?_
    · rw [Proposal.status_putRound, Proposal.status_putRound]
    · exact Proposal.agree_close status running hnews

/-- Two members of the council vote in time, one votes too late, one without a statement, and a
stranger calls too. -/
def councilCalls : List Call :=
  let call := fun voter approve attestation time =>
    Call.mk ⟨voter, ⟨"east", "lodge"⟩⟩ approve attestation time
  [call "dan" false "read" firstDay, call "amy" true " " firstDay, call "ben" true "read" secondDay,
    call "zoe" true "read" firstDay, call "cleo" true "read" firstDay]

/-- The council hears the calls from the last to the first: each is answered as before, and the vote
is rejected as before. If Dan calls once more to change his vote, his first ballot stands. -/
theorem ballot_order_does_not_matter_council :
    let d := (empty councilConstitution).run (councilRequests.take 2)
    let after := fun calls : List Call => d.run (calls.map (Call.request 1 .proposal))
    let again : Call := ⟨⟨"dan", ⟨"south", "union"⟩⟩, true, "read", firstDay⟩
    d.answers (councilCalls.reverse.map (Call.request 1 .proposal)) =
        (d.answers (councilCalls.map (Call.request 1 .proposal))).reverse ∧
      ((after councilCalls).get? 1).map (fun p => (p.ballots .proposal).map Ballot.voter) =
        some ["dan", "cleo"] ∧
      ((after councilCalls.reverse).get? 1).map (fun p => (p.ballots .proposal).map Ballot.voter) =
        some ["cleo", "dan"] ∧
      ((after councilCalls.reverse).step (.operate 1 (.close .proposal)) secondDay).2 =
        ((after councilCalls).step (.operate 1 (.close .proposal)) secondDay).2 ∧
      ∃ p news, (after (councilCalls ++ [again])).get? 1 = some p ∧ p.ballots .proposal = news ∧
        (news.filter (fun b => b.voter = "dan")).map Ballot.approve = [false] := by
  intro d after again
  have hrun : (d.get? 1).any (fun p =>
      (p.round? .proposal).any (fun r => decide (p.status = Stage.proposal.votingStatus ∧
      r.ballots = [] ∧
      (r.firstFor p.id .proposal "dan" (councilCalls ++ [again])).map Ballot.approve =
        some false))) = true := by
    decide +kernel
  obtain ⟨p, hp, hround⟩ := (Option.any_eq_true _ _).mp hrun
  obtain ⟨r, hr, hdecided⟩ := (Option.any_eq_true _ _).mp hround
  obtain ⟨hstatus, hballots, hfirst⟩ := of_decide_eq_true hdecided
  have hdistinct : (councilCalls.map (fun x => x.voter.id)).Nodup := by decide
  obtain ⟨halike, -⟩ := ballot_order_does_not_matter d hp hstatus hr councilCalls
  obtain ⟨-, news, hnews, hrecorded⟩ :=
    ballot_order_does_not_matter d hp hstatus hr (councilCalls ++ [again])
  obtain ⟨hanswers, -, -⟩ := halike hdistinct councilCalls (List.Perm.refl _)
  obtain ⟨hreversed, -, hclosed⟩ := halike hdistinct councilCalls.reverse (List.reverse_perm _)
  refine ⟨?_, by decide +kernel, by decide +kernel, (hclosed secondDay).1, _, news, hnews, ?_, ?_⟩
  · rw [hreversed, hanswers, List.map_reverse]
  · rw [Proposal.ballots, Proposal.round?_putRound_of_round hr, if_pos rfl, hballots]
    rfl
  · rw [hrecorded, ← Option.toList_map, hfirst]
    rfl

end Docket

end Charter
