import Charter.Proofs.Proposal.Step
import Charter.Proofs.Provision
import Charter.Proposal.InPlace

/-! # What operations in place come to

Change by change, an operation makes of a proposal what `Proposal.perform` says. -/

namespace Charter

namespace InPlace

variable {σ τ α β γ : Type} {c : Constitution} {p : Proposal} {now : Instant} {stage : Stage}

theorem run_ask (x : Except Fault α) (s : σ) : (ask x).run s = match x with
    | .ok a => .ok a s
    | .error f => .error f s := by
  cases x <;> rfl

theorem run_onFirst (x : InPlace σ α) (s : σ) (t : τ) : (onFirst x).run (s, t) = match x.run s with
    | .ok a s' => .ok a (s', t)
    | .error f s' => .error f (s', t) := rfl

theorem run_onSecond (x : InPlace τ α) (s : σ) (t : τ) :
    (onSecond x).run (s, t) = match x.run t with
      | .ok a t' => .ok a (s, t')
      | .error f t' => .error f (s, t') := rfl

theorem run_move (s : Status) : (move s now).run p = match p.moveTo s now with
    | .ok q => .ok () q
    | .error f => .error f p := by
  simp only [move, EStateM.run_bind, EStateM.run_get, run_ask]
  cases p.moveTo s now <;> rfl

/-- What an operation in place makes of a proposal. -/
def attempt (x : InPlace Proposal α) (p : Proposal) : Attempt α :=
  match x.run p with
  | .ok a q => ⟨.ok a, q⟩
  | .error f q => ⟨.error f, q⟩

theorem attempt_get_bind (f : Proposal → InPlace Proposal α) :
    attempt (get >>= f) p = attempt (f p) p := rfl

theorem attempt_ask_bind (x : Except Fault α) (f : α → InPlace Proposal β) :
    attempt (ask x >>= f) p = match x with
      | .ok a => attempt (f a) p
      | .error e => Attempt.refused p e := by
  cases x <;> rfl

theorem attempt_bind_pure (x : InPlace Proposal α) (g : α → β) :
    attempt (x >>= fun a => pure (g a)) p = (attempt x p).map g := by
  simp only [attempt, EStateM.run_bind]
  cases x.run p <;> rfl

theorem attempt_bind (x : InPlace Proposal α) (y : InPlace Proposal β) :
    attempt (x >>= fun _ => y) p = (attempt x p).andThen (attempt y) := by
  simp only [attempt, EStateM.run_bind]
  cases x.run p <;> rfl

theorem attempt_ask_bind_congr {view : Except Fault γ → Attempt β}
    (refuses : ∀ e, view (.error e) = Attempt.refused p e) {x : Except Fault α}
    {f : α → InPlace Proposal β} {g : α → Except Fault γ}
    (h : ∀ a, x = .ok a → attempt (f a) p = view (g a)) :
    attempt (ask x >>= f) p = view (x >>= g) := by
  cases x with
  | error e => exact (refuses e).symm
  | ok a => exact h a rfl

theorem attempt_move (s : Status) : attempt (move s now) p = Attempt.ofStep p (p.moveTo s now) := by
  rw [move, attempt_get_bind, attempt_ask_bind]
  cases p.moveTo s now <;> rfl

theorem attempt_step_bind_congr {view : Except Fault γ → Attempt β}
    (refuses : ∀ e, view (.error e) = Attempt.refused p e) {x : InPlace Proposal PUnit}
    {step : Except Fault Proposal} (hx : attempt x p = Attempt.ofStep p step)
    {f : PUnit → InPlace Proposal β} {g : Proposal → Except Fault γ}
    (h : ∀ q, step = .ok q → attempt (f ⟨⟩) q = view (g q)) :
    attempt (x >>= f) p = view (step >>= g) := by
  simp only [attempt, EStateM.run_bind] at hx ⊢
  generalize x.run p = r at hx ⊢
  cases step with
  | error e =>
    refine Eq.trans ?_ (refuses e).symm
    cases r with
    | ok _ q => cases hx
    | error f q =>
      obtain ⟨hf, rfl⟩ := Attempt.mk.inj hx
      cases hf
      rfl
  | ok q' =>
    refine Eq.trans ?_ (h q' rfl)
    cases r with
    | ok _ q =>
      obtain rfl : q = q' := congrArg Attempt.proposal hx
      rfl
    | error f q => cases hx

theorem attempt_startCoolingOff :
    attempt (startCoolingOff c now) p = Attempt.ofExcept p (p.startCoolingOff c now) := by
  rw [startCoolingOff, attempt_get_bind]
  refine attempt_ask_bind_congr (fun _ => rfl) fun _ _ =>
    attempt_ask_bind_congr (fun _ => rfl) fun track _ => ?_
  cases track.window? with
  | some w => rfl
  | none => exact attempt_ask_bind_congr (fun _ => rfl) fun _ _ => rfl

theorem attempt_leaveChallenge : attempt (leaveChallenge c now) p = p.leaveChallenge c now := by
  rw [leaveChallenge, attempt_get_bind, Proposal.leaveChallenge]
  split
  · rw [attempt_bind, attempt_move]
    congr
    funext q
    rw [attempt_bind_pure, attempt_startCoolingOff]
  · exact attempt_move _

theorem attempt_challenge : attempt (challenge now) p = Attempt.ofStep p (p.challenge now) := by
  rw [challenge, attempt_get_bind]
  refine attempt_ask_bind_congr (fun _ => rfl) fun _ _ => ?_
  cases p.challengeClosesAt with
  | none => exact attempt_step_bind_congr (fun _ => rfl) (attempt_move _) fun _ _ => rfl
  | some t =>
    refine attempt_ask_bind_congr (fun _ => rfl) fun _ _ => ?_
    exact attempt_step_bind_congr (fun _ => rfl) (attempt_move _) fun _ _ => rfl

theorem attempt_advance : attempt (advance c now) p = p.advance c now := by
  rw [advance, attempt_get_bind, attempt_ask_bind, Proposal.advance]
  cases p.checkUnchallenged now with
  | error f => rfl
  | ok _ => exact attempt_leaveChallenge

theorem attempt_beginVoting (h : p.status = stage.selectionStatus) :
    attempt (beginVoting stage now) p = Attempt.ofStep p (p.beginVoting stage now) := by
  unfold Proposal.beginVoting
  cases stage with
  | ratification | challenge =>
    split
    · rfl
    · rename_i hne
      exact absurd h hne
  | proposal | confirmation =>
    rw [if_neg (by rw [h]; decide)]
    exact attempt_move _

theorem attempt_selectPanel (candidates : List Voter) :
    attempt (selectPanel c stage candidates now) p =
      Attempt.ofExcept p (p.selectPanel c stage candidates now) := by
  rw [selectPanel, attempt_get_bind]
  refine attempt_ask_bind_congr (fun _ => rfl) fun _ hcheck => ?_
  refine attempt_ask_bind_congr (fun _ => rfl) fun members _ =>
    attempt_ask_bind_congr (fun _ => rfl) fun deadline _ => ?_
  obtain ⟨hstatus, -, -⟩ := Proposal.checkSelection_eq_ok_iff.mp hcheck
  exact attempt_step_bind_congr (fun _ => rfl) (attempt_beginVoting hstatus) fun _ _ => rfl

theorem attempt_cast (voter : Voter) (approve : Bool) (attestation : String) :
    attempt (cast stage voter approve attestation now) p =
      Attempt.ofExcept p (p.cast stage voter approve attestation now) := by
  rw [cast, attempt_get_bind]
  refine attempt_ask_bind_congr (fun _ => rfl) fun _ _ =>
    attempt_ask_bind_congr (fun _ => rfl) fun _ _ => ?_
  refine attempt_ask_bind_congr (fun _ => rfl) fun round _ => ?_
  rw [attempt_ask_bind]
  cases round.record p.id stage voter.id approve attestation now <;> rfl

theorem attempt_pass : attempt (pass c stage now) p = p.pass c stage now := by
  cases stage with
  | proposal | confirmation => exact attempt_move _
  | challenge => exact attempt_leaveChallenge
  | ratification =>
    rw [pass, Proposal.pass, Proposal.openChallenge]
    refine attempt_ask_bind_congr (fun _ => rfl) fun _ _ => ?_
    exact attempt_step_bind_congr (fun _ => rfl) (attempt_move _) fun _ _ => rfl

theorem attempt_conclude (outcome : Outcome) :
    attempt (conclude c stage outcome now) p = p.conclude c stage outcome now := by
  cases outcome with
  | lapsed | rejected => exact attempt_move _
  | passed => exact attempt_pass

theorem attempt_close : attempt (close c stage now) p = p.close c stage now := by
  rw [close, attempt_get_bind, attempt_ask_bind, Proposal.close]
  cases p.checkClosing stage with
  | error f => rfl
  | ok round =>
    refine (attempt_bind_pure (conclude c stage _ now) _).trans ?_
    rw [attempt_conclude]

theorem attempt_withdraw (caller : VoterId) :
    attempt (withdraw caller now) p = Attempt.ofStep p (p.withdraw caller now) := by
  rw [withdraw, attempt_get_bind]
  refine attempt_ask_bind_congr (fun _ => rfl) fun _ _ =>
    attempt_ask_bind_congr (fun _ => rfl) fun _ _ => ?_
  exact attempt_move _

theorem writePath_of_not_barred {key : String} {v j : Json} {path : List String} (hne : path ≠ [])
    (hj : j.isObject = true) (h : Provision.barrier? j path = none) :
    ∃ written, Provision.writePath? j path v = some written ∧
      writePath key v path j = .ok () written := by
  induction path generalizing j with
  | nil => exact absurd rfl hne
  | cons s path ih =>
    obtain ⟨members, rfl⟩ : ∃ members, j = .obj members := by
      cases j with
      | obj members => exact ⟨members, rfl⟩
      | null | bool | num | str | arr | unfit => cases hj
    cases path with
    | nil => exact ⟨.obj (Table.insert members s v), by simp [Provision.writePath?], rfl⟩
    | cons t rest =>
      have hchild : ((Table.get? members s).getD Provision.emptyObject).isObject = true ∧
          Provision.barrier? ((Table.get? members s).getD Provision.emptyObject) (t :: rest) =
            none := by
        cases hget : Table.get? members s with
        | none => cases rest <;> exact ⟨rfl, rfl⟩
        | some child =>
          simp only [Provision.barrier?, Json.get?, hget] at h
          split at h
          · exact ⟨‹_›, h⟩
          · cases h
      obtain ⟨child, hpure, hplace⟩ := ih (by simp) hchild.1 hchild.2
      refine ⟨.obj (Table.insert members s child), ?_, ?_⟩
      · exact Provision.writePath?_cons_eq_some_iff.mpr ⟨members, child, rfl, hpure, rfl⟩
      · simp only [writePath, hplace]

theorem write_of_not_barred {key : String} {v live : Json} (h : Provision.barred? live key = none) :
    ∃ written, Provision.write? live key v = some written ∧
      (write key v).run live = .ok () written := by
  unfold Provision.barred? at h
  split at h
  · exact writePath_of_not_barred (Text.segments_ne_nil key) ‹_› h
  · cases h

theorem not_barred_of_writePath {key : String} {v j written : Json} {path : List String}
    (h : writePath key v path j = .ok () written) :
    j.isObject = true ∧ Provision.barrier? j path = none := by
  induction path generalizing j written with
  | nil => cases h
  | cons s path ih =>
    cases j with
    | null | bool | num | str | arr | unfit => cases h
    | obj members =>
      refine ⟨rfl, ?_⟩
      cases path with
      | nil => rfl
      | cons t rest =>
        simp only [writePath] at h
        split at h
        · rename_i child hchild
          obtain ⟨hobject, hrest⟩ := ih hchild
          simp only [Provision.barrier?, Json.get?]
          cases hget : Table.get? members s with
          | none => rfl
          | some old =>
            rw [hget, Option.getD_some] at hobject hrest
            simp only [hobject, if_true, hrest]
        · cases h

/-- The check, which stops at the first segment that is missing, and the write, which goes on behind
it, agree on what is in the way. -/
theorem write_eq_ok_iff {key : String} {v live written : Json} :
    (write key v).run live = .ok () written ↔
      Provision.barred? live key = none ∧ Provision.write? live key v = some written := by
  constructor
  · intro h
    obtain ⟨hobject, hbarrier⟩ := not_barred_of_writePath h
    have hbarred : Provision.barred? live key = none := by
      rw [Provision.barred?, if_pos hobject, hbarrier]
    obtain ⟨written', hpure, hplace⟩ := write_of_not_barred (v := v) hbarred
    cases h.symm.trans hplace
    exact ⟨hbarred, hpure⟩
  · rintro ⟨hbarred, hpure⟩
    obtain ⟨written', hpure', hplace⟩ := write_of_not_barred (v := v) hbarred
    cases hpure.symm.trans hpure'
    exact hplace

/-- Once an application has begun to write, nothing refuses it. -/
theorem run_apply (live : Json) : (apply now).run (p, live) = match p.apply live now with
    | .ok (q, written) => .ok () (q, written)
    | .error f => .error f (p, live) := by
  simp only [apply, Proposal.apply, EStateM.run_bind, EStateM.run_get, run_ask]
  cases hcheck : p.checkApplication with
  | error f => rfl
  | ok u =>
    cases hbarred : Provision.barred? live p.provision with
    | some segment => rfl
    | none =>
      have hmove : p.moveTo .applied now = .ok (p.stamp .applied now) :=
        Proposal.moveTo_applied_of_checked hcheck
      obtain ⟨written, hpure, hplace⟩ := write_of_not_barred (v := p.proposed) hbarred
      have hrun : (do onSecond (write p.provision p.proposed); onFirst (move .applied now) : InPlace
          _ Unit).run (p, live) =
          .ok () (p.stamp .applied now, written) := by
        simp only [EStateM.run_bind, run_onSecond, hplace, run_onFirst, run_move, hmove]
      refine hrun.trans ?_
      rw [hpure, hmove]
      rfl

end InPlace

def Attempt.leaving (a : Attempt Reply) (live : Option Json) :
    EStateM.Result Fault (Proposal × Option Json) Reply :=
  match a.result with
  | .ok reply => .ok reply (a.proposal, reply.live?)
  | .error f => .error f (a.proposal, live)

namespace Operation

open InPlace (attempt)

variable {c : Constitution} {p : Proposal} {now : Instant}

theorem run_reply {α : Type} (x : InPlace Proposal α) (g : α → Reply)
    (hg : ∀ a, (g a).live? = none) :
    (do return g (← InPlace.onFirst x) : InPlace (Proposal × Option Json) Reply).run (p, none) =
      ((attempt x p).map g).leaving none := by
  rw [EStateM.run_bind, InPlace.run_onFirst, attempt]
  cases x.run p with
  | ok a q => simp [Attempt.leaving, Attempt.map, Except.map, hg]
  | error f q => rfl

/-- In place, an operation does what `Proposal.perform` says. -/
theorem run_inPlace (op : Operation) :
    (op.inPlace c now).run (p, op.live?) = (p.perform c op now).leaving op.live? := by
  cases op with
  | selectPanel stage candidates =>
    refine (run_reply _ _ (fun _ => rfl)).trans ?_
    rw [InPlace.attempt_selectPanel]
    rfl
  | cast stage voter approve attestation =>
    refine (run_reply _ _ (fun _ => rfl)).trans ?_
    rw [InPlace.attempt_cast]
    rfl
  | close stage =>
    refine (run_reply _ _ (fun _ => rfl)).trans ?_
    rw [InPlace.attempt_close]
    rfl
  | challenge challenger =>
    refine (run_reply _ (fun _ => .done) (fun _ => rfl)).trans ?_
    rw [InPlace.attempt_challenge]
    rfl
  | advance =>
    rw [Proposal.perform, ← InPlace.attempt_advance]
    simp only [inPlace, live?, EStateM.run_bind, InPlace.run_onFirst, attempt]
    cases (InPlace.advance c now).run p <;> rfl
  | startCoolingOff =>
    refine (run_reply _ _ (fun _ => rfl)).trans ?_
    rw [InPlace.attempt_startCoolingOff]
    rfl
  | withdraw caller =>
    refine (run_reply _ (fun _ => .done) (fun _ => rfl)).trans ?_
    rw [InPlace.attempt_withdraw]
    rfl
  | apply live =>
    have hrun : InPlace.apply now (p, live) = _ := InPlace.run_apply live
    simp only [inPlace, live?, EStateM.run, hrun, Proposal.perform]
    cases p.apply live now <;> rfl

end Operation

end Charter
