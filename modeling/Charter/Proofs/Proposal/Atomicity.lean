import Charter.Proofs.Docket.Opened
import Charter.Proofs.Proposal.Delays
import Charter.Proofs.Proposal.InPlace

/-! # Refused operations

An operation that is refused leaves the proposal and the live configuration as they were, with one
exception. Ending the challenge stage of an entrenched change first moves it into its cooling-off
and then starts the window; where the window cannot start, the proposal stays moved. -/

namespace Charter

namespace Proposal

variable {c : Constitution} {p : Proposal} {now : Instant} {op : Operation}

inductive EndsChallenge (c : Constitution) (now : Instant) (p : Proposal) : Operation → Prop
  | advance (unchallenged : p.checkUnchallenged now = .ok ()) : EndsChallenge c now p .advance
  | close {r : Round} (running : p.checkClosing .challenge = .ok r)
      (passed : r.decide c.thresholds (p.hasEntrenchedRules .challenge) now = .passed) :
      EndsChallenge c now p (.close .challenge)

/-- No cooling-off can start: the window is recorded already, or would end past the calendar. -/
def CannotCoolOff (c : Constitution) (now : Instant) (p : Proposal) : Prop :=
  p.coolingOff?.isSome = true ∨ now.addDays? c.timing.coolingOff.toNat = none

/-- The operation is refused between the move into the cooling-off and the start of its window. -/
structure Strands (c : Constitution) (now : Instant) (p : Proposal) (op : Operation) : Prop where
  entrenched : p.isEntrenched = true
  ends : p.EndsChallenge c now op
  stuck : p.CannotCoolOff c now

theorem EndsChallenge.status (h : p.EndsChallenge c now op) :
    p.status = .challengeWindow ∨ p.status = .challengeVoting := by
  cases h with
  | advance unchallenged => exact .inl (checkUnchallenged_eq_ok_iff.mp unchallenged).1
  | close running => exact .inr (checkClosing_eq_ok_iff.mp running).1

theorem EndsChallenge.perform (h : p.EndsChallenge c now op) :
    ∃ reply, p.perform c op now = (p.leaveChallenge c now).map (fun _ => reply) := by
  cases h with
  | advance unchallenged =>
    have hadvance : p.advance c now = p.leaveChallenge c now := by
      rw [Proposal.advance, unchallenged]
    rw [Proposal.perform, hadvance]
    exact ⟨_, rfl⟩
  | @close r running passed =>
    have hclose : p.close c .challenge now = (p.leaveChallenge c now).map (fun _ => .passed) := by
      rw [Proposal.close, running]
      simp only [passed, conclude, pass]
    rw [Proposal.perform, hclose]
    refine ⟨.outcome .passed, ?_⟩
    simp only [Attempt.map]
    cases (p.leaveChallenge c now).result <;> rfl

theorem leaveChallenge_of_entrenched
    (hs : p.status = .challengeWindow ∨ p.status = .challengeVoting) (he : p.isEntrenched = true) :
    p.leaveChallenge c now = (Attempt.ofExcept { p with status := .coolingOff }
      (startCoolingOff c { p with status := .coolingOff } now)).map (fun _ => ()) := by
  have hmove : p.moveTo .coolingOff now = .ok { p with status := .coolingOff } := by
    refine (moveTo_eq_ok_iff_of_leadsTo ?_).mpr rfl
    rcases hs with hs | hs <;> simp [hs, he, Status.leadsTo]
  rw [leaveChallenge, if_pos he, hmove]
  rfl

/-- Where no cooling-off can start, leaving the challenge stage is refused, after the status has
changed. -/
theorem leaveChallenge_of_cannotCoolOff
    (hs : p.status = .challengeWindow ∨ p.status = .challengeVoting) (he : p.isEntrenched = true)
    (h : p.CannotCoolOff c now) :
    ∃ f, p.leaveChallenge c now = ⟨.error f, { p with status := .coolingOff }⟩ := by
  rw [leaveChallenge_of_entrenched hs he]
  cases hstart : startCoolingOff c { p with status := .coolingOff } now with
  | error f => exact ⟨f, rfl⟩
  | ok r =>
    obtain ⟨q, w⟩ := r
    obtain ⟨-, hidle, hwindow, -, -⟩ := startCoolingOff_eq_ok_iff.mp hstart
    change p.track = some .awaiting at hidle
    rcases h with h | h
    · simp [coolingOff?, hidle, Track.window?] at h
    · rw [windowEnd_eq_ok_iff.mp hwindow] at h
      cases h

theorem isAtomic_leaveChallenge (hs : p.status = .challengeWindow ∨ p.status = .challengeVoting)
    (h : p.isEntrenched = true → ¬p.CannotCoolOff c now) :
    Attempt.IsAtomic p (p.leaveChallenge c now) := by
  cases he : p.isEntrenched with
  | false =>
    rw [leaveChallenge, if_neg (by simp [he])]
    exact Attempt.isAtomic_ofStep p _
  | true =>
    obtain ⟨hnone, hsome⟩ := not_or.mp (h he)
    have hidle : p.track = some .awaiting := by
      obtain ⟨t, ht⟩ := Option.isSome_iff_exists.mp he
      cases t <;> simp [coolingOff?, ht, Track.window?] at hnone ⊢
    obtain ⟨endsAt, hends⟩ := Option.ne_none_iff_exists'.mp hsome
    have hstart : startCoolingOff c { p with status := .coolingOff } now =
        .ok ({ p with status := .coolingOff, track := some (.coolingOff ⟨now, endsAt⟩) },
          ⟨now, endsAt⟩) :=
      startCoolingOff_eq_ok_iff.mpr ⟨rfl, hidle, windowEnd_eq_ok_iff.mpr hends, rfl, rfl⟩
    rw [leaveChallenge_of_entrenched hs he, hstart]
    intro f hf
    cases hf

theorem isAtomic_close {stage : Stage} (h : ¬p.Strands c now (.close stage)) :
    Attempt.IsAtomic p (p.close c stage now) := by
  unfold close
  cases hr : p.checkClosing stage with
  | error f => exact Attempt.isAtomic_refused p f
  | ok r =>
    refine Attempt.isAtomic_map _ ?_
    cases hd : r.decide c.thresholds (p.hasEntrenchedRules stage) now with
    | lapsed | rejected => exact Attempt.isAtomic_ofStep p _
    | passed =>
      cases stage with
      | proposal | ratification | confirmation => exact Attempt.isAtomic_ofStep p _
      | challenge =>
        have hends : p.EndsChallenge c now (.close .challenge) := .close hr hd
        exact isAtomic_leaveChallenge hends.status (fun he hstuck => h ⟨he, hends, hstuck⟩)

theorem isAtomic_advance (h : ¬p.Strands c now .advance) :
    Attempt.IsAtomic p (p.advance c now) := by
  unfold advance
  cases hcheck : p.checkUnchallenged now with
  | error f => exact Attempt.isAtomic_refused p f
  | ok u =>
    have hends : p.EndsChallenge c now .advance := .advance hcheck
    exact isAtomic_leaveChallenge hends.status (fun he hstuck => h ⟨he, hends, hstuck⟩)

theorem isAtomic_perform (h : ¬p.Strands c now op) : Attempt.IsAtomic p (p.perform c op now) := by
  cases op with
  | selectPanel | cast | startCoolingOff | apply =>
    exact Attempt.isAtomic_map _ (Attempt.isAtomic_ofExcept p _)
  | challenge | withdraw => exact Attempt.isAtomic_map _ (Attempt.isAtomic_ofStep p _)
  | close stage => exact Attempt.isAtomic_map _ (isAtomic_close h)
  | advance => exact Attempt.isAtomic_map _ (isAtomic_advance h)

theorem Strands.perform (h : p.Strands c now op) :
    ∃ f, p.perform c op now = ⟨.error f, { p with status := .coolingOff }⟩ := by
  obtain ⟨reply, hperform⟩ := h.ends.perform
  obtain ⟨f, hleave⟩ := leaveChallenge_of_cannotCoolOff h.ends.status h.entrenched h.stuck
  rw [hperform, hleave]
  exact ⟨f, rfl⟩

end Proposal

namespace Operation

variable {c : Constitution} {p : Proposal} {now : Instant} {op : Operation}

def LeavesUntouched (c : Constitution) (now : Instant) (p : Proposal) (op : Operation) : Prop :=
  ∀ f q live, (op.inPlace c now).run (p, op.live?) = .error f (q, live) → q = p ∧ live = op.live?

theorem run_inPlace_of_strands (h : p.Strands c now op) :
    ∃ f, (op.inPlace c now).run (p, op.live?) =
      .error f ({ p with status := .coolingOff }, op.live?) := by
  obtain ⟨f, hperform⟩ := h.perform
  rw [run_inPlace, hperform]
  exact ⟨f, rfl⟩

theorem leavesUntouched_of_not_strands (h : ¬p.Strands c now op) : op.LeavesUntouched c now p := by
  intro f q live hrun
  have hatomic := Proposal.isAtomic_perform h
  rw [run_inPlace, Attempt.leaving] at hrun
  cases hresult : (p.perform c op now).result with
  | ok reply =>
    rw [hresult] at hrun
    cases hrun
  | error g =>
    rw [hresult] at hrun
    cases hrun
    exact ⟨hatomic f hresult, rfl⟩

/-- Exactly the operations that strand a proposal change what they were handed and are refused all
the same. They leave the proposal in its cooling-off. -/
theorem leavesUntouched_iff (c : Constitution) (now : Instant) (p : Proposal) (op : Operation) :
    (op.LeavesUntouched c now p ↔ ¬p.Strands c now op) ∧
      (p.Strands c now op →
        ∃ f, (op.inPlace c now).run (p, op.live?) =
          .error f ({ p with status := .coolingOff }, op.live?)) := by
  refine ⟨⟨?_, leavesUntouched_of_not_strands⟩, run_inPlace_of_strands⟩
  intro h hstrands
  obtain ⟨f, hrun⟩ := run_inPlace_of_strands hstrands
  have hsame : { p with status := .coolingOff } = p := (h f _ _ hrun).1
  have hstatus : Status.coolingOff = p.status := congrArg Proposal.status hsame
  rcases hstrands.ends.status with hs | hs <;> rw [hs] at hstatus <;> cases hstatus

open Docket in
/-- On the last day of the calendar a ratified change to an entrenched provision is moved into a
cooling-off that has no window, and the operation says that it was refused. -/
theorem leavesUntouched_fails_on_the_last_day :
    soloConstitution.check = none ∧
    ∃ p, ((empty soloConstitution).run (challengedRequests.take 7)).get? 1 = some p ∧
      p.status = .challengeWindow ∧
      ∃ f, (Operation.advance.inPlace soloConstitution .last).run (p, none) =
        .error f ({ p with status := .coolingOff }, none) := by
  refine ⟨rfl, ?_⟩
  have hrun : (((empty soloConstitution).run (challengedRequests.take 7)).get? 1).map
      (fun p => (p.status, p.isEntrenched, p.checkUnchallenged .last)) =
        some (.challengeWindow, true, .ok ()) := by
    decide +kernel
  obtain ⟨p, hp, heq⟩ := Option.map_eq_some_iff.mp hrun
  simp only [Prod.mk.injEq] at heq
  obtain ⟨hstatus, hentrenched, hcheck⟩ := heq
  have hstuck : p.CannotCoolOff soloConstitution .last := .inr (by decide)
  have hstrands : p.Strands soloConstitution .last .advance :=
    ⟨hentrenched, .advance hcheck, hstuck⟩
  exact ⟨p, hp, hstatus, run_inPlace_of_strands hstrands⟩

end Operation

end Charter
