import Charter.Proofs.Proposal.Atomicity

/-! # Closing a vote

A vote that has begun can be closed at any time. A proposal that fails asks for nothing more; one
that passes may open a window, and it is only the end of this window that the calendar may not
have. -/

namespace Charter.Proposal

variable {c : Constitution} {p q : Proposal} {now : Instant} {stage : Stage} {r : Round}
  {days : UInt32}

def windowAfter? (c : Constitution) (p : Proposal) : Stage → Option UInt32
  | .ratification => some c.timing.challengeWindow
  | .challenge => if p.isEntrenched then some c.timing.coolingOff else none
  | .proposal | .confirmation => none

/-- If the vote passed now, it would open a window of these days that ends past the calendar. -/
def Overruns (c : Constitution) (p : Proposal) (stage : Stage) (now : Instant)
    (days : UInt32) : Prop :=
  p.windowAfter? c stage = some days ∧ now.addDays? days.toNat = none

instance (c : Constitution) (p : Proposal) (stage : Stage) (now : Instant) (days : UInt32) :
    Decidable (p.Overruns c stage now days) := inferInstanceAs (Decidable (_ ∧ _))

theorem exists_leaves_of_isIdle (idle : p.IsIdle)
    (fits : ∀ days, ¬p.Overruns c .challenge now days) :
    ∃ q, Leaves c now p q := by
  rcases idle with hstandard | hawaiting
  · exact ⟨_, .confirmed hstandard⟩
  · have hwindow : p.windowAfter? c .challenge = some c.timing.coolingOff := by
      simp [windowAfter?, isEntrenched, hawaiting]
    obtain ⟨endsAt, hends⟩ := Option.ne_none_iff_exists'.mp (fun hnone => fits _ ⟨hwindow, hnone⟩)
    exact ⟨_, .waits hawaiting (windowEnd_eq_ok_iff.mpr hends)⟩

/-- Every outcome leads somewhere, unless the window after a pass ends past the calendar. -/
theorem exists_concludes {outcome : Outcome} (idle : stage = .challenge → p.IsIdle)
    (fits : outcome = .passed → ∀ days, ¬p.Overruns c stage now days) :
    ∃ q, Concludes c now p stage outcome q := by
  cases outcome with
  | lapsed => exact ⟨_, .lapsed⟩
  | rejected => exact ⟨_, .rejected⟩
  | passed =>
    cases stage with
    | proposal => exact ⟨_, .proposal⟩
    | ratification =>
      obtain ⟨closesAt, hcloses⟩ :=
        Option.ne_none_iff_exists'.mp (fun hnone => fits rfl _ ⟨rfl, hnone⟩)
      exact ⟨_, .ratification (windowEnd_eq_ok_iff.mpr hcloses)⟩
    | challenge =>
      obtain ⟨q, hq⟩ := exists_leaves_of_isIdle (idle rfl) (fits rfl)
      exact ⟨q, .challenge hq⟩
    | confirmation => exact ⟨_, .confirmation⟩

theorem windowEnd_of_overruns (h : p.Overruns c stage now days) :
    windowEnd now days = .error (.invalid (.windowPastCalendar days.toNat now)) :=
  demand_eq_error_iff.mpr ⟨h.2, rfl⟩

theorem pass_of_overruns (status : p.status = stage.votingStatus)
    (idle : stage = .challenge → p.IsIdle) (h : p.Overruns c stage now days) :
    (p.pass c stage now).result = .error (.invalid (.windowPastCalendar days.toNat now)) := by
  have hend := windowEnd_of_overruns h
  obtain ⟨hwindow, -⟩ := h
  cases stage with
  | proposal | confirmation => cases hwindow
  | ratification =>
    cases hwindow
    simp only [pass, openChallenge, hend]
    rfl
  | challenge =>
    obtain ⟨hentrenched, hdays⟩ := (Option.ite_none_right_eq_some ..).mp hwindow
    obtain rfl := Option.some.inj hdays
    have hawaiting : p.track = some .awaiting := by
      refine (idle rfl).resolve_left ?_
      intro hstandard
      simp [isEntrenched, hstandard] at hentrenched
    have hstart : startCoolingOff c { p with status := .coolingOff } now =
        .error (.invalid (.windowPastCalendar c.timing.coolingOff.toNat now)) := by
      simp only [startCoolingOff, expect, require, demand, hawaiting, Track.window?, hend]
      rfl
    rw [pass, leaveChallenge_of_entrenched (.inr status) hentrenched, hstart]
    rfl

/-- Whatever is decided, the proposal leaves the status of the vote, if the window after a pass ends
within the calendar. -/
theorem exists_step_close (status : p.status = stage.votingStatus)
    (running : p.round? stage = some r) (idle : stage = .challenge → p.IsIdle)
    (fits : r.decide c.thresholds (p.hasEntrenchedRules stage) now = .passed →
      ∀ days, ¬p.Overruns c stage now days) :
    ∃ q, p.Step c now (.close stage) q
    (.outcome (r.decide c.thresholds (p.hasEntrenchedRules stage) now)) ∧
      q.status ≠ p.status := by
  obtain ⟨q, hq⟩ := exists_concludes idle fits
  refine ⟨q, .close status running rfl hq, ?_⟩
  rw [status]
  exact status_ne_of_concludes hq

theorem close_of_overruns (status : p.status = stage.votingStatus)
    (running : p.round? stage = some r) (idle : stage = .challenge → p.IsIdle)
    (passed : r.decide c.thresholds (p.hasEntrenchedRules stage) now = .passed)
    (h : p.Overruns c stage now days) :
    (p.close c stage now).result = .error (.invalid (.windowPastCalendar days.toNat now)) := by
  have hclose : p.close c stage now = (p.pass c stage now).map (fun _ => .passed) := by
    rw [close, checkClosing_eq_ok_iff.mpr ⟨status, running⟩]
    simp only [passed, conclude]
  rw [hclose, Attempt.map, pass_of_overruns status idle h]
  rfl

theorem close_of_status_ne (h : p.status ≠ stage.votingStatus) :
    (p.close c stage now).result = .error (.mismatch (.status stage.votingStatus p.status)) := by
  have hexpect : p.expect stage.votingStatus =
      .error (.mismatch (.status stage.votingStatus p.status)) :=
    require_eq_error_iff.mpr ⟨h, rfl⟩
  simp only [close, checkClosing, hexpect]
  rfl

end Charter.Proposal
