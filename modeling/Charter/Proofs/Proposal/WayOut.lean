import Charter.Proofs.Proposal.Delays
import Charter.Proofs.Proposal.Evidence
import Charter.Proofs.Provision
import Charter.Proofs.Roster

/-! # The way out

A proposal that has not come to its end can be brought there, if there is room in the calendar for
the windows that are still to come. Votes that have begun are closed; where a vote must be held
first, a panel of strangers is selected, and the vote fails because nobody takes part in it. -/

namespace Charter

namespace Instant

variable {s t : Instant} {n : Nat}

def HasRoom (days : Nat) (t : Instant) : Prop := t.nanos + days * nanosPerDay ≤ last.nanos

instance (days : Nat) (t : Instant) : Decidable (t.HasRoom days) :=
  inferInstanceAs (Decidable (_ ≤ _))

theorem HasRoom.mono {m : Nat} (h : t.HasRoom n) (hmn : m ≤ n) : t.HasRoom m := by
  simp only [HasRoom, nanosPerDay] at h ⊢
  omega

/-- There is room for so many of the longest windows, one after the other. -/
def HasRoomFor (windows : Nat) (t : Instant) : Prop := t.HasRoom (windows * Constitution.maxWindow)

theorem HasRoomFor.fewer {m : Nat} (h : t.HasRoomFor n) (hmn : m ≤ n) : t.HasRoomFor m :=
  h.mono (Nat.mul_le_mul_right _ hmn)

theorem exists_later (hs : s.HasRoomFor n) (ht : t.HasRoomFor n) :
    ∃ u, s ≤ u ∧ t ≤ u ∧ u.HasRoomFor n := by
  rcases Int.le_total s.nanos t.nanos with hle | hle
  · exact ⟨t, hle, Int.le_refl _, ht⟩
  · exact ⟨s, Int.le_refl _, hle, hs⟩

end Instant

theorem exists_windowEnd {t : Instant} {n : Nat} {days : UInt32} (h : t.HasRoomFor (n + 1))
    (hdays : days.toNat ≤ Constitution.maxWindow) :
    ∃ endsAt, windowEnd t days = .ok endsAt ∧ endsAt.HasRoomFor n := by
  have hlow := t.inCalendar.1
  simp only [Instant.HasRoomFor, Instant.HasRoom, Instant.nanosPerDay, Instant.last,
    Constitution.maxWindow] at h hdays ⊢
  have hin : -96465292 * 86400000000000 ≤ t.nanos + days.toNat * 86400000000000 ∧
      t.nanos + days.toNat * 86400000000000 < 95026237 * 86400000000000 := by omega
  refine ⟨⟨_, hin⟩, windowEnd_eq_ok_iff.mpr (dif_pos hin), ?_⟩
  simp only
  omega

theorem Constitution.windows_of_check {c : Constitution} (h : c.check = none) :
    c.timing.votingWindow.toNat ≤ maxWindow ∧
    c.timing.challengeWindow.toNat ≤ maxWindow ∧ c.timing.coolingOff.toNat ≤ maxWindow := by
  have hwindow : ∀ field days, checkWindow field days = none → days.toNat ≤ maxWindow := by
    intro field days hcheck
    unfold checkWindow at hcheck
    split at hcheck
    · cases hcheck
    · omega
  obtain ⟨-, ⟨hvoting, hchallenge, hcoolingOff⟩, -⟩ := check_eq_none_iff.mp h
  exact ⟨hwindow _ _ hvoting, hwindow _ _ hchallenge, hwindow _ _ hcoolingOff⟩

/-- The operation asks for nothing out of the ordinary: the roster is so short that its shares are
counted in words of 64 bits, and the change is written into an empty configuration. -/
def Operation.IsOrdinary : Operation → Prop
  | .selectPanel _ candidates => candidates.length * 100 < UInt64.size
  | .apply live => live = Provision.emptyObject
  | _ => True

structure Constitution.IsCountable (c : Constitution) : Prop where
  sound : c.check = none
  sizes : ∀ stage, (c.composition stage).panelSize.toNat ≤ (UInt64.size - 1) / 100

namespace Proposal

variable {c : Constitution} {p q : Proposal} {s t now : Instant} {stage : Stage} {r : Round}
  {op : Operation} {reply : Reply}

/-- From this time on there are operations on the proposal, each no earlier than the one before,
that are carried out one after the other and bring the proposal to its end. -/
inductive HasWayOut (c : Constitution) : Instant → Proposal → Prop
  | arrived {t : Instant} {p : Proposal} (terminal : p.status.isTerminal = true) : HasWayOut c t p
  | step {t now : Instant} {p q : Proposal} {op : Operation} {reply : Reply}
      (step : p.Step c now op q reply)
      (ordinary : op.IsOrdinary) (later : t ≤ now) (rest : HasWayOut c now q) : HasWayOut c t p

theorem HasWayOut.earlier (h : HasWayOut c t p) (hst : s ≤ t) : HasWayOut c s p := by
  cases h with
  | arrived terminal => exact .arrived terminal
  | step hs ordinary later rest => exact .step hs ordinary (Instant.le_trans hst later) rest

theorem HasWayOut.at_once (hs : p.Step c t op q reply) (ordinary : op.IsOrdinary)
    (rest : HasWayOut c t q) : HasWayOut c t p :=
  .step hs ordinary (Int.le_refl _) rest

theorem hasWayOut_stamp {s : Status} (h : s.isTerminal = true) : HasWayOut c t (p.stamp s now) := by
  refine .arrived ?_
  rw [status_stamp]
  exact h

structure IsInOrder (c : Constitution) (p : Proposal) : Prop where
  fits : p.Fits
  evident : p.Evident c.thresholds
  rounds : p.HasSoundRounds

theorem IsInOrder.of_step (hc : c.check = none) (h : p.IsInOrder c) (hs : p.Step c now op q reply) :
    q.IsInOrder c where
  fits := h.fits.of_step hs
  evident := h.evident.of_step h.fits hs
  rounds := (Docket.kept_hasSoundRounds c).step (.refl hc) hs h.rounds

/-- A vote that has begun can be closed; if it passes, the proposal must have a way to go on. -/
theorem IsInOrder.hasWayOut_of_round (hc : c.check = none) (h : p.IsInOrder c)
    (status : p.status = stage.votingStatus) (running : p.round? stage = some r)
    (passed : r.decide c.thresholds (p.hasEntrenchedRules stage) t = .passed →
      ∃ q, Concludes c t p stage .passed q ∧ (q.IsInOrder c → HasWayOut c t q)) :
    HasWayOut c t p := by
  cases decided : r.decide c.thresholds (p.hasEntrenchedRules stage) t with
  | lapsed => exact .at_once (.close status running decided .lapsed) trivial (hasWayOut_stamp rfl)
  | rejected =>
    exact .at_once (.close status running decided .rejected) trivial (hasWayOut_stamp rfl)
  | passed =>
    obtain ⟨q, hq, hway⟩ := passed decided
    have hs : p.Step c t (.close stage) q (.outcome .passed) := .close status running decided hq
    exact .at_once hs trivial (hway (h.of_step hc hs))

/-- A vote that is to be held can be held by strangers, and fails. -/
theorem IsInOrder.hasWayOut_of_vacant (hc : c.IsCountable) (h : p.IsInOrder c)
    (status : p.status = stage.selectionStatus) (vacant : p.round? stage = none)
    (ready : stage = .confirmation → ∃ w, p.track = some (.coolingOff w) ∧ w.endsAt ≤ t)
    (room : t.HasRoomFor 1) : HasWayOut c t p := by
  let roster := Panel.strangers (p.recused stage) (c.composition stage).panelSize.toNat
  have hselect : Panel.select roster (c.diversity.quota (c.composition stage)) (p.recused stage) =
      .ok roster :=
    Panel.select_strangers (Constitution.minimum_le_size_of_check hc.sound stage) _
  obtain ⟨deadline, hdeadline, -⟩ :=
    exists_windowEnd room (Constitution.windows_of_check hc.sound).1
  have hs := Step.selectPanel status vacant ready hselect hdeadline
  have hordinary : (Operation.selectPanel stage roster).IsOrdinary := by
    have hsize := hc.sizes stage
    simp only [Operation.IsOrdinary, roster, Panel.length_strangers, UInt64.size] at hsize ⊢
    omega
  have hq := h.of_step hc.sound hs
  refine .at_once hs hordinary ?_
  let opened := Round.ofMembers (c.composition stage) roster t deadline
  have hround : ({ p with status := stage.votingStatus }.putRound stage opened).round? stage =
      some opened := by
    rw [round?_putRound_of_selection ready, if_pos rfl]
  refine hq.hasWayOut_of_round hc.sound (status_putRound ..) hround ?_
  -- nobody has voted, and a sound round does not pass without ballots
  intro decided
  exact absurd rfl ((hq.rounds stage _ hround).ballots_ne_nil
    (Round.decide_eq_passed_iff.mp decided).2)

theorem IsInOrder.hasWayOut_of_confirmed (h : p.IsInOrder c) (status : p.status = .confirmed) :
    HasWayOut c t p := by
  have hchecked : p.checkApplication = .ok () :=
    (h.evident.isAttested h.fits (.inl status)).checkApplication h.rounds status
  obtain ⟨written, hwritten⟩ :=
    Provision.exists_writePath?_emptyObject (Text.segments p.provision) p.proposed
  have hs : p.Step c t (.apply Provision.emptyObject) (p.stamp .applied t) (.live written) :=
    .apply hchecked (Provision.barred?_emptyObject _) hwritten
  exact .at_once hs rfl (hasWayOut_stamp rfl)

theorem IsInOrder.hasWayOut_of_coolingOff (hc : c.IsCountable) (h : p.IsInOrder c)
    (status : p.status = .coolingOff) (endsAt : ∀ w, p.coolingOff? = some w → w.endsAt.HasRoomFor 1)
    (room : t.HasRoomFor 1) :
    HasWayOut c t p := by
  obtain ⟨-, w, hw⟩ := h.fits.of_status status
  obtain ⟨u, hend, htu, hu⟩ :=
    Instant.exists_later (endsAt w (by simp [coolingOff?, hw, Track.window?])) room
  have hselection : p.status = Stage.confirmation.selectionStatus := status
  have hvacant : p.round? .confirmation = none := by simp [round?, hw, Track.round?]
  exact (h.hasWayOut_of_vacant hc hselection hvacant (fun _ => ⟨w, hw, hend⟩) hu).earlier htu

theorem exists_leaves (hc : c.IsCountable) (idle : p.IsIdle) (room : t.HasRoomFor 2) :
    ∃ q, Leaves c t p q ∧ (q.IsInOrder c → HasWayOut c t q) := by
  rcases idle with hstandard | hawaiting
  · exact ⟨_, .confirmed hstandard, fun hq => hq.hasWayOut_of_confirmed (status_stamp ..)⟩
  · obtain ⟨endsAt, hwindow, hroom⟩ :=
      exists_windowEnd room (Constitution.windows_of_check hc.sound).2.2
    refine ⟨_, .waits hawaiting hwindow, ?_⟩
    intro hq
    refine hq.hasWayOut_of_coolingOff hc rfl ?_ (room.fewer (by decide))
    intro w hw
    cases hw
    exact hroom

theorem IsInOrder.hasWayOut_of_challengeWindow (hc : c.IsCountable) (h : p.IsInOrder c)
    (status : p.status = .challengeWindow)
    (closesAt : ∀ u, p.challengeClosesAt = some u → u.HasRoomFor 2) (room : t.HasRoomFor 2) :
    HasWayOut c t p := by
  obtain ⟨-, -, hcloses, hidle⟩ := h.fits.of_status status
  obtain ⟨limit, hlimit⟩ := Option.isSome_iff_exists.mp hcloses
  obtain ⟨u, hpast, htu, hu⟩ := Instant.exists_later (closesAt limit hlimit) room
  obtain ⟨q, hq, hway⟩ := exists_leaves hc hidle hu
  have hs : p.Step c u .advance q (.status q.status) := by
    refine .advance status ?_ hq
    rintro v hv
    obtain rfl := Option.some.inj (hlimit.symm.trans hv)
    exact hpast
  exact .step hs trivial htu (hway (h.of_step hc.sound hs))

theorem IsInOrder.hasWayOut_of_confirmationVote (hc : c.IsCountable) (h : p.IsInOrder c)
    (status : p.status = .confirmationVote) :
    HasWayOut c t p := by
  have hvoting : p.status = Stage.confirmation.votingStatus := status
  obtain ⟨-, w, r, hw⟩ := h.fits.of_status status
  have hr : p.round? .confirmation = some r := by simp [round?, hw, Track.round?]
  refine h.hasWayOut_of_round hc.sound hvoting hr ?_
  intro _
  exact ⟨_, .confirmation, fun hq => hq.hasWayOut_of_confirmed (status_stamp ..)⟩

theorem IsInOrder.hasWayOut_of_challengeVoting (hc : c.IsCountable) (h : p.IsInOrder c)
    (status : p.status = .challengeVoting) (room : t.HasRoomFor 2) : HasWayOut c t p := by
  have hselection : p.status = Stage.challenge.selectionStatus := status
  have hvoting : p.status = Stage.challenge.votingStatus := status
  obtain ⟨-, -, -, hidle⟩ := h.fits.of_status status
  cases hr : p.round? .challenge with
  | none => exact h.hasWayOut_of_vacant hc hselection hr (by simp) (room.fewer (by decide))
  | some r =>
    refine h.hasWayOut_of_round hc.sound hvoting hr ?_
    intro _
    obtain ⟨q, hq, hway⟩ := exists_leaves hc hidle room
    exact ⟨q, .challenge hq, hway⟩

theorem IsInOrder.hasWayOut_of_ratificationVoting (hc : c.IsCountable) (h : p.IsInOrder c)
    (status : p.status = .ratificationVoting) (room : t.HasRoomFor 3) : HasWayOut c t p := by
  have hselection : p.status = Stage.ratification.selectionStatus := status
  have hvoting : p.status = Stage.ratification.votingStatus := status
  cases hr : p.round? .ratification with
  | none => exact h.hasWayOut_of_vacant hc hselection hr (by simp) (room.fewer (by decide))
  | some r =>
    refine h.hasWayOut_of_round hc.sound hvoting hr ?_
    intro _
    obtain ⟨closesAt, hwindow, hroom⟩ :=
      exists_windowEnd room (Constitution.windows_of_check hc.sound).2.1
    refine ⟨_, .ratification hwindow, ?_⟩
    intro hq
    refine hq.hasWayOut_of_challengeWindow hc rfl ?_ (room.fewer (by decide))
    intro u hu
    cases hu
    exact hroom

theorem IsInOrder.hasWayOut_of_proposalVoting (hc : c.IsCountable) (h : p.IsInOrder c)
    (status : p.status = .proposalVoting) (room : t.HasRoomFor 3) : HasWayOut c t p := by
  have hvoting : p.status = Stage.proposal.votingStatus := status
  obtain ⟨⟨r, hrounds⟩, -⟩ := h.fits.of_status status
  have hr : p.round? .proposal = some r := by simp [round?, hrounds]
  refine h.hasWayOut_of_round hc.sound hvoting hr ?_
  intro _
  exact ⟨_, .proposal, fun hq => hq.hasWayOut_of_ratificationVoting hc rfl room⟩

theorem hasWayOut_of_proposed (status : p.status = .proposed) : HasWayOut c t p :=
  .at_once (.withdraw (.inl status)) trivial (hasWayOut_stamp rfl)

end Proposal

def Round.times (r : Round) : List Instant :=
  r.openedAt :: r.deadline :: r.ballots.map Ballot.castAt

namespace Proposal

variable {c : Constitution} {p : Proposal} {t : Instant}

def times (p : Proposal) : List Instant :=
  p.createdAt :: (p.decidedAt.toList ++ p.appliedAt.toList ++ p.challengeClosesAt.toList ++
    p.coolingOff?.toList.flatMap (fun w => [w.startedAt, w.endsAt]) ++
    Stage.all.flatMap (fun stage => (p.round? stage).toList.flatMap Round.times))

theorem mem_times_of_challengeClosesAt (h : p.challengeClosesAt = some t) : t ∈ p.times := by
  simp [times, h]

theorem mem_times_of_coolingOff {w : Window} (h : p.coolingOff? = some w) : w.endsAt ∈ p.times := by
  simp [times, h]

/-- The calendar has no more than three windows to come, and 200000 days are enough for them. -/
theorem IsInOrder.hasWayOut (hc : c.IsCountable) (h : p.IsInOrder c)
    (room : ∀ s ∈ p.times, s.HasRoom 200000) (ht : t ∈ p.times) : HasWayOut c t p := by
  have hroom : ∀ s ∈ p.times, s.HasRoomFor 3 := fun s hs => (room s hs).mono (by decide)
  cases status : p.status with
  | proposed => exact hasWayOut_of_proposed status
  | proposalVoting => exact h.hasWayOut_of_proposalVoting hc status (hroom t ht)
  | ratificationVoting => exact h.hasWayOut_of_ratificationVoting hc status (hroom t ht)
  | challengeWindow =>
    refine h.hasWayOut_of_challengeWindow hc status ?_ ((hroom t ht).fewer (by decide))
    intro u hu
    exact (hroom u (mem_times_of_challengeClosesAt hu)).fewer (by decide)
  | challengeVoting =>
    exact h.hasWayOut_of_challengeVoting hc status ((hroom t ht).fewer (by decide))
  | coolingOff =>
    refine h.hasWayOut_of_coolingOff hc status ?_ ((hroom t ht).fewer (by decide))
    intro w hw
    exact (hroom w.endsAt (mem_times_of_coolingOff hw)).fewer (by decide)
  | confirmationVote => exact h.hasWayOut_of_confirmationVote hc status
  | confirmed => exact h.hasWayOut_of_confirmed status
  | applied | rejected | lapsed | withdrawn => exact .arrived (by rw [status]; rfl)

end Proposal

end Charter
