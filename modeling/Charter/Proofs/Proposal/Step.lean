import Charter.Proposal.Operation

/-! # What an operation does

`Step` lists everything that a successful operation on a proposal can have done, guards included,
and `perform_eq_ok_iff` says that the operations do this and nothing else. Invariants of proposals
are proved over `Step`. -/

namespace Charter

theorem windowEnd_eq_ok_iff {now t : Instant} {days : UInt32} :
    windowEnd now days = .ok t ↔ now.addDays? days.toNat = some t := by
  simp only [windowEnd, demand_eq_ok_iff]

namespace Attempt

variable {α β : Type} {p q : Proposal}

theorem ofExcept_eq_ok_iff {x : Except Fault (Proposal × α)} {a : α} :
    ofExcept p x = ⟨.ok a, q⟩ ↔ x = .ok (q, a) := by
  cases x with
  | ok r => simp [ofExcept, Prod.ext_iff, and_comm]
  | error f => simp [ofExcept, refused]

theorem ofStep_eq_ok_iff {x : Except Fault Proposal} {u : Unit} :
    ofStep p x = ⟨.ok u, q⟩ ↔ x = .ok q := by
  cases x <;> simp [ofStep, refused]

theorem map_eq_ok_iff {g : α → β} {a : Attempt α} {b : β} :
    a.map g = ⟨.ok b, q⟩ ↔ ∃ r, a = ⟨.ok r, q⟩ ∧ g r = b := by
  obtain ⟨x, p'⟩ := a
  cases x with
  | error f => simp [map, Except.map]
  | ok r =>
    simp only [map, Except.map, mk.injEq, Except.ok.injEq]
    constructor
    · rintro ⟨rfl, rfl⟩
      exact ⟨r, ⟨rfl, rfl⟩, rfl⟩
    · rintro ⟨r', ⟨rfl, rfl⟩, rfl⟩
      exact ⟨rfl, rfl⟩

theorem andThen_eq_ok_iff {a : Attempt α} {next : Proposal → Attempt β} {b : β} :
    a.andThen next = ⟨.ok b, q⟩ ↔ ∃ r p', a = ⟨.ok r, p'⟩ ∧ next p' = ⟨.ok b, q⟩ := by
  obtain ⟨x, p'⟩ := a
  cases x with
  | error f => simp [andThen, refused]
  | ok r =>
    simp only [andThen, mk.injEq, Except.ok.injEq]
    constructor
    · intro h
      exact ⟨r, p', ⟨rfl, rfl⟩, h⟩
    · rintro ⟨r', p'', ⟨rfl, rfl⟩, h⟩
      exact h

end Attempt

namespace Proposal

variable {c : Constitution} {p q : Proposal} {now : Instant}

theorem expect_eq_ok_iff {s : Status} {u : Unit} : p.expect s = .ok u ↔ p.status = s :=
  require_eq_ok_iff

theorem running_eq_ok_iff {stage : Stage} {r : Round} :
    p.running stage = .ok r ↔ p.round? stage = some r :=
  demand_eq_ok_iff

theorem isEntrenched_eq_false_iff : p.isEntrenched = false ↔ p.track = none := by
  simp [isEntrenched]

/-- How a proposal leaves the challenge stage: confirmed on the standard pathway, waiting on the
entrenched one. -/
inductive Leaves (c : Constitution) (now : Instant) (p : Proposal) : Proposal → Prop
  | confirmed (standard : p.track = none) : Leaves c now p (p.stamp .confirmed now)
  | waits {endsAt : Instant} (entrenched : p.track = some .awaiting)
      (window : windowEnd now c.timing.coolingOff = .ok endsAt) :
      Leaves c now p { p with status := .coolingOff, track := some (.coolingOff ⟨now, endsAt⟩) }

theorem startCoolingOff_eq_ok_iff {w : Window} :
    p.startCoolingOff c now = .ok (q, w) ↔
      p.status = .coolingOff ∧ p.track = some .awaiting ∧
        windowEnd now c.timing.coolingOff = .ok w.endsAt ∧
        w.startedAt = now ∧ q = { p with track := some (.coolingOff w) } := by
  simp only [startCoolingOff, except_bind_eq_ok_iff, expect_eq_ok_iff, demand_eq_ok_iff]
  constructor
  · rintro ⟨-, hs, t, ht, h⟩
    cases t with
    | awaiting =>
      simp only [Track.window?, except_bind_eq_ok_iff, pure_eq_ok_iff, Prod.mk.injEq] at h
      obtain ⟨e, he, rfl, rfl⟩ := h
      exact ⟨hs, ht, he, rfl, rfl⟩
    | coolingOff w' => simp [Track.window?, except_bind_eq_ok_iff, throw_eq_ok_iff] at h
    | confirmation w' r => simp [Track.window?, except_bind_eq_ok_iff, throw_eq_ok_iff] at h
  · rintro ⟨hs, ht, he, rfl, rfl⟩
    refine ⟨(), hs, _, ht, ?_⟩
    simp only [Track.window?, except_bind_eq_ok_iff, pure_eq_ok_iff]
    exact ⟨_, he, rfl⟩

theorem leaveChallenge_eq_ok_iff (h : p.status = .challengeWindow ∨ p.status = .challengeVoting)
    {u : Unit} :
    p.leaveChallenge c now = ⟨.ok u, q⟩ ↔ Leaves c now p q := by
  have hmove : ∀ s q, p.status.leadsTo p.isEntrenched s = true →
      (p.moveTo s now = .ok q ↔ p.stamp s now = q) := by
    intro s q hs
    rw [moveTo_eq_ok_iff]
    exact ⟨And.right, fun hq => ⟨hs, hq⟩⟩
  cases he : p.isEntrenched with
  | false =>
    have ht := isEntrenched_eq_false_iff.mp he
    simp only [leaveChallenge, he, Attempt.ofStep_eq_ok_iff, Bool.false_eq_true, if_false]
    rw [hmove _ _ (by rcases h with h | h <;> simp [h, he, Status.leadsTo])]
    constructor
    · rintro rfl
      exact .confirmed ht
    · intro hl
      cases hl with
      | confirmed _ => rfl
      | waits hw _ => simp [ht] at hw
  | true =>
    simp only [leaveChallenge, he, if_true, Attempt.andThen_eq_ok_iff, Attempt.ofStep_eq_ok_iff,
      Attempt.map_eq_ok_iff, Attempt.ofExcept_eq_ok_iff]
    constructor
    · rintro ⟨-, p', hp, w, hw, -⟩
      rw [hmove _ _ (by rcases h with h | h <;> simp [h, he, Status.leadsTo])] at hp
      subst p'
      obtain ⟨-, ht, hend, rfl, rfl⟩ := startCoolingOff_eq_ok_iff.mp hw
      exact .waits ht hend
    · intro hl
      cases hl with
      | confirmed ht => simp [isEntrenched, ht] at he
      | @waits endsAt ht hend =>
        refine ⟨(), p.stamp .coolingOff now, ?_, ⟨now, endsAt⟩, ?_, trivial⟩
        · exact (hmove _ _ (by rcases h with h | h <;> simp [h, he, Status.leadsTo])).mpr rfl
        · exact startCoolingOff_eq_ok_iff.mpr ⟨rfl, ht, hend, rfl, rfl⟩

inductive Concludes (c : Constitution) (now : Instant) (p : Proposal) :
    Stage → Outcome → Proposal → Prop
  | lapsed {stage : Stage} : Concludes c now p stage .lapsed (p.stamp .lapsed now)
  | rejected {stage : Stage} : Concludes c now p stage .rejected (p.stamp .rejected now)
  | proposal : Concludes c now p .proposal .passed { p with status := .ratificationVoting }
  | ratification {closesAt : Instant}
      (window : windowEnd now c.timing.challengeWindow = .ok closesAt) :
      Concludes c now p .ratification .passed
        { p with status := .challengeWindow, challengeClosesAt := some closesAt }
  | challenge {q : Proposal} (leaves : Leaves c now p q) : Concludes c now p .challenge .passed q
  | confirmation : Concludes c now p .confirmation .passed (p.stamp .confirmed now)

/-- Everything that a successful operation can have done. -/
inductive Step (c : Constitution) (now : Instant) (p : Proposal) :
    Operation → Proposal → Reply → Prop
  | selectPanel {stage : Stage} {candidates members : List Voter} {deadline : Instant}
      (status : p.status = stage.selectionStatus) (vacant : p.round? stage = none)
      (ready : stage = .confirmation → ∃ w, p.track = some (.coolingOff w) ∧ w.endsAt ≤ now)
      (selected : Panel.select candidates (c.diversity.quota (c.composition stage))
        (p.recused stage) = .ok members)
      (window : windowEnd now c.timing.votingWindow = .ok deadline) :
      Step c now p (.selectPanel stage candidates)
        ({ p with status := stage.votingStatus }.putRound stage
          (Round.ofMembers (c.composition stage) members now deadline))
        (.panel (members.map Voter.id))
  | cast {stage : Stage} {voter : Voter} {approve : Bool} {attestation : String} {r r' : Round}
      {id : Digest}
      (status : p.status = stage.votingStatus) (attested : Text.isEmptyText attestation = false)
      (running : p.round? stage = some r)
      (recorded : r.record p.id stage voter.id approve attestation now = .ok (r', id)) :
      Step c now p (.cast stage voter approve attestation) (p.putRound stage r') (.ballot id)
  | close {stage : Stage} {r : Round} {outcome : Outcome} {q : Proposal}
      (status : p.status = stage.votingStatus)
      (running : p.round? stage = some r)
      (decided : r.decide c.thresholds (p.hasEntrenchedRules stage) now = outcome)
      (concludes : Concludes c now p stage outcome q) :
      Step c now p (.close stage) q (.outcome outcome)
  | challenge {challenger : VoterId} (status : p.status = .challengeWindow)
      (inTime : ∀ t, p.challengeClosesAt = some t → now < t) :
      Step c now p (.challenge challenger)
        { p with
          status := .challengeVoting, challengeFiled := true,
          rounds := p.rounds.set .challenge none } .done
  | advance {q : Proposal} (status : p.status = .challengeWindow)
      (past : ∀ t, p.challengeClosesAt = some t → t ≤ now) (leaves : Leaves c now p q) :
      Step c now p .advance q (.status q.status)
  | startCoolingOff {endsAt : Instant} (status : p.status = .coolingOff)
      (idle : p.track = some .awaiting)
      (window : windowEnd now c.timing.coolingOff = .ok endsAt) :
      Step c now p .startCoolingOff { p with track := some (.coolingOff ⟨now, endsAt⟩) }
      (.window ⟨now, endsAt⟩)
  | withdraw (unvoted : p.status = .proposed ∨ p.status = .proposalVoting ∧ p.votesCast = 0) :
      Step c now p (.withdraw p.proposer) (p.stamp .withdrawn now) .done
  | apply {live written : Json} (checked : p.checkApplication = .ok ())
      (clear : Provision.barred? live p.provision = none)
      (writes : Provision.write? live p.provision p.proposed = some written) :
      Step c now p (.apply live) (p.stamp .applied now) (.live written)

theorem moveTo_eq_ok_iff_of_leadsTo {s : Status} (h : p.status.leadsTo p.isEntrenched s = true) :
    p.moveTo s now = .ok q ↔ q = p.stamp s now := by
  rw [moveTo_eq_ok_iff]
  exact ⟨fun hq => hq.2.symm, fun hq => ⟨h, hq.symm⟩⟩

theorem checkSelection_eq_ok_iff {stage : Stage} {u : Unit} :
    p.checkSelection stage now = .ok u ↔ p.status = stage.selectionStatus ∧ p.round? stage = none ∧
      (stage = .confirmation → ∃ w, p.track = some (.coolingOff w) ∧ w.endsAt ≤ now) := by
  simp only [checkSelection, except_bind_eq_ok_iff, expect_eq_ok_iff]
  cases stage with
  | confirmation =>
    simp only [exists_const, forall_const]
    refine and_congr_right fun _ => ?_
    rcases ht : p.track with _ | t
    · simp [throw_eq_ok_iff]
    · cases t <;> simp [throw_eq_ok_iff, require_eq_ok_iff, round?, Track.round?, ht]
  | proposal | ratification | challenge => simp [require_eq_ok_iff]

theorem selectMembers_eq_ok_iff {stage : Stage} {candidates members : List Voter} :
    p.selectMembers c stage candidates = .ok members ↔
      Panel.select candidates (c.diversity.quota (c.composition stage)) (p.recused stage) =
        .ok members := by
  unfold selectMembers
  split <;> simp [*]

theorem beginVoting_eq_ok_iff {stage : Stage} (h : p.status = stage.selectionStatus)
    (ht : stage = .confirmation → p.isEntrenched = true) :
    p.beginVoting stage now = .ok q ↔ q = { p with status := stage.votingStatus } := by
  unfold beginVoting
  split
  · rename_i hs
    rw [← hs, Except.ok.injEq]
    exact eq_comm
  · rw [moveTo_eq_ok_iff_of_leadsTo]
    · cases stage <;> rfl
    · cases stage <;> simp_all [Stage.selectionStatus, Stage.votingStatus, Status.leadsTo]

theorem selectPanel_eq_ok_iff {stage : Stage} {candidates : List Voter} {reply : List VoterId} :
    p.selectPanel c stage candidates now = .ok (q, reply) ↔
      Step c now p (.selectPanel stage candidates) q (.panel reply) := by
  simp only [selectPanel, except_bind_eq_ok_iff, checkSelection_eq_ok_iff, selectMembers_eq_ok_iff,
    pure_eq_ok_iff]
  constructor
  · rintro ⟨-, ⟨hs, hv, hr⟩, members, hm, deadline, hd, p', hb, h⟩
    have ht : stage = .confirmation → p.isEntrenched = true := by
      intro hc
      obtain ⟨w, hw, -⟩ := hr hc
      simp [isEntrenched, hw]
    rw [beginVoting_eq_ok_iff hs ht] at hb
    subst p'
    obtain ⟨rfl, rfl⟩ := Prod.mk.inj h
    exact .selectPanel hs hv hr hm hd
  · intro h
    cases h with
    | @selectPanel _ _ members deadline hs hv hr hm hd =>
      refine ⟨(), ⟨hs, hv, hr⟩, members, hm, deadline, hd, _, ?_, rfl⟩
      refine (beginVoting_eq_ok_iff hs ?_).mpr rfl
      intro hc
      obtain ⟨w, hw, -⟩ := hr hc
      simp [isEntrenched, hw]

theorem cast_eq_ok_iff {stage : Stage} {voter : Voter} {approve : Bool} {attestation : String}
    {id : Digest} :
    p.cast stage voter approve attestation now = .ok (q, id) ↔
      Step c now p (.cast stage voter approve attestation) q (.ballot id) := by
  simp only [cast, except_bind_eq_ok_iff, expect_eq_ok_iff, require_eq_ok_iff, running_eq_ok_iff,
    pure_eq_ok_iff]
  constructor
  · rintro ⟨-, hs, -, ha, r, hr, ⟨r', id'⟩, hrec, h⟩
    obtain ⟨rfl, rfl⟩ := Prod.mk.inj h
    exact .cast hs (by simpa using ha) hr hrec
  · intro h
    cases h with
    | @cast _ _ _ _ r r' _ hs ha hr hrec =>
      exact ⟨(), hs, (), by simpa using ha, r, hr, (r', id), hrec, rfl⟩

theorem openChallenge_eq_ok_iff (h : p.status = .ratificationVoting) :
    p.openChallenge c now = .ok q ↔ ∃ t, windowEnd now c.timing.challengeWindow = .ok t ∧
      q = { p with status := .challengeWindow, challengeClosesAt := some t } := by
  simp only [openChallenge, except_bind_eq_ok_iff, pure_eq_ok_iff,
    moveTo_eq_ok_iff_of_leadsTo (p := p) (s := .challengeWindow) (by simp [h, Status.leadsTo]),
    exists_eq_left]
  simp only [stamp, eq_comm]

theorem checkClosing_eq_ok_iff {stage : Stage} {r : Round} :
    p.checkClosing stage = .ok r ↔ p.status = stage.votingStatus ∧ p.round? stage = some r := by
  simp only [checkClosing, except_bind_eq_ok_iff, expect_eq_ok_iff, running_eq_ok_iff, exists_const]

theorem leadsTo_failure {stage : Stage} {r : Round} (hs : p.status = stage.votingStatus)
    (hr : p.round? stage = some r) : p.status.leadsTo p.isEntrenched .lapsed = true ∧
      p.status.leadsTo p.isEntrenched .rejected = true := by
  cases stage with
  | confirmation =>
    have he : p.isEntrenched = true := by
      cases ht : p.track <;> simp [round?, isEntrenched, ht] at hr ⊢
    simp [hs, he, Stage.votingStatus, Status.leadsTo]
  | proposal | ratification | challenge => simp [hs, Stage.votingStatus, Status.leadsTo]

theorem track_of_confirmation_round {r : Round} (h : p.round? .confirmation = some r) :
    ∃ w, p.track = some (.confirmation w r) := by
  simp only [round?] at h
  obtain ⟨t, ht, hr⟩ := Option.bind_eq_some_iff.mp h
  cases t <;> simp [Track.round?] at hr
  exact ⟨_, hr ▸ ht⟩

theorem conclude_eq_ok_iff {stage : Stage} {r : Round} {outcome : Outcome} {u : Unit}
    (hs : p.status = stage.votingStatus) (hr : p.round? stage = some r) :
    p.conclude c stage outcome now = ⟨.ok u, q⟩ ↔ Concludes c now p stage outcome q := by
  have hf := leadsTo_failure hs hr
  cases outcome with
  | lapsed =>
    simp only [conclude, Attempt.ofStep_eq_ok_iff, moveTo_eq_ok_iff_of_leadsTo hf.1]
    constructor
    · rintro rfl
      exact .lapsed
    · intro h
      cases h
      rfl
  | rejected =>
    simp only [conclude, Attempt.ofStep_eq_ok_iff, moveTo_eq_ok_iff_of_leadsTo hf.2]
    constructor
    · rintro rfl
      exact .rejected
    · intro h
      cases h
      rfl
  | passed =>
    cases stage with
    | proposal =>
      simp only [conclude, pass, Attempt.ofStep_eq_ok_iff]
      rw [moveTo_eq_ok_iff_of_leadsTo (by simp [hs, Stage.votingStatus, Status.leadsTo])]
      constructor
      · rintro rfl
        exact .proposal
      · intro h
        cases h
        rfl
    | ratification =>
      simp only [conclude, pass, Attempt.ofStep_eq_ok_iff, openChallenge_eq_ok_iff hs]
      constructor
      · rintro ⟨t, ht, rfl⟩
        exact .ratification ht
      · intro h
        cases h with
        | ratification ht => exact ⟨_, ht, rfl⟩
    | challenge =>
      simp only [conclude, pass]
      rw [leaveChallenge_eq_ok_iff (.inr hs)]
      constructor
      · exact .challenge
      · intro h
        cases h with
        | challenge hl => exact hl
    | confirmation =>
      obtain ⟨w, hw⟩ := track_of_confirmation_round hr
      simp only [conclude, pass, Attempt.ofStep_eq_ok_iff]
      rw [moveTo_eq_ok_iff_of_leadsTo
        (by simp [hs, hw, isEntrenched, Stage.votingStatus, Status.leadsTo])]
      constructor
      · rintro rfl
        exact .confirmation
      · intro h
        cases h
        rfl

theorem close_eq_ok_iff {stage : Stage} {outcome : Outcome} :
    p.close c stage now = ⟨.ok outcome, q⟩ ↔ Step c now p (.close stage) q (.outcome outcome) := by
  unfold close
  cases hc : p.checkClosing stage with
  | error f =>
    simp only [Attempt.refused, Attempt.mk.injEq, reduceCtorEq, false_and, false_iff]
    intro h
    cases h with
    | close hs hr _ _ => simp [checkClosing_eq_ok_iff.mpr ⟨hs, hr⟩] at hc
  | ok r =>
    obtain ⟨hs, hr⟩ := checkClosing_eq_ok_iff.mp hc
    simp only [Attempt.map_eq_ok_iff]
    constructor
    · rintro ⟨u, hq, rfl⟩
      exact .close hs hr rfl ((conclude_eq_ok_iff hs hr).mp hq)
    · intro h
      cases h with
      | close _ hr' hd hq =>
        obtain rfl := Option.some.inj (hr.symm.trans hr')
        rw [hd]
        exact ⟨(), (conclude_eq_ok_iff hs hr).mpr hq, rfl⟩

theorem challenge_eq_ok_iff {challenger : VoterId} :
    p.challenge now = .ok q ↔ Step c now p (.challenge challenger) q .done := by
  simp only [challenge, except_bind_eq_ok_iff, expect_eq_ok_iff]
  have hmove (hs : p.status = .challengeWindow) :
      p.moveTo .challengeVoting now = .ok { p with status := .challengeVoting } :=
    (moveTo_eq_ok_iff_of_leadsTo (by simp [hs, Status.leadsTo])).mpr rfl
  constructor
  · rintro ⟨-, hs, h⟩
    rw [hmove hs] at h
    split at h
    · rename_i t ht
      simp only [except_bind_eq_ok_iff, require_eq_ok_iff, pure_eq_ok_iff, Except.ok.injEq,
        exists_eq_left'] at h
      obtain ⟨-, hlt, rfl⟩ := h
      exact .challenge hs (by simpa [ht] using hlt)
    · rename_i ht
      simp only [except_bind_eq_ok_iff, pure_eq_ok_iff, Except.ok.injEq, exists_eq_left'] at h
      subst h
      exact .challenge hs (by simp [ht])
  · intro h
    cases h with
    | challenge hs hlt =>
      refine ⟨(), hs, ?_⟩
      rw [hmove hs]
      split
      · rename_i t ht
        simp only [except_bind_eq_ok_iff, require_eq_ok_iff, pure_eq_ok_iff, Except.ok.injEq,
          exists_eq_left']
        exact ⟨(), hlt t ht, trivial⟩
      · simp only [except_bind_eq_ok_iff, pure_eq_ok_iff, Except.ok.injEq, exists_eq_left']

theorem checkUnchallenged_eq_ok_iff {u : Unit} : p.checkUnchallenged now = .ok u ↔
    p.status = .challengeWindow ∧ ∀ t, p.challengeClosesAt = some t → t ≤ now := by
  simp only [checkUnchallenged, except_bind_eq_ok_iff, expect_eq_ok_iff, exists_const]
  refine and_congr_right fun _ => ?_
  split
  · rename_i t ht
    simp [require_eq_ok_iff, ht]
  · rename_i ht
    simp [pure_eq_ok_iff, ht]

theorem advance_eq_ok_iff {u : Unit} :
    p.advance c now = ⟨.ok u, q⟩ ↔ Step c now p .advance q (.status q.status) := by
  unfold advance
  cases hc : p.checkUnchallenged now with
  | error f =>
    simp only [Attempt.refused, Attempt.mk.injEq, reduceCtorEq, false_and, false_iff]
    intro h
    cases h with
    | advance hs ht _ =>
      rw [checkUnchallenged_eq_ok_iff (u := ()) |>.mpr ⟨hs, ht⟩] at hc
      cases hc
  | ok v =>
    obtain ⟨hs, ht⟩ := checkUnchallenged_eq_ok_iff.mp hc
    refine (leaveChallenge_eq_ok_iff (.inl hs)).trans ?_
    constructor
    · exact .advance hs ht
    · intro h
      cases h with
      | advance _ _ hl => exact hl

theorem checkUnvoted_eq_ok_iff {u : Unit} : p.checkUnvoted = .ok u ↔
    p.status = .proposed ∨ p.status = .proposalVoting ∧ p.votesCast = 0 := by
  unfold checkUnvoted
  split
  · simp [*]
  · simp [*, require_eq_ok_iff]
  · simp only [reduceCtorEq, false_iff, not_or, not_and]
    refine ⟨by simp_all, fun h => by simp_all⟩

theorem withdraw_eq_ok_iff {caller : VoterId} :
    p.withdraw caller now = .ok q ↔ Step c now p (.withdraw caller) q .done := by
  simp only [withdraw, except_bind_eq_ok_iff, require_eq_ok_iff, checkUnvoted_eq_ok_iff]
  have hleads (h : p.status = .proposed ∨ p.status = .proposalVoting ∧ p.votesCast = 0) :
      p.status.leadsTo p.isEntrenched .withdrawn = true := by
    rcases h with h | ⟨h, -⟩ <;> simp [h, Status.leadsTo]
  constructor
  · rintro ⟨-, rfl, -, hu, h⟩
    rw [moveTo_eq_ok_iff_of_leadsTo (hleads hu)] at h
    subst h
    exact .withdraw hu
  · intro h
    cases h with
    | withdraw hu => exact ⟨(), rfl, (), hu, (moveTo_eq_ok_iff_of_leadsTo (hleads hu)).mpr rfl⟩

theorem checkApplication_eq_ok_iff {u : Unit} : p.checkApplication = .ok u ↔
    p.status = .confirmed ∧ p.ballots .proposal ≠ [] ∧ p.ballots .ratification ≠ [] ∧
      (p.isEntrenched = true → p.coolingOff?.isSome = true) ∧
      (p.isEntrenched = true → p.ballots .confirmation ≠ []) := by
  simp only [checkApplication, demandStage, except_bind_eq_ok_iff, require_eq_ok_iff, exists_const]

/-- The check has seen the status, so the move after the write is not refused. -/
theorem moveTo_applied_of_checked (h : p.checkApplication = .ok ()) :
    p.moveTo .applied now = .ok (p.stamp .applied now) := by
  have hs := (checkApplication_eq_ok_iff.mp h).1
  exact (moveTo_eq_ok_iff_of_leadsTo (by simp [hs, Status.leadsTo])).mpr rfl

theorem apply_eq_ok_iff {live written : Json} :
    p.apply live now = .ok (q, written) ↔ Step c now p (.apply live) q (.live written) := by
  simp only [apply, except_bind_eq_ok_iff]
  constructor
  · rintro ⟨_, hc, h⟩
    rw [moveTo_applied_of_checked hc] at h
    split at h
    · simp [except_bind_eq_ok_iff, throw_eq_ok_iff] at h
    · rename_i hb
      simp only [except_bind_eq_ok_iff, pure_eq_ok_iff, demand_eq_ok_iff, Except.ok.injEq,
        exists_eq_left'] at h
      obtain ⟨w, hw, h⟩ := h
      obtain ⟨rfl, rfl⟩ := Prod.mk.inj h
      exact .apply hc hb hw
  · intro h
    cases h with
    | apply hc hb hw =>
      refine ⟨(), hc, ?_⟩
      rw [moveTo_applied_of_checked hc, hb]
      simp only [except_bind_eq_ok_iff, pure_eq_ok_iff, demand_eq_ok_iff, Except.ok.injEq,
        exists_eq_left']
      exact ⟨written, hw, rfl⟩

theorem startCoolingOff_eq_ok_iff_step {w : Window} :
    p.startCoolingOff c now = .ok (q, w) ↔ Step c now p .startCoolingOff q (.window w) := by
  rw [startCoolingOff_eq_ok_iff]
  constructor
  · obtain ⟨start, stop⟩ := w
    rintro ⟨hs, ht, he, rfl, rfl⟩
    exact .startCoolingOff hs ht he
  · intro h
    cases h with
    | startCoolingOff hs ht he => exact ⟨hs, ht, he, rfl, rfl⟩

/-- The operations do what `Step` says and nothing else. -/
theorem perform_eq_ok_iff {op : Operation} {reply : Reply} :
    p.perform c op now = ⟨.ok reply, q⟩ ↔ Step c now p op q reply := by
  cases op with
  | selectPanel stage candidates =>
    simp only [perform, Attempt.map_eq_ok_iff, Attempt.ofExcept_eq_ok_iff]
    constructor
    · rintro ⟨members, h, rfl⟩
      exact selectPanel_eq_ok_iff.mp h
    · intro h
      obtain ⟨members, rfl⟩ : ∃ members, reply = .panel members := by cases h; exact ⟨_, rfl⟩
      exact ⟨members, selectPanel_eq_ok_iff.mpr h, rfl⟩
  | cast stage voter approve attestation =>
    simp only [perform, Attempt.map_eq_ok_iff, Attempt.ofExcept_eq_ok_iff]
    constructor
    · rintro ⟨id, h, rfl⟩
      exact cast_eq_ok_iff.mp h
    · intro h
      obtain ⟨id, rfl⟩ : ∃ id, reply = .ballot id := by cases h; exact ⟨_, rfl⟩
      exact ⟨id, cast_eq_ok_iff.mpr h, rfl⟩
  | close stage =>
    simp only [perform, Attempt.map_eq_ok_iff]
    constructor
    · rintro ⟨outcome, h, rfl⟩
      exact close_eq_ok_iff.mp h
    · intro h
      obtain ⟨outcome, rfl⟩ : ∃ outcome, reply = .outcome outcome := by cases h; exact ⟨_, rfl⟩
      exact ⟨outcome, close_eq_ok_iff.mpr h, rfl⟩
  | challenge challenger =>
    simp only [perform, Attempt.map_eq_ok_iff, Attempt.ofStep_eq_ok_iff]
    constructor
    · rintro ⟨-, h, rfl⟩
      exact challenge_eq_ok_iff.mp h
    · intro h
      obtain rfl : reply = .done := by cases h; rfl
      exact ⟨(), challenge_eq_ok_iff.mpr h, rfl⟩
  | advance =>
    simp only [perform, Attempt.map_eq_ok_iff]
    constructor
    · rintro ⟨u, h, rfl⟩
      rw [h]
      exact advance_eq_ok_iff.mp h
    · intro h
      obtain rfl : reply = .status q.status := by cases h; rfl
      have hq : p.advance c now = ⟨.ok (), q⟩ := advance_eq_ok_iff.mpr h
      exact ⟨(), hq, by rw [hq]⟩
  | startCoolingOff =>
    simp only [perform, Attempt.map_eq_ok_iff, Attempt.ofExcept_eq_ok_iff]
    constructor
    · rintro ⟨w, h, rfl⟩
      exact startCoolingOff_eq_ok_iff_step.mp h
    · intro h
      obtain ⟨w, rfl⟩ : ∃ w, reply = .window w := by cases h; exact ⟨_, rfl⟩
      exact ⟨w, startCoolingOff_eq_ok_iff_step.mpr h, rfl⟩
  | withdraw caller =>
    simp only [perform, Attempt.map_eq_ok_iff, Attempt.ofStep_eq_ok_iff]
    constructor
    · rintro ⟨-, h, rfl⟩
      exact withdraw_eq_ok_iff.mp h
    · intro h
      obtain rfl : reply = .done := by cases h; rfl
      exact ⟨(), withdraw_eq_ok_iff.mpr h, rfl⟩
  | apply live =>
    simp only [perform, Attempt.map_eq_ok_iff, Attempt.ofExcept_eq_ok_iff]
    constructor
    · rintro ⟨written, h, rfl⟩
      exact apply_eq_ok_iff.mp h
    · intro h
      obtain ⟨written, rfl⟩ : ∃ written, reply = .live written := by cases h; exact ⟨_, rfl⟩
      exact ⟨written, apply_eq_ok_iff.mpr h, rfl⟩

end Proposal

end Charter
