import Charter.Proofs.Docket.Run
import Charter.Proofs.Panel
import Charter.Proofs.Proposal.Frame

/-! # Sound rounds

A round is sound if its seats fit its composition and each of its ballots is the one ballot of a
member. Selection opens sound rounds, and recording a ballot keeps them sound. -/

namespace Charter

namespace Round

variable {r r' : Round} {id : UInt64} {stage : Stage} {now : Instant}

/-- The seats fit the composition, and each ballot is the one ballot of a member. -/
structure Sound (id : UInt64) (stage : Stage) (r : Round) : Prop where
  threshold : r.composition.passThreshold ≠ 0 ∧
    r.composition.passThreshold ≤ r.composition.panelSize
  size : r.panel.length = r.composition.panelSize.toNat
  distinct : r.panel.Nodup
  seats : r.affiliations.length = r.panel.length
  seated : ∀ v ∈ r.panel, (r.affiliations.get? v).isSome = true
  deadline : r.openedAt ≤ r.deadline
  once : (r.ballots.map Ballot.voter).Nodup
  ballots : ∀ b ∈ r.ballots, b.stage = stage ∧ b.voter ∈ r.panel ∧
    r.affiliations.get? b.voter = some b.affiliation ∧ b.id = Ballot.identity id stage b.voter

theorem record_eq_ok_iff {voter : VoterId} {approve : Bool} {attestation : String}
    {digest : Digest} :
    r.record id stage voter approve attestation now = .ok (r', digest) ↔
      now < r.deadline ∧ voter ∈ r.panel ∧ (∀ b ∈ r.ballots, b.voter ≠ voter) ∧
        digest = Ballot.identity id stage voter ∧
        ∃ affiliation, r.affiliations.get? voter = some affiliation ∧
          r' = { r with ballots := r.ballots ++
            [⟨digest, voter, stage, approve, Text.trim attestation, now, affiliation⟩] } := by
  have hlt : ¬r.DeadlinePassed now ↔ now < r.deadline := Int.not_le
  have hseat : ∀ a, (if r.IsMember voter then r.affiliation? voter else none) = some a ↔
      voter ∈ r.panel ∧ r.affiliations.get? voter = some a := by
    intro a
    by_cases hv : voter ∈ r.panel <;> simp [IsMember, affiliation?, hv]
  have hvoted : ¬r.HasVoted voter ↔ ∀ b ∈ r.ballots, b.voter ≠ voter := by simp [HasVoted]
  simp only [record, except_bind_eq_ok_iff, require_eq_ok_iff, demand_eq_ok_iff, pure_eq_ok_iff,
    hlt, hseat, hvoted, exists_const]
  constructor
  · rintro ⟨ht, a, ⟨hv, ha⟩, hb, h⟩
    obtain ⟨rfl, rfl⟩ := Prod.mk.inj h
    exact ⟨ht, hv, hb, rfl, a, ha, rfl⟩
  · rintro ⟨ht, hv, hb, rfl, a, ha, rfl⟩
    exact ⟨ht, a, ⟨hv, ha⟩, hb, rfl⟩

theorem Sound.record (h : r.Sound id stage) {voter : VoterId} {approve : Bool}
    {attestation : String} {digest : Digest}
    (hr : r.record id stage voter approve attestation now = .ok (r', digest)) :
    r'.Sound id stage := by
  obtain ⟨-, hv, hb, rfl, a, ha, rfl⟩ := record_eq_ok_iff.mp hr
  obtain ⟨h₁, h₂, h₃, h₄, h₅, h₆, honce, hballots⟩ := h
  refine ⟨h₁, h₂, h₃, h₄, h₅, h₆, ?_, ?_⟩
  · rw [List.map_append, List.nodup_append]
    refine ⟨honce, by simp, ?_⟩
    intro w hw w' hw'
    obtain ⟨b, hbmem, rfl⟩ := List.mem_map.mp hw
    simp only [List.map_cons, List.map_nil, List.mem_singleton] at hw'
    rw [hw']
    exact hb b hbmem
  · intro b hbmem
    rcases List.mem_append.mp hbmem with hbmem | hbmem
    · exact hballots b hbmem
    · rw [List.mem_singleton.mp hbmem]
      exact ⟨rfl, hv, ha, rfl⟩

theorem nodup_keys_of_members {members : List Voter} (distinct : (members.map Voter.id).Nodup) :
    ((members.map (fun v => (v.id, v.affiliation))).map Prod.fst).Nodup := by
  rw [List.map_map]
  exact distinct

/-- A roster may list a name twice, but members are distinct, so each finds the row under which it
was seated. -/
theorem affiliation?_ofMembers {composition : Composition} {members : List Voter}
    {openedAt deadline : Instant} (distinct : (members.map Voter.id).Nodup) {v : Voter}
    (hv : v ∈ members) :
    (ofMembers composition members openedAt deadline).affiliation? v.id = some v.affiliation :=
  Table.get?_ofList (nodup_keys_of_members distinct) (List.mem_map_of_mem hv)

theorem sound_ofMembers {composition : Composition} {members : List Voter} {deadline : Instant}
    (threshold : composition.passThreshold ≠ 0 ∧ composition.passThreshold ≤ composition.panelSize)
    (size : members.length = composition.panelSize.toNat) (distinct : (members.map Voter.id).Nodup)
    (later : now ≤ deadline) : (ofMembers composition members now deadline).Sound id stage := by
  refine ⟨threshold, by simpa [ofMembers] using size, distinct, ?_, ?_, later, List.nodup_nil, by
    simp [ofMembers]⟩
  · simp [ofMembers, Table.length_ofList (nodup_keys_of_members distinct)]
  · intro w hw
    obtain ⟨v, hv, rfl⟩ := List.mem_map.mp hw
    exact Option.isSome_of_eq_some (affiliation?_ofMembers distinct hv)

theorem decide_eq_passed_iff {t : Thresholds} {entrenched : Bool} :
    r.decide t entrenched now = .passed ↔
      ¬(r.DeadlinePassed now ∧ ¬r.tally.ParticipationReaches t.lapseParticipation.toNat) ∧
        r.Passes t entrenched := by
  unfold decide
  split
  · simp [*]
  · split <;> simp [*]

theorem Sound.ballots_ne_nil (h : r.Sound id stage) {t : Thresholds} {entrenched : Bool}
    (hp : r.Passes t entrenched) :
    r.ballots ≠ [] := by
  intro hb
  have hy := hp.1
  have hpos := h.threshold.1
  simp only [tally, hb, List.countP_nil, Nat.le_zero_eq] at hy
  exact hpos (UInt64.toNat_inj.mp hy)

end Round

namespace Constitution

theorem checkComposition_eq_none_iff {d : Diversity} {field : Field} {composition : Composition} :
    checkComposition d field composition = none ↔ composition.panelSize.toNat ≠ 0 ∧
      composition.passThreshold.toNat ≠ 0 ∧
      composition.passThreshold.toNat ≤ composition.panelSize.toNat ∧
        d.minRegions.toNat ≤ composition.panelSize.toNat ∧
        d.minOrganizations.toNat ≤ composition.panelSize.toNat := by
  unfold checkComposition
  split
  · simp [*]
  · split
    · simp only [reduceCtorEq, false_iff]
      omega
    · split
      · simp only [reduceCtorEq, false_iff]
        omega
      · simp only [true_iff]
        omega

theorem exists_checkComposition_of_check {c : Constitution} (h : c.check = none) (stage : Stage) :
    ∃ field, checkComposition c.diversity field (c.composition stage) = none := by
  obtain ⟨-, -, -, hphase, hconfirmation, -⟩ := check_eq_none_iff.mp h
  obtain ⟨-, hchambers⟩ := checkPhase_eq_none_iff.mp hphase
  cases stage with
  | proposal => exact ⟨_, hchambers .proposal⟩
  | ratification => exact ⟨_, hchambers .ratification⟩
  | challenge => exact ⟨_, hchambers .challenge⟩
  | confirmation => exact ⟨_, hconfirmation⟩

theorem threshold_of_check {c : Constitution} (h : c.check = none) (stage : Stage) :
    (c.composition stage).passThreshold ≠ 0 ∧
    (c.composition stage).passThreshold ≤ (c.composition stage).panelSize := by
  obtain ⟨field, hcomposition⟩ := exists_checkComposition_of_check h stage
  obtain ⟨-, hpositive, hle, -, -⟩ := checkComposition_eq_none_iff.mp hcomposition
  exact ⟨fun hzero => hpositive (congrArg UInt64.toNat hzero), UInt64.le_iff_toNat_le.mpr hle⟩

theorem minimum_le_size_of_check {c : Constitution} (h : c.check = none) (stage : Stage)
    (d : Dimension) :
    (c.diversity.quota (c.composition stage)).minimum d ≤
      (c.diversity.quota (c.composition stage)).size := by
  obtain ⟨field, hcomposition⟩ := exists_checkComposition_of_check h stage
  obtain ⟨-, -, -, hregions, horganizations⟩ := checkComposition_eq_none_iff.mp hcomposition
  cases d with
  | region => exact hregions
  | organization => exact horganizations

end Constitution

theorem le_of_windowEnd {now t : Instant} {days : UInt32} (h : windowEnd now days = .ok t) :
    now ≤ t := by
  have ht := windowEnd_eq_ok_iff.mp h
  simp only [Instant.addDays?, Instant.ofNanos?, Option.dite_none_right_eq_some,
    Option.some.injEq] at ht
  obtain ⟨-, rfl⟩ := ht
  have hdays : 0 ≤ (days.toNat : Int) * Instant.nanosPerDay := by
    simp only [Instant.nanosPerDay]
    omega
  change now.nanos ≤ now.nanos + days.toNat * Instant.nanosPerDay
  omega

/-- What selection gives to a round and ballots leave to it, every round has at any time. -/
theorem Docket.kept_rounds {c : Constitution} {P : UInt64 → Stage → Round → Prop}
    (opened : ∀ {c' : Constitution} {now deadline : Instant} {id : UInt64} {stage : Stage}
      {candidates members : List Voter} {excluded : List VoterId}, Constitution.InForce c c' →
      Panel.select candidates (c'.diversity.quota (c'.composition stage)) excluded = .ok members →
      windowEnd now c'.timing.votingWindow = .ok deadline →
      P id stage (Round.ofMembers (c'.composition stage) members now deadline))
    (recorded : ∀ {now : Instant} {id : UInt64} {stage : Stage} {voter : VoterId} {approve : Bool}
      {attestation : String} {r r' : Round} {digest : Digest},
      Text.isEmptyText attestation = false →
      r.record id stage voter approve attestation now = .ok (r', digest) → P id stage r →
      P id stage r') :
    Kept c (fun p => ∀ stage r, p.round? stage = some r → P p.id stage r) where
  submitted _ _ _ := by
    intro stage r hr
    rw [submission, Proposal.round?_submitted] at hr
    cases hr
  step hc hs h := by
    intro stage r hr
    have hstep := Proposal.roundStep_of_step hs stage
    rw [hr] at hstep
    rw [(Proposal.SameSubmission.of_step hs).id]
    generalize hx : some r = x at hstep
    cases hstep with
    | kept => exact h stage r hx.symm
    | dropped => cases hx
    | opened _ selected window =>
      cases hx
      exact opened hc selected window
    | recorded attested running record =>
      cases hx
      exact recorded attested record (h stage _ running)
  newPhase {p} h := by
    intro stage r hr
    rw [(Proposal.sameSubmission_underNewPhase p).id]
    exact h stage r (Proposal.round?_underNewPhase hr)

def Proposal.HasSoundRounds (p : Proposal) : Prop :=
  ∀ stage r, p.round? stage = some r → r.Sound p.id stage

theorem Docket.kept_hasSoundRounds (c : Constitution) : Kept c Proposal.HasSoundRounds :=
  kept_rounds
    (fun hc selected window => Round.sound_ofMembers (Constitution.threshold_of_check hc.sound _)
      (Panel.length_of_select selected) (Panel.nodup_of_select selected) (le_of_windowEnd window))
    (fun _ record h => h.record record)

end Charter
