import Charter.Proofs.Docket.History
import Charter.Proofs.Docket.Opened
import Charter.Proofs.Proposal.Ballots
import Charter.Proofs.Words

/-! # Runs in words of 64 bits

Nothing bounds the panels of a constitution, but a panel is only selected from a roster that is at
least as long. If all rosters of a run are short enough, then everything that is counted on the way
to a selection or a close fits into words. -/

namespace Charter

def Action.roster : Action → List Voter
  | .operate _ (.selectPanel _ candidates) => candidates
  | _ => []

theorem Panel.size_le_of_select {candidates members : List Voter} {q : Quota}
    {excluded : List VoterId} (h : select candidates q excluded = .ok members) :
    q.size ≤ candidates.length := by
  have hnone : refusal? q (pool candidates excluded) = none := by
    rw [select_eq] at h
    cases hr : refusal? q (pool candidates excluded) with
    | none => rfl
    | some f =>
      rw [hr] at h
      cases h
  exact size_le_of_refusal? hnone

theorem Constitution.percentages_of_check {c : Constitution} (h : c.check = none) :
    c.thresholds.supermajority.toNat ≤ 100 ∧ c.thresholds.entrenchedParticipation.toNat ≤ 100 ∧
      c.thresholds.lapseParticipation.toNat ≤ 100 ∧ c.diversity.maxConcentration.toNat ≤ 100 := by
  have hpercent : ∀ {field : Field} {value : UInt8}, checkPercent field value = none →
      value.toNat ≤ 100 := by
    intro field value hvalue
    by_contra hlarge
    rw [checkPercent, if_pos (.inr (Nat.lt_of_not_le hlarge))] at hvalue
    cases hvalue
  obtain ⟨⟨hsupermajority, hparticipation, hlapse⟩, -, hconcentration, -⟩ := check_eq_none_iff.mp h
  exact ⟨hpercent hsupermajority, hpercent hparticipation, hpercent hlapse, hpercent hconcentration⟩

namespace Proposal

variable {c : Constitution} {p q : Proposal} {now : Instant} {n : Nat}

def SeatsAtMost (n : Nat) (p : Proposal) : Prop := ∀ stage, (p.panel stage).length ≤ n

theorem SeatsAtMost.of_step {op : Operation} {reply : Reply} (h : p.SeatsAtMost n)
    (hs : p.Step c now op q reply)
    (roster : ∀ stage candidates, op = .selectPanel stage candidates → candidates.length ≤ n) :
    q.SeatsAtMost n := by
  intro t
  rcases filled_of_step hs with hsame | hdropped |
    ⟨stage, candidates, members, hop, selected, hpanels⟩
  · rw [hsame]
    exact h t
  · rw [hdropped]
    split
    · exact Nat.zero_le n
    · exact h t
  · rw [hpanels]
    split
    · rw [List.length_map, Panel.length_of_select selected]
      exact (Panel.size_le_of_select selected).trans (roster stage candidates hop)
    · exact h t

theorem SeatsAtMost.underNewPhase (h : p.SeatsAtMost n) : p.underNewPhase.SeatsAtMost n := by
  intro t
  cases hr : p.underNewPhase.round? t with
  | none =>
    rw [panel_eq_nil_of_round? hr]
    exact Nat.zero_le n
  | some r =>
    rw [panel_eq_of_round? hr, ← panel_eq_of_round? (round?_underNewPhase hr)]
    exact h t

end Proposal

namespace Docket

variable {c : Constitution} {d e : Docket} {now : Instant} {a : Action} {answer : Answer} {n : Nat}

theorem Orderly.seatsAtMost_step (hd : d.Orderly) (h : d.All (Proposal.SeatsAtMost n))
    (roster : a.roster.length ≤ n) (hs : Step d now a e answer) :
    e.All (Proposal.SeatsAtMost n) := by
  intro id q hq
  rcases hd.origin_of_step hs hq with ⟨proposer, key, current, proposed, justification, rfl⟩ |
    ⟨p, hp, hfate⟩
  · intro stage
    have hvacant : (d.submission proposer key current proposed justification now).round? stage =
        none :=
      Proposal.round?_submitted ..
    rw [Proposal.panel_eq_nil_of_round? hvacant]
    exact Nat.zero_le n
  · have hbefore := h id p hp
    cases hfate with
    | untouched => exact hbefore
    | operated step =>
      refine hbefore.of_step step ?_
      rintro stage candidates rfl
      exact roster
    | newPhase => exact hbefore.underNewPhase

theorem seatsAtMost_run (h : create c = .ok d) {requests : List (Action × Instant)}
    (rosters : ∀ request ∈ requests, request.1.roster.length ≤ n) :
    (d.run requests).All (Proposal.SeatsAtMost n) := by
  obtain ⟨-, rfl⟩ := create_eq_ok_iff.mp h
  have hrun : ((empty c).run requests).Orderly ∧
      ((empty c).run requests).All (Proposal.SeatsAtMost n) := by
    refine run_induction_of_forall (P := fun d => d.Orderly ∧ d.All (Proposal.SeatsAtMost n))
      (Q := fun a => a.roster.length ≤ n) ?_ ⟨orderly_empty c, all_empty _⟩ rosters
    rintro d e a now answer hroster hs ⟨hd, hseats⟩
    exact ⟨hd.step hs, hd.seatsAtMost_step hseats hroster hs⟩
  exact hrun.2

/-- No product overflows. After every run of a new docket whose rosters have no more rows than a
word can count in percent, every selection from such a roster and every close can be carried out in
words of 64 bits, where no product overflows or saturates and no difference falls below zero, though
nothing bounds the panels of the constitution. Where the cap of a panel is asked for it is the share
of the seats, rounded down, or one, and it is at most the seats. A round is decided by the rule
counted exactly: after the deadline it lapses if the votes are fewer than the percentage of the
seats; otherwise it passes if the YES votes are enough, and, under the rules for entrenched
provisions, participation and supermajority too. -/
theorem no_product_overflows (h : create c = .ok d) {requests : List (Action × Instant)}
    (rosters : ∀ request ∈ requests, request.1.roster.length ≤ (UInt64.size - 1) / 100) :
    let constitution := (d.run requests).constitution
    (d.run requests).All (fun p => ∀ stage,
      (∀ candidates : List Voter, candidates.length ≤ (UInt64.size - 1) / 100 →
        let composition := constitution.composition stage
        let quota := constitution.diversity.quota composition
        Panel.selectInWords? candidates constitution.diversity composition (p.recused stage) =
            some (Panel.select candidates quota (p.recused stage)) ∧
          (Panel.refusal? quota (Panel.pool candidates (p.recused stage)) = none →
            ∃ cap, Word.cap? composition.panelSize constitution.diversity.maxConcentration =
              some cap ∧
              cap.toNat = max 1 (composition.panelSize.toNat *
                constitution.diversity.maxConcentration.toNat / 100) ∧
              1 ≤ cap.toNat ∧ cap.toNat ≤ composition.panelSize.toNat)) ∧
      ∀ r, p.round? stage = some r → ∀ now,
        let t := constitution.thresholds
        let entrenched := p.hasEntrenchedRules stage
        let votes := r.ballots.length
        let yes := r.ballots.countP (fun b => b.approve)
        let seats := r.panel.length
        let lapses := r.deadline ≤ now ∧ 100 * votes < t.lapseParticipation.toNat * seats
        r.decideInWords? t entrenched now = some (r.decide t entrenched now) ∧
          (r.decide t entrenched now = .lapsed ↔ lapses) ∧
          (r.decide t entrenched now = .passed ↔ ¬lapses ∧ r.composition.passThreshold.toNat ≤ yes ∧
            (entrenched = true → t.entrenchedParticipation.toNat * seats ≤ 100 * votes ∧ 0 < votes ∧
              t.supermajority.toNat * votes ≤ 100 * yes))) := by
  intro constitution id p hp stage
  have hsound : (d.run requests).Sound := (sound_of_opened (.inl h)).run requests
  obtain ⟨hsupermajority, hparticipation, hlapse, hconcentration⟩ :=
    Constitution.percentages_of_check hsound.constitution
  refine ⟨?_, ?_⟩
  · intro candidates hroster composition quota
    refine ⟨Panel.selectInWords?_eq hconcentration hroster, ?_⟩
    intro hasked
    obtain ⟨cap, hcap, hnat⟩ := Panel.exists_cap?_of_refusal? hconcentration hroster hasked
    have hsize : 0 < quota.size := by
      obtain ⟨field, hcomposition⟩ :=
        Constitution.exists_checkComposition_of_check hsound.constitution stage
      exact Nat.pos_of_ne_zero (Constitution.checkComposition_eq_none_iff.mp hcomposition).1
    refine ⟨cap, hcap, ?_, ?_, ?_⟩
    · rw [hnat, Quota.cap, Nat.max_comm]
      rfl
    · rw [hnat]
      exact Quota.cap_pos _
    · rw [hnat]
      exact Quota.cap_le_size hsize hconcentration
  · intro r hr now t entrenched votes yes seats lapses
    have hseats : r.panel.length ≤ Word.countable := by
      rw [← Proposal.panel_eq_of_round? hr]
      exact seatsAtMost_run h rosters id p hp stage
    have hcountable : r.IsCountable :=
      ⟨hseats, ((hsound.recordable id p hp).rounds stage r hr).length_ballots_le⟩
    exact ⟨hcountable.decideInWords?_eq hlapse hparticipation hsupermajority,
      hcountable.lapsed_iff hlapse, hcountable.passed_iff hlapse hparticipation hsupermajority⟩

/-- A constitution with one seat on each panel but the challenge panel, which has as many as a word
can count. -/
def vastConstitution : Constitution :=
  { soloConstitution with phase := ⟨"vast", ⟨1, 1⟩, ⟨1, 1⟩, ⟨18446744073709551615, 1⟩⟩ }

/-- The share of the vast panel has no word, but it is not asked for: the roster is refused before.
The vote of the one seat of the proposal chamber is decided in words, and passes. -/
theorem no_product_overflows_vast :
    let d := (empty vastConstitution).run ((soloRequests "fees" .null (.bool true)).take 3)
    let composition := d.constitution.composition .challenge
    Word.cap? composition.panelSize d.constitution.diversity.maxConcentration = none ∧
      ∃ p r, d.get? 1 = some p ∧ p.round? .proposal = some r ∧
        Panel.selectInWords? [⟨"cleo", ⟨"north", "guild"⟩⟩] d.constitution.diversity composition
        (p.recused .challenge) =
          some (.error (.tooFewCandidates 18446744073709551615 1)) ∧
        r.decideInWords? d.constitution.thresholds (p.hasEntrenchedRules .proposal) secondDay =
          some .passed := by
  intro d composition
  have hcreate : create vastConstitution = .ok (empty vastConstitution) := by rfl
  have hrosters : ∀ request ∈ (soloRequests "fees" .null (.bool true)).take 3,
      request.1.roster.length ≤ (UInt64.size - 1) / 100 := by decide
  have hrun : (d.get? 1).any (fun p => (p.round? .proposal).any (fun r => decide (
      Panel.select [⟨"cleo", ⟨"north", "guild"⟩⟩] (d.constitution.diversity.quota composition)
      (p.recused .challenge) =
        .error (.tooFewCandidates 18446744073709551615 1) ∧
      r.decide d.constitution.thresholds (p.hasEntrenchedRules .proposal) secondDay = .passed))) =
        true := by decide +kernel
  obtain ⟨p, hp, hround⟩ := (Option.any_eq_true _ _).mp hrun
  obtain ⟨r, hr, hdecided⟩ := (Option.any_eq_true _ _).mp hround
  obtain ⟨hrefused, hpassed⟩ := of_decide_eq_true hdecided
  have hall := no_product_overflows hcreate hrosters 1 p hp
  obtain ⟨hselected, -⟩ := (hall .challenge).1 [⟨"cleo", ⟨"north", "guild"⟩⟩] (by decide)
  obtain ⟨hinWords, -, -⟩ := (hall .proposal).2 r hr secondDay
  rw [hrefused] at hselected
  rw [hpassed] at hinWords
  exact ⟨by decide +kernel, p, r, hp, hr, hselected, hinWords⟩

end Docket

end Charter
