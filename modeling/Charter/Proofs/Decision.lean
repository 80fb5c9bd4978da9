import Mathlib.Logic.Relation
import Mathlib.Order.Nat
import Charter.Proofs.Round

/-! # Decisions

Outcomes are ordered from a lapse over a rejection to a pass. One more YES never brings a decision
down in that order, and the rules for entrenched provisions never bring it up. Saturation does not
come between: where a product on the greater side saturates the comparison holds whatever the other
side is, so what support raises may saturate freely. -/

namespace Charter

def Outcome.rank : Outcome → Nat
  | .lapsed => 0
  | .rejected => 1
  | .passed => 2

instance : PartialOrder Outcome :=
  PartialOrder.lift Outcome.rank (fun a b h => by cases a <;> cases b <;> cases h <;> rfl)

instance (a b : Outcome) : Decidable (a ≤ b) := inferInstanceAs (Decidable (a.rank ≤ b.rank))

theorem Outcome.le_iff {a b : Outcome} :
    a ≤ b ↔ (b = .lapsed → a = .lapsed) ∧ (a = .passed → b = .passed) := by
  cases a <;> cases b <;> decide

namespace Tally

variable {s t : Tally} {percent : Nat}

theorem saturate_le_iff {m n : Nat} : saturate m ≤ saturate n ↔ m ≤ n ∨ UInt64.size - 1 ≤ n := by
  simp only [saturate]
  omega

/-- From one count of the same seats to the other there is more support: no YES vote less, no NO
vote more, and no fewer votes in all. -/
structure Gains (s t : Tally) : Prop where
  yes : s.yes ≤ t.yes
  no : t.no ≤ s.no
  total : s.total ≤ t.total
  seats : t.seats = s.seats

theorem Gains.participationReaches (h : s.Gains t) (hs : s.ParticipationReaches percent) :
    t.ParticipationReaches percent := by
  have htotal := h.total
  rw [ParticipationReaches, saturate_le_iff] at hs ⊢
  rw [h.seats]
  omega

/-- A share is reached if the NO votes make up no more than what it leaves of the YES votes. -/
theorem total_mul_le_iff (hpercent : percent ≤ 100) :
    s.total * percent ≤ s.yes * 100 ↔ s.no * percent ≤ s.yes * (100 - percent) := by
  have hsplit : s.yes * 100 = s.yes * percent + s.yes * (100 - percent) := by
    rw [← Nat.mul_add, Nat.add_sub_of_le hpercent]
  rw [total, Nat.add_mul, hsplit]
  omega

/-- A greater share than all votes is reached only where a product saturates. -/
theorem percent_le_of_total_mul_le (hvoted : 0 < s.total) (h : s.total * percent ≤ s.yes * 100) :
    percent ≤ 100 := by
  have hyes : s.yes * 100 ≤ s.total * 100 := Nat.mul_le_mul_right 100 (Nat.le_add_right s.yes s.no)
  exact Nat.le_of_mul_le_mul_left (h.trans hyes) hvoted

theorem Gains.yesShareReaches (h : s.Gains t) (hs : s.YesShareReaches percent) :
    t.YesShareReaches percent := by
  obtain ⟨hvoted, hshare⟩ := hs
  rw [saturate_le_iff] at hshare
  have hyes := h.yes
  refine ⟨hvoted.trans_le h.total, saturate_le_iff.mpr ?_⟩
  rcases hshare with hshare | hsaturated
  · have hpercent := percent_le_of_total_mul_le hvoted hshare
    rw [total_mul_le_iff hpercent] at hshare
    refine .inl ((total_mul_le_iff hpercent).mpr ?_)
    calc t.no * percent ≤ s.no * percent := Nat.mul_le_mul_right percent h.no
      _ ≤ s.yes * (100 - percent) := hshare
      _ ≤ t.yes * (100 - percent) := Nat.mul_le_mul_right (100 - percent) hyes
  · right
    omega

end Tally

namespace Round

variable {r r' : Round} {t : Thresholds} {entrenched : Bool} {now : Instant}

theorem decide_eq_lapsed_iff : r.decide t entrenched now = .lapsed ↔
    r.DeadlinePassed now ∧ ¬r.tally.ParticipationReaches t.lapseParticipation.toNat := by
  unfold decide
  split
  · simp [*]
  · split <;> simp [*]

theorem Passes.of_gains (h : r.Passes t entrenched) (hcomposition : r'.composition = r.composition)
    (hgains : r.tally.Gains r'.tally) : r'.Passes t entrenched := by
  obtain ⟨hthreshold, hrules⟩ := h
  refine ⟨?_, ?_⟩
  · rw [hcomposition]
    exact hthreshold.trans hgains.yes
  · intro he
    obtain ⟨hparticipation, hshare⟩ := hrules he
    exact ⟨hgains.participationReaches hparticipation, hgains.yesShareReaches hshare⟩

/-- More support for the same vote does not bring its decision down. -/
theorem decide_le_of_gains (hcomposition : r'.composition = r.composition)
    (hdeadline : r'.deadline = r.deadline) (hgains : r.tally.Gains r'.tally) :
    r.decide t entrenched now ≤ r'.decide t entrenched now := by
  -- what lets the new round lapse would have let the old one lapse
  have hlapse : r'.DeadlinePassed now ∧ ¬r'.tally.ParticipationReaches t.lapseParticipation.toNat →
      r.DeadlinePassed now ∧ ¬r.tally.ParticipationReaches t.lapseParticipation.toNat := by
    rintro ⟨hover, hfew⟩
    refine ⟨?_, fun hreached => hfew (hgains.participationReaches hreached)⟩
    rwa [DeadlinePassed, ← hdeadline]
  refine Outcome.le_iff.mpr ⟨?_, ?_⟩
  · intro h
    exact decide_eq_lapsed_iff.mpr (hlapse (decide_eq_lapsed_iff.mp h))
  · intro h
    obtain ⟨hstands, hpasses⟩ := decide_eq_passed_iff.mp h
    exact decide_eq_passed_iff.mpr ⟨fun h' => hstands (hlapse h'),
      hpasses.of_gains hcomposition hgains⟩

/-- One ballot more says YES: it is added to the others, or it said NO before. -/
inductive Rallies : List Ballot → List Ballot → Prop
  | added (before after : List Ballot) {b : Ballot} (yes : b.approve = true) :
      Rallies (before ++ after) (before ++ b :: after)
  | turned (before after : List Ballot) {b : Ballot} (no : b.approve = false) :
      Rallies (before ++ b :: after) (before ++ { b with approve := true } :: after)

theorem gains_of_rallies {ballots ballots' : List Ballot} (h : Rallies ballots ballots') :
    { r with ballots := ballots }.tally.Gains { r with ballots := ballots' }.tally := by
  cases h with
  | added before after yes =>
    refine ⟨?_, ?_, ?_, rfl⟩ <;> simp [tally, Tally.total, yes]
  | turned before after no =>
    refine ⟨?_, ?_, ?_, rfl⟩ <;>
      simp only [tally, Tally.total, List.countP_append, List.countP_cons, no, Bool.not_false,
        Bool.not_true, if_true, Bool.false_eq_true, if_false] <;> omega

theorem decide_le_of_rallies {ballots ballots' : List Ballot} (h : Rallies ballots ballots') :
    { r with ballots := ballots }.decide t entrenched now ≤
      { r with ballots := ballots' }.decide t entrenched now :=
  decide_le_of_gains rfl rfl (gains_of_rallies h)

theorem decide_le_of_rallying {ballots : List Ballot}
    (h : Relation.ReflTransGen Rallies r.ballots ballots) :
    r.decide t entrenched now ≤ { r with ballots := ballots }.decide t entrenched now := by
  induction h with
  | refl => exact le_refl _
  | tail _ hlast ih => exact ih.trans (decide_le_of_rallies hlast)

/-- A recorded YES does not bring the decision down, whenever it is made. -/
theorem decide_le_of_record {id : UInt64} {stage : Stage} {voter : VoterId} {attestation : String}
    {castAt : Instant} {digest : Digest}
    (h : r.record id stage voter true attestation castAt = .ok (r', digest)) :
    r.decide t entrenched now ≤ r'.decide t entrenched now := by
  obtain ⟨-, -, -, -, affiliation, -, rfl⟩ := record_eq_ok_iff.mp h
  have hadded := Rallies.added r.ballots []
    (b := ⟨digest, voter, stage, true, Text.trim attestation, castAt, affiliation⟩) rfl
  rw [List.append_nil] at hadded
  exact decide_le_of_rallies hadded

theorem Passes.standard (h : r.Passes t entrenched) : r.Passes t false := ⟨h.1, nofun⟩

/-- Support never hurts: however many ballots more say YES, a round is decided no worse. Entrenched
rules never help: a round that passes under them passes under the standard ones, and they do not
touch the lapse. -/
theorem support_never_hurts (r : Round) (t : Thresholds) (now : Instant) :
    (∀ entrenched ballots, Relation.ReflTransGen Rallies r.ballots ballots →
        r.decide t entrenched now ≤ { r with ballots := ballots }.decide t entrenched now) ∧
      (r.decide t true now = .passed → r.decide t false now = .passed) ∧
      (r.decide t true now = .lapsed ↔ r.decide t false now = .lapsed) := by
  refine ⟨fun _ _ => decide_le_of_rallying, ?_, ?_⟩
  · intro h
    obtain ⟨hstands, hpasses⟩ := decide_eq_passed_iff.mp h
    exact decide_eq_passed_iff.mpr ⟨hstands, hpasses.standard⟩
  · rw [decide_eq_lapsed_iff, decide_eq_lapsed_iff]

def fiveSeats (ballots : List Ballot) : Round where
  composition := ⟨5, 3⟩
  panel := ["amy", "ben", "cleo", "dan", "eve"]
  affiliations := ["amy", "ben", "cleo", "dan", "eve"].map (fun v => (v, ⟨"north", "guild"⟩))
  ballots := ballots
  openedAt := Docket.firstDay
  deadline := Docket.secondDay

def fiveSeatsBallot (voter : VoterId) (approve : Bool) : Ballot :=
  ⟨Ballot.identity 1 .proposal voter, voter, .proposal, approve, "read", Docket.firstDay,
    ⟨"north", "guild"⟩⟩

/-- Two ballots of five let the vote lapse, a third that says YES brings it to a rejection, and if
the NO among them turns it passes, under either rules. -/
theorem support_never_hurts_five :
    let divided := fiveSeats [fiveSeatsBallot "amy" true, fiveSeatsBallot "ben" false]
    let joined := fiveSeats [fiveSeatsBallot "amy" true, fiveSeatsBallot "ben" false,
      fiveSeatsBallot "cleo" true]
    let agreed := fiveSeats [fiveSeatsBallot "amy" true, fiveSeatsBallot "ben" true,
      fiveSeatsBallot "cleo" true]
    divided.decide ⟨80, 50, 50⟩ true Docket.secondDay = .lapsed ∧
      joined.decide ⟨80, 50, 50⟩ true Docket.secondDay = .rejected ∧
      agreed.decide ⟨80, 50, 50⟩ true Docket.secondDay = .passed ∧
      divided.decide ⟨80, 50, 50⟩ true Docket.secondDay ≤
        agreed.decide ⟨80, 50, 50⟩ true Docket.secondDay ∧
      agreed.decide ⟨80, 50, 50⟩ false Docket.secondDay = .passed := by
  intro divided joined agreed
  have hpassed : agreed.decide ⟨80, 50, 50⟩ true Docket.secondDay = .passed := by decide +kernel
  have hjoins : Rallies divided.ballots joined.ballots :=
    .added [fiveSeatsBallot "amy" true, fiveSeatsBallot "ben" false] [] rfl
  have hturns : Rallies joined.ballots agreed.ballots :=
    .turned [fiveSeatsBallot "amy" true] [fiveSeatsBallot "cleo" true]
      (b := fiveSeatsBallot "ben" false) rfl
  refine ⟨by decide +kernel, by decide +kernel, hpassed, ?_, ?_⟩
  · exact (support_never_hurts divided ⟨80, 50, 50⟩ Docket.secondDay).1 true _
      ((Relation.ReflTransGen.single hjoins).tail hturns)
  · exact (support_never_hurts agreed ⟨80, 50, 50⟩ Docket.secondDay).2.1 hpassed

end Round

end Charter
