import Charter.Proofs.Decision
import Charter.Proofs.Walk

/-! # Words of 64 bits

Selections and decisions in words, with operations that are undefined where a word would overflow,
saturate or fall below zero. Where no more than `Word.countable` rows, seats and ballots are
counted, whatever is asked for is defined, and it is what the natural numbers say. -/

namespace Charter

namespace Word

variable {n percent : Nat} {a b : UInt64}

def ofNat? (n : Nat) : Option UInt64 := if n < UInt64.size then some (UInt64.ofNat n) else none

def add? (a b : UInt64) : Option UInt64 := ofNat? (a.toNat + b.toNat)

def mul? (a b : UInt64) : Option UInt64 := ofNat? (a.toNat * b.toNat)

def sub? (a b : UInt64) : Option UInt64 := if b ≤ a then some (a - b) else none

/-- Of so many any share in percent can be compared in words. -/
def countable : Nat := (UInt64.size - 1) / 100

theorem exists_ofNat? (h : n < UInt64.size) : ∃ w, ofNat? n = some w ∧ w.toNat = n :=
  ⟨_, if_pos h, UInt64.toNat_ofNat_of_lt' h⟩

theorem exists_add? (h : a.toNat + b.toNat < UInt64.size) :
    ∃ w, add? a b = some w ∧ w.toNat = a.toNat + b.toNat :=
  exists_ofNat? h

theorem exists_mul? (h : a.toNat * b.toNat < UInt64.size) :
    ∃ w, mul? a b = some w ∧ w.toNat = a.toNat * b.toNat :=
  exists_ofNat? h

theorem exists_sub? (h : b.toNat ≤ a.toNat) :
    ∃ w, sub? a b = some w ∧ w.toNat = a.toNat - b.toNat := by
  have hle : b ≤ a := UInt64.le_iff_toNat_le.mpr h
  exact ⟨_, if_pos hle, UInt64.toNat_sub_of_le a b hle⟩

theorem mul_lt_size (hn : n ≤ countable) (hpercent : percent ≤ 100) :
    n * percent < UInt64.size := by
  have hle : n * percent ≤ countable * 100 := Nat.mul_le_mul hn hpercent
  have hsize : countable * 100 < UInt64.size := by decide
  exact hle.trans_lt hsize

theorem countable_lt_size : countable < UInt64.size := by decide

theorem exists_share {share : UInt8} (ha : a.toNat ≤ countable) (hpercent : share.toNat ≤ 100) :
    ∃ product, mul? a share.toUInt64 = some product ∧ product.toNat = a.toNat * share.toNat := by
  have hlt : a.toNat * share.toUInt64.toNat < UInt64.size := by
    rw [UInt8.toNat_toUInt64]
    exact mul_lt_size ha hpercent
  obtain ⟨product, hproduct, hnat⟩ := exists_mul? hlt
  exact ⟨product, hproduct, by rw [hnat, UInt8.toNat_toUInt64]⟩

theorem exists_hundredfold (ha : a.toNat ≤ countable) :
    ∃ product, mul? a 100 = some product ∧ product.toNat = a.toNat * 100 :=
  exists_mul? (mul_lt_size ha (Nat.le_refl 100))

end Word

structure WordTally where
  yes : UInt64
  no : UInt64
  seats : UInt64

namespace WordTally

def total? (w : WordTally) : Option UInt64 := Word.add? w.yes w.no

def participationReaches? (w : WordTally) (percent : UInt8) : Option Bool := do
  let total ← w.total?
  let votes ← Word.mul? total 100
  let needed ← Word.mul? w.seats percent.toUInt64
  return needed ≤ votes

def yesShareReaches? (w : WordTally) (percent : UInt8) : Option Bool := do
  let total ← w.total?
  if 0 < total then
    let yes ← Word.mul? w.yes 100
    let needed ← Word.mul? total percent.toUInt64
    return needed ≤ yes
  else return false

structure Counts (w : WordTally) (t : Tally) : Prop where
  yes : w.yes.toNat = t.yes
  no : w.no.toNat = t.no
  seats : w.seats.toNat = t.seats
  votesCountable : t.total ≤ Word.countable
  seatsCountable : t.seats ≤ Word.countable

end WordTally

namespace Tally

variable {t : Tally} {percent : Nat}

theorem saturate_of_lt {n : Nat} (h : n < UInt64.size) : saturate n = n := by
  unfold saturate
  omega

theorem participationReaches_iff (hvotes : t.total ≤ Word.countable)
    (hseats : t.seats ≤ Word.countable) (hpercent : percent ≤ 100) :
    t.ParticipationReaches percent ↔ t.seats * percent ≤ t.total * 100 := by
  rw [ParticipationReaches, saturate_of_lt (Word.mul_lt_size hseats hpercent),
    saturate_of_lt (Word.mul_lt_size hvotes (Nat.le_refl 100))]

theorem yesShareReaches_iff (hvotes : t.total ≤ Word.countable) (hpercent : percent ≤ 100) :
    t.YesShareReaches percent ↔ 0 < t.total ∧ t.total * percent ≤ t.yes * 100 := by
  have hyes : t.yes ≤ Word.countable := (Nat.le_add_right t.yes t.no).trans hvotes
  rw [YesShareReaches, saturate_of_lt (Word.mul_lt_size hvotes hpercent),
    saturate_of_lt (Word.mul_lt_size hyes (Nat.le_refl 100))]

end Tally

namespace WordTally

variable {w : WordTally} {t : Tally} {percent : UInt8}

theorem Counts.exists_total? (h : w.Counts t) :
    ∃ total, w.total? = some total ∧ total.toNat = t.total := by
  have hlt : w.yes.toNat + w.no.toNat < UInt64.size := by
    rw [h.yes, h.no]
    exact h.votesCountable.trans_lt Word.countable_lt_size
  obtain ⟨total, htotal, hnat⟩ := Word.exists_add? hlt
  exact ⟨total, htotal, by rw [hnat, h.yes, h.no, Tally.total]⟩

theorem Counts.participationReaches?_eq (h : w.Counts t) (hpercent : percent.toNat ≤ 100) :
    w.participationReaches? percent = some (decide (t.ParticipationReaches percent.toNat)) := by
  obtain ⟨total, htotal, hnat⟩ := h.exists_total?
  obtain ⟨votes, hvotes, hvotesNat⟩ := Word.exists_hundredfold (hnat ▸ h.votesCountable)
  obtain ⟨needed, hneeded, hneededNat⟩ := Word.exists_share (h.seats ▸ h.seatsCountable) hpercent
  simp only [participationReaches?, htotal, hvotes, hneeded, Option.bind_eq_bind, Option.bind_some,
    Option.pure_def, Option.some.injEq, decide_eq_decide,
    Tally.participationReaches_iff h.votesCountable h.seatsCountable hpercent]
  rw [UInt64.le_iff_toNat_le, hvotesNat, hneededNat, hnat, h.seats]

theorem Counts.yesShareReaches?_eq (h : w.Counts t) (hpercent : percent.toNat ≤ 100) :
    w.yesShareReaches? percent = some (decide (t.YesShareReaches percent.toNat)) := by
  have hyes : t.yes ≤ Word.countable := (Nat.le_add_right t.yes t.no).trans h.votesCountable
  obtain ⟨total, htotal, hnat⟩ := h.exists_total?
  obtain ⟨yes, hyes, hyesNat⟩ := Word.exists_hundredfold (h.yes ▸ hyes)
  obtain ⟨needed, hneeded, hneededNat⟩ := Word.exists_share (hnat ▸ h.votesCountable) hpercent
  have hpos : 0 < total ↔ 0 < t.total := by
    rw [UInt64.lt_iff_toNat_lt, hnat]
    rfl
  simp only [yesShareReaches?, htotal, hyes, hneeded, hpos, Option.bind_eq_bind, Option.bind_some,
    Option.pure_def, Tally.yesShareReaches_iff h.votesCountable hpercent]
  split
  · rename_i hvoted
    simp only [hvoted, true_and, Option.some.injEq, decide_eq_decide]
    rw [UInt64.le_iff_toNat_le, hyesNat, hneededNat, hnat, h.yes]
  · rename_i hnone
    simp [hnone]

end WordTally

namespace Round

variable {r : Round} {t : Thresholds} {entrenched : Bool} {now : Instant} {w : WordTally}

/-- The count of a round in words: the NO votes are the ballots less the YES votes. -/
def wordTally? (r : Round) : Option WordTally := do
  let yes ← Word.ofNat? (r.ballots.countP (fun b => b.approve))
  let cast ← Word.ofNat? r.ballots.length
  let no ← Word.sub? cast yes
  let seats ← Word.ofNat? r.panel.length
  return ⟨yes, no, seats⟩

/-- The round lapses; participation is asked for only after the deadline. -/
def lapses? (r : Round) (w : WordTally) (t : Thresholds) (now : Instant) : Option Bool :=
  if r.DeadlinePassed now then do
    let reached ← w.participationReaches? t.lapseParticipation
    return !reached
  else some false

def passes? (r : Round) (w : WordTally) (t : Thresholds) (entrenched : Bool) : Option Bool :=
  if r.composition.passThreshold ≤ w.yes then
    if entrenched then do
      let reached ← w.participationReaches? t.entrenchedParticipation
      if reached then w.yesShareReaches? t.supermajority else return false
    else some true
  else some false

def decideInWords? (r : Round) (t : Thresholds) (entrenched : Bool) (now : Instant) :
    Option Outcome := do
  let w ← r.wordTally?
  let lapses ← r.lapses? w t now
  if lapses then return .lapsed
  else
    let passes ← r.passes? w t entrenched
    return if passes then .passed else .rejected

/-- So few seats that their shares can be compared in words, and no more ballots than seats. -/
structure IsCountable (r : Round) : Prop where
  seats : r.panel.length ≤ Word.countable
  ballots : r.ballots.length ≤ r.panel.length

theorem total_tally (r : Round) : r.tally.total = r.ballots.length := by
  have hsplit : r.ballots.length = _ :=
    List.length_eq_countP_add_countP (fun b : Ballot => b.approve)
  simpa [Tally.total, tally] using hsplit.symm

theorem IsCountable.exists_wordTally? (h : r.IsCountable) :
    ∃ w, r.wordTally? = some w ∧ w.Counts r.tally := by
  have hcast : r.ballots.length ≤ Word.countable := h.ballots.trans h.seats
  have hle : r.ballots.countP (fun b => b.approve) ≤ r.ballots.length := List.countP_le_length
  obtain ⟨yes, hyes, hyesNat⟩ :=
    Word.exists_ofNat? ((hle.trans hcast).trans_lt Word.countable_lt_size)
  obtain ⟨cast, hcastWord, hcastNat⟩ := Word.exists_ofNat? (hcast.trans_lt Word.countable_lt_size)
  obtain ⟨no, hno, hnoNat⟩ :=
    Word.exists_sub? (show yes.toNat ≤ cast.toNat by rwa [hyesNat, hcastNat])
  obtain ⟨seats, hseats, hseatsNat⟩ := Word.exists_ofNat? (h.seats.trans_lt Word.countable_lt_size)
  have htotal := r.total_tally
  refine ⟨⟨yes, no, seats⟩, ?_, hyesNat, ?_, hseatsNat, htotal ▸ hcast, h.seats⟩
  · simp only [wordTally?, hyes, hcastWord, hno, hseats, Option.bind_eq_bind, Option.bind_some,
      Option.pure_def]
  · rw [Tally.total] at htotal
    change no.toNat = r.tally.no
    have hyesTally : r.tally.yes = r.ballots.countP (fun b => b.approve) := rfl
    omega

theorem lapses?_eq (h : w.Counts r.tally) (hpercent : t.lapseParticipation.toNat ≤ 100) :
    r.lapses? w t now =
      some (Decidable.decide (r.DeadlinePassed now ∧
        ¬r.tally.ParticipationReaches t.lapseParticipation.toNat)) := by
  rw [lapses?, h.participationReaches?_eq hpercent]
  split
  · rename_i hpast
    simp [hpast]
  · rename_i hopen
    simp [hopen]

theorem passes?_eq (h : w.Counts r.tally) (hparticipation : t.entrenchedParticipation.toNat ≤ 100)
    (hsupermajority : t.supermajority.toNat ≤ 100) :
    r.passes? w t entrenched = some (Decidable.decide (r.Passes t entrenched)) := by
  have hthreshold : r.composition.passThreshold ≤ w.yes ↔
      r.composition.passThreshold.toNat ≤ r.tally.yes := by
    rw [UInt64.le_iff_toNat_le, h.yes]
  simp only [passes?, Passes, hthreshold, h.participationReaches?_eq hparticipation,
    h.yesShareReaches?_eq hsupermajority]
  split
  · rename_i hyes
    cases entrenched with
    | false => simp [hyes]
    | true =>
      by_cases hreached : r.tally.ParticipationReaches t.entrenchedParticipation.toNat <;>
        simp [hyes, hreached]
  · rename_i hfew
    simp [hfew]

theorem IsCountable.decideInWords?_eq (h : r.IsCountable)
    (hlapse : t.lapseParticipation.toNat ≤ 100)
    (hparticipation : t.entrenchedParticipation.toNat ≤ 100)
    (hsupermajority : t.supermajority.toNat ≤ 100) :
    r.decideInWords? t entrenched now = some (r.decide t entrenched now) := by
  obtain ⟨w, hw, hcounts⟩ := h.exists_wordTally?
  simp only [decideInWords?, hw, lapses?_eq hcounts hlapse,
    passes?_eq hcounts hparticipation hsupermajority, decide, Option.bind_eq_bind, Option.bind_some,
    Option.pure_def, decide_eq_true_eq]
  split
  · rfl
  · split <;> rfl

theorem IsCountable.participationReaches_iff (h : r.IsCountable) {percent : Nat}
    (hpercent : percent ≤ 100) :
    r.tally.ParticipationReaches percent ↔ percent * r.panel.length ≤ 100 * r.ballots.length := by
  have hvotes : r.tally.total ≤ Word.countable := r.total_tally ▸ h.ballots.trans h.seats
  rw [Tally.participationReaches_iff hvotes h.seats hpercent, r.total_tally, Nat.mul_comm percent,
    Nat.mul_comm 100]
  rfl

/-- After the deadline a round lapses in which the votes are less than the percentage of the seats,
counted exactly. -/
theorem IsCountable.lapsed_iff (h : r.IsCountable) (hlapse : t.lapseParticipation.toNat ≤ 100) :
    r.decide t entrenched now = .lapsed ↔
      r.deadline ≤ now ∧ 100 * r.ballots.length < t.lapseParticipation.toNat * r.panel.length := by
  rw [decide_eq_lapsed_iff, h.participationReaches_iff hlapse, Nat.not_le]
  rfl

/-- A round that does not lapse passes if its votes, counted exactly, are what its composition and
its rules ask for. -/
theorem IsCountable.passed_iff (h : r.IsCountable) (hlapse : t.lapseParticipation.toNat ≤ 100)
    (hparticipation : t.entrenchedParticipation.toNat ≤ 100)
    (hsupermajority : t.supermajority.toNat ≤ 100) :
    r.decide t entrenched now = .passed ↔
      ¬(r.deadline ≤ now ∧ 100 * r.ballots.length < t.lapseParticipation.toNat * r.panel.length) ∧
        r.composition.passThreshold.toNat ≤ r.ballots.countP (fun b => b.approve) ∧
        (entrenched = true →
          t.entrenchedParticipation.toNat * r.panel.length ≤ 100 * r.ballots.length ∧
            0 < r.ballots.length ∧
            t.supermajority.toNat * r.ballots.length ≤
              100 * r.ballots.countP (fun b => b.approve)) := by
  have hvotes : r.tally.total ≤ Word.countable := r.total_tally ▸ h.ballots.trans h.seats
  have hyes : r.tally.yes = r.ballots.countP (fun b => b.approve) := rfl
  have hlapsed : r.decide t entrenched now = .lapsed ↔ _ := h.lapsed_iff hlapse
  rw [decide_eq_passed_iff, ← hlapsed, decide_eq_lapsed_iff, Passes,
    h.participationReaches_iff hparticipation, Tally.yesShareReaches_iff hvotes hsupermajority,
    r.total_tally, hyes, Nat.mul_comm t.supermajority.toNat, Nat.mul_comm 100 (r.ballots.countP _)]

end Round

def Word.cap? (size : UInt64) (percent : UInt8) : Option UInt64 := do
  let product ← Word.mul? size percent.toUInt64
  return max (product / 100) 1

namespace Panel

variable {candidates : List Voter} {excluded : List VoterId} {q : Quota} {d : Diversity}
  {composition : Composition}

def refusal? (q : Quota) (pool : List Voter) : Option PanelFault :=
  if pool.length < q.size then some (.tooFewCandidates q.size pool.length)
  else if q.size < q.minRegions then some (.panelTooSmall .region q.size q.minRegions)
  else if q.size < q.minOrganizations then
    some (.panelTooSmall .organization q.size q.minOrganizations)
  else if groups .region pool < q.minRegions then
    some (.tooFewGroups .region q.minRegions (groups .region pool))
  else if groups .organization pool < q.minOrganizations then
    some (.tooFewGroups .organization q.minOrganizations (groups .organization pool))
  else none

def AdmitsUpTo (cap : Nat) (seats : List Voter) (v : Voter) : Prop :=
  (∀ w ∈ seats, w.id ≠ v.id) ∧
  share .region v.affiliation.region seats < cap ∧
  share .organization v.affiliation.organization seats < cap

instance (cap : Nat) (seats : List Voter) (v : Voter) : Decidable (AdmitsUpTo cap seats v) :=
  inferInstanceAs (Decidable ((∀ _ ∈ _, _) ∧ _ ∧ _))

def seatUpTo (cap : Nat) (q : Quota) (pool : List Voter) : Except PanelFault (List Voter) :=
  let first := walk (fun seats v => groups .region seats < q.minRegions ∧
    share .region v.affiliation.region seats = 0 ∧ AdmitsUpTo cap seats v) pool []
  if groups .region first < q.minRegions then
    .error (.tooFewGroups .region q.minRegions (groups .region first))
  else
    let seats := walk (fun seats v => seats.length < q.size ∧ AdmitsUpTo cap seats v) pool first
    if seats.length < q.size then .error (.capExhausted cap seats.length q.size)
    else if groups .organization seats < q.minOrganizations then
      .error (.tooFewGroups .organization q.minOrganizations (groups .organization seats))
    else .ok seats

/-- The selection in words. The cap is asked for when nothing stands against the selection any
more. -/
def selectInWords? (candidates : List Voter) (d : Diversity) (composition : Composition)
    (excluded : List VoterId) :
    Option (Except PanelFault (List Voter)) :=
  match refusal? (d.quota composition) (pool candidates excluded) with
  | some f => some (.error f)
  | none => (Word.cap? composition.panelSize d.maxConcentration).map
      (fun cap => seatUpTo cap.toNat (d.quota composition) (pool candidates excluded))

theorem select_eq (candidates : List Voter) (q : Quota) (excluded : List VoterId) :
    select candidates q excluded =
      match refusal? q (pool candidates excluded) with
      | some f => .error f
      | none => seatUpTo q.cap q (pool candidates excluded) := by
  simp only [select, refusal?, seatRegions_eq_walk, fillSeats_eq_walk]
  split
  · rfl
  · split
    · rfl
    · split
      · rfl
      · split
        · rfl
        · split <;> rfl

theorem length_firstRows_le (rows : List Voter) : (firstRows rows).length ≤ rows.length := by
  induction rows with
  | nil => exact Nat.le_refl 0
  | cons v rows ih =>
    rw [firstRows, List.length_cons, List.length_cons]
    exact Nat.succ_le_succ ((List.length_filter_le _ _).trans ih)

theorem length_pool_le (candidates : List Voter) (excluded : List VoterId) :
    (pool candidates excluded).length ≤ candidates.length :=
  (length_firstRows_le _).trans (List.length_filter_le _ _)

theorem size_le_of_refusal? (h : refusal? q (pool candidates excluded) = none) :
    q.size ≤ candidates.length := by
  refine Nat.le_trans ?_ (length_pool_le candidates excluded)
  by_contra hshort
  rw [refusal?, if_pos (Nat.lt_of_not_le hshort)] at h
  cases h

/-- Where the cap is asked for, the panel is no larger than the roster, so its share has a word. -/
theorem exists_cap?_of_refusal? (hpercent : d.maxConcentration.toNat ≤ 100)
    (hroster : candidates.length ≤ Word.countable)
    (h : refusal? (d.quota composition) (pool candidates excluded) = none) :
    ∃ cap, Word.cap? composition.panelSize d.maxConcentration = some cap ∧
      cap.toNat = (d.quota composition).cap := by
  have hsize : composition.panelSize.toNat ≤ Word.countable := (size_le_of_refusal? h).trans hroster
  obtain ⟨product, hproduct, hnat⟩ := Word.exists_share hsize hpercent
  refine ⟨max (product / 100) 1, by rw [Word.cap?, hproduct]; rfl, ?_⟩
  rw [UInt64.toNat_max, UInt64.toNat_div, hnat]
  rfl

theorem selectInWords?_eq (hpercent : d.maxConcentration.toNat ≤ 100)
    (hroster : candidates.length ≤ Word.countable) :
    selectInWords? candidates d composition excluded =
      some (select candidates (d.quota composition) excluded) := by
  rw [selectInWords?, select_eq]
  cases h : refusal? (d.quota composition) (pool candidates excluded) with
  | some f => rfl
  | none =>
    obtain ⟨cap, hcap, hnat⟩ := exists_cap?_of_refusal? hpercent hroster h
    simp only [hcap, Option.map_some, hnat]

end Panel

theorem Quota.cap_le_size {q : Quota} (hsize : 0 < q.size) (hpercent : q.maxSharePercent ≤ 100) :
    q.cap ≤ q.size := by
  have hshare : q.size * q.maxSharePercent / 100 ≤ q.size := by
    refine Nat.div_le_of_le_mul ?_
    rw [Nat.mul_comm 100]
    exact Nat.mul_le_mul_left q.size hpercent
  exact Nat.max_le.mpr ⟨hshare, hsize⟩

end Charter
