import Charter.Proofs.Record.Kept

/-! # Reloading a docket

A docket reached from an empty or a restored one can be kept as records and restored at any time.
Nothing is lost by it but the events that nobody had taken. -/

namespace Charter.Docket

open Constitution (InForce)

variable {c : Constitution} {d e : Docket} {now : Instant}

theorem toNat_succ {id : UInt64} (h : id.toNat + 1 < UInt64.size) :
    (id + 1).toNat = id.toNat + 1 := by
  rw [UInt64.toNat_add, UInt64.toNat_one]
  exact Nat.mod_eq_of_lt h

/-- The proposals stand in order under their own numbers, and the next number is the least above all
of them. -/
structure Orderly (d : Docket) : Prop where
  ascending : d.proposals.Ascending
  filed : ∀ id p, d.get? id = some p → p.id = id
  room : ∀ id p, d.get? id = some p → id.toNat + 1 < UInt64.size
  above : ∀ id p, d.get? id = some p → id.toNat < d.nextId.toNat
  least : d.nextId = 1 ∨ ∃ id p, d.get? id = some p ∧ d.nextId = id + 1

theorem orderly_empty (c : Constitution) : (empty c).Orderly := by
  refine ⟨List.Pairwise.nil, ?_, ?_, ?_, .inl rfl⟩ <;> intro id p h <;> cases h

/-- The number after all proposals is above every number that a docket with these proposals can give
next. -/
theorem Orderly.nextId_le (hd : d.Orderly) (he : e.Orderly) (h : d.proposals = e.proposals) :
    d.nextId.toNat ≤ e.nextId.toNat := by
  have hget : ∀ id, d.get? id = e.get? id := fun id => congrArg (fun t => Table.get? t id) h
  rcases hd.least with hn | ⟨id, p, hp, hn⟩
  · rw [hn]
    rcases he.least with hn' | ⟨id, p, hp, hn'⟩
    · exact Nat.le_of_eq (congrArg UInt64.toNat hn'.symm)
    · rw [hn', toNat_succ (he.room id p hp), UInt64.toNat_one]
      omega
  · have hroom := hd.room id p hp
    rw [hget] at hp
    have habove := he.above id p hp
    rw [hn, toNat_succ hroom]
    omega

theorem Orderly.nextId_eq (hd : d.Orderly) (he : e.Orderly) (h : d.proposals = e.proposals) :
    d.nextId = e.nextId :=
  UInt64.toNat_inj.mp (Nat.le_antisymm (hd.nextId_le he h) (he.nextId_le hd h.symm))

theorem Orderly.insert {p : Proposal} {n : UInt64} (hd : d.Orderly) (free : d.get? p.id = none)
    (room : p.id.toNat + 1 < UInt64.size) (hn : n = max d.nextId (p.id + 1)) (events : List Event) :
    Orderly { d with proposals := d.proposals.insert p.id p, nextId := n, events := events } := by
  have hsucc := toNat_succ room
  have hmax : n.toNat = max d.nextId.toNat (p.id.toNat + 1) := by
    rw [hn, UInt64.toNat_max, hsucc]
  refine ⟨Table.ascending_insert hd.ascending _ _, ?_, ?_, ?_, ?_⟩
  · intro id q hq
    rcases Table.get?_insert_eq_some hq with ⟨rfl, rfl⟩ | ⟨-, hq⟩
    · rfl
    · exact hd.filed id q hq
  · intro id q hq
    rcases Table.get?_insert_eq_some hq with ⟨rfl, -⟩ | ⟨-, hq⟩
    · exact room
    · exact hd.room id q hq
  · intro id q hq
    rw [hmax]
    rcases Table.get?_insert_eq_some hq with ⟨rfl, -⟩ | ⟨-, hq⟩
    · omega
    · have habove := hd.above id q hq
      omega
  · rcases Nat.le_total (p.id.toNat + 1) d.nextId.toNat with hle | hle
    · have hnext : n = d.nextId := UInt64.toNat_inj.mp (by omega)
      rcases hd.least with h | ⟨id, q, hq, h⟩
      · exact .inl (hnext.trans h)
      · refine .inr ⟨id, q, ?_, hnext.trans h⟩
        have hne : id ≠ p.id := by
          rintro rfl
          rw [free] at hq
          cases hq
        simp only [get?, Table.get?_insert, if_neg hne]
        exact hq
    · have hnext : n = p.id + 1 := UInt64.toNat_inj.mp (by omega)
      refine .inr ⟨p.id, p, ?_, hnext⟩
      simp only [get?, Table.get?_insert, if_true]

theorem Orderly.replace {id : UInt64} {p q : Proposal} (hd : d.Orderly) (found : d.get? id = some p)
    (hq : q.id = p.id) (events : List Event) :
    Orderly { d with proposals := d.proposals.insert id q, events := events } := by
  have hid := hd.filed id p found
  have hget : ∀ j r, Table.get? (d.proposals.insert id q) j = some r →
      (d.get? j).isSome = true := by
    intro j r hr
    rcases Table.get?_insert_eq_some hr with ⟨rfl, -⟩ | ⟨-, hr⟩
    · rw [found]
      rfl
    · rw [get?, hr]
      rfl
  refine ⟨Table.ascending_insert hd.ascending _ _, ?_, ?_, ?_, ?_⟩
  · intro j r hr
    rcases Table.get?_insert_eq_some hr with ⟨rfl, rfl⟩ | ⟨-, hr⟩
    · rw [hq, hid]
    · exact hd.filed j r hr
  · intro j r hr
    obtain ⟨r', hr'⟩ := Option.isSome_iff_exists.mp (hget j r hr)
    exact hd.room j r' hr'
  · intro j r hr
    obtain ⟨r', hr'⟩ := Option.isSome_iff_exists.mp (hget j r hr)
    exact hd.above j r' hr'
  · refine hd.least.imp (fun h => h) ?_
    rintro ⟨j, r, hr, hn⟩
    by_cases hj : j = id
    · subst hj
      exact ⟨j, q, by simp only [get?, Table.get?_insert, if_true], hn⟩
    · refine ⟨j, r, ?_, hn⟩
      simp only [get?, Table.get?_insert, if_neg hj]
      exact hr

theorem Orderly.mapProposals {f : Proposal → Proposal} (hd : d.Orderly) (hf : ∀ p, (f p).id = p.id)
    (c : Constitution) (events : List Event) :
    Orderly { d with
      constitution := c, proposals := d.proposals.map (fun e => (e.1, f e.2)),
      events := events } := by
  have hget : ∀ j q, Table.get? (d.proposals.map (fun e => (e.1, f e.2))) j = some q →
      ∃ p, d.get? j = some p ∧ f p = q := by
    intro j q hq
    rw [Table.get?_map, Option.map_eq_some_iff] at hq
    exact hq
  refine ⟨Table.ascending_map hd.ascending f, ?_, ?_, ?_, ?_⟩
  · intro j q hq
    obtain ⟨p, hp, rfl⟩ := hget j q hq
    rw [hf]
    exact hd.filed j p hp
  · intro j q hq
    obtain ⟨p, hp, -⟩ := hget j q hq
    exact hd.room j p hp
  · intro j q hq
    obtain ⟨p, hp, -⟩ := hget j q hq
    exact hd.above j p hp
  · refine hd.least.imp (fun h => h) ?_
    rintro ⟨j, p, hp, hn⟩
    refine ⟨j, f p, ?_, hn⟩
    rw [get?, Table.get?_map, Option.map_eq_some_iff]
    exact ⟨p, hp, rfl⟩

theorem Orderly.free (hd : d.Orderly) : d.get? d.nextId = none := by
  cases h : d.get? d.nextId with
  | none => rfl
  | some p => exact absurd (hd.above _ p h) (Nat.lt_irrefl _)

theorem Orderly.filed_of_mem (hd : d.Orderly) : ∀ entry ∈ d.proposals, entry.2.id = entry.1 := by
  intro entry hentry
  exact hd.filed _ _ (Table.get?_of_mem hd.ascending hentry)

theorem Orderly.mem_values_iff {p : Proposal} (hd : d.Orderly) :
    p ∈ d.proposals.values ↔ d.get? p.id = some p := by
  constructor
  · intro hp
    obtain ⟨entry, hentry, rfl⟩ := List.mem_map.mp hp
    rw [hd.filed_of_mem entry hentry]
    exact Table.get?_of_mem hd.ascending hentry
  · intro hp
    exact List.mem_map_of_mem (Table.mem_of_get? hp)

theorem Orderly.step {a : Action} {answer : Answer} (hd : d.Orderly) (hs : Step d now a e answer) :
    e.Orderly := by
  cases hs with
  | propose _ _ _ room =>
    refine hd.insert (p := d.submission ..) hd.free room ?_ _
    have hlt : d.nextId ≤ d.nextId + 1 := by
      rw [UInt64.le_iff_toNat_le, toNat_succ room]
      omega
    simp [Max.max, submission, Proposal.submitted, hlt]
  | operate found step => exact hd.replace found (Proposal.SameSubmission.of_step step).id _
  | changePhase => exact hd.mapProposals (fun p => (Proposal.sameSubmission_underNewPhase p).id) _ _
  | drain => exact ⟨hd.ascending, hd.filed, hd.room, hd.above, hd.least⟩

structure Sound (d : Docket) : Prop where
  constitution : d.constitution.check = none
  orderly : d.Orderly
  recordable : d.All Record.IsRecordable

theorem sound_empty (h : c.check = none) : (empty c).Sound := ⟨h, orderly_empty c, all_empty _⟩

theorem Sound.step {a : Action} {answer : Answer} (hd : d.Sound) (hs : Step d now a e answer) :
    e.Sound where
  constitution := (inForce_step hs (.refl hd.constitution)).sound
  orderly := hd.orderly.step hs
  recordable := (kept_isRecordable d.constitution).all_step hs (.refl hd.constitution) hd.recordable

theorem Sound.run (hd : d.Sound) (requests : List (Action × Instant)) : (d.run requests).Sound :=
  run_induction (fun hs hd => hd.step hs) hd requests

theorem enroll_eq_ok_iff {p : Proposal} :
    d.enroll p = .ok e ↔ d.get? p.id = none ∧ p.id.toNat + 1 < UInt64.size ∧
    e = { d with proposals := d.proposals.insert p.id p, nextId := max d.nextId (p.id + 1) } := by
  simp only [enroll, except_bind_eq_ok_iff, require_eq_ok_iff, pure_eq_ok_iff, exists_const,
    Option.isNone_iff_eq_none]
  refine and_congr_right fun _ => and_congr_right fun _ => ?_
  exact eq_comm

theorem enrollAll_frame {records : List Record} (h : d.enrollAll records = .ok e) :
    e.constitution = d.constitution ∧ e.events = d.events := by
  induction records generalizing d with
  | nil =>
    cases h
    exact ⟨rfl, rfl⟩
  | cons r records ih =>
    simp only [enrollAll, except_bind_eq_ok_iff] at h
    obtain ⟨p, -, d', henroll, h⟩ := h
    obtain ⟨-, -, rfl⟩ := enroll_eq_ok_iff.mp henroll
    obtain ⟨hc, hevents⟩ := ih h
    exact ⟨hc, hevents⟩

theorem Sound.enroll {p : Proposal} (hd : d.Sound) (hp : Record.IsRecordable p)
    (h : d.enroll p = .ok e) : e.Sound := by
  obtain ⟨free, room, rfl⟩ := enroll_eq_ok_iff.mp h
  refine ⟨hd.constitution, hd.orderly.insert free room rfl d.events, ?_⟩
  intro id q hq
  rcases Table.get?_insert_eq_some hq with ⟨-, rfl⟩ | ⟨-, hq⟩
  · exact hp
  · exact hd.recordable id q hq

theorem Sound.enrollAll {records : List Record} (hd : d.Sound) (h : d.enrollAll records = .ok e) :
    e.Sound := by
  induction records generalizing d with
  | nil =>
    cases h
    exact hd
  | cons r records ih =>
    simp only [Docket.enrollAll, except_bind_eq_ok_iff] at h
    obtain ⟨p, hp, d', hd', h⟩ := h
    exact ih (hd.enroll (Record.isRecordable_of_toProposal hp) hd') h

theorem restore_eq_ok_iff {records : List Record} :
    restore c records = .ok d ↔ c.check = none ∧ (empty c).enrollAll records = .ok d := by
  unfold restore
  split
  · rename_i flaw hcreate
    have hflawed : c.check ≠ none := by
      intro hc
      rw [create_eq_ok_iff.mpr ⟨hc, rfl⟩] at hcreate
      cases hcreate
    simp [hflawed]
  · rename_i d₀ hcreate
    obtain ⟨hc, rfl⟩ := create_eq_ok_iff.mp hcreate
    simp [hc]

theorem sound_of_restore {records : List Record} (h : restore c records = .ok d) : d.Sound := by
  obtain ⟨hc, henroll⟩ := restore_eq_ok_iff.mp h
  exact (sound_empty hc).enrollAll henroll

theorem enrollAll_records {later : Table UInt64 Proposal}
    (ascending : (d.proposals ++ later).Pairwise (fun a b => a.1 < b.1))
    (entries : ∀ e ∈ later, e.2.id = e.1 ∧ e.1.toNat + 1 < UInt64.size ∧ Record.IsRecordable e.2) :
    ∃ n, d.enrollAll (later.map (fun e => Record.ofProposal e.2)) =
      .ok { d with proposals := d.proposals ++ later, nextId := n } := by
  -- each proposal goes to the end of the table, since its number is above all that are there
  induction later generalizing d with
  | nil => exact ⟨d.nextId, by simp [enrollAll]⟩
  | cons entry later ih =>
    obtain ⟨id, p⟩ := entry
    obtain ⟨hid, room, hp⟩ := entries (id, p) List.mem_cons_self
    simp only at hid hp
    subst hid
    have hbelow : ∀ e ∈ d.proposals, e.1 < p.id := by
      intro e he
      exact (List.pairwise_append.mp ascending).2.2 e he (p.id, p) List.mem_cons_self
    have hfree : d.get? p.id = none :=
      Table.get?_eq_none_iff.mpr (fun e he => Std.ne_of_lt (hbelow e he))
    have henroll := enroll_eq_ok_iff.mpr ⟨hfree, room, rfl⟩
    rw [Table.insert_of_forall_lt hbelow] at henroll
    obtain ⟨n, hn⟩ := ih (d := { d with
      proposals := d.proposals ++ [(p.id, p)], nextId := max d.nextId (p.id + 1) })
      (by simpa using ascending) (fun e he => entries e (List.mem_cons_of_mem _ he))
    refine ⟨n, ?_⟩
    simp only [List.map_cons, enrollAll, except_bind_eq_ok_iff]
    exact ⟨p, Record.toProposal_ofProposal hp, _, henroll, by simpa using hn⟩

theorem Sound.restore_records (hd : d.Sound) :
    restore d.constitution d.records = .ok { d with events := [] } := by
  have hentries : ∀ e ∈ d.proposals, e.2.id = e.1 ∧ e.1.toNat + 1 < UInt64.size ∧
      Record.IsRecordable e.2 := by
    intro e he
    have hget : d.get? e.1 = some e.2 := Table.get?_of_mem hd.orderly.ascending he
    exact ⟨hd.orderly.filed _ _ hget, hd.orderly.room _ _ hget, hd.recordable _ _ hget⟩
  obtain ⟨n, hn⟩ := enrollAll_records (d := empty d.constitution) hd.orderly.ascending hentries
  have hrestore : restore d.constitution d.records =
      .ok { empty d.constitution with proposals := d.proposals, nextId := n } := by
    rw [restore, create_eq_ok_iff.mpr ⟨hd.constitution, rfl⟩, records, Table.values, List.map_map]
    exact hn
  -- the next number is not kept with the records, but it is determined by them
  have hnext : n = d.nextId := (sound_of_restore hrestore).orderly.nextId_eq hd.orderly rfl
  rw [hrestore, hnext]
  rfl

def ahead (pending : List Event) (d : Docket) : Docket := { d with events := pending ++ d.events }

/-- What is left of queued events after these requests: all of them, unless somebody takes them. -/
def undrained (pending : List Event) : List (Action × Instant) → List Event
  | [] => pending
  | (.drain, _) :: _ => []
  | _ :: rest => undrained pending rest

def prepended (pending : List Event) : List (Except Fault Answer) → List (Except Fault Answer)
  | [] => []
  | .ok (.drained events) :: rest => .ok (.drained (pending ++ events)) :: rest
  | answer :: rest => answer :: prepended pending rest

theorem propose_ahead (pending : List Event) (d : Docket) (proposer : VoterId) (provision : String)
    (current proposed : Json) (justification : String) :
    (d.ahead pending).propose proposer provision current proposed justification now =
      (d.propose proposer provision current proposed justification now).map
        (fun r => (r.1.ahead pending, r.2)) := by
  simp only [propose, ahead, except_map_bind, except_map_pure, List.append_assoc]
  rfl

theorem operate_ahead (pending : List Event) (d : Docket) (id : UInt64) (op : Operation) :
    (d.ahead pending).operate id op now =
      (d.operate id op now).map (fun r => (r.1.ahead pending, r.2)) := by
  simp only [operate, get?, ahead, except_map_bind, except_map_pure, List.append_assoc]

theorem changePhase_ahead (pending : List Event) (d : Docket) (phase : Phase) :
    (d.ahead pending).changePhase phase now =
      (d.changePhase phase now).map (fun r => (r.1.ahead pending, r.2)) := by
  unfold changePhase
  simp only [ahead]
  split <;> simp [Except.map]

/-- Events that are still queued change nothing but the next request to take them. -/
theorem step_ahead (pending : List Event) (d : Docket) (a : Action) (h : a ≠ .drain) :
    (d.ahead pending).step a now = ((d.step a now).1.ahead pending, (d.step a now).2) := by
  have hperform : (d.ahead pending).perform a now =
      (d.perform a now).map (fun r => (r.1.ahead pending, r.2)) := by
    cases a with
    | propose proposer provision current proposed justification =>
      rw [perform, propose_ahead, perform]
      cases d.propose proposer provision current proposed justification now <;> rfl
    | operate id op =>
      rw [perform, operate_ahead, perform]
      cases d.operate id op now <;> rfl
    | changePhase phase =>
      rw [perform, changePhase_ahead, perform]
      cases d.changePhase phase now <;> rfl
    | drain => exact absurd rfl h
  rw [step, step, hperform]
  cases d.perform a now <;> rfl

theorem step_snd_ne_drained {a : Action} (h : a ≠ .drain) (events : List Event) :
    (d.step a now).2 ≠ .ok (.drained events) := by
  intro hd
  rcases d.step_cases a now with ⟨f, hrefused⟩ | ⟨e, answer, hs, hdone⟩
  · rw [hrefused] at hd
    cases hd
  · rw [hdone] at hd
    cases hd
    cases hs
    exact h rfl

theorem prepended_cons {answer : Except Fault Answer} (h : ∀ events, answer ≠ .ok (.drained events))
    (pending : List Event) (rest : List (Except Fault Answer)) :
    prepended pending (answer :: rest) = answer :: prepended pending rest := by
  cases answer with
  | error f => rfl
  | ok a =>
    cases a with
    | drained events => exact absurd rfl (h events)
    | proposed | operated | phaseChanged => rfl

theorem undrained_cons {a : Action} (h : a ≠ .drain) (pending : List Event)
    (rest : List (Action × Instant)) :
    undrained pending ((a, now) :: rest) = undrained pending rest := by
  cases a <;> first | rfl | exact absurd rfl h

theorem run_ahead (pending : List Event) (d : Docket) (requests : List (Action × Instant)) :
    (d.ahead pending).run requests = (d.run requests).ahead (undrained pending requests) ∧
      (d.ahead pending).answers requests = prepended pending (d.answers requests) := by
  induction requests generalizing d pending with
  | nil => exact ⟨rfl, rfl⟩
  | cons request rest ih =>
    obtain ⟨a, now⟩ := request
    by_cases h : a = .drain
    · subst h
      exact ⟨rfl, rfl⟩
    · obtain ⟨hrun, hanswers⟩ := ih pending (d.step a now).1
      rw [run, answers, step_ahead pending d a h, undrained_cons h]
      refine ⟨hrun, ?_⟩
      rw [answers, prepended_cons (step_snd_ne_drained h), hanswers]

/-- A docket that was opened empty or restored can be reloaded at any point of any run. The reloaded
docket is the same without its events, and every later request is answered as without the reload, up
to the events that were pending. -/
theorem reload_is_lossless {c : Constitution} {d : Docket}
    (opened : create c = .ok d ∨ ∃ records, restore c records = .ok d)
    (before after : List (Action × Instant)) :
    ∃ e, restore (d.run before).constitution (d.run before).records = .ok e ∧
      e = { d.run before with events := [] } ∧
      (d.run before).run after = (e.run after).ahead (undrained (d.run before).events after) ∧
      (d.run before).answers after = prepended (d.run before).events (e.answers after) := by
  have hsound : d.Sound := by
    rcases opened with hcreate | ⟨records, hrestore⟩
    · obtain ⟨hc, rfl⟩ := create_eq_ok_iff.mp hcreate
      exact sound_empty hc
    · exact sound_of_restore hrestore
  refine ⟨_, (hsound.run before).restore_records, rfl, ?_⟩
  have hahead : d.run before = ahead (d.run before).events { d.run before with events := [] } := by
    simp [ahead]
  obtain ⟨hrun, hanswers⟩ :=
    run_ahead (d.run before).events { d.run before with events := [] } after
  rw [← hahead] at hrun hanswers
  exact ⟨hrun, hanswers⟩

/-- A reload in the middle of the shortest pathway, which goes on to the confirmation. -/
theorem reload_is_lossless_solo :
    ∃ e, restore soloConstitution
        ((empty soloConstitution).run ((soloRequests "fees" .null (.bool true)).take 4)).records =
        .ok e ∧
      e.events = [] ∧
      ((e.run ((soloRequests "fees" .null (.bool true)).drop 4)).get? 1).map Proposal.status =
        some .confirmed := by
  have hcreate : create soloConstitution = .ok (empty soloConstitution) := rfl
  obtain ⟨e, hrestore, he, hrun, -⟩ :=
    reload_is_lossless (.inl hcreate) ((soloRequests "fees" .null (.bool true)).take 4)
    ((soloRequests "fees" .null (.bool true)).drop 4)
  have hconstitution : ((empty soloConstitution).run
      ((soloRequests "fees" .null (.bool true)).take 4)).constitution =
      soloConstitution := by decide +kernel
  rw [hconstitution] at hrestore
  have hconfirmed :
      ((((empty soloConstitution).run ((soloRequests "fees" .null (.bool true)).take 4)).run
      ((soloRequests "fees" .null (.bool true)).drop 4)).get? 1).map Proposal.status =
        some .confirmed := by decide +kernel
  rw [hrun] at hconfirmed
  exact ⟨e, hrestore, by rw [he], hconfirmed⟩

end Charter.Docket
