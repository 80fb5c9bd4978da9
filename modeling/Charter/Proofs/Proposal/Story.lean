import Charter.Event
import Charter.Proofs.Proposal.Fits
import Charter.Proofs.Round

/-! # The story of a proposal

What happened to a proposal, in order, tells its status, who has voted since it last started over,
which panels were selected and when its cooling-off window ends. -/

namespace Charter

namespace Happening

def change? : Happening → Option (Status × Status)
  | statusChanged source target => some (source, target)
  | _ => none

def voterAt? (stage : Stage) : Happening → Option VoterId
  | voteCast s voter => if s = stage then some voter else none
  | _ => none

def panelAt? (stage : Stage) : Happening → Option Nat
  | panelSelected s size => if s = stage then some size else none
  | _ => none

def windowEnd? : Happening → Option Instant
  | coolingOffStarted endsAt => some endsAt
  | _ => none

def isReset : Happening → Bool
  | phaseReset .. => true
  | _ => false

/-- What happened after the last return to the start. -/
def sinceReset (story : List Happening) : List Happening :=
  (story.reverse.takeWhile (fun h => !h.isReset)).reverse

theorem sinceReset_append {news : List Happening} (h : ∀ x ∈ news, x.isReset = false)
    (story : List Happening) :
    sinceReset (story ++ news) = sinceReset story ++ news := by
  have hnews : ∀ x ∈ news.reverse, (!x.isReset) = true := by
    intro x hx
    simp [h x (List.mem_reverse.mp hx)]
  rw [sinceReset, List.reverse_append, List.takeWhile_append_of_pos hnews, List.reverse_append,
    List.reverse_reverse, sinceReset]

theorem sinceReset_append_reset {reset : Happening} {news : List Happening}
    (hr : reset.isReset = true) (h : ∀ x ∈ news, x.isReset = false) (story : List Happening) :
    sinceReset (story ++ reset :: news) = news := by
  have hnews : ∀ x ∈ news.reverse, (!x.isReset) = true := by
    intro x hx
    simp [h x (List.mem_reverse.mp hx)]
  rw [sinceReset, List.reverse_append, List.reverse_cons, List.append_assoc,
    List.takeWhile_append_of_pos hnews]
  simp [hr]

end Happening

/-- The changes lead from one status to the other without a gap, each along an edge of the pathway
or back to the start. -/
def IsPath (entrenched : Bool) : Status → List (Status × Status) → Status → Prop
  | s, [], t => s = t
  | s, (source, target) :: rest, t =>
    source = s ∧ (source.leadsTo entrenched target = true ∨ target = .proposed) ∧
      IsPath entrenched target rest t

theorem IsPath.append {entrenched : Bool} {s t u : Status} {changes : List (Status × Status)}
    (h : IsPath entrenched s changes t) (hu : t.leadsTo entrenched u = true ∨ u = .proposed) :
    IsPath entrenched s (changes ++ [(t, u)]) u := by
  induction changes generalizing s with
  | nil => exact ⟨h.symm, hu, rfl⟩
  | cons change rest ih => exact ⟨h.1, h.2.1, ih h.2.2⟩

namespace Event

variable {op : Operation} {reply : Reply} {before after : Proposal} {stage : Stage}

def news (op : Operation) (reply : Reply) (before after : Proposal) : List Happening :=
  ofReply op reply ++ ofWindow before after ++ ofStatus before.status after.status

theorem ofReply_cases (op : Operation) (reply : Reply) : ofReply op reply = [] ∨
    (∃ stage size, ofReply op reply = [.panelSelected stage size]) ∨
    (∃ stage voter, ofReply op reply = [.voteCast stage voter]) ∨
    (∃ challenger, ofReply op reply = [.challengeFiled challenger]) ∨
    ∃ endsAt, ofReply op reply = [.coolingOffStarted endsAt] := by
  unfold ofReply
  split
  · exact .inr (.inl ⟨_, _, rfl⟩)
  · exact .inr (.inr (.inl ⟨_, _, rfl⟩))
  · exact .inr (.inr (.inr (.inl ⟨_, rfl⟩)))
  · exact .inr (.inr (.inr (.inr ⟨_, rfl⟩)))
  · exact .inl rfl

theorem ofWindow_cases (before after : Proposal) :
    ofWindow before after = [] ∨ ∃ endsAt, ofWindow before after = [.coolingOffStarted endsAt] := by
  unfold ofWindow
  split
  · cases after.coolingOff? with
    | none => exact .inl rfl
    | some w => exact .inr ⟨w.endsAt, rfl⟩
  · exact .inl rfl

theorem ofStatus_cases (s t : Status) :
    ofStatus s t = [] ∧ s = t ∨ ofStatus s t = [.statusChanged s t] ∧ s ≠ t := by
  unfold ofStatus
  split
  · exact .inl ⟨rfl, ‹_›⟩
  · exact .inr ⟨rfl, ‹_›⟩

theorem change?_news (op : Operation) (reply : Reply) (before after : Proposal) :
    (news op reply before after).filterMap Happening.change? =
      (ofStatus before.status after.status).filterMap
      Happening.change? := by
  have hreply : (ofReply op reply).filterMap Happening.change? = [] := by
    rcases ofReply_cases op reply with h | ⟨_, _, h⟩ | ⟨_, _, h⟩ | ⟨_, h⟩ | ⟨_, h⟩ <;>
      rw [h] <;> rfl
  have hwindow : (ofWindow before after).filterMap Happening.change? = [] := by
    rcases ofWindow_cases before after with h | ⟨_, h⟩ <;> rw [h] <;> rfl
  rw [news, List.filterMap_append, List.filterMap_append, hreply, hwindow, List.nil_append,
    List.nil_append]

theorem isReset_news : ∀ x ∈ news op reply before after, x.isReset = false := by
  have hreply : ∀ x ∈ ofReply op reply, x.isReset = false := by
    rcases ofReply_cases op reply with h | ⟨_, _, h⟩ | ⟨_, _, h⟩ | ⟨_, h⟩ | ⟨_, h⟩ <;>
      simp [h, Happening.isReset]
  have hwindow : ∀ x ∈ ofWindow before after, x.isReset = false := by
    rcases ofWindow_cases before after with h | ⟨_, h⟩ <;> simp [h, Happening.isReset]
  have hstatus : ∀ x ∈ ofStatus before.status after.status, x.isReset = false := by
    rcases ofStatus_cases before.status after.status with ⟨h, -⟩ | ⟨h, -⟩ <;>
      simp [h, Happening.isReset]
  intro x hx
  rcases List.mem_append.mp hx with hx | hx
  · rcases List.mem_append.mp hx with hx | hx
    · exact hreply x hx
    · exact hwindow x hx
  · exact hstatus x hx

/-- Ballots and selections are told by the reply alone. -/
theorem filterMap_news {β : Type} {g : Happening → Option β}
    (hwindow : ∀ t, g (.coolingOffStarted t) = none)
    (hstatus : ∀ s t, g (.statusChanged s t) = none) :
    (news op reply before after).filterMap g = (ofReply op reply).filterMap g := by
  have hw : (ofWindow before after).filterMap g = [] := by
    rcases ofWindow_cases before after with h | ⟨_, h⟩ <;> simp [h, hwindow]
  have hs : (ofStatus before.status after.status).filterMap g = [] := by
    rcases ofStatus_cases before.status after.status with ⟨h, -⟩ | ⟨h, -⟩ <;> simp [h, hstatus]
  rw [news, List.filterMap_append, List.filterMap_append, hw, hs, List.append_nil, List.append_nil]

end Event

namespace Proposal

open Happening (change? voterAt? panelAt? sinceReset)

variable {c : Constitution} {p q : Proposal} {now : Instant} {op : Operation} {reply : Reply}

structure IsToldBy (p : Proposal) (story : List Happening) : Prop where
  first : story.head? = some (.proposed p.proposer p.provision p.isEntrenched)
  path : IsPath p.isEntrenched .proposed (story.filterMap change?) p.status
  voters : ∀ stage, (sinceReset story).filterMap (voterAt? stage) =
    (p.ballots stage).map Ballot.voter
  panels : ∀ stage, (sinceReset story).filterMap (panelAt? stage) =
    ((p.round? stage).map (fun r => r.panel.length)).toList
  window : story.filterMap Happening.windowEnd? = (p.coolingOff?.map Window.endsAt).toList

inductive RoundNews (op : Operation) (reply : Reply) (p q : Proposal) (stage : Stage) : Prop
  | kept (round : q.round? stage = p.round? stage)
      (voters : (Event.ofReply op reply).filterMap (voterAt? stage) = [])
      (panels : (Event.ofReply op reply).filterMap (panelAt? stage) = [])
  | opened {r : Round} (vacant : p.round? stage = none) (round : q.round? stage = some r)
      (empty : r.ballots = [])
      (voters : (Event.ofReply op reply).filterMap (voterAt? stage) = [])
      (panels : (Event.ofReply op reply).filterMap (panelAt? stage) = [r.panel.length])
  | recorded {r : Round} {b : Ballot} (running : p.round? stage = some r)
      (round : q.round? stage = some { r with ballots := r.ballots ++ [b] })
      (voters : (Event.ofReply op reply).filterMap (voterAt? stage) = [b.voter])
      (panels : (Event.ofReply op reply).filterMap (panelAt? stage) = [])

theorem roundNews_of_step (hfits : p.Fits) (hs : p.Step c now op q reply) (stage : Stage) :
    RoundNews op reply p q stage := by
  cases hs with
  | @selectPanel s _ members deadline status vacant ready _ _ =>
    have hq := round?_putRound_of_selection ready s.votingStatus
      (Round.ofMembers (c.composition s) members now deadline)
      stage
    by_cases h : stage = s
    · subst h
      rw [if_pos rfl] at hq
      exact .opened vacant hq rfl rfl (by simp [Event.ofReply, panelAt?, Round.ofMembers])
    · rw [if_neg h] at hq
      exact .kept hq rfl (by simp [Event.ofReply, panelAt?, Ne.symm h])
  | @cast s voter _ _ r r' _ _ _ running record =>
    obtain ⟨-, -, -, -, _, -, rfl⟩ := Round.record_eq_ok_iff.mp record
    by_cases h : stage = s
    · subst h
      exact .recorded running ((round?_putRound_of_round running _ stage).trans (if_pos rfl))
        (by simp [Event.ofReply, voterAt?]) rfl
    · exact .kept ((round?_putRound_of_round running _ stage).trans (if_neg h))
        (by simp [Event.ofReply, voterAt?, Ne.symm h]) rfl
  | close _ _ _ concludes => exact .kept (round?_of_concludes concludes stage) rfl rfl
  | challenge status _ =>
    obtain ⟨⟨r, s, hrounds⟩, -⟩ := hfits.of_status status
    refine .kept ?_ rfl rfl
    cases stage with
    | challenge => simp [round?, hrounds, Rounds.set]
    | proposal | ratification | confirmation => rfl
  | advance _ _ leaves => exact .kept (round?_of_leaves leaves stage) rfl rfl
  | startCoolingOff _ idle _ =>
    exact .kept (by cases stage <;> simp [round?, idle, Track.round?]) rfl rfl
  | withdraw => exact .kept (round?_stamp ..) rfl rfl
  | apply => exact .kept (round?_stamp ..) rfl rfl

theorem ofWindow_eq_nil (h : q.status ≠ .coolingOff ∨ p.status = q.status) :
    Event.ofWindow p q = [] := by
  refine if_neg ?_
  rintro ⟨-, hq, hne⟩
  rcases h with h | h
  · exact h hq
  · exact hne h

theorem ofWindow_of_leaves (hl : Leaves c now p q)
    (hs : p.status = .challengeWindow ∨ p.status = .challengeVoting) :
    (p.coolingOff?.map Window.endsAt).toList ++
      (Event.ofWindow p q).filterMap Happening.windowEnd? =
      (q.coolingOff?.map Window.endsAt).toList := by
  cases hl with
  | confirmed =>
    rw [ofWindow_eq_nil (.inl (by simp)), coolingOff?_stamp, List.filterMap_nil, List.append_nil]
  | @waits endsAt entrenched =>
    have hne : p.status ≠ .coolingOff := by rcases hs with hs | hs <;> simp [hs]
    simp [Event.ofWindow, coolingOff?, entrenched, Track.window?, hne, Happening.windowEnd?]

theorem window_of_step (hs : p.Step c now op q reply) :
    (p.coolingOff?.map Window.endsAt).toList ++
      (Event.news op reply p q).filterMap Happening.windowEnd? =
      (q.coolingOff?.map Window.endsAt).toList := by
  have hstatus : (Event.ofStatus p.status q.status).filterMap Happening.windowEnd? = [] := by
    rcases Event.ofStatus_cases p.status q.status with ⟨h, -⟩ | ⟨h, -⟩ <;> rw [h] <;> rfl
  rw [Event.news, List.filterMap_append, List.filterMap_append, hstatus, List.append_nil]
  cases hs with
  | @selectPanel stage =>
    rw [ofWindow_eq_nil (.inl (by cases stage <;> simp [Stage.votingStatus])), coolingOff?_putRound]
    exact List.append_nil _
  | cast =>
    rw [ofWindow_eq_nil (.inr (status_putRound ..).symm), coolingOff?_putRound]
    exact List.append_nil _
  | close status _ _ concludes =>
    cases concludes with
    | lapsed | rejected | confirmation =>
      rw [ofWindow_eq_nil (.inl (by simp)), coolingOff?_stamp]
      exact List.append_nil _
    | proposal | ratification =>
      rw [ofWindow_eq_nil (.inl (by simp))]
      exact List.append_nil _
    | challenge leaves => exact ofWindow_of_leaves leaves (.inr status)
  | challenge =>
    rw [ofWindow_eq_nil (.inl (by simp))]
    exact List.append_nil _
  | advance status _ leaves => exact ofWindow_of_leaves leaves (.inl status)
  | @startCoolingOff endsAt _ idle _ =>
    rw [ofWindow_eq_nil (p := p)
      (q := { p with track := some (.coolingOff ⟨now, endsAt⟩) }) (.inr rfl)]
    simp [coolingOff?, idle, Track.window?, Event.ofReply, Happening.windowEnd?]
  | withdraw =>
    rw [ofWindow_eq_nil (.inl (by simp)), coolingOff?_stamp]
    exact List.append_nil _
  | apply =>
    rw [ofWindow_eq_nil (.inl (by simp)), coolingOff?_stamp]
    exact List.append_nil _

theorem IsToldBy.submitted (id : UInt64) (proposer : VoterId) (key : String)
    (current proposed : Json) (justification : String) (entrenched : Bool) :
    (submitted id proposer key current proposed justification entrenched now).IsToldBy
      [.proposed proposer key entrenched] := by
  have hround : ∀ stage,
      (Proposal.submitted id proposer key current proposed justification entrenched now).round?
      stage = none :=
    round?_submitted id proposer key current proposed justification entrenched
  refine ⟨?_, rfl, ?_, ?_, ?_⟩
  · cases entrenched <;> rfl
  · intro stage
    rw [ballots, hround]
    rfl
  · intro stage
    rw [hround]
    rfl
  · cases entrenched <;> rfl

theorem IsToldBy.of_step {story : List Happening} (h : p.IsToldBy story) (hfits : p.Fits)
    (hs : p.Step c now op q reply) : q.IsToldBy (story ++ Event.news op reply p q) := by
  have hsame := SameSubmission.of_step hs
  have hsince : sinceReset (story ++ Event.news op reply p q) =
      sinceReset story ++ Event.news op reply p q :=
    Happening.sinceReset_append Event.isReset_news story
  constructor
  · rw [hsame.proposer, hsame.provision, hsame.isEntrenched, List.head?_append, h.first]
    rfl
  · rw [hsame.isEntrenched, List.filterMap_append, Event.change?_news]
    rcases Event.ofStatus_cases p.status q.status with ⟨hnil, heq⟩ | ⟨hone, hne⟩
    · rw [hnil, List.filterMap_nil, List.append_nil, ← heq]
      exact h.path
    · rw [hone]
      refine h.path.append (.inl ?_)
      rcases leadsTo_of_step hs with heq | hleads
      · exact absurd heq.symm hne
      · exact hleads
  · intro stage
    rw [hsince, List.filterMap_append, h.voters stage,
      Event.filterMap_news (fun _ => rfl) (fun _ _ => rfl)]
    cases roundNews_of_step hfits hs stage with
    | kept round voters _ => rw [voters, List.append_nil, ballots, ballots, round]
    | opened vacant round empty voters _ => simp [voters, ballots, vacant, round, empty]
    | recorded running round voters _ => simp [voters, ballots, running, round]
  · intro stage
    rw [hsince, List.filterMap_append, h.panels stage,
      Event.filterMap_news (fun _ => rfl) (fun _ _ => rfl)]
    cases roundNews_of_step hfits hs stage with
    | kept round _ panels => rw [panels, List.append_nil, round]
    | opened vacant round _ _ panels => simp [panels, vacant, round]
    | recorded running round _ panels => simp [panels, running, round]
  · rw [List.filterMap_append, h.window]
    exact window_of_step hs

/-- A proposal that starts over has no rounds: while a chamber was open, none was confirming yet. -/
theorem IsToldBy.restarted {story : List Happening} (h : p.IsToldBy story) (hidle : p.IsIdle)
    (chamber : Chamber) (phase : String) :
    p.restarted.IsToldBy (story ++
      [.phaseReset chamber phase, .statusChanged p.status .proposed]) := by
  have hround : ∀ stage, p.restarted.round? stage = none := round?_eq_none_of_idle rfl hidle
  have hsince :
      sinceReset (story ++ [.phaseReset chamber phase, .statusChanged p.status .proposed]) =
      [.statusChanged p.status .proposed] :=
    Happening.sinceReset_append_reset rfl (by simp [Happening.isReset]) story
  constructor
  · rw [List.head?_append, h.first]
    rfl
  · rw [List.filterMap_append]
    exact h.path.append (.inr rfl)
  · intro stage
    rw [hsince, ballots, hround]
    rfl
  · intro stage
    rw [hsince, hround]
    rfl
  · rw [List.filterMap_append, h.window]
    exact List.append_nil _

end Proposal

end Charter
