import AgentGateway.Proofs.Activity
import AgentGateway.Proofs.Consistency
import AgentGateway.Proofs.Kindred
import AgentGateway.Proofs.Way
/-!
The sweeps of a sweeper, bit by bit. A sweep notes the ids of the sessions that are idle, looks each
of them up again, takes out of the registry those that are still idle, and closes them afterwards.
Anything else may happen in between: sessions are heard or closed, and others are opened.
-/

namespace AgentGateway

def Sweeper.isDue (now : Nanos) (w : Sweeper) : Bool := !w.finished && w.wakesAt.any (· ≤ now)

/-- What is left of a sweep: the ids that are still to be looked up again, and the sessions that
have been taken out of the registry and are still to be closed. -/
structure Round where
  timeout : Nanos
  suspects : List String
  taken : List SessionRef := []

namespace Gateway

def idleIds (timeout : Nanos) (g : Gateway) : List String :=
  g.live.filterMap fun r =>
    (g.session? r).bind fun s => if s.isIdle timeout g.now then some s.id else none

def discharge (r : SessionRef) (reason : CloseReason) (g : Gateway) : Gateway :=
  let g := (g.shut r).2
  { g with metrics := g.metrics.sessionClosed reason }

def rearm (p : ProcessId) (g : Gateway) : Gateway :=
  (g.sweeper? p).elim g fun w => g.setProcess p (.sweeper { w with wakesAt := none })

end Gateway

namespace Round

def recheck (g : Gateway) (k : Round) : Option (Gateway × Round) :=
  match k.suspects with
  | [] => none
  | id :: suspects =>
    let found := g.delistIdle k.timeout [id]
    some (found.2, { k with suspects, taken := k.taken ++ found.1 })

def discharge (g : Gateway) (k : Round) : Option (Gateway × Round) :=
  match k.suspects, k.taken with
  | [], r :: taken => some (g.discharge r .idle, { k with taken })
  | _, _ => none

end Round

structure Sweeping where
  gateway : Gateway
  round : Option Round := none

namespace Sweeping

/-- An act upon the gateway, the steps of the process among them, or a part of a sweep. -/
inductive Move where
  | act (a : Act)
  | look
  | recheck
  | discharge
  | rest

def Move.isOwn (p : ProcessId) : Move → Bool
  | .act a => a.isStepOf p
  | _ => true

/-- In the course of a sweep that is taken bit by bit, the process takes no other step. -/
def step (p : ProcessId) (x : Sweeping) : Move → Option Sweeping
  | .act a =>
    if a.isStepOf p && x.round.isSome then none
    else (x.gateway.perform a).map ({ x with gateway := · })
  | .look => do
    let w ← x.gateway.sweeper? p
    if x.round.isNone ∧ w.isDue x.gateway.now = true then
      some { x with round := some ⟨w.idleTimeout, x.gateway.idleIds w.idleTimeout, []⟩ }
    else none
  | .recheck => (x.round.bind (Round.recheck x.gateway)).map fun y => ⟨y.1, some y.2⟩
  | .discharge => (x.round.bind (Round.discharge x.gateway)).map fun y => ⟨y.1, some y.2⟩
  | .rest => do
    let k ← x.round
    if k.suspects = [] ∧ k.taken = [] then some ⟨x.gateway.rearm p, none⟩ else none

def taken (x : Sweeping) : List SessionRef := x.round.elim [] Round.taken

abbrev Moment := Transit Sweeping Move

namespace Moment

def ofRun (x : AgentGateway.Moment) : Moment := ⟨⟨x.before, none⟩, .act x.act, ⟨x.after, none⟩⟩

def act? (y : Moment) : Option AgentGateway.Moment :=
  match y.move with
  | .act a => some ⟨y.before.gateway, a, y.after.gateway⟩
  | _ => none

structure Evicts (p : ProcessId) (r : SessionRef) (y : Moment) : Prop where
  own : y.move.isOwn p = true
  before : r ∈ y.before.gateway.live
  after : r ∉ y.after.gateway.live

structure Closes (p : ProcessId) (r : SessionRef) (s : Session) (y : Moment) : Prop where
  own : y.move.isOwn p = true
  before : y.before.gateway.session? r = some s
  opened : s.status ≠ .closed
  after : ∃ s', y.after.gateway.session? r = some s' ∧ s'.status = .closed

end Moment

end Sweeping

namespace Gateway

variable {p : ProcessId} {g g' : Gateway} {r q : SessionRef} {s : Session} {w w' : Sweeper}
  {reason : CloseReason} {t : Ticket} {T : Nanos}

theorem sweeper?_eq (h : g.process? p = some (.sweeper w)) : g.sweeper? p = some w := by
  rw [sweeper?, h]

theorem sweeper?_setProcess (h : g.sweeper? p = some w) :
    (g.setProcess p (.sweeper w')).sweeper? p = some w' := by
  refine sweeper?_eq ?_
  rw [process?_setProcess, if_pos rfl, process?_of_sweeper? h, Option.map_some]

theorem sweeper?_of_inner (h : g'.inner = g.inner) : g'.sweeper? p = g.sweeper? p := by
  rw [sweeper?, sweeper?, process?_of_inner h]

theorem rearm_eq (hw : g.sweeper? p = some w) :
    g.rearm p = g.setProcess p (.sweeper { w with wakesAt := none }) := by
  rw [rearm, hw]
  rfl

theorem sweeper?_rearm (h : g.sweeper? p = some w) :
    (g.rearm p).sweeper? p = some { w with wakesAt := none } := by
  rw [rearm_eq h]
  exact sweeper?_setProcess h

theorem desk_rearm : (g.rearm p).desk = g.desk := by
  unfold rearm
  cases g.sweeper? p <;> rfl

theorem spares_rearm (hn : g.Numbered) : Spares (some p) g (g.rearm p) := by
  unfold rearm
  cases g.sweeper? p with
  | none => exact spares_of_inner hn rfl
  | some w => exact spares_setProcess hn

theorem inner_discharge : (g.discharge r reason).inner = g.inner := inner_shut

theorem shut_eq {ts : List Ticket} (hs : g.session? r = some s) (hc : s.close = some (ts, s')) :
    (g.shut r).2 = ts.foldl (fun g t => (g.settleTicket t .cancelled).2) (g.setSession r s') := by
  rw [shut, hs, Option.bind_some, hc]

theorem waiterState_settleAll (ts : List Ticket) (g : Gateway) :
    (ts.foldl (fun g t => (g.settleTicket t .cancelled).2) g).waiterState t =
      if t ∈ ts then .cancelled else g.waiterState t := by
  have hwaiter : (ts.foldl (fun g t => (g.settleTicket t .cancelled).2) g).waiter? t =
      ((g.boardWith fun _ => none).settleAll ts .cancelled).waiter t := by
    rw [← boardWith_settleAll]
    rfl
  rw [waiterState, hwaiter, Board.waiter_settleAll]
  split
  · rw [Option.map_map]
    cases Board.waiter _ t <;> rfl
  · rfl

theorem waiterState_shut (hs : g.session? r = some s) (hopen : s.status ≠ .closed)
    {e : Pending} (he : e ∈ s.pending) : (g.shut r).2.waiterState e.ticket = .cancelled := by
  have hclose : ∃ s', s.close = some (s.pending.map (·.ticket), s') := by
    simp [Session.close, hopen]
  obtain ⟨s', hclose⟩ := hclose
  rw [shut_eq hs hclose, waiterState_settleAll, if_pos (List.mem_map_of_mem he)]

theorem cancelled_shut (h : g.waiterState t = .cancelled) :
    (g.shut r).2.waiterState t = .cancelled := by
  cases hs : g.session? r with
  | none =>
      rw [shut, hs]
      exact h
  | some s =>
      cases hc : s.close with
      | none =>
          rw [shut, hs, Option.bind_some, hc]
          exact h
      | some x =>
          rw [shut_eq hs hc, waiterState_settleAll]
          split
          · rfl
          · exact h

theorem cancelled_retireEach (rs : List SessionRef) (h : g.waiterState t = .cancelled) :
    (rs.foldl (fun g r => g.retire r reason) g).waiterState t = .cancelled := by
  induction rs generalizing g with
  | nil => exact h
  | cons r rs ih => exact ih (cancelled_shut (g := { g with live := g.live.filter (· ≠ r) }) h)

theorem waiterState_retireEach {rs : List SessionRef} (hr : r ∈ rs) (hs : g.session? r = some s)
    (hopen : s.status ≠ .closed) {e : Pending} (he : e ∈ s.pending) :
    (rs.foldl (fun g r => g.retire r reason) g).waiterState e.ticket = .cancelled := by
  induction rs generalizing g with
  | nil => cases hr
  | cons q rs ih =>
      by_cases hq : r = q
      · subst hq
        exact cancelled_retireEach rs
          (waiterState_shut (g := { g with live := g.live.filter (· ≠ r) }) hs hopen he)
      · refine ih ((List.mem_cons.mp hr).resolve_left hq) ?_
        rw [session?_retire, hs, Option.map_some, if_neg hq]

theorem session?_retireEach {rs : List SessionRef} (hr : r ∉ rs) :
    (rs.foldl (fun g r => g.retire r reason) g).session? r = g.session? r := by
  induction rs generalizing g with
  | nil => rfl
  | cons q rs ih =>
      rw [List.mem_cons, not_or] at hr
      refine (ih hr.2).trans ?_
      rw [session?_retire]
      simp only [if_neg hr.1]
      exact Option.map_id_apply

theorem closed_retireEach {rs : List SessionRef} (hr : r ∈ rs)
    (hs : (rs.foldl (fun g r => g.retire r reason) g).session? r = some s) :
    s.status = .closed := by
  induction rs generalizing g with
  | nil => cases hr
  | cons q rs ih =>
      by_cases hlater : r ∈ rs
      · exact ih hlater hs
      · obtain rfl := (List.mem_cons.mp hr).resolve_right hlater
        rw [List.foldl_cons, session?_retireEach hlater] at hs
        exact closed_shut (g := { g with live := g.live.filter (· ≠ r) }) hs

def idlers (timeout : Nanos) (g : Gateway) : List SessionRef :=
  g.live.filter fun r => (g.session? r).any (·.isIdle timeout g.now)

theorem live_evictIdle : (g.evictIdle T).2.live = g.live.filter (· ∉ g.idlers T) :=
  live_retireEach (g.idlers T) g

theorem mem_idlers (hr : r ∈ g.live) (hs : g.session? r = some s) :
    r ∈ g.idlers T ↔ s.isIdle T g.now = true := by
  simp [idlers, hr, hs]

structure Stills (g g' : Gateway) : Prop where
  now : g'.now = g.now
  live : g'.live.Sublist g.live
  sessions : ∀ r, (g'.session? r).map Session.stamp = (g.session? r).map Session.stamp

theorem stills_of_desk (h : g'.desk = g.desk) : Stills g g' where
  now := congrArg Desk.now h
  live := by
    have hlive : g'.live = g.live := congrArg Desk.live h
    exact hlive ▸ .refl _
  sessions r := congrArg (Option.map Session.stamp) (session?_of_desk h)

theorem stills_delist : Stills g (g.delist r) where
  now := rfl
  live := List.filter_sublist
  sessions _ := rfl

theorem stills_discharge : Stills g (g.discharge r reason) where
  now := now_shut
  live := by
    have hlive : (g.discharge r reason).live = g.live := live_shut
    exact hlive ▸ .refl _
  sessions _ := stamp_shut

theorem stills_evictIdle : Stills g (g.evictIdle T).2 where
  now := now_retireEach _ _
  live := by
    rw [live_evictIdle]
    exact List.filter_sublist
  sessions _ := stamp_retireEach _ _

namespace Stills

theorem back (h : Stills g g') {s' : Session} (hs' : g'.session? r = some s') :
    ∃ s, g.session? r = some s ∧ s'.id = s.id ∧ s'.lastActivity = s.lastActivity := by
  have hstamp := h.sessions r
  rw [hs', Option.map_some] at hstamp
  obtain ⟨s, hs, heq⟩ := Option.map_eq_some_iff.mp hstamp.symm
  exact ⟨s, hs, (congrArg Prod.fst heq).symm, (congrArg Prod.snd heq).symm⟩

theorem enlisted (h : Stills g g') (he : g.Enlisted) : g'.Enlisted := by
  have hlength : g'.sessions.length = g.sessions.length := by
    refine length_of_sessions fun q => ?_
    have hstamp := congrArg Option.isSome (h.sessions q)
    rwa [Option.isSome_map, Option.isSome_map] at hstamp
  refine he.thin hlength (fun r s' hs' => ?_) h.live
  obtain ⟨s, hs, hid, -⟩ := h.back hs'
  exact ⟨s, hs, hid⟩

theorem dated {ms : List AgentGateway.Moment} (h : Stills g g') (hd : g.Dated ms) :
    g'.Dated ms := fun r => (activity_of_stamp (h.sessions r)).trans (hd r)

end Stills

end Gateway

namespace Sweeping

open Gateway

variable {p : ProcessId} {T i : Nanos} {g g' : Gateway} {r q : SessionRef} {s s' : Session}
  {a : Act} {x x' : Sweeping} {w w' : Sweeper} {k : Round} {id : String}

theorem step_act (h : x.step p (.act a) = some x') :
    (a = .control p → x.round = none) ∧ x.gateway.perform a = some x'.gateway ∧
      x'.round = x.round := by
  obtain ⟨hne, h⟩ := Option.ite_none_left_eq_some.mp h
  obtain ⟨g, hg, rfl⟩ := Option.map_eq_some_iff.mp h
  refine ⟨?_, hg, rfl⟩
  rintro rfl
  simpa [Act.isStepOf] using hne

inductive Turn (g : Gateway) (w : Sweeper) : Sweeper → Gateway → Prop
  | finish {g' : Gateway} : g'.desk = g.desk → Turn g w { w with finished := true } g'
  | sleep {g' : Gateway} : w.wakesAt = none → g'.desk = g.desk →
      Turn g w { w with wakesAt := some (g.now + w.interval) } g'
  | sweep {g' : Gateway} {t : Nanos} : w.wakesAt = some t → t ≤ g.now →
      g'.desk = (g.evictIdle w.idleTimeout).2.desk → Turn g w { w with wakesAt := none } g'

theorem turn_control? (hw : g.sweeper? p = some w) (h : g.control? p = some g') :
    ∃ w', g'.sweeper? p = some w' ∧ Turn g w w' g' := by
  obtain ⟨z, hz, h⟩ := Option.bind_eq_some_iff.mp h
  cases (process?_of_sweeper? hw).symm.trans hz
  obtain ⟨w', g₁, hsweep, rfl⟩ := of_staged h
  have hsweeper (hi : g₁.inner = g.inner) : (g₁.setProcess p (.sweeper w')).sweeper? p = some w' :=
    sweeper?_setProcess ((sweeper?_of_inner hi).trans hw)
  unfold sweep? at hsweep
  split at hsweep
  · cases hsweep
  · split at hsweep
    · cases hsweep
      exact ⟨_, hsweeper inner_clearTimer, .finish (desk_clearTimer (p := p))⟩
    · split at hsweep
      · cases hsweep
        exact ⟨_, hsweeper inner_setTimer, .sleep ‹_› (desk_setTimer (p := p))⟩
      · split at hsweep <;> cases hsweep
        exact ⟨_, hsweeper inner_evictIdle, .sweep ‹_› ‹_› rfl⟩

theorem Turn.stills (h : Turn g w w' g') : Stills g g' := by
  cases h with
  | finish hdesk | sleep _ hdesk => exact stills_of_desk hdesk
  | sweep _ _ hdesk =>
      have hstills : Stills g (g.evictIdle w.idleTimeout).2 := stills_evictIdle
      have hlive : g'.live = (g.evictIdle w.idleTimeout).2.live := congrArg Desk.live hdesk
      exact ⟨(congrArg Desk.now hdesk).trans hstills.now, hlive ▸ hstills.live, fun r => session?_of_desk hdesk ▸ hstills.sessions r⟩

theorem step_look (h : x.step p .look = some x') : ∃ w, x.gateway.sweeper? p = some w ∧
    x.round = none ∧ w.isDue x.gateway.now = true ∧
    x' = { x with round := some ⟨w.idleTimeout, x.gateway.idleIds w.idleTimeout, []⟩ } := by
  obtain ⟨w, hw, h⟩ := Option.bind_eq_some_iff.mp h
  obtain ⟨⟨hround, hdue⟩, h⟩ := Option.ite_none_right_eq_some.mp h
  exact ⟨w, hw, Option.isNone_iff_eq_none.mp hround, hdue, (Option.some.inj h).symm⟩

inductive Rechecked (id : String) (ids : List String) (k : Round) (g : Gateway) :
    Gateway → Round → Prop
  | gone {r : SessionRef} {s : Session} : g.find? id = some (r, s) →
      s.isIdle k.timeout g.now = true →
      Rechecked id ids k g (g.delist r) { k with suspects := ids, taken := k.taken ++ [r] }
  | kept : (∀ r s, g.find? id = some (r, s) → s.isIdle k.timeout g.now = false) →
      Rechecked id ids k g g { k with suspects := ids }

theorem step_recheck (h : x.step p .recheck = some x') : ∃ k id ids g' k', x.round = some k ∧
    k.suspects = id :: ids ∧ Rechecked id ids k x.gateway g' k' ∧ x' = ⟨g', some k'⟩ := by
  obtain ⟨y, hy, rfl⟩ := Option.map_eq_some_iff.mp h
  obtain ⟨k, hk, hy⟩ := Option.bind_eq_some_iff.mp hy
  unfold Round.recheck at hy
  split at hy
  · cases hy
  · rename_i id ids hids
    cases hy
    refine ⟨k, id, ids, _, _, hk, hids, ?_, rfl⟩
    dsimp only [delistIdle]
    split
    · rename_i hnone
      rw [List.append_nil]
      exact .kept fun r s hs => by cases hnone.symm.trans hs
    · rename_i r s hs
      split
      · exact .gone hs ‹_›
      · rename_i hidle
        rw [List.append_nil]
        refine .kept fun r' s' hs' => ?_
        cases hs.symm.trans hs'
        exact eq_false_of_ne_true hidle

theorem step_discharge (h : x.step p .discharge = some x') : ∃ k r rest, x.round = some k ∧
    k.suspects = [] ∧ k.taken = r :: rest ∧
    x' = ⟨x.gateway.discharge r .idle, some { k with taken := rest }⟩ := by
  obtain ⟨y, hy, rfl⟩ := Option.map_eq_some_iff.mp h
  obtain ⟨k, hk, hy⟩ := Option.bind_eq_some_iff.mp hy
  unfold Round.discharge at hy
  split at hy <;> cases hy
  exact ⟨k, _, _, hk, ‹_›, ‹_›, rfl⟩

theorem step_rest (h : x.step p .rest = some x') : ∃ k, x.round = some k ∧ k.suspects = [] ∧
    k.taken = [] ∧ x' = ⟨x.gateway.rearm p, none⟩ := by
  obtain ⟨k, hk, h⟩ := Option.bind_eq_some_iff.mp h
  obtain ⟨⟨hsuspects, htaken⟩, h⟩ := Option.ite_none_right_eq_some.mp h
  exact ⟨k, hk, hsuspects, htaken, (Option.some.inj h).symm⟩

end Sweeping

end AgentGateway
