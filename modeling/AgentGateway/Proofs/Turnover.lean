import AgentGateway.Proofs.Roster
/-!
Sessions opened and closed bit by bit. To put a session into the registry and to count it, to take
one out, to close it and to count that: each is done at once, and anything else may happen in
between. An operation is a list of such strokes, of which those that are played bring about more.
-/

namespace AgentGateway

/-- A part of opening or closing sessions that is done at once. -/
inductive Stroke where
  | enter (draws : List String) (owner : String) (kind : SessionKind) (params : SessionParams)
  | remove (id : String) (reason : CloseReason)
  | evict (timeout : Nanos) (ids : List String)
  | countOpened
  | raise
  | finish (r : SessionRef)
  | detach (r : SessionRef)
  | unthrottle (r : SessionRef)
  | release (ts : List Ticket)
  | countClosed (r : SessionRef) (reason : CloseReason)
  | lower
deriving DecidableEq

namespace Stroke

def closing (r : SessionRef) (reason : CloseReason) : List Stroke :=
  [.finish r, .countClosed r reason, .lower]

def mark? : Stroke → Option (SessionRef × CloseReason)
  | .countClosed r reason => some (r, reason)
  | _ => none

def isFirst : Stroke → Bool
  | .enter .. | .remove .. | .evict .. => true
  | _ => false

def closes (r : SessionRef) : Stroke → Bool
  | .finish q | .detach q | .unthrottle q | .countClosed q _ => q = r
  | _ => false

def rework (q : SessionRef) (s : Session) : Stroke → Session
  | .finish r =>
    if q = r ∧ s.status ≠ .closed then { s with status := .closed, pending := [] } else s
  | .detach r => if q = r then { s with outbound := s.outbound.dropSender } else s
  | .unthrottle r => if q = r then { s with limiters := none } else s
  | _ => s

end Stroke

namespace Gateway

def enter (draws : List String) (owner : String) (kind : SessionKind) (params : SessionParams)
    (g : Gateway) : Option Gateway :=
  (g.openSession draws owner kind params).map fun (_, g') => { g' with metrics := g.metrics }

def delist (r : SessionRef) (g : Gateway) : Gateway :=
  { g with live := g.live.filter (· ≠ r) }

def delistIdle (timeout : Nanos) : List String → Gateway → List SessionRef × Gateway
  | [], g => ([], g)
  | id :: ids, g =>
    match g.find? id with
    | none => delistIdle timeout ids g
    | some (r, s) =>
      if s.isIdle timeout g.now then
        let (rs, g) := delistIdle timeout ids (g.delist r)
        (r :: rs, g)
      else delistIdle timeout ids g

def finish (r : SessionRef) (g : Gateway) : List Stroke × Gateway :=
  match g.session? r with
  | none => ([], g)
  | some s =>
    if s.status = .closed then ([], g)
    else ([.detach r, .unthrottle r, .release (s.pending.map (·.ticket))],
      g.setSession r { s with status := .closed, pending := [] })

def revise (r : SessionRef) (f : Session → Session) (g : Gateway) : Gateway :=
  (g.amend r f).getD g

def play (x : Stroke) (g : Gateway) : Option (List Stroke × Gateway) :=
  match x with
  | .enter draws owner kind params =>
    (g.enter draws owner kind params).map fun g' => ([.countOpened, .raise], g')
  | .remove id reason =>
    match g.find? id with
    | none => some ([], g)
    | some (r, _) => some (Stroke.closing r reason, g.delist r)
  | .evict timeout ids =>
    let (rs, g) := g.delistIdle timeout ids
    some (rs.flatMap (Stroke.closing · .idle), g)
  | .countOpened => some ([], { g with metrics.created := g.metrics.created + 1 })
  | .raise => some ([], { g with metrics.active := g.metrics.active + 1 })
  | .finish r => some (g.finish r)
  | .detach r =>
    some ([], g.revise r fun s => { s with outbound := s.outbound.dropSender })
  | .unthrottle r => some ([], g.revise r fun s => { s with limiters := none })
  | .release ts => some ([], ts.foldl (fun g t => (g.settleTicket t .cancelled).2) g)
  | .countClosed _ reason =>
    some ([], { g with metrics.closed := g.metrics.closed.record reason.label })
  | .lower => some ([], { g with metrics.active := g.metrics.active - 1 })

end Gateway

inductive Operation where
  | create (draws : List String) (owner : String) (kind : SessionKind) (params : SessionParams)
  | close (id : String) (reason : CloseReason)
  | shutdown
  | evictIdle (timeout : Nanos)
  | disconnect (ids : List String)

/-- What an operation does, of which the lists go on side by side. Who is there to be closed is
looked up when it begins. -/
def Operation.tasks (g : Gateway) : Operation → List (List Stroke)
  | .create draws owner kind params => [[.enter draws owner kind params]]
  | .close id reason => [[.remove id reason]]
  | .shutdown => g.liveIds.map fun id => [.remove id .shutdown]
  | .evictIdle timeout =>
    let idle := g.live.filterMap fun r =>
      (g.session? r).bind fun s => if s.isIdle timeout g.now then some s.id else none
    [[.evict timeout idle]]
  | .disconnect ids => [ids.map (.remove · .disconnected)]

structure Registrar where
  gateway : Gateway
  tasks : List (List Stroke) := []

inductive Move where
  | act (a : Act)
  | begin (o : Operation)
  | play (i : Nat)

def Act.isShut : Act → Bool
  | .shut _ => true
  | _ => false

def Gateway.departed (a : Act) (g g' : Gateway) : List (SessionRef × CloseReason) :=
  (g.live.filter (· ∉ g'.live)).map (·, g.cause a)

namespace Registrar

def due (x : Registrar) : List Stroke := x.tasks.flatten

/-- Makes a move, and tells which sessions it counts as closed. Sessions are closed through the
registry only. -/
def advance (m : Move) (x : Registrar) : Option (List (SessionRef × CloseReason) × Registrar) :=
  match m with
  | .act a =>
    if a.isShut then none
    else (x.gateway.perform a).map fun g' =>
      (x.gateway.departed a g', { x with gateway := g' })
  | .begin o => some ([], { x with tasks := x.tasks ++ o.tasks x.gateway })
  | .play i =>
    match x.tasks[i]? with
    | some (st :: rest) =>
      (x.gateway.play st).map fun (more, g') =>
        (st.mark?.toList, ⟨g', x.tasks.set i (more ++ rest)⟩)
    | _ => none

def replay : List Move → Registrar → Option (List (SessionRef × CloseReason) × Registrar)
  | [], x => some ([], x)
  | m :: ms, x => do
    let (log, y) ← x.advance m
    let (log', z) ← y.replay ms
    some (log ++ log', z)

def Closing (r : SessionRef) (x : Registrar) : Prop := ∃ st ∈ x.due, st.closes r = true

def Settled (x : Registrar) : Prop := ∀ st ∈ x.due, st.isFirst = true

end Registrar

structure Session.Onward (s s' : Session) : Prop where
  named : s'.id = s.id
  advanced : s.status.rank ≤ s'.status.rank
  attached : s'.outbound.attached = true → s.outbound.attached = true

namespace Session.Onward

variable {s s' s'' : Session}

theorem refl (s : Session) : s.Onward s := ⟨rfl, Nat.le_refl _, fun h => h⟩

theorem trans (h : s.Onward s') (k : s'.Onward s'') : s.Onward s'' where
  named := k.named.trans h.named
  advanced := Nat.le_trans h.advanced k.advanced
  attached ha := h.attached (k.attached ha)

theorem of_ages (h : s.Ages s') : s.Onward s' := ⟨h.named, h.advanced, h.attached⟩

theorem closed (h : s.Onward s') (hc : s.status = .closed) : s'.status = .closed := by
  have hrank := h.advanced
  rw [hc] at hrank
  cases hs' : s'.status with
  | closed => rfl
  | connecting | connected =>
      rw [hs'] at hrank
      exact absurd hrank (by decide)

theorem of_rework (q : SessionRef) (s : Session) (st : Stroke) : s.Onward (st.rework q s) := by
  cases st with
  | finish r =>
      rw [Stroke.rework]
      split
      · exact ⟨rfl, s.status.rank_le_closed, fun h => h⟩
      · exact refl s
  | detach r =>
      rw [Stroke.rework]
      split
      · exact ⟨rfl, Nat.le_refl _, fun h => by cases h⟩
      · exact refl s
  | unthrottle r =>
      rw [Stroke.rework]
      split
      · exact ⟨rfl, Nat.le_refl _, fun h => h⟩
      · exact refl s
  | _ => exact refl s

end Session.Onward

namespace Gateway

variable {g g' g'' : Gateway} {r q : SessionRef} {s s' : Session} {st : Stroke}
  {more : List Stroke} {reason : CloseReason} {a : Act}

inductive Plays : List Stroke → Gateway → List (SessionRef × CloseReason) → Gateway → Prop
  | nil {g : Gateway} : Plays [] g [] g
  | cons {st : Stroke} {rest more : List Stroke} {g g₁ g' : Gateway}
      {log log' : List (SessionRef × CloseReason)} : g.play st = some (more, g₁) →
      Plays (more ++ rest) g₁ log g' → log' = st.mark?.toList ++ log → Plays (st :: rest) g log' g'

theorem setSession_setSession : (g.setSession r s).setSession r s' = g.setSession r s' := by
  simp [setSession]

theorem revise_eq {f : Session → Session} (hs : g.session? r = some s) :
    g.revise r f = g.setSession r (f s) := by
  simp [revise, amend, hs]

theorem plays_openSession {draws : List String} {owner : String} {kind : SessionKind}
    {params : SessionParams} (h : g.openSession draws owner kind params = some (r, g')) :
    Plays [.enter draws owner kind params] g [] g' := by
  have henter : g.play (.enter draws owner kind params) =
      some ([.countOpened, .raise], { g' with metrics := g.metrics }) := by
    simp [play, enter, h]
  refine .cons henter (.cons rfl (.cons rfl ?_ rfl) rfl) rfl
  obtain ⟨id, -, heq⟩ := Option.map_eq_some_iff.mp h
  cases heq
  exact .nil

theorem plays_finish {rest : List Stroke} {log : List (SessionRef × CloseReason)}
    (h : Plays rest (g.shut r).2 log g') : Plays (.finish r :: rest) g log g' := by
  cases hs : g.session? r with
  | none =>
      have hfinish : g.play (.finish r) = some ([], g) := by simp [play, finish, hs]
      exact .cons hfinish (by simpa [shut, hs] using h) rfl
  | some s =>
      by_cases hc : s.status = .closed
      · have hfinish : g.play (.finish r) = some ([], g) := by simp [play, finish, hs, hc]
        exact .cons hfinish (by simpa [shut, hs, Session.close, hc] using h) rfl
      · have hfinish : g.play (.finish r) = some
            ([.detach r, .unthrottle r, .release (s.pending.map (·.ticket))],
              g.setSession r { s with status := .closed, pending := [] }) := by
          simp [play, finish, hs, hc]
        refine .cons hfinish (.cons rfl (.cons rfl (.cons rfl ?_ rfl) rfl) rfl) rfl
        rw [revise_eq (session?_setSession_self hs), setSession_setSession,
          revise_eq (session?_setSession_self hs), setSession_setSession]
        simpa [shut, hs, Session.close, hc] using h

theorem plays_closing :
    Plays (Stroke.closing r reason) (g.delist r) [(r, reason)] (g.retire r reason) :=
  plays_finish (.cons rfl (.cons rfl .nil rfl) rfl)

variable {draws : List String} {owner : String} {kind : SessionKind} {params : SessionParams}

theorem play_enter (h : g.play (.enter draws owner kind params) = some (more, g')) :
    ∃ r g₁, g.openSession draws owner kind params = some (r, g₁) ∧
      g' = { g₁ with metrics := g.metrics } ∧ more = [.countOpened, .raise] := by
  obtain ⟨g₂, hg₂, heq⟩ := Option.map_eq_some_iff.mp h
  obtain ⟨⟨r, g₁⟩, hopen, rfl⟩ := Option.map_eq_some_iff.mp hg₂
  cases heq
  exact ⟨r, g₁, hopen, rfl, rfl⟩

theorem delistIdle_eq (timeout : Nanos) (ids : List String) (g : Gateway) :
    ∃ live, live.Sublist g.live ∧ (g.delistIdle timeout ids).2 = { g with live } := by
  induction ids generalizing g with
  | nil => exact ⟨g.live, .refl _, rfl⟩
  | cons id ids ih =>
      rw [delistIdle]
      split
      · exact ih g
      · rename_i r s _
        split
        · obtain ⟨live, hsub, heq⟩ := ih (g.delist r)
          exact ⟨live, hsub.trans List.filter_sublist, heq⟩
        · exact ih g

theorem session?_revise {f : Session → Session} :
    (g.revise r f).session? q = (g.session? q).map fun s => if q = r then f s else s := by
  cases hs : g.session? r with
  | none =>
      have hsame : g.revise r f = g := by simp [revise, amend, hs]
      rw [hsame]
      by_cases hq : q = r
      · rw [hq, hs, Option.map_none]
      · simp [hq]
  | some s =>
      rw [revise_eq hs, session?_setSession hs]
      by_cases hq : q = r
      · simp [hq, hs]
      · simp [hq]

theorem roster_revise {f : Session → Session} (hf : ∀ s, (f s).isClosed = s.isClosed) :
    (g.revise r f).roster = g.roster := by
  unfold revise
  cases h : g.amend r f with
  | none => rfl
  | some g' => exact roster_amend hf h

theorem session?_finish :
    (g.finish r).2.session? q = (g.session? q).map fun s => Stroke.rework q s (.finish r) := by
  unfold finish
  cases hs : g.session? r with
  | none =>
      by_cases hq : q = r
      · rw [hq, hs]
        rfl
      · simp [Stroke.rework, hq]
  | some s =>
      dsimp only
      split
      · rename_i hc
        by_cases hq : q = r
        · simp [Stroke.rework, hq, hs, hc]
        · simp [Stroke.rework, hq]
      · rename_i hc
        rw [session?_setSession hs]
        by_cases hq : q = r
        · simp [Stroke.rework, hq, hs, hc]
        · simp [Stroke.rework, hq]

theorem session?_settleEach {state : WaiterState} (ts : List Ticket) :
    (ts.foldl (fun g t => (g.settleTicket t state).2) g).session? q = g.session? q := by
  have hboard : (ts.foldl (fun g t => (g.settleTicket t state).2) g).boardWith (fun _ => none) = _ :=
    boardWith_settleAll ts g
  exact ((congrArg (fun b : Board => b.line q) hboard).trans (congrFun Board.line_settleAll q) :)

structure Reworked (st : Stroke) (g g' : Gateway) : Prop where
  inner : g'.inner = g.inner
  live : g'.live.Sublist g.live
  sessions : ∀ q, g'.session? q = (g.session? q).map fun s => st.rework q s

theorem reworked_revise {f : Session → Session}
    (hf : ∀ q s, st.rework q s = if q = r then f s else s) : Reworked st g (g.revise r f) := by
  have hsessions (q : SessionRef) :
      (g.revise r f).session? q = (g.session? q).map fun s => st.rework q s := by
    simp only [session?_revise, hf]
  cases hs : g.session? r with
  | none =>
      have hsame : g.revise r f = g := by simp [revise, amend, hs]
      exact ⟨congrArg inner hsame, congrArg Gateway.live hsame ▸ .refl _, hsessions⟩
  | some s =>
      have hset : g.revise r f = g.setSession r (f s) := revise_eq hs
      have hlive : (g.revise r f).live = g.live := (congrArg Gateway.live hset :)
      exact ⟨(congrArg inner hset :), hlive ▸ .refl _, hsessions⟩

theorem reworked_finish : Reworked (.finish r) g (g.finish r).2 where
  sessions _ := session?_finish
  inner := by
    unfold finish
    split
    · rfl
    · split <;> rfl
  live := by
    unfold finish
    split
    · exact .refl _
    · split <;> exact .refl _

theorem reworked_play (h : g.play st = some (more, g'))
    (hst : ∀ draws owner kind params, st ≠ .enter draws owner kind params) :
    Reworked st g g' := by
  have hsame (q : SessionRef) : g.session? q = (g.session? q).map fun s => s :=
    (Option.map_id' ..).symm
  cases st with
  | enter draws owner kind params => exact absurd rfl (hst draws owner kind params)
  | remove id reason =>
      unfold play at h
      dsimp only at h
      split at h <;> cases h
      · exact ⟨rfl, .refl _, hsame⟩
      · exact ⟨rfl, List.filter_sublist, hsame⟩
  | evict timeout ids =>
      obtain ⟨live, hsub, heq⟩ := delistIdle_eq timeout ids g
      cases h
      rw [heq]
      exact ⟨rfl, hsub, hsame⟩
  | countOpened | raise | countClosed | lower =>
      cases h
      exact ⟨rfl, .refl _, hsame⟩
  | finish r =>
      obtain rfl : _ = g' := congrArg Prod.snd (Option.some.inj h)
      exact reworked_finish
  | detach r | unthrottle r =>
      cases h
      exact reworked_revise fun _ _ => rfl
  | release ts =>
      cases h
      have hroster : (ts.foldl (fun g t => (g.settleTicket t .cancelled).2) g).roster = g.roster :=
        roster_settleEach ts
      have hlive : (ts.foldl (fun g t => (g.settleTicket t .cancelled).2) g).live = g.live :=
        congrArg Roster.live hroster
      exact ⟨inner_settleEach ts, hlive ▸ .refl _, fun q => (session?_settleEach ts).trans (hsame q)⟩

end Gateway

end AgentGateway
