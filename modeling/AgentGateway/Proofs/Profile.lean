import AgentGateway.Proofs.Correlation
import AgentGateway.Proofs.Origin
/-!
What can be read off the sessions of a gateway. Nearly all that a gateway does leaves alone the
registry, what is counted of sessions, and whatever has nothing to do with their traffic; sessions
come into the registry when they are opened, and leave it when they are closed.
-/

namespace AgentGateway

open Json (Value)

structure Profile (α : Type) where
  live : List SessionRef
  marks : List α
  census : Census
  now : Nanos

namespace Session

/-- That what is read off a session does not depend on how far it has come unless it is closed, on
its log level, or on those who wait for responses on it. -/
class Calm {α : Type} (f : Session → α) : Prop where
  transition : ∀ {s s' : Session} {target}, s.transition target = .ok s' → f s' = f s
  logLevel : ∀ (s : Session) logLevel, f { s with logLevel } = f s
  pending : ∀ (s : Session) pending, f { s with pending } = f s

class Unqueued {α : Type} (f : Session → α) : Prop where
  outbound : ∀ (s : Session) outbound, f { s with outbound } = f s

/-- That it depends neither on all of this, nor on the ids given to requests. -/
class Steady {α : Type} (f : Session → α) : Prop extends Calm f, Unqueued f where
  nextRequestId : ∀ (s : Session) nextRequestId, f { s with nextRequestId } = f s

class Unawaited {α : Type} (f : Session → α) : Prop where
  pending : ∀ (s : Session) pending, f { s with pending } = f s

class Unasked {α : Type} (f : Session → α) : Prop extends Unawaited f, Unqueued f where
  nextRequestId : ∀ (s : Session) nextRequestId, f { s with nextRequestId } = f s

variable {α : Type} {f : Session → α}

instance [Calm f] : Unawaited f := ⟨Calm.pending⟩

instance [Steady f] : Unasked f := ⟨Steady.nextRequestId⟩

end Session

theorem Process.incoming?_answering {id : String} {inbound : Channel Message} {b : Answering} :
    (Process.sessionLoop ⟨id, inbound, .answering b⟩).incoming? =
      (Process.answer id b).incoming? := by
  rcases b with (_ | _ | _) | _ | _ | _ <;> rfl

namespace Gateway

open Session (Calm Steady Unawaited Unasked Unqueued)

def profile {α : Type} (f : Session → α) (g : Gateway) : Profile α :=
  ⟨g.live, g.sessions.map f, g.metrics.census, g.now⟩

variable {α : Type} {f : Session → α} {g g' g'' : Gateway} {p : ProcessId}
  {r q : SessionRef} {s s' : Session} {t : Ticket} {m : Message} {a : Act}

theorem session?_setSession (hs : g.session? r = some s) :
    (g.setSession r s').session? q = if q = r then some s' else g.session? q := by
  have hboard : (g.setSession r s').boardWith (fun _ => none) = _ := boardWith_setSession hs
  exact ((congrArg (fun b : Board => b.line q) hboard).trans Board.line_setLine :)

theorem session?_setSession_self (hs : g.session? r = some s) :
    (g.setSession r s').session? r = some s' := by rw [session?_setSession hs, if_pos rfl]

theorem profile_of_desk (h : g'.desk = g.desk) : g'.profile f = g.profile f :=
  (congrArg (fun d : Desk => (⟨d.live, d.sessions.map f, d.census, d.now⟩ : Profile α)) h :)

theorem getElem?_profile : (g.profile f).marks[r]? = (g.session? r).map f := List.getElem?_map

theorem mark_of_profile (h : g'.profile f = g.profile f) :
    (g'.session? r).map f = (g.session? r).map f := by
  rw [← getElem?_profile, ← getElem?_profile, h]

theorem set_profile (hs : g.session? r = some s) :
    (g.profile f).marks.set r (f s) = (g.profile f).marks := by
  have hr : (g.profile f).marks[r]? = some (f s) := by
    rw [getElem?_profile, hs, Option.map_some]
  obtain ⟨hr, heq⟩ := List.getElem?_eq_some_iff.mp hr
  rw [← heq, List.set_getElem_self]

theorem profile_setSession_eq : (g.setSession r s).profile f =
    { g.profile f with marks := (g.profile f).marks.set r (f s) } := by
  simp [profile, setSession, List.map_set]

theorem profile_setSession (hs : g.session? r = some s) (hf : f s' = f s) :
    (g.setSession r s').profile f = g.profile f := by
  rw [profile_setSession_eq, hf, set_profile hs]

theorem profile_amend {h : Session → Session} (hf : ∀ s, f (h s) = f s)
    (ha : g.amend r h = some g') : g'.profile f = g.profile f := by
  obtain ⟨s, hs, rfl⟩ := Option.map_eq_some_iff.mp ha
  exact profile_setSession hs (hf s)

@[simp] theorem profile_settleTicket {state : WaiterState} :
    (g.settleTicket t state).2.profile f = g.profile f := by
  unfold settleTicket
  split
  · rfl
  · exact (profile_of_desk (desk_wakeAll _)).trans rfl

theorem profile_settleEach {state : WaiterState} (ts : List Ticket) :
    (ts.foldl (fun g t => (g.settleTicket t state).2) g).profile f = g.profile f := by
  induction ts generalizing g with
  | nil => rfl
  | cons t ts ih => exact ih.trans profile_settleTicket

variable {params : Option Value} {v : Value} {name : String} {request : RequestId}
  {method : Method}

theorem profile_cancelTask (h : g.cancelTask params = .ok (v, g')) :
    g'.profile f = g.profile f := by
  simp only [cancelTask, bind_eq_ok] at h
  obtain ⟨p, -, ⟨task, token, store⟩, -, h⟩ := h
  cases h
  cases token with
  | none => rfl
  | some k => exact profile_of_desk (desk_signal (g := g) (k := k))

theorem profile_orElse {x : Except Fault (Value × Gateway)}
    (hx : ∀ v g', x = .ok (v, g') → g'.profile f = g.profile f) :
    (g.orElse x).2.profile f = g.profile f := by
  cases x with
  | error f => rfl
  | ok y => exact hx _ _ rfl

@[simp] theorem profile_dispatchTask :
    (g.dispatchTask method r s request params).2.profile f = g.profile f := by
  unfold dispatchTask
  split
  · split
    · rename_i hb
      obtain ⟨p, headers, timestamp, task, store, -, -, rfl⟩ := beginTask_spec hb
      rfl
    · rfl
  · split
    · rename_i hb
      obtain ⟨p, headers, timestamp, task, store, -, -, rfl⟩ := beginTask_spec hb
      exact profile_of_desk (desk_spawn (g := g.sent store))
    · rfl
  · rfl
  · exact profile_orElse fun _ _ => profile_cancelTask

section Unawaited

variable [Unawaited f]

theorem profile_takePending {id : RequestId} {e : Pending}
    (h : (g.session? r).bind (Session.takePending? id) = some (e, s')) :
    (g.setSession r s').profile f = g.profile f := by
  obtain ⟨s, hs, h⟩ := Option.bind_eq_some_iff.mp h
  obtain ⟨e', -, heq⟩ := Option.map_eq_some_iff.mp h
  cases heq
  exact profile_setSession hs (Unawaited.pending s _)

@[simp] theorem profile_cancelPending {id : RequestId} :
    (g.cancelPending r id).2.profile f = g.profile f := by
  unfold cancelPending
  split
  · rfl
  · rename_i h
    exact profile_settleTicket.trans (profile_takePending h)

@[simp] theorem profile_resolve : (g.resolve r m).2.profile f = g.profile f := by
  unfold resolve
  split
  · rfl
  · rename_i h
    obtain ⟨id, -, h⟩ := Option.bind_eq_some_iff.mp h
    exact profile_settleTicket.trans (profile_takePending h)

@[simp] theorem profile_dropHandle {h : Handle} : (g.dropHandle h).profile f = g.profile f :=
  profile_cancelPending

end Unawaited

section Calm

variable [Calm f]

theorem profile_connect (h : g.connect r = .ok g') : g'.profile f = g.profile f := by
  unfold connect at h
  split at h
  · rename_i hm
    cases h
    obtain ⟨s₀, hs₀, hmark⟩ := Option.map_eq_some_iff.mp hm
    exact profile_setSession hs₀ (Calm.transition hmark)
  · cases h
  · cases h
    rfl

theorem profile_handshake (h : g.handshake r params = .ok (v, g')) :
    g'.profile f = g.profile f := by
  unfold handshake at h
  cases params with
  | none =>
      obtain ⟨g₁, hc, h⟩ := bind_eq_ok.mp h
      cases h
      exact profile_connect hc
  | some _ =>
      obtain ⟨-, -, h⟩ := bind_eq_ok.mp h
      obtain ⟨g₁, hc, h⟩ := bind_eq_ok.mp h
      cases h
      exact profile_connect hc

theorem profile_setLogLevel (hs : g.session? r = some s)
    (h : g.setLogLevel r s params = .ok (v, g')) : g'.profile f = g.profile f := by
  simp only [setLogLevel, bind_eq_ok] at h
  obtain ⟨level, -, h⟩ := h
  split at h <;> cases h
  exact profile_setSession hs (Calm.logLevel s _)

theorem profile_dispatchTool (hs : g.session? r = some s) :
    (g.dispatchTool method r s params).2.profile f = g.profile f := by
  unfold dispatchTool
  split
  case h_11 => exact profile_orElse fun _ _ => profile_setLogLevel hs
  case h_4 | h_7 => split <;> rfl
  all_goals rfl

theorem profile_dispatch (hs : g.session? r = some s) :
    (g.dispatch name r s request params).2.profile f = g.profile f := by
  unfold dispatch
  split
  · split <;> rfl
  · split
    · split
      · rfl
      · split
        · rfl
        · rename_i g₁ hg₁
          refine profile_dispatchTask.trans ?_
          split at hg₁
          · exact profile_connect hg₁
          · cases hg₁
            rfl
    · split
      · exact profile_orElse fun _ _ => profile_handshake
      · split
        · rfl
        · split
          · rfl
          · split
            · rfl
            · exact profile_dispatchTool hs

@[simp] theorem profile_handleRequest :
    (g.handleRequest name r request params).2.profile f = g.profile f := by
  unfold handleRequest
  split
  · rfl
  · rename_i s hs
    have hd : (g.dispatch name r s request params).2.profile f = g.profile f := profile_dispatch hs
    split
    all_goals
      rename_i h
      rw [h] at hd
      exact hd

@[simp] theorem profile_handleNotification :
    (g.handleNotification name r).profile f = g.profile f := by
  unfold handleNotification
  split
  · cases h : g.connect r with
    | error _ => rfl
    | ok g' => exact profile_connect h
  · rfl

@[simp] theorem profile_handleValid : (g.handleValid r m).2.profile f = g.profile f := by
  unfold handleValid
  split <;> simp

theorem profile_handle {id : String} (hget : g.get id = .ok (r, s)) :
    (g.handle id m).2.profile f = (g.validate r s m).2.profile f := by
  unfold handle
  rw [hget]
  dsimp only
  split
  · rename_i h
    rw [h]
    rfl
  · rename_i h
    rw [h]
    exact profile_handleValid

end Calm

theorem profile_handle? {h h' : Handling} (hstep : g.handle? h = some (h', g'))
    (hidle : ∀ id m, h ≠ .start id m) : g'.profile f = g.profile f := by
  cases h with
  | start id m => exact absurd rfl (hidle id m)
  | running i request n =>
      obtain ⟨e, -, heq⟩ := Option.map_eq_some_iff.mp hstep
      cases heq
      rfl
  | calling request poll =>
      obtain ⟨reply, -, heq⟩ := Option.map_eq_some_iff.mp hstep
      cases heq
      rfl
  | done reply => cases hstep

theorem profile_clearTimer : (g.clearTimer p).profile f = g.profile f := rfl

theorem profile_setProcess {x : Process} : (g.setProcess p x).profile f = g.profile f := rfl

theorem profile_setInbound {l : SessionLoop} {c : Channel Message} :
    (g.setInbound p l c).profile f = g.profile f := by
  unfold setInbound
  dsimp only
  split
  · exact profile_of_desk (desk_wake.trans desk_setProcess)
  · rfl

section Unqueued

variable [Unqueued f]

theorem profile_setOutbound {c : Channel Message} (hs : g.session? r = some s) :
    (g.setSession r { s with outbound := c }).profile f = g.profile f :=
  profile_setSession hs (Unqueued.outbound s c)

@[simp] theorem profile_offer : (g.offer r m).2.profile f = g.profile f := by
  unfold offer
  split
  · rfl
  · rename_i hs
    split
    · rfl
    · split
      · rfl
      · exact profile_setOutbound hs

theorem profile_attempt (hs : g.session? r = some s) :
    (match s.outbound.offerFor p m with
      | (.sent, outbound) => (DeliveryState.sent, g.setSession r { s with outbound })
      | (.full, outbound) => (.pending (.waiting m), g.setSession r { s with outbound })
      | (.disconnected, _) => (.failed (.disconnected s.id), g)).2.profile f = g.profile f := by
  split
  · exact profile_setOutbound hs
  · exact profile_setOutbound hs
  · rfl

@[simp] theorem profile_deliver {d : Delivery} : (g.deliver p r d).2.profile f = g.profile f := by
  unfold deliver
  cases hs : g.session? r with
  | none => rfl
  | some s =>
      cases d with
      | fresh m =>
          dsimp only
          split
          · exact profile_attempt hs
          · rfl
      | waiting m => exact profile_attempt hs

theorem profile_of_deliver {d : Delivery} {x : DeliveryState} (h : g.deliver p r d = (x, g')) :
    g'.profile f = g.profile f := by
  have hd : (g.deliver p r d).2.profile f = g.profile f := profile_deliver
  rwa [h] at hd

@[simp] theorem profile_abandon : (g.abandon p r).profile f = g.profile f := by
  unfold abandon
  split
  · rfl
  · rename_i hs
    exact (profile_of_desk (desk_wakeAll _)).trans (profile_setOutbound hs)

theorem profile_receive? (h : g.receive? r = some (m, g')) : g'.profile f = g.profile f := by
  obtain ⟨s, hs, h⟩ := Option.bind_eq_some_iff.mp h
  obtain ⟨⟨m', woken, c⟩, -, h⟩ := Option.bind_eq_some_iff.mp h
  cases h
  exact (profile_of_desk (desk_wakeAll _)).trans (profile_setOutbound hs)

@[simp] theorem profile_dropReceiver : (g.dropReceiver r).profile f = g.profile f := by
  unfold dropReceiver
  split
  · rfl
  · rename_i hs
    exact (profile_of_desk (desk_wakeAll _)).trans (profile_setOutbound hs)

@[simp] theorem profile_tellEach (pending : List (SessionRef × Delivery)) (n : Notice) :
    (g.tellEach p pending n).2.2.profile f = g.profile f := by
  induction pending generalizing g n with
  | nil => rfl
  | cons x pending ih =>
      obtain ⟨r, d⟩ := x
      exact (ih _).trans profile_deliver

theorem profile_abandonEach (rs : List (SessionRef × Delivery)) :
    (rs.foldl (fun g (r, _) => g.abandon p r) g).profile f = g.profile f := by
  induction rs generalizing g with
  | nil => rfl
  | cons r rs ih => exact ih.trans profile_abandon

end Unqueued

section Unasked

variable [Unasked f]

theorem profile_register {id : RequestId} {method : String} (hs : g.session? r = some s)
    (h : g.register r s id method = .ok (t, g')) : g'.profile f = g.profile f := by
  obtain ⟨s', hreg, h⟩ := bind_eq_ok.mp h
  cases h
  obtain ⟨-, rfl⟩ := Session.register_spec hreg
  exact profile_setSession (g := (g.takeTicket none).2) hs (Unawaited.pending s _)

theorem profile_answer? {id : String} {b b' : Answering} (h : g.answer? p id b = some (b', g'))
    (hidle : (Process.answer id b).incoming? = none) : g'.profile f = g.profile f := by
  unfold answer? at h
  split at h
  · cases h
    rfl
  · cases h
    rfl
  · obtain ⟨⟨h', g''⟩, hh, heq⟩ := Option.map_eq_some_iff.mp h
    cases heq
    exact profile_handle? hh (by rintro id m rfl; cases hidle)
  · split at h <;> cases h <;> rfl
  · split at h
    · rename_i hd
      cases h
      exact profile_of_deliver hd
    · rename_i hd
      split at h <;> cases h
      exact profile_of_deliver hd
    · rename_i hd
      cases h
      exact profile_of_deliver hd
  · cases h

theorem profile_advanceLoop? {l l' : SessionLoop} (h : g.advanceLoop? p l = some (l', g'))
    (hidle : (Process.sessionLoop l).incoming? = none) : g'.profile f = g.profile f := by
  unfold advanceLoop? at h
  split at h
  · split at h
    · split at h <;> cases h
      · exact profile_of_desk desk_spawn
      · rfl
    · split at h <;> cases h
      rfl
  · cases h
    rfl
  · rename_i b _ hstage
    obtain ⟨⟨b', g''⟩, hb, heq⟩ := Option.map_eq_some_iff.mp h
    cases heq
    obtain ⟨id, inbound, stage⟩ := l
    obtain rfl : stage = .answering b := hstage
    exact profile_answer? hb (Process.incoming?_answering.symm.trans hidle)
  · cases h

theorem profile_subscription? {u u' : Subscription} (h : g.subscription? p u = some (u', g')) :
    g'.profile f = g.profile f := by
  cases u with
  | running i =>
      obtain ⟨e, -, heq⟩ := Option.map_eq_some_iff.mp h
      split at heq <;> cases heq <;> rfl
  | closing r d =>
      simp only [subscription?] at h
      split at h
      · rename_i hd
        split at h <;> cases h
        exact profile_of_deliver hd
      · rename_i hd
        cases h
        exact profile_of_deliver hd
  | done => cases h

@[simp] theorem profile_dropCall {c : Call} : (g.dropCall p c).profile f = g.profile f := by
  unfold dropCall
  split
  · exact profile_dropHandle.trans (profile_clearTimer.trans profile_abandon)
  · exact profile_dropHandle
  · rfl

theorem profile_beginCall {c : Call} : (g.beginCall p c).2.profile f = g.profile f := by
  unfold beginCall
  split
  · rfl
  · rename_i hget
    have hs := session?_of_get hget
    dsimp only
    split
    · exact profile_setSession hs (Unasked.nextRequestId _ _)
    · rename_i hreg
      obtain ⟨-, rfl⟩ := Session.register_spec hreg
      exact profile_setSession (g := (g.takeTicket (some p)).2) hs
        ((Unawaited.pending _ _).trans (Unasked.nextRequestId _ _))

theorem profile_call? {c c' : Call} (h : g.call? p c = some (c', g')) :
    g'.profile f = g.profile f := by
  unfold call? at h
  split at h
  · cases h
    exact profile_beginCall
  · obtain ⟨⟨stage, g₂⟩, hsend, heq⟩ := Option.map_eq_some_iff.mp h
    cases heq
    unfold sendCall at hsend
    split at hsend
    · rename_i hd
      cases hsend
      cases c.timeout with
      | none => exact profile_of_deliver hd
      | some t => exact (profile_of_desk desk_setTimer).trans (profile_of_deliver hd)
    · rename_i hd
      split at hsend <;> cases hsend
      exact profile_of_deliver hd
    · rename_i hd
      cases hsend
      exact profile_dropHandle.trans (profile_of_deliver (f := f) hd :)
  · obtain ⟨⟨stage, g₂⟩, hwait, heq⟩ := Option.map_eq_some_iff.mp h
    cases heq
    unfold awaitCall at hwait
    split at hwait
    · cases hwait
      exact profile_dropHandle
    · split at hwait <;> cases hwait
      exact profile_dropHandle
    · cases hwait
      exact profile_dropHandle
  · cases h

theorem profile_walk? {w w' : PageWalk} (h : g.walk? p w = some (w', g')) :
    g'.profile f = g.profile f := by
  unfold walk? at h
  split at h
  · cases h
  · split at h
    · cases h
      exact profile_dropCall
    · split at h
      · cases h
        rfl
      · obtain ⟨⟨c, g₂⟩, hcall, heq⟩ := Option.map_eq_some_iff.mp h
        cases heq
        exact profile_call? hcall

theorem profile_consume? (h : g.consume? p = some g') : g'.profile f = g.profile f := by
  obtain ⟨i, -, h⟩ := Option.bind_eq_some_iff.mp h
  split at h
  · cases h
  · split at h
    · cases h
      rfl
    · unfold forward at h
      split at h
      · rename_i hd
        cases h
        exact (profile_of_deliver (f := f) hd :)
      · rename_i hd
        split at h <;> cases h
        exact (profile_of_deliver (f := f) hd :)
      · rename_i hd
        cases h
        exact (profile_of_desk desk_signal).trans (profile_of_deliver hd)
  · split at h
    · cases h
      have hwake : (if i.isStuck then g.wake p else g).profile f = g.profile f := by
        split
        · exact profile_of_desk desk_wake
        · rfl
      exact hwake
    · split at h <;> cases h
      rfl

theorem profile_abort : (g.abort p).profile f = g.profile f := by
  unfold abort
  split
  · rfl
  · refine Eq.trans (profile_of_desk desk_removeProcess) ?_
    unfold release
    split
    · exact profile_dropCall
    · exact profile_dropCall
    · exact profile_abandonEach _
    · exact profile_abandon
    · exact profile_abandon
    · exact profile_abandon
    · rename_i i _
      cases i.subscriber with
      | none => rfl
      | some s => exact profile_abandon
    · rfl

end Unasked

def cause (g : Gateway) : Act → CloseReason
  | .closeSession _ reason => reason
  | .shutdown => .shutdown
  | .evictIdle _ => .idle
  | .control p =>
    match g.process? p with
    | some (.notice _) => .disconnected
    | _ => .idle
  | _ => .explicit

inductive Profiled (f : Session → α) (a : Act) (g g' : Gateway) : Prop
  | same : g'.profile f = g.profile f → Profiled f a g g'
  | validated {q : ProcessId} {id : String} {m : Message} {r : SessionRef} {s : Session} :
      a = .control q → (g.process? q).bind Process.incoming? = some (id, m) →
      g.find? id = some (r, s) → g'.profile f = (g.validate r s m).2.profile f → Profiled f a g g'
  | overridden {r : SessionRef} {s : Session} {overrides : RateOverrides} :
      a = .setOverrides r overrides → g.session? r = some s →
      g' = g.setSession r { s with overrides } → Profiled f a g g'
  | touched {r : SessionRef} {s : Session} :
      a = .touch r → g.session? r = some s → g' = g.setSession r (s.touch g.now) → Profiled f a g g'
  | opened {r : SessionRef} {draws : List String} {owner : String} {kind : SessionKind}
      {params : SessionParams} : a = .openSession draws owner kind params →
      g.openSession draws owner kind params = some (r, g') → Profiled f a g g'
  | ticked {d : Nanos} : a = .tick d → g' = { g with now := g.now + d } → Profiled f a g g'
  | retired (rs : List SessionRef) : rs.Nodup → (∀ r ∈ rs, r ∈ g.live) →
      g'.desk = (rs.foldl (fun h r => h.retire r (g.cause a)) g).desk → Profiled f a g g'
  | shut (r : SessionRef) : a = .shut r → g' = (g.shut r).2 → Profiled f a g g'

inductive Apart (a : Act) (g g' : Gateway) : Prop
  | handled {q : ProcessId} {id : String} {m : Message} {r : SessionRef} {s : Session}
      {y : Process} : a = .control q → (g.process? q).bind Process.incoming? = some (id, m) →
      g.find? id = some (r, s) → g' = (g.handle id m).2.setProcess q y → Apart a g g'
  | moved {r : SessionRef} {target : SessionStatus} : a = .transition r target →
      g.amend r (fun s => (s.transition target).toOption.getD s) = some g' → Apart a g g'

theorem live_shut : (g.shut r).2.live = g.live := by
  unfold shut
  split
  · rfl
  · rename_i ts s _
    exact (congrArg Profile.live (profile_settleEach (f := Session.isClosed) ts) :)

theorem live_retire {reason : CloseReason} :
    (g.retire r reason).live = g.live.filter (· ≠ r) :=
  live_shut (g := { g with live := g.live.filter (· ≠ r) })

theorem retired_closeSession (id : String) (reason : CloseReason) :
    ∃ rs : List SessionRef, rs.Nodup ∧ (∀ r ∈ rs, r ∈ g.live) ∧
      (g.closeSession id reason).2 = rs.foldl (fun g r => g.retire r reason) g := by
  unfold closeSession
  split
  · exact ⟨[], .nil, by simp, rfl⟩
  · rename_i r s hfound
    exact ⟨[r], by simp, by simpa using (find?_spec hfound).1, rfl⟩

theorem disconnectEach_eq (rs : List SessionRef) (g : Gateway) :
    ∃ qs : List SessionRef, qs.Nodup ∧ (∀ r ∈ qs, r ∈ g.live) ∧
      rs.foldl disconnect g = qs.foldl (fun g r => g.retire r .disconnected) g := by
  induction rs generalizing g with
  | nil => exact ⟨[], .nil, by simp, rfl⟩
  | cons r rs ih =>
      obtain ⟨qs, hnodup, hlive, hqs⟩ := ih (g.disconnect r)
      rw [List.foldl_cons, hqs]
      unfold disconnect closeSession at hlive ⊢
      cases hs : g.session? r with
      | none => exact ⟨qs, hnodup, by simpa [hs] using hlive, by simp⟩
      | some s =>
          cases hf : g.find? s.id with
          | none => exact ⟨qs, hnodup, by simpa [hs, hf] using hlive, by simp [hf]⟩
          | some x =>
              obtain ⟨q, t⟩ := x
              simp only [hs, hf, live_retire, List.mem_filter] at hlive
              refine ⟨q :: qs, ?_, ?_, by simp [hf]⟩
              · exact List.nodup_cons.mpr ⟨fun hq => by simpa using (hlive q hq).2, hnodup⟩
              · rintro r (_ | ⟨_, hr⟩)
                · exact (find?_spec hf).1
                · exact (hlive r hr).1

theorem apart_or_profiled_incoming {x : Process} {q : ProcessId} {id : String}
    (hx : g.process? q = some x) (hin : x.incoming? = some (id, m)) (h : g.control? q = some g') :
    Apart (.control q) g g' ∨ Profiled f (.control q) g g' := by
  obtain ⟨y, -, rfl⟩ := of_incoming hx hin h
  cases hfind : g.find? id with
  | none =>
      refine .inr (.same (profile_setProcess.trans ?_))
      simp [handle, get, hfind]
  | some found =>
      obtain ⟨r, s⟩ := found
      exact .inl (.handled rfl (by rw [hx]; exact hin) hfind rfl)

theorem apart_or_profiled_control? [Unasked f] (hl : g.live.Nodup) (h : g.control? p = some g') :
    Apart (.control p) g g' ∨ Profiled f (.control p) g g' := by
  have hcontrol := h
  obtain ⟨x, hx, h⟩ := Option.bind_eq_some_iff.mp h
  cases hin : x.incoming? with
  | some found => exact apart_or_profiled_incoming hx hin hcontrol
  | none =>
  right
  cases x with
  | message m =>
      obtain ⟨m', g₁, hm, rfl⟩ := of_staged h
      exact .same (profile_setProcess.trans
        (profile_handle? hm (by rintro id m rfl; cases hin)))
  | answer id b =>
      obtain ⟨b', g₁, hb, rfl⟩ := of_staged h
      exact .same (profile_setProcess.trans (profile_answer? hb hin))
  | sessionLoop l =>
      obtain ⟨l', g₁, hloop, rfl⟩ := of_staged h
      exact .same (profile_setProcess.trans (profile_advanceLoop? hloop hin))
  | subscription u =>
      obtain ⟨u', g₁, hu, rfl⟩ := of_staged h
      exact .same (profile_setProcess.trans (profile_subscription? hu))
  | call c =>
      obtain ⟨c', g₁, hc, rfl⟩ := of_staged h
      exact .same (profile_setProcess.trans (profile_call? hc))
  | pages w =>
      obtain ⟨w', g₁, hw, rfl⟩ := of_staged h
      exact .same (profile_setProcess.trans (profile_walk? hw))
  | notice n =>
      obtain ⟨n', g₁, hn, rfl⟩ := of_staged h
      unfold notify? at hn
      split at hn
      · cases hn
        exact .same rfl
      · cases hn
        obtain ⟨qs, hnodup, hlive, hqs⟩ := disconnectEach_eq n.failed g
        have hcause : g.cause (.control p) = .disconnected := by simp [cause, hx]
        refine .retired qs hnodup hlive (desk_setProcess.trans (congrArg desk ?_))
        rw [hcause, hqs]
      · rename_i pending _ _
        have ht := profile_tellEach (f := f) (g := g) (p := p) pending n
        dsimp only at hn
        split at hn <;> cases hn
        exact .same (profile_setProcess.trans ht)
      · cases hn
  | sweeper w =>
      obtain ⟨w', g₁, hw, rfl⟩ := of_staged h
      unfold sweep? at hw
      split at hw
      · cases hw
      · split at hw
        · cases hw
          exact .same rfl
        · split at hw
          · cases hw
            exact .same (profile_of_desk desk_setTimer)
          · split at hw <;> cases hw
            have hcause : g.cause (.control p) = .idle := by simp [cause, hx]
            refine .retired
              (g.live.filter fun r => (g.session? r).any (·.isIdle w.idleTimeout g.now))
              (hl.filter _) (fun r hr => (List.mem_filter.mp hr).1) ?_
            rw [hcause]
            rfl

theorem profiled_other [Unasked f] (hl : g.live.Nodup) (h : g.perform a = some g')
    (hcontrol : ∀ p, a ≠ .control p) (hmove : ∀ r target, a ≠ .transition r target) :
    Profiled f a g g' := by
  cases a with
  | openSession =>
      obtain ⟨⟨r, g₁⟩, hopen, rfl⟩ := Option.map_eq_some_iff.mp h
      exact .opened rfl hopen
  | closeSession id reason =>
      cases h
      obtain ⟨rs, hnodup, hlive, hrs⟩ := retired_closeSession (g := g) id reason
      exact .retired rs hnodup hlive (congrArg desk hrs)
  | shutdown =>
      cases h
      exact .retired g.live hl (fun _ hr => hr) rfl
  | evictIdle timeout =>
      cases h
      exact .retired _ (hl.filter _) (fun r hr => (List.mem_filter.mp hr).1) rfl
  | submit | startLoop | request | notify =>
      cases h
      exact .same (profile_of_desk desk_spawn)
  | listPages | startSweeper =>
      cases h
      exact .same (profile_of_desk desk_spawn)
  | feed p m =>
      cases h
      unfold feed
      split
      · exact .same rfl
      · dsimp only
        split
        · exact .same profile_setInbound
        · exact .same rfl
  | hangUp p =>
      cases h
      unfold hangUp
      split
      · exact .same rfl
      · exact .same profile_setInbound
  | receive r =>
      obtain ⟨⟨m, g₁⟩, hreceive, rfl⟩ := Option.map_eq_some_iff.mp h
      exact .same (profile_receive? hreceive)
  | dropReceiver =>
      cases h
      exact .same profile_dropReceiver
  | takePages p =>
      cases h
      unfold takePages
      split <;> exact .same rfl
  | cancelPages p =>
      cases h
      unfold cancelPages
      split
      · exact .same rfl
      · exact .same (profile_of_desk desk_signal)
  | stopSweeper p =>
      cases h
      unfold stopSweeper
      cases g.sweeper? p with
      | none => exact .same rfl
      | some s => exact .same (profile_of_desk desk_signal)
  | settleTool =>
      cases h
      exact .same (profile_of_desk desk_settleTool)
  | abort p =>
      cases h
      exact .same profile_abort
  | register r id method =>
      obtain ⟨s, hs, h⟩ := Option.bind_eq_some_iff.mp h
      cases hr : g.register r s id method with
      | error e => simp [hr, Except.map, Except.toOption] at h
      | ok x =>
          rw [hr] at h
          cases h
          exact .same (profile_register hs hr)
  | cancelPending =>
      cases h
      exact .same profile_cancelPending
  | resolve =>
      cases h
      exact .same profile_resolve
  | offer =>
      cases h
      exact .same profile_offer
  | shut r =>
      cases h
      exact .shut r rfl rfl
  | takeRequestId r =>
      have hsame (s : Session) : f s.takeRequestId.2 = f s := Unasked.nextRequestId s _
      exact .same (profile_amend hsame h)
  | touch r =>
      obtain ⟨s, hs, rfl⟩ := Option.map_eq_some_iff.mp h
      exact .touched rfl hs rfl
  | setOverrides r overrides =>
      obtain ⟨s, hs, rfl⟩ := Option.map_eq_some_iff.mp h
      exact .overridden rfl hs rfl
  | transition r target => exact absurd rfl (hmove r target)
  | tick =>
      cases h
      exact .ticked rfl rfl
  | setUptime | reschedule =>
      cases h
      exact .same rfl
  | produce p =>
      obtain ⟨i, u, producer, g₁, j, -, -, -, hd, rfl, -⟩ := produce?_spec h
      exact .same (profile_of_desk (desk_setInvocation.trans hd))
  | consume p => exact .same (profile_consume? h)
  | listen p =>
      cases h
      unfold listen
      split
      · exact .same rfl
      · split <;> exact .same rfl
  | swapSides p =>
      obtain ⟨i, -, rfl⟩ := Option.map_eq_some_iff.mp h
      exact .same rfl
  | control p => exact absurd rfl (hcontrol p)

theorem apart_or_profiled [Unasked f] (hl : g.live.Nodup) (h : g.perform a = some g') :
    Apart a g g' ∨ Profiled f a g g' := by
  cases a with
  | transition r target => exact .inl (.moved rfl h)
  | control p => exact apart_or_profiled_control? hl h
  | _ => exact .inr (profiled_other hl h nofun nofun)

theorem profiled_perform [Steady f] (hl : g.live.Nodup) (h : g.perform a = some g') :
    Profiled f a g g' := by
  rcases apart_or_profiled (f := f) hl h with (⟨rfl, hin, hfind, rfl⟩ | ⟨rfl, h⟩) | h
  · refine .validated rfl hin hfind (profile_setProcess.trans (profile_handle ?_))
    rw [get, hfind]
  · refine .same (profile_amend (fun s => ?_) h)
    cases ht : s.transition _ with
    | error e => rfl
    | ok s' => exact Calm.transition ht
  · exact h

end Gateway

end AgentGateway
