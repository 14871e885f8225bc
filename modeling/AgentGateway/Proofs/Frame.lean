import AgentGateway.Proofs.Lookup
import AgentGateway.Proofs.Run

namespace AgentGateway

structure Census where
  created : Nat
  active : Int
  closed : Tally

def Metrics.census (m : Metrics) : Census := ⟨m.created, m.active, m.closed⟩

structure Desk where
  sessions : List Session
  live : List SessionRef
  census : Census
  waiters : List (Ticket × Waiter)
  nextTicket : Ticket
  now : Nanos

namespace Gateway

/-- A gateway without its clocks, its sessions, those who wait for responses, its counts and its
schedule. -/
def inner (g : Gateway) : Gateway :=
  { g with
    now := 0, uptimeSecs := 0, sessions := [], live := [], metrics := {}
    waiters := [], nextTicket := 0, schedule := {} }

variable {g g' : Gateway} {p q : ProcessId} {r : SessionRef}

theorem store_of_inner (h : g'.inner = g.inner) : g'.store = g.store := (congrArg Gateway.store h :)

theorem signalled_of_inner (h : g'.inner = g.inner) : g'.signalled = g.signalled :=
  (congrArg Gateway.signalled h :)

theorem nextToken_of_inner (h : g'.inner = g.inner) : g'.nextToken = g.nextToken :=
  (congrArg Gateway.nextToken h :)

theorem processes_of_inner (h : g'.inner = g.inner) : g'.processes = g.processes :=
  (congrArg Gateway.processes h :)

theorem nextProcess_of_inner (h : g'.inner = g.inner) : g'.nextProcess = g.nextProcess :=
  (congrArg Gateway.nextProcess h :)

theorem process?_of_inner (h : g'.inner = g.inner) : g'.process? q = g.process? q := by
  rw [process?, process?, processes_of_inner h]

@[simp] theorem inner_wake : (g.wake p).inner = g.inner := by
  unfold wake
  dsimp only
  split
  · rfl
  · split <;> rfl

@[simp] theorem inner_wakeAll (ps : List ProcessId) : (g.wakeAll ps).inner = g.inner := by
  induction ps generalizing g with
  | nil => rfl
  | cons p ps ih => exact ih.trans inner_wake

@[simp] theorem inner_clearTimer : (g.clearTimer p).inner = g.inner := rfl

@[simp] theorem inner_setTimer {t : Nanos} : (g.setTimer p t).inner = g.inner := by
  unfold setTimer
  split <;> rfl

@[simp] theorem inner_syncTimer {x : Producer} : (g.syncTimer p x).inner = g.inner := by
  unfold syncTimer
  cases x.wakesAt? <;> simp

@[simp] theorem inner_setSession {s : Session} : (g.setSession r s).inner = g.inner := rfl

@[simp] theorem inner_dropTicket {t : Ticket} : (g.dropTicket t).inner = g.inner := rfl

@[simp] theorem inner_settleTicket {t : Ticket} {w : WaiterState} :
    (g.settleTicket t w).2.inner = g.inner := by
  unfold settleTicket
  split
  · rfl
  · exact inner_wakeAll _

@[simp] theorem inner_cancelPending {id : RequestId} :
    (g.cancelPending r id).2.inner = g.inner := by
  unfold cancelPending
  split
  · rfl
  · simp

@[simp] theorem inner_resolve {m : Message} : (g.resolve r m).2.inner = g.inner := by
  unfold resolve
  split
  · rfl
  · simp

@[simp] theorem inner_dropHandle {h : Handle} : (g.dropHandle h).inner = g.inner := by
  simp [dropHandle]

@[simp] theorem inner_offer {m : Message} : (g.offer r m).2.inner = g.inner := by
  unfold offer
  split
  · rfl
  · split
    · rfl
    · split <;> rfl

@[simp] theorem inner_deliver {d : Delivery} : (g.deliver p r d).2.inner = g.inner := by
  unfold deliver
  split
  · rfl
  · dsimp only
    split
    · split
      · split <;> rfl
      · rfl
    · split <;> rfl

@[simp] theorem inner_abandon : (g.abandon p r).inner = g.inner := by
  unfold abandon
  split <;> simp

theorem inner_settleEach {state : WaiterState} (ts : List Ticket) :
    (ts.foldl (fun g t => (g.settleTicket t state).2) g).inner = g.inner := by
  induction ts generalizing g with
  | nil => rfl
  | cons t ts ih => exact ih.trans inner_settleTicket

@[simp] theorem inner_shut : (g.shut r).2.inner = g.inner := by
  unfold shut
  split
  · rfl
  · exact inner_settleEach _

@[simp] theorem inner_retire {reason : CloseReason} : (g.retire r reason).inner = g.inner :=
  inner_shut (g := { g with live := g.live.filter (· ≠ r) })

theorem inner_retireEach {reason : CloseReason} (rs : List SessionRef) :
    (rs.foldl (fun g r => g.retire r reason) g).inner = g.inner := by
  induction rs generalizing g with
  | nil => rfl
  | cons r rs ih => exact ih.trans inner_retire

@[simp] theorem inner_closeSession {id : String} {reason : CloseReason} :
    (g.closeSession id reason).2.inner = g.inner := by
  unfold closeSession
  split <;> simp

@[simp] theorem inner_shutdown : g.shutdown.2.inner = g.inner := inner_retireEach _

@[simp] theorem inner_evictIdle {timeout : Nanos} : (g.evictIdle timeout).2.inner = g.inner :=
  inner_retireEach _

@[simp] theorem inner_disconnect : (g.disconnect r).inner = g.inner := by
  unfold disconnect
  split <;> simp

@[simp] theorem inner_disconnectEach (rs : List SessionRef) :
    (rs.foldl disconnect g).inner = g.inner := by
  induction rs generalizing g with
  | nil => rfl
  | cons r rs ih => exact ih.trans inner_disconnect

@[simp] theorem inner_tellEach (pending : List (SessionRef × Delivery)) (n : Notice) :
    (g.tellEach p pending n).2.2.inner = g.inner := by
  induction pending generalizing g n with
  | nil => rfl
  | cons x pending ih =>
      obtain ⟨r, d⟩ := x
      exact ih _ |>.trans inner_deliver

theorem inner_amend {f : Session → Session} (h : g.amend r f = some g') : g'.inner = g.inner := by
  simp only [amend, Option.map_eq_some_iff] at h
  obtain ⟨s, -, rfl⟩ := h
  rfl

def desk (g : Gateway) : Desk :=
  ⟨g.sessions, g.live, g.metrics.census, g.waiters, g.nextTicket, g.now⟩

theorem lt_of_session? {s : Session} (h : g.session? r = some s) : r < g.sessions.length :=
  (List.getElem?_eq_some_iff.mp h).1

theorem session?_of_desk (h : g'.desk = g.desk) : g'.session? r = g.session? r :=
  (congrArg (fun d : Desk => d.sessions[r]?) h :)

@[simp] theorem desk_wake : (g.wake p).desk = g.desk := by
  unfold wake
  dsimp only
  split
  · rfl
  · split <;> rfl

@[simp] theorem desk_wakeAll (ps : List ProcessId) : (g.wakeAll ps).desk = g.desk := by
  induction ps generalizing g with
  | nil => rfl
  | cons p ps ih => exact ih.trans desk_wake

@[simp] theorem desk_clearTimer : (g.clearTimer p).desk = g.desk := rfl

@[simp] theorem desk_setTimer {t : Nanos} : (g.setTimer p t).desk = g.desk := by
  unfold setTimer
  split <;> rfl

@[simp] theorem desk_syncTimer {x : Producer} : (g.syncTimer p x).desk = g.desk := by
  unfold syncTimer
  cases x.wakesAt? <;> simp

@[simp] theorem desk_signal {k : Token} : (g.signal k).desk = g.desk := by
  unfold signal
  split
  · rfl
  · exact desk_wakeAll _

@[simp] theorem desk_spawn {x : Process} : (g.spawn x).2.desk = g.desk := desk_wake

@[simp] theorem desk_setProcess {x : Process} : (g.setProcess p x).desk = g.desk := rfl

theorem desk_settleTool {poll : ToolPoll} : (g.settleTool p poll).desk = g.desk := by
  unfold settleTool
  cases g.process? p with
  | none => rfl
  | some x => exact desk_wake.trans desk_setProcess

@[simp] theorem desk_setInvocation {i : Invocation} : (g.setInvocation p i).desk = g.desk := rfl

@[simp] theorem desk_removeProcess : (g.removeProcess p).desk = g.desk := rfl

end Gateway

end AgentGateway
