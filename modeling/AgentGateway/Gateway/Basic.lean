import AgentGateway.Gateway.Process
import AgentGateway.Metrics
import AgentGateway.Time.Timestamp
import AgentGateway.Tool.Standard
import AgentGateway.Validation.Basic

namespace AgentGateway

inductive WaiterState where
  | waiting
  | answered (m : Message)
  | cancelled
deriving DecidableEq

structure Waiter where
  holder : Option ProcessId
  state : WaiterState := .waiting
deriving DecidableEq

structure Schedule where
  ready : List ProcessId := []
  timers : List (Nanos × ProcessId) := []
  /-- The one that runs, and whether it has been woken since. -/
  running : Option ProcessId := none
  rewoken : Bool := false
deriving DecidableEq

structure Gateway where
  settings : GatewaySettings
  toolbox : Toolbox
  epoch : Nanos := 0
  now : Nanos := 0
  uptimeSecs : Nat := 0
  /-- Every session that was ever opened. -/
  sessions : List Session := []
  /-- The registry: those that have not been taken out of it. -/
  live : List SessionRef := []
  store : TaskStore
  metrics : Metrics := {}
  signalled : List Token := []
  nextToken : Token := 0
  waiters : List (Ticket × Waiter) := []
  nextTicket : Ticket := 0
  processes : List (ProcessId × Process) := []
  nextProcess : ProcessId := 0
  schedule : Schedule := {}

namespace Gateway

def new (settings : GatewaySettings) (tools : List Tool) : Gateway where
  settings := settings
  toolbox := .ofList (Tool.standard ++ tools)
  store := .empty settings.maxTaskHistory

def timestamp (g : Gateway) : String := Timestamp.ofUnix (g.epoch + g.now)

/-- Lets a process run again; one that runs is put in line once it has paused. -/
def wake (p : ProcessId) (g : Gateway) : Gateway :=
  let s := g.schedule
  if s.running = some p then { g with schedule := { s with rewoken := true } }
  else if p ∈ s.ready then g
  else { g with schedule := { s with ready := s.ready ++ [p] } }

def wakeAll (ps : List ProcessId) (g : Gateway) : Gateway := ps.foldl (fun g p => g.wake p) g

def clearTimer (p : ProcessId) (g : Gateway) : Gateway :=
  { g with schedule := { g.schedule with timers := g.schedule.timers.filter (·.2 ≠ p) } }

def setTimer (p : ProcessId) (t : Nanos) (g : Gateway) : Gateway :=
  if t ≤ g.now then g
  else { g with schedule := { g.schedule with timers := g.schedule.timers ++ [(t, p)] } }

def session? (r : SessionRef) (g : Gateway) : Option Session := g.sessions[r]?

def setSession (r : SessionRef) (s : Session) (g : Gateway) : Gateway :=
  { g with sessions := g.sessions.set r s }

def find? (id : String) (g : Gateway) : Option (SessionRef × Session) :=
  g.live.findSome? fun r =>
    (g.session? r).bind fun s => if s.id = id then some (r, s) else none

def get (id : String) (g : Gateway) : Except SessionError (SessionRef × Session) :=
  match g.find? id with
  | some found => .ok found
  | none => .error (.notFound id)

def liveCount (g : Gateway) : Nat := g.live.length

def process? (p : ProcessId) (g : Gateway) : Option Process := g.processes.lookup p

def setProcess (p : ProcessId) (x : Process) (g : Gateway) : Gateway :=
  { g with processes := g.processes.map fun (q, y) => if q = p then (q, x) else (q, y) }

def removeProcess (p : ProcessId) (g : Gateway) : Gateway :=
  let s := g.schedule
  let g := { g with processes := g.processes.filter (·.1 ≠ p) }
  { g with schedule := { s with
    ready := s.ready.filter (· ≠ p), timers := s.timers.filter (·.2 ≠ p) } }

def spawn (x : Process) (g : Gateway) : ProcessId × Gateway :=
  let p := g.nextProcess
  (p, { g with nextProcess := p + 1, processes := g.processes ++ [(p, x)] }.wake p)

def takeToken (g : Gateway) : Token × Gateway :=
  (g.nextToken, { g with nextToken := g.nextToken + 1 })

def isSignalled (t : Token) (g : Gateway) : Bool := g.signalled.contains t

def signal (t : Token) (g : Gateway) : Gateway :=
  if g.isSignalled t then g
  else
    let watchers := g.processes.filterMap fun (p, x) => if x.watches t then some p else none
    { g with signalled := t :: g.signalled }.wakeAll watchers

def takeTicket (holder : Option ProcessId) (g : Gateway) : Ticket × Gateway :=
  let t := g.nextTicket
  (t, { g with nextTicket := t + 1, waiters := g.waiters ++ [(t, { holder })] })

def waiter? (t : Ticket) (g : Gateway) : Option Waiter := g.waiters.lookup t

def dropTicket (t : Ticket) (g : Gateway) : Gateway :=
  { g with waiters := g.waiters.filter (·.1 ≠ t) }

/-- Tells the holder of a ticket what became of it; false where nobody holds it any more. -/
def settleTicket (t : Ticket) (state : WaiterState) (g : Gateway) : Bool × Gateway :=
  match g.waiter? t with
  | none => (false, g)
  | some w =>
    let waiters := g.waiters.map fun (u, x) => if u = t then (u, { x with state }) else (u, x)
    (true, { g with waiters }.wakeAll w.holder.toList)

def cancelPending (r : SessionRef) (id : RequestId) (g : Gateway) : Bool × Gateway :=
  match (g.session? r).bind (Session.takePending? id) with
  | none => (false, g)
  | some (p, s) => (true, ((g.setSession r s).settleTicket p.ticket .cancelled).2)

def resolve (r : SessionRef) (m : Message) (g : Gateway) : Bool × Gateway :=
  match m.id.bind fun id => (g.session? r).bind (Session.takePending? id) with
  | none => (false, g)
  | some (p, s) => (g.setSession r s).settleTicket p.ticket (.answered m)

/-- Drops the handle of a request, and with it what still waits under the request's id. -/
def dropHandle (h : Handle) (g : Gateway) : Gateway :=
  ((g.cancelPending h.session h.id).2).dropTicket h.ticket

inductive DeliveryState where
  | sent
  | pending (d : Delivery)
  | failed (e : SessionError)

def offer (r : SessionRef) (m : Message) (g : Gateway) : Except SessionError Offer × Gateway :=
  match g.session? r with
  | none => (.error (.notFound ""), g)
  | some s =>
    if !s.outbound.attached then (.error (.closed s.id), g)
    else
      match s.outbound.offer m with
      | (.disconnected, _) => (.error (.disconnected s.id), g)
      | (result, outbound) => (.ok result, g.setSession r { s with outbound })

/-- Goes on delivering a message of a process. The sender is taken at the first attempt: from then
on the session may close without the message being lost. -/
def deliver (p : ProcessId) (r : SessionRef) (d : Delivery) (g : Gateway) :
    DeliveryState × Gateway :=
  match g.session? r with
  | none => (.failed (.notFound ""), g)
  | some s =>
    let attempt (m : Message) : DeliveryState × Gateway :=
      match s.outbound.offerFor p m with
      | (.sent, outbound) => (.sent, g.setSession r { s with outbound })
      | (.full, outbound) => (.pending (.waiting m), g.setSession r { s with outbound })
      | (.disconnected, _) => (.failed (.disconnected s.id), g)
    match d with
    | .fresh m => if s.outbound.attached then attempt m else (.failed (.closed s.id), g)
    | .waiting m => attempt m

def abandon (p : ProcessId) (r : SessionRef) (g : Gateway) : Gateway :=
  match g.session? r with
  | none => g
  | some s =>
    let (next, outbound) := s.outbound.withdraw p
    (g.setSession r { s with outbound }).wakeAll next.toList

end Gateway

end AgentGateway
