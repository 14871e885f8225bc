import AgentGateway.Gateway.Schedule
/-!
What the program around a gateway asks of it: requests to peers, notices to all of them, and the
sweeping of idle sessions. Each is a process, whose result can be looked at once it has one. The
program also has the tools, and says when one that has waited is done.
-/

namespace AgentGateway.Gateway

open Json (Value)

def settleTool (p : ProcessId) (poll : ToolPoll) (g : Gateway) : Gateway :=
  (g.process? p).elim g fun x => (g.setProcess p (x.settle poll)).wake p

def request (sessionId method : String) (params : Option Value) (timeout : Option Nanos)
    (g : Gateway) : ProcessId × Gateway :=
  g.spawn (.call { sessionId, method, params, timeout })

def resultOf? (p : ProcessId) (g : Gateway) : Option (Except CallError Message) :=
  match g.process? p with
  | some (.call { stage := .done result, .. }) => some result
  | _ => none

def listPages (sessionId method : String) (params : Option Value) (client : ClientSettings)
    (g : Gateway) : ProcessId × Gateway :=
  let (token, g) := g.takeToken
  g.spawn (.pages
    (.start sessionId method params client.requestTimeout client.maxSkippedPages token))

def walkOf? (p : ProcessId) (g : Gateway) : Option PageWalk :=
  match g.process? p with
  | some (.pages w) => some w
  | _ => none

def takePages (p : ProcessId) (g : Gateway) : List Message × Gateway :=
  match g.walkOf? p with
  | none => ([], g)
  | some w => (w.items, g.setProcess p (.pages { w with items := [] }))

def cancelPages (p : ProcessId) (g : Gateway) : Bool × Gateway :=
  match g.walkOf? p with
  | none => (false, g)
  | some w => (true, g.signal w.token)

def register (r : SessionRef) (s : Session) (id : RequestId) (method : String) (g : Gateway) :
    Except SessionError (Ticket × Gateway) := do
  let (ticket, g) := g.takeTicket none
  let s ← s.register ⟨id, method, ticket⟩
  .ok (ticket, g.setSession r s)

def waiterState (t : Ticket) (g : Gateway) : WaiterState :=
  ((g.waiter? t).map Waiter.state).getD .cancelled

def notify (method : String) (params : Option Value) (g : Gateway) : ProcessId × Gateway :=
  g.spawn (.notice { message := .notification method params })

def deliveriesOf? (p : ProcessId) (g : Gateway) : Option Nat :=
  match g.process? p with
  | some (.notice n) => if n.stage = .done then some n.delivered else none
  | _ => none

def startSweeper (idleTimeout interval : Nanos) (g : Gateway) : ProcessId × Gateway :=
  let (token, g) := g.takeToken
  g.spawn (.sweeper { idleTimeout, interval, token })

def sweeper? (p : ProcessId) (g : Gateway) : Option Sweeper :=
  match g.process? p with
  | some (.sweeper s) => some s
  | _ => none

def stopSweeper (p : ProcessId) (g : Gateway) : Gateway :=
  (g.sweeper? p).elim g fun s => g.signal s.token

def release (p : ProcessId) (x : Process) (g : Gateway) : Gateway :=
  match x with
  | .call c => g.dropCall p c
  | .pages { call := some c, .. } => g.dropCall p c
  | .notice { stage := .sending pending, .. } =>
    pending.foldl (fun g (r, _) => g.abandon p r) g
  | .answer _ (.sending r _) | .sessionLoop { stage := .answering (.sending r _), .. } =>
    g.abandon p r
  | .subscription (.closing r _) => g.abandon p r
  | .subscription (.running i) => i.subscriber.elim g fun s => g.abandon p s.session
  | _ => g

def abort (p : ProcessId) (g : Gateway) : Gateway :=
  match g.process? p with
  | none => g
  | some x => (g.release p x).removeProcess p

end AgentGateway.Gateway
