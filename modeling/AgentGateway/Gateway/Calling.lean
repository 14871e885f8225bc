import AgentGateway.Gateway.Basic
import AgentGateway.Tool.Payload

namespace AgentGateway

open Json (Value)

namespace Gateway

def beginCall (p : ProcessId) (c : Call) (g : Gateway) : CallStage × Gateway :=
  match g.get c.sessionId with
  | .error e => (.done (.error (.session e)), g)
  | .ok (r, s) =>
    let (id, s) := s.takeRequestId
    let (ticket, h) := g.takeTicket (some p)
    match s.register ⟨id, c.method, ticket⟩ with
    | .error e => (.done (.error (.session e)), g.setSession r s)
    | .ok s =>
      (.sending ⟨r, id, ticket⟩ (.fresh (.request id c.method c.params)), h.setSession r s)

def endCall (p : ProcessId) (h : Handle) (result : Except CallError Message) (g : Gateway) :
    CallStage × Gateway :=
  (.done result, (g.clearTimer p).dropHandle h)

def sendCall (p : ProcessId) (c : Call) (h : Handle) (d : Delivery) (g : Gateway) :
    Option (CallStage × Gateway) :=
  match g.deliver p h.session d with
  | (.sent, g) =>
    let deadline := c.timeout.map (g.now + ·)
    some (.waiting h deadline, deadline.elim g fun t => g.setTimer p t)
  | (.pending d', g) => if d' = d then none else some (.sending h d', g)
  | (.failed e, g) => some (g.endCall p h (.error (.session e)))

def awaitCall (p : ProcessId) (c : Call) (h : Handle) (deadline : Option Nanos) (g : Gateway) :
    Option (CallStage × Gateway) :=
  match (g.waiter? h.ticket).map Waiter.state with
  | some (.answered m) => some (g.endCall p h (.ok m))
  | some .waiting =>
    if deadline.any (· ≤ g.now) then
      some (g.endCall p h (.error (.timeout c.method (c.timeout.getD 0))))
    else none
  | _ => some (g.endCall p h (.error (.cancelled h.id)))

def call? (p : ProcessId) (c : Call) (g : Gateway) : Option (Call × Gateway) :=
  let staged : CallStage × Gateway → Call × Gateway := fun (stage, g) => ({ c with stage }, g)
  match c.stage with
  | .start => some (staged (g.beginCall p c))
  | .sending h d => (g.sendCall p c h d).map staged
  | .waiting h deadline => (g.awaitCall p c h deadline).map staged
  | .done _ => none

def dropCall (p : ProcessId) (c : Call) (g : Gateway) : Gateway :=
  match c.stage with
  | .sending h _ => ((g.abandon p h.session).clearTimer p).dropHandle h
  | .waiting h _ => (g.clearTimer p).dropHandle h
  | _ => g

end Gateway

def withCursor (params : Option Value) : Option String → Option Value
  | none => params
  | some c =>
    match params.getD (.object []) with
    | .object fields => some (.object (KeyOrder.insert "cursor" (.string c) fields))
    | v => some v

namespace PageWalk

def nextCall (w : PageWalk) : Call where
  sessionId := w.sessionId
  method := w.method
  params := withCursor w.params w.cursor
  timeout := some w.timeout

def start (sessionId method : String) (params : Option Value) (timeout : Nanos) (maxSkipped : Nat)
    (token : Token) : PageWalk :=
  let w : PageWalk :=
    { sessionId, method, params, timeout, maxSkipped, token, call := none }
  { w with call := some w.nextCall }

def endWith (m : Message) (w : PageWalk) : PageWalk :=
  { w with items := w.items ++ [m], call := none }

def endWithFault (detail : String) (w : PageWalk) : PageWalk :=
  w.endWith (.failure none (Fault.internal detail).toRpc)

def turn (m : Message) (result : Value) (w : PageWalk) : PageWalk :=
  match nextCursor? result with
  | none => w.endWith m
  | some c =>
    let w := { w with items := w.items ++ [m], skipped := 0, cursor := some c }
    { w with call := some w.nextCall }

/-- Asks again after a response without a result, but not for ever. -/
def skip (w : PageWalk) : PageWalk :=
  let w := { w with skipped := w.skipped + 1 }
  if w.maxSkipped ≤ w.skipped then
    w.endWithFault ("gave up on " ++ w.method ++ " after " ++ toString w.skipped
      ++ " pages without a result")
  else { w with call := some w.nextCall }

def follow (result : Except CallError Message) (w : PageWalk) : PageWalk :=
  match result with
  | .error e => w.endWithFault e.message
  | .ok m =>
    if m.error.isSome then w.endWith m
    else
      match m.result with
      | none | some .null => w.skip
      | some v => w.turn m v

end PageWalk

namespace Gateway

/-- One step of a walk through pages. That it has been told to stop counts before all else. -/
def walk? (p : ProcessId) (w : PageWalk) (g : Gateway) : Option (PageWalk × Gateway) :=
  match w.call with
  | none => none
  | some c =>
    if g.isSignalled w.token then some ({ w with call := none }, g.dropCall p c)
    else
      match c.stage with
      | .done result => some (w.follow result, g)
      | _ => (g.call? p c).map fun (c, g) => ({ w with call := some c }, g)

end Gateway

end AgentGateway
