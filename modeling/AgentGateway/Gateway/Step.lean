import AgentGateway.Gateway.Calling
import AgentGateway.Gateway.Handler
import AgentGateway.Gateway.Invoking
import AgentGateway.Gateway.Notice
/-!
The steps of processes. Each is one indivisible change of the gateway, and a process without a step
waits for the clock, for room in a queue or for an answer.
-/

namespace AgentGateway.Gateway

def handle? (h : Handling) (g : Gateway) : Option (Handling × Gateway) :=
  match h with
  | .start sessionId m => some (g.handle sessionId m)
  | .running i request historyLength =>
    i.ending?.map fun ending =>
      let g := g.concludeTask i ending
      (.done (some (g.replyTo request i.taskId historyLength ending)), g)
  | .calling request poll => (poll.reply? request).map fun reply => (.done (some reply), g)
  | .done _ => none

def answer? (p : ProcessId) (sessionId : String) (a : Answering) (g : Gateway) :
    Option (Answering × Gateway) :=
  match a with
  | .handling (.done none) => some (.done true, g)
  | .handling (.done (some reply)) => some (.replying reply, g)
  | .handling h => (g.handle? h).map fun (h, g) => (.handling h, g)
  | .replying reply =>
    match g.find? sessionId with
    | none => some (.done false, g)
    | some (r, _) => some (.sending r (.fresh reply), g)
  | .sending r d =>
    match g.deliver p r d with
    | (.sent, g) => some (.done true, g)
    | (.pending d', g) => if d' = d then none else some (.sending r d', g)
    | (.failed _, g) => some (.done false, g)
  | .done _ => none

/-- One step of a loop: a message that runs a task is handled by a process of its own, so that the
loop can take the next one meanwhile. -/
def advanceLoop? (p : ProcessId) (l : SessionLoop) (g : Gateway) :
    Option (SessionLoop × Gateway) :=
  match l.stage with
  | .receiving =>
    match l.inbound.take? with
    | some (m, _, inbound) =>
      let first : Handling := .start l.sessionId m
      if m.methodName = Method.tasksSend.name then
        some ({ l with inbound }, (g.spawn (.answer l.sessionId (.handling first))).2)
      else some ({ l with inbound, stage := .answering (.handling first) }, g)
    | none => if l.inbound.attached then none else some (l.stop, g)
  | .answering (.done writable) =>
    some (if writable then { l with stage := .receiving } else l.stop, g)
  | .answering a =>
    (g.answer? p l.sessionId a).map fun (a, g) => ({ l with stage := .answering a }, g)
  | .stopped => none

def cancellation (taskId : String) (g : Gateway) : Update :=
  .status ⟨taskId, { state := .canceled, timestamp := some g.timestamp }, true⟩

/-- One step of a subscription, beside those of its invocation. A cancelled invocation has gone
quiet, so that the peer is told here. -/
def subscription? (p : ProcessId) (s : Subscription) (g : Gateway) :
    Option (Subscription × Gateway) :=
  match s with
  | .running i =>
    i.ending?.map fun ending =>
      let g := g.concludeTask i ending
      match ending, i.subscriber with
      | .failed .cancelled, some peer =>
        (.closing peer.session (.fresh ((g.cancellation i.taskId).toMessage peer.request)), g)
      | _, _ => (.done, g)
  | .closing r d =>
    match g.deliver p r d with
    | (.pending d', g) => if d' = d then none else some (.closing r d', g)
    | (_, g) => some (.done, g)
  | .done => none

def sweep? (p : ProcessId) (s : Sweeper) (g : Gateway) : Option (Sweeper × Gateway) :=
  if s.finished then none
  else if g.isSignalled s.token then some ({ s with finished := true }, g.clearTimer p)
  else
    match s.wakesAt with
    | none =>
      let t := g.now + s.interval
      some ({ s with wakesAt := some t }, g.setTimer p t)
    | some t =>
      if t ≤ g.now then some ({ s with wakesAt := none }, (g.evictIdle s.idleTimeout).2) else none

def control? (p : ProcessId) (g : Gateway) : Option Gateway := do
  let x ← g.process? p
  let (x, g) ←
    match x with
    | .message h => (g.handle? h).map fun (h, g) => (Process.message h, g)
    | .answer id a => (g.answer? p id a).map fun (a, g) => (.answer id a, g)
    | .sessionLoop l => (g.advanceLoop? p l).map fun (l, g) => (.sessionLoop l, g)
    | .subscription s => (g.subscription? p s).map fun (s, g) => (.subscription s, g)
    | .call c => (g.call? p c).map fun (c, g) => (.call c, g)
    | .pages w => (g.walk? p w).map fun (w, g) => (.pages w, g)
    | .notice n => (g.notify? p n).map fun (n, g) => (.notice n, g)
    | .sweeper s => (g.sweep? p s).map fun (s, g) => (.sweeper s, g)
  some (g.setProcess p x)

end AgentGateway.Gateway
