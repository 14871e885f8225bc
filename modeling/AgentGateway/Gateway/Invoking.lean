import AgentGateway.Gateway.Basic
/-!
The steps of an invocation inside a gateway: its producer puts updates into a queue, its consumer
folds them into the store and, for a subscription, sends each to the peer before it takes the next.
-/

namespace AgentGateway

open Json (Value)

def Update.toMessage (request : RequestId) : Update → Message
  | .status e => .success request e.encode
  | .artifact e => .success request e.encode
  | .error e => .failure (some request) e

namespace Gateway

def setInvocation (p : ProcessId) (i : Invocation) (g : Gateway) : Gateway :=
  { g with processes := g.processes.map fun (q, x) =>
      if q = p then (q, x.withInvocation i) else (q, x) }

def invocation? (p : ProcessId) (g : Gateway) : Option Invocation :=
  (g.process? p).bind Process.invocation?

def surroundings (i : Invocation) (g : Gateway) : Surroundings where
  now := g.now
  timestamp := g.timestamp
  cancelled := g.isSignalled i.token
  hasRoom := i.queue.length < Invocation.queueCapacity
  hasTaker := true

def syncTimer (p : ProcessId) (producer : Producer) (g : Gateway) : Gateway :=
  let g := g.clearTimer p
  producer.wakesAt?.elim g fun t => g.setTimer p t

def tellConsumer (p : ProcessId) (i : Invocation) (g : Gateway) : Invocation × Gateway :=
  if i.listening then ({ i with listening := false }, g.wake p) else (i, g)

def produce? (p : ProcessId) (g : Gateway) : Option Gateway := do
  let i ← g.invocation? p
  let (u, producer) ← i.producer.advance? i.taskId (g.surroundings i)
  let i := { i with producer }
  let g := g.syncTimer p producer
  match u with
  | some u =>
    let g := { g with metrics := g.metrics.updated u.kind }
    let (i, g) := g.tellConsumer p { i with queue := i.queue ++ [u] }
    some (g.setInvocation p i)
  | none =>
    if producer.ending?.isSome then
      let (i, g) := g.tellConsumer p i
      some (g.setInvocation p i)
    else some (g.setInvocation p i)

/-- Takes the next update: the store learns of it first, then the subscriber. -/
def takeUpdate (p : ProcessId) (i : Invocation) (u : Update) (rest : List Update) (g : Gateway) :
    Gateway :=
  let g := if i.isStuck then g.wake p else g
  let g := { g with store := g.store.update i.taskId u g.timestamp }
  let consumer : ConsumerStage :=
    match i.subscriber with
    | none => .receiving
    | some s => .forwarding (.fresh (u.toMessage s.request))
  g.setInvocation p { i with queue := rest, consumer }

/-- Goes on sending an update to the subscriber. A subscriber that is gone stops the invocation. -/
def forward (p : ProcessId) (i : Invocation) (s : Subscriber) (d : Delivery) (g : Gateway) :
    Option Gateway :=
  match g.deliver p s.session d with
  | (.sent, g) => some (g.setInvocation p { i with consumer := .receiving })
  | (.pending d', g) =>
    if d' = d then none else some (g.setInvocation p { i with consumer := .forwarding d' })
  | (.failed _, g) => some ((g.signal i.token).setInvocation p { i with consumer := .stopped })

def consume? (p : ProcessId) (g : Gateway) : Option Gateway := do
  let i ← g.invocation? p
  match i.consumer with
  | .stopped => none
  | .forwarding d =>
    match i.subscriber with
    | none => some (g.setInvocation p { i with consumer := .receiving })
    | some s => g.forward p i s d
  | .receiving =>
    match i.queue with
    | u :: rest => some (g.takeUpdate p i u rest)
    | [] =>
      if i.producer.ending?.isSome then some (g.setInvocation p { i with consumer := .stopped })
      else none

def listen (p : ProcessId) (g : Gateway) : Gateway :=
  match g.invocation? p with
  | none => g
  | some i =>
    if i.consumer = .receiving then g.setInvocation p { i with listening := true } else g

def concludeTask (i : Invocation) (ending : Ending) (g : Gateway) : Gateway :=
  { g with
    store := (g.store.finish i.taskId ending g.timestamp).2
    metrics := g.metrics.ended ending.label }

end Gateway

end AgentGateway
