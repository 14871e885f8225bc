import AgentGateway.Gateway.Schedule

namespace AgentGateway.Gateway

def submit (sessionId : String) (m : Message) (g : Gateway) : ProcessId × Gateway :=
  g.spawn (.message (.start sessionId m))

def replyOf? (p : ProcessId) (g : Gateway) : Option (Option Message) :=
  match g.process? p with
  | some (.message (.done reply)) => some reply
  | _ => none

def receive? (r : SessionRef) (g : Gateway) : Option (Message × Gateway) := do
  let s ← g.session? r
  let (m, woken, outbound) ← s.outbound.take?
  some (m, (g.setSession r { s with outbound }).wakeAll woken.toList)

def receiveUpTo (r : SessionRef) : Nat → Gateway → List Message × Gateway
  | 0, g => ([], g)
  | n + 1, g =>
    match g.receive? r with
    | none => ([], g)
    | some (m, g) =>
      let (ms, g) := receiveUpTo r n g
      (m :: ms, g)

def queued (r : SessionRef) (g : Gateway) : Nat :=
  (g.session? r).elim 0 fun s => s.outbound.queue.length

structure Received where
  messages : List Message
  isOpen : Bool

/-- Takes what is queued for a peer, and what comes after it as soon as there is room; so many
messages at most. -/
def drainWithin (r : SessionRef) : Nat → Nat → Gateway → Received × Gateway
  | 0, _, g => (⟨[], true⟩, g)
  | _, 0, g => (⟨[], true⟩, g)
  | rounds + 1, limit, g =>
    let (ms, g) := g.receiveUpTo r limit
    if ms.length = limit then (⟨ms, true⟩, g)
    else
      let g := g.settle
      if g.queued r = 0 then (⟨ms, (g.session? r).any (·.outbound.hasSender)⟩, g)
      else
        let (more, g) := drainWithin r rounds (limit - ms.length) g
        (⟨ms ++ more.messages, more.isOpen⟩, g)

def drain (r : SessionRef) (limit : Option Nat) (g : Gateway) : Received × Gateway :=
  g.drainWithin r patience (limit.getD patience)

def dropReceiver (r : SessionRef) (g : Gateway) : Gateway :=
  match g.session? r with
  | none => g
  | some s =>
    let (woken, outbound) := s.outbound.dropReceiver
    (g.setSession r { s with outbound }).wakeAll woken

def startLoop (sessionId : String) (capacity : Nat) (g : Gateway) : ProcessId × Gateway :=
  g.spawn (.sessionLoop { sessionId, inbound := { capacity } })

def loop? (p : ProcessId) (g : Gateway) : Option SessionLoop :=
  match g.process? p with
  | some (.sessionLoop l) => some l
  | _ => none

def setInbound (p : ProcessId) (l : SessionLoop) (inbound : Channel Message) (g : Gateway) :
    Gateway :=
  let g := g.setProcess p (.sessionLoop { l with inbound })
  if l.stage = .receiving then g.wake p else g

def feed (p : ProcessId) (m : Message) (g : Gateway) : Offer × Gateway :=
  match g.loop? p with
  | none => (.disconnected, g)
  | some l =>
    let (result, inbound) := l.inbound.offer m
    (result, if result = .sent then g.setInbound p l inbound else g)

def hangUp (p : ProcessId) (g : Gateway) : Gateway :=
  match g.loop? p with
  | none => g
  | some l => g.setInbound p l l.inbound.dropSender

def isLoopOver (p : ProcessId) (g : Gateway) : Bool := (g.loop? p).any (·.stage = .stopped)

end AgentGateway.Gateway
