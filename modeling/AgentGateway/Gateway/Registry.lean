import AgentGateway.Gateway.Basic

namespace AgentGateway.Gateway

def liveIds (g : Gateway) : List String :=
  g.live.filterMap fun r => (g.session? r).map (·.id)

/-- The first of the drawn ids that no live session has. There is none to open a session under
where its queue cannot be made. -/
def freshId? (draws : List String) (g : Gateway) : Option String :=
  if g.settings.outboundBuffer ≤ Channel.maxCapacity then
    draws.find? fun id => !g.liveIds.contains id
  else none

def openSession (draws : List String) (owner : String) (kind : SessionKind)
    (params : SessionParams) (g : Gateway) : Option (SessionRef × Gateway) :=
  (g.freshId? draws).map fun id =>
    let r := g.sessions.length
    let s := Session.opened id owner kind params g.settings.outboundBuffer g.now
    (r, { g with
      sessions := g.sessions ++ [s]
      live := g.live ++ [r]
      metrics := g.metrics.sessionCreated })

def shut (r : SessionRef) (g : Gateway) : Bool × Gateway :=
  match (g.session? r).bind Session.close with
  | none => (false, g)
  | some (tickets, s) =>
    (true, tickets.foldl (fun g t => (g.settleTicket t .cancelled).2) (g.setSession r s))

def retire (r : SessionRef) (reason : CloseReason) (g : Gateway) : Gateway :=
  let g := ({ g with live := g.live.filter (· ≠ r) }.shut r).2
  { g with metrics := g.metrics.sessionClosed reason }

def closeSession (id : String) (reason : CloseReason) (g : Gateway) : Bool × Gateway :=
  match g.find? id with
  | none => (false, g)
  | some (r, _) => (true, g.retire r reason)

def shutdown (g : Gateway) : Nat × Gateway :=
  (g.live.length, g.live.foldl (fun g r => g.retire r .shutdown) g)

def evictIdle (timeout : Nanos) (g : Gateway) : Nat × Gateway :=
  let idle := g.live.filter fun r => (g.session? r).any (·.isIdle timeout g.now)
  (idle.length, idle.foldl (fun g r => g.retire r .idle) g)

end AgentGateway.Gateway
