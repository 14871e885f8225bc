import AgentGateway.Gateway.Registry
/-!
Telling all connected sessions something at once. A notice takes note of who is connected when it
starts; it is over when each of them has got its message or turned out to be gone.
-/

namespace AgentGateway

namespace Notice

def note (n : Notice) (r : SessionRef) :
    Gateway.DeliveryState → Notice × List (SessionRef × Delivery)
  | .sent => ({ n with delivered := n.delivered + 1 }, [])
  | .pending d => (n, [(r, d)])
  | .failed _ => ({ n with failed := n.failed ++ [r] }, [])

end Notice

namespace Gateway

def tellEach (p : ProcessId) : List (SessionRef × Delivery) → Notice → Gateway →
    Notice × List (SessionRef × Delivery) × Gateway
  | [], n, g => (n, [], g)
  | (r, d) :: rest, n, g =>
    let (state, g) := g.deliver p r d
    let (n, again) := n.note r state
    let (n, others, g) := tellEach p rest n g
    (n, again ++ others, g)

/-- Closes what is live under the id of a session that a delivery to has failed. -/
def disconnect (g : Gateway) (r : SessionRef) : Gateway :=
  match g.session? r with
  | none => g
  | some s => (g.closeSession s.id .disconnected).2

def notify? (p : ProcessId) (n : Notice) (g : Gateway) : Option (Notice × Gateway) :=
  match n.stage with
  | .start =>
    let eligible := g.live.filter fun r => (g.session? r).any (·.status = .connected)
    some ({ n with stage := .sending (eligible.map fun r => (r, .fresh n.message)) }, g)
  | .sending [] => some ({ n with stage := .done }, n.failed.foldl disconnect g)
  | .sending pending =>
    let (n, again, g) := g.tellEach p pending n
    if again = pending then none else some ({ n with stage := .sending again }, g)
  | .done => none

end Gateway

end AgentGateway
