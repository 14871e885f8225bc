import AgentGateway.Rpc.Error
import AgentGateway.Throttle.Bucket
/-!
The two buckets of a session. A message needs a permit from each, and one that is refused takes
none.
-/

namespace AgentGateway

structure BucketPair where
  perSecond : Bucket
  perMinute : Bucket
deriving DecidableEq

structure Refusal where
  dimension : Dimension
  retryAfter : Nanos
deriving DecidableEq

namespace BucketPair

def full (r : Rounding) (requestsPerSecond requestsPerMinute : Nat) (now : Nanos) : BucketPair where
  perSecond := .full requestsPerSecond requestsPerSecond now
  perMinute := .full (r.div requestsPerMinute 60) requestsPerMinute now

/-- Asks for a permit, first by the second; the other bucket is refilled only if that has one. -/
def check (r : Rounding) (now : Nanos) (p : BucketPair) : Except Refusal Unit × BucketPair :=
  let second := p.perSecond.refill r now
  if !second.hasPermit then
    (.error ⟨.perSecond, second.retryAfter r⟩, { p with perSecond := second })
  else
    let minute := p.perMinute.refill r now
    if !minute.hasPermit then
      (.error ⟨.perMinute, minute.retryAfter r⟩, ⟨second, minute⟩)
    else (.ok (), ⟨second.take r, minute.take r⟩)

end BucketPair

end AgentGateway
