import AgentGateway.Channel
import AgentGateway.Rpc.Message
import AgentGateway.Throttle.Pair

namespace AgentGateway

inductive SessionStatus where
  | connecting
  | connected
  | closed
deriving DecidableEq, Repr

namespace SessionStatus

def rank : SessionStatus → Nat
  | .connecting => 0
  | .connected => 1
  | .closed => 2

def name : SessionStatus → String
  | .connecting => "connecting"
  | .connected => "connected"
  | .closed => "closed"

def title : SessionStatus → String
  | .connecting => "Connecting"
  | .connected => "Connected"
  | .closed => "Closed"

end SessionStatus

inductive SessionKind where
  | server
  | client
deriving DecidableEq, Repr

inductive SessionError where
  | notFound (id : String)
  | closed (id : String)
  | invalidTransition (id : String) (source target : SessionStatus)
  | duplicateRequest (id : RequestId)
  | disconnected (id : String)
deriving DecidableEq

namespace SessionError

def message : SessionError → String
  | .notFound id => "session not found: " ++ id
  | .closed id => "session " ++ id ++ " is closed"
  | .invalidTransition id source target =>
    "session " ++ id ++ " cannot move from " ++ source.title ++ " to " ++ target.title
  | .duplicateRequest id => "request id " ++ id.display ++ " is already pending"
  | .disconnected id => "session " ++ id ++ " outbound channel is disconnected"

end SessionError

abbrev Ticket := Nat

structure Pending where
  id : RequestId
  method : String
  ticket : Ticket
deriving DecidableEq

structure RateOverrides where
  perMinute : Option Nat := none
  perSecond : Option Nat := none
deriving DecidableEq

structure Session where
  id : String
  owner : String
  kind : SessionKind
  context : List (String × String) := []
  status : SessionStatus := .connecting
  lastActivity : Nanos
  overrides : RateOverrides := {}
  /-- The buckets, which the first message to be throttled brings about. -/
  limiters : Option BucketPair := none
  logLevel : Option String := none
  pending : List Pending := []
  nextRequestId : Int := 1
  outbound : Channel Message
deriving DecidableEq

structure SessionParams where
  context : List (String × String) := []
  overrides : RateOverrides := {}
deriving DecidableEq

namespace Session

def opened (id owner : String) (kind : SessionKind) (params : SessionParams) (buffer : Nat)
    (now : Nanos) : Session :=
  { id, owner, kind, context := params.context, overrides := params.overrides, lastActivity := now,
    outbound := { capacity := max buffer 1 } }

def isClosed (s : Session) : Bool := s.status = .closed

/-- Moves the session forward. It may stay where it is; it is closed in another way. -/
def transition (target : SessionStatus) (s : Session) : Except SessionError Session :=
  if s.status = .closed then .error (.closed s.id)
  else if target.rank < s.status.rank ∨ target = .closed then
    .error (.invalidTransition s.id s.status target)
  else .ok { s with status := target }

def markConnected (s : Session) : Except SessionError Session := s.transition .connected

def touch (now : Nanos) (s : Session) : Session := { s with lastActivity := now }

def idleFor (now : Nanos) (s : Session) : Nanos := now - s.lastActivity

def isIdle (timeout now : Nanos) (s : Session) : Bool := timeout < s.idleFor now

/-- A fresh id for a request to the peer. Ids go up without end: no session lives to use up `2 ^ 63`
of them. -/
def takeRequestId (s : Session) : RequestId × Session :=
  (.number s.nextRequestId, { s with nextRequestId := s.nextRequestId + 1 })

def findPending? (id : RequestId) (s : Session) : Option Pending := s.pending.find? (·.id = id)

def register (p : Pending) (s : Session) : Except SessionError Session :=
  if s.status = .closed then .error (.closed s.id)
  else if (s.findPending? p.id).isSome then .error (.duplicateRequest p.id)
  else .ok { s with pending := s.pending ++ [p] }

def takePending? (id : RequestId) (s : Session) : Option (Pending × Session) :=
  (s.findPending? id).map fun p => (p, { s with pending := s.pending.filter (·.id ≠ id) })

/-- Closes the session, which lets go of its rates, its table and its sender; the tickets of those
who waited are returned. A session is closed once. -/
def close (s : Session) : Option (List Ticket × Session) :=
  if s.status = .closed then none
  else some (s.pending.map (·.ticket),
    { s with
      status := .closed, pending := [], limiters := none, outbound := s.outbound.dropSender })

end Session

end AgentGateway
