import AgentGateway.Session.Basic
import AgentGateway.Settings
import AgentGateway.Text.Quoted
/-!
What a message has to pass before it is handled: its method is allowed, it is small enough, and its
session is within its rates. The first check that fails decides, and only the last one costs
permits.
-/

namespace AgentGateway

inductive Rejection where
  | invalidMethod (name : String)
  | idTooLong (length max : Nat)
  | paramsTooLarge (size max : Nat)
  | throttled (refusal : Refusal)
deriving DecidableEq

namespace Rejection

def message : Rejection → String
  | .invalidMethod name => "invalid method: " ++ String.ofList (Text.quoted name.toList)
  | .idTooLong length max =>
    "request id is " ++ toString length ++ " bytes, limit is " ++ toString max
  | .paramsTooLarge size max =>
    "params are " ++ toString size ++ " bytes, limit is " ++ toString max
  | .throttled r => r.dimension.name ++ " rate limit exceeded"

def reason : Rejection → String
  | .invalidMethod _ => "invalid_method"
  | .idTooLong _ _ => "id_too_long"
  | .paramsTooLarge _ _ => "params_too_large"
  | .throttled ⟨.perSecond, _⟩ => "throttled_per_second"
  | .throttled ⟨.perMinute, _⟩ => "throttled_per_minute"

def toFault : Rejection → Fault
  | .invalidMethod name => .methodNotFound name
  | .throttled r => .rateLimited r.dimension (max (Nanos.toMillis r.retryAfter) 1)
  | other => .invalidRequest other.message

end Rejection

/-- One check; it may change the session that the message came in on. -/
structure Validator where
  name : String
  check : Nanos → Session → Message → Except Rejection Unit × Session

namespace Validator

def checkMethod (allowed : AllowList) (m : Message) : Except Rejection Unit :=
  match m.method with
  | some name => if allowed.contains name then .ok () else .error (.invalidMethod name)
  | none => if m.isResponse then .ok () else .error (.invalidMethod "")

def method (allowed : AllowList) : Validator where
  name := "method"
  check _ s m := (checkMethod allowed m, s)

def checkSize (maxIdBytes maxParamsBytes : Nat) (m : Message) : Except Rejection Unit := do
  let idLength := (m.id.map RequestId.byteLength).getD 0
  if maxIdBytes < idLength then .error (.idTooLong idLength maxIdBytes)
  let size := m.paramsSize.getD 0
  if maxParamsBytes < size then .error (.paramsTooLarge size maxParamsBytes)

def size (maxIdBytes maxParamsBytes : Nat) : Validator where
  name := "size"
  check _ s m := (checkSize maxIdBytes maxParamsBytes m, s)

/-- The session's buckets, made with its rates of now if it has none. -/
def limitersOf (v : ValidationSettings) (now : Nanos) (s : Session) : BucketPair :=
  s.limiters.getD (.full v.rounding (s.overrides.perSecond.getD v.requestsPerSecond)
    (s.overrides.perMinute.getD v.requestsPerMinute) now)

def throttle (v : ValidationSettings) : Validator where
  name := "throttle"
  check now s _ :=
    let (result, limiters) := (limitersOf v now s).check v.rounding now
    (result.mapError .throttled, { s with limiters := some limiters })

end Validator

structure Pipeline where
  validators : List Validator := []

namespace Pipeline

def standard (v : ValidationSettings) : Pipeline :=
  ⟨[.method v.allowed, .size v.maxIdBytes v.maxParamsBytes, .throttle v]⟩

def names (p : Pipeline) : List String := p.validators.map (·.name)

def run (now : Nanos) (m : Message) : List Validator → Session → Except Rejection Unit × Session
  | [], s => (.ok (), s)
  | v :: vs, s =>
    match v.check now s m with
    | (.ok (), s) => run now m vs s
    | (.error e, s) => (.error e, s)

def validate (p : Pipeline) (now : Nanos) (s : Session) (m : Message) :
    Except Rejection Unit × Session :=
  run now m p.validators s

end Pipeline

end AgentGateway
