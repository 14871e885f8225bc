import AgentGateway.Rpc.Error
import AgentGateway.Task.Request

namespace AgentGateway

open Json (Value)

inductive Update where
  | status (e : StatusEvent)
  | artifact (e : ArtifactEvent)
  | error (e : RpcError)
deriving DecidableEq

namespace Update

def kind : Update → String
  | .status _ => "status"
  | .artifact _ => "artifact"
  | .error _ => "error"

def isFinal : Update → Bool
  | .status e => e.isFinal
  | .artifact _ => false
  | .error _ => true

def stamped (timestamp : String) : Update → Update
  | .status e => .status { e with status := { e.status with timestamp := some timestamp } }
  | u => u

def encode : Update → Value
  | .status e => e.encode
  | .artifact e => e.encode
  | .error e => e.encode

end Update

inductive Outcome where
  | completed
  | inputRequired
deriving DecidableEq, Repr

inductive Failure where
  | cancelled
  | rpc (e : RpcError)
  | internal (reason : String)
  | abandoned
deriving DecidableEq

namespace Failure

def message : Failure → String
  | .cancelled => "task invocation was cancelled"
  | .rpc e => "task returned error " ++ e.display
  | .internal reason => "internal error: " ++ reason
  | .abandoned => "update consumer went away"

end Failure

inductive Ending where
  | reached (outcome : Outcome)
  | failed (failure : Failure)
deriving DecidableEq

namespace Ending

def label : Ending → String
  | .reached .completed => "completed"
  | .reached .inputRequired => "input_required"
  | .failed .cancelled => "canceled"
  | .failed (.rpc _) => "rpc_error"
  | .failed (.internal _) => "failed"
  | .failed .abandoned => "abandoned"

end Ending

end AgentGateway
