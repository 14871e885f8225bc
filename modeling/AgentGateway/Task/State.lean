import AgentGateway.Decode
/-!
The states of a task. Completed, failed and canceled tasks never move again; a task that requires
input ends its invocation and goes on with the next message.
-/

namespace AgentGateway

open Json (Value)

inductive TaskState where
  | submitted
  | working
  | inputRequired
  | completed
  | failed
  | canceled
deriving DecidableEq, Repr

namespace TaskState

def name : TaskState → String
  | .submitted => "submitted"
  | .working => "working"
  | .inputRequired => "input-required"
  | .completed => "completed"
  | .failed => "failed"
  | .canceled => "canceled"

def all : List TaskState := [.submitted, .working, .inputRequired, .completed, .failed, .canceled]

def isTerminal : TaskState → Bool
  | .completed | .failed | .canceled => true
  | _ => false

def isFinal (s : TaskState) : Bool := s.isTerminal || s = .inputRequired

def encode (s : TaskState) : Value := .string s.name

def decode : Value → Except DecodeError TaskState :=
  Decode.variant (all.map fun s => (s.name, s)) "enum TaskState"

end TaskState

end AgentGateway
