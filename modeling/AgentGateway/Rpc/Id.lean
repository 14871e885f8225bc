import AgentGateway.Decode

namespace AgentGateway

open Json (Value)

inductive RequestId where
  | string (s : String)
  | number (n : Int)
deriving DecidableEq, Repr

namespace RequestId

def display : RequestId → String
  | .string s => s
  | .number n => toString n

def byteLength (id : RequestId) : Nat := id.display.utf8ByteSize

def isEmpty : RequestId → Bool
  | .string s => s.isEmpty
  | .number _ => false

def isNumber : RequestId → Bool
  | .string _ => false
  | .number _ => true

def encode : RequestId → Value
  | .string s => .string s
  | .number n => .int n

def decode : Value → Except DecodeError RequestId
  | .string s => .ok (.string s)
  | v =>
    match Decode.int64 v with
    | .ok n => .ok (.number n)
    | .error _ => .error (.noVariant "RequestId")

end RequestId

end AgentGateway
