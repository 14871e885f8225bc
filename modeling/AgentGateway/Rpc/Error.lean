import AgentGateway.Decode

namespace AgentGateway

open Json (Value)

structure RpcError where
  code : Int
  message : String
  data : Option Value := none
deriving DecidableEq

namespace RpcError

def display (e : RpcError) : String := "[" ++ toString e.code ++ "] " ++ e.message

def encode (e : RpcError) : Value :=
  .ofPresent [("code", some (.int e.code)), ("message", some (.string e.message)),
    ("data", e.data)]

def layout : Layout RpcError :=
  RpcError.mk <$> .required "code" Decode.int32
    <*> .required "message" Decode.string
    <*> .optional "data" Decode.value

def decode : Value → Except DecodeError RpcError := layout.decode "struct RpcError"

end RpcError

inductive Dimension where
  | perSecond
  | perMinute
deriving DecidableEq, Repr

def Dimension.name : Dimension → String
  | .perSecond => "per-second"
  | .perMinute => "per-minute"

/-- Why the gateway answers with an error; `verbatim` is an error that a handler asks for. -/
inductive Fault where
  | parse (detail : String)
  | invalidRequest (detail : String)
  | methodNotFound (method : String)
  | invalidParams (detail : String)
  | internal (detail : String)
  | taskNotFound (id : String)
  | taskNotCancelable (id : String)
  | rateLimited (dimension : Dimension) (retryAfterMs : Nat)
  | resourceNotFound (uri : String)
  | toolFailed (detail : String)
  | verbatim (code : Int) (text : String)
deriving DecidableEq, Repr

namespace Fault

def code : Fault → Int
  | .parse _ => -32700
  | .invalidRequest _ => -32600
  | .methodNotFound _ => -32601
  | .invalidParams _ => -32602
  | .internal _ => -32603
  | .taskNotFound _ => -32001
  | .taskNotCancelable _ => -32002
  | .rateLimited _ _ => -32003
  | .resourceNotFound _ => -32004
  | .toolFailed _ => -32005
  | .verbatim code _ => code

def message : Fault → String
  | .parse detail => "Parse error: " ++ detail
  | .invalidRequest detail => "Invalid request: " ++ detail
  | .methodNotFound method => "Method not found: " ++ method
  | .invalidParams detail => "Invalid params: " ++ detail
  | .internal detail => "Internal error: " ++ detail
  | .taskNotFound id => "Task not found: " ++ id
  | .taskNotCancelable id => "Task cannot be canceled: " ++ id
  | .rateLimited dimension ms =>
    "Rate limit exceeded (" ++ dimension.name ++ "), retry after " ++ toString ms ++ " ms"
  | .resourceNotFound uri => "Resource not found: " ++ uri
  | .toolFailed detail => "Tool execution failed: " ++ detail
  | .verbatim _ text => text

def data : Fault → Option Value
  | .rateLimited dimension ms =>
    some (.ofFields [("dimension", .string dimension.name), ("retry_after_ms", .nat ms)])
  | _ => none

def toRpc (f : Fault) : RpcError := ⟨f.code, f.message, f.data⟩

def ofRpc (e : RpcError) : Fault := .verbatim e.code e.message

end Fault

end AgentGateway
