import AgentGateway.Json.Reader
import AgentGateway.Json.Writer
import AgentGateway.Rpc.Error
import AgentGateway.Rpc.Id

namespace AgentGateway

open Json (Value Shape)

structure Message where
  jsonrpc : String := "2.0"
  id : Option RequestId := none
  method : Option String := none
  params : Option Value := none
  result : Option Value := none
  error : Option RpcError := none
  info : Option Value := none
  /-- Set once a handler has taken the message; never written. -/
  processed : Bool := false
deriving DecidableEq

namespace Message

def request (id : RequestId) (method : String) (params : Option Value) : Message :=
  { id := some id, method := some method, params }

def notification (method : String) (params : Option Value) : Message :=
  { method := some method, params }

def success (id : RequestId) (result : Value) : Message :=
  { id := some id, result := some result }

def failure (id : Option RequestId) (error : RpcError) : Message :=
  { id, error := some error }

def isRequest (m : Message) : Bool := m.method.isSome && m.id.isSome

def isNotification (m : Message) : Bool := m.method.isSome && m.id.isNone

/-- A response names no method and carries an id that is not empty. -/
def isResponse (m : Message) : Bool := m.method.isNone && m.id.any (!·.isEmpty)

def methodName (m : Message) : String := m.method.getD ""

def paramsSize (m : Message) : Option Nat := m.params.map Value.size

def encode (m : Message) : Value :=
  .ofPresent [("jsonrpc", some (.string m.jsonrpc)), ("id", m.id.map RequestId.encode),
    ("method", m.method.map .string), ("params", m.params), ("result", m.result),
    ("error", m.error.map RpcError.encode), ("_meta", m.info)]

def layout : Layout Message :=
  (fun jsonrpc id method params result error info =>
      { jsonrpc, id, method, params, result, error, info }) <$>
    .withDefault "jsonrpc" "2.0" Decode.string
    <*> .optional "id" RequestId.decode
    <*> .optional "method" Decode.string
    <*> .optional "params" Decode.value
    <*> .optional "result" Decode.value
    <*> .optional "error" RpcError.decode
    <*> .optional "_meta" Decode.value

def decode : Value → Except DecodeError Message := layout.decode "struct Message"

def shape : Shape :=
  .record (layout.names.map fun name =>
    (name, if name = "error" then .record (RpcError.layout.names.map (·, .whole)) else .whole))

def parse (frame : String) : Except Fault Message := do
  let v ← (Json.readText shape frame).mapError fun e => .parse e.message
  (decode v).mapError fun e => .parse e.message

end Message

end AgentGateway
