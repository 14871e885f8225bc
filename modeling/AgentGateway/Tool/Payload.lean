import AgentGateway.Decode
import AgentGateway.Json.Writer

namespace AgentGateway

open Json (Value)

def toolProtocolVersion : String := "2024-11-05"

structure ClientInfo where
  name : String
  version : String
deriving DecidableEq

namespace ClientInfo

def layout : Layout ClientInfo :=
  ClientInfo.mk <$> .required "name" Decode.string <*> .required "version" Decode.string

def decode : Value → Except DecodeError ClientInfo := layout.decode "struct ClientInfo"

end ClientInfo

structure HandshakeParams where
  protocolVersion : String
  capabilities : Value
  clientInfo : ClientInfo
deriving DecidableEq

namespace HandshakeParams

def layout : Layout HandshakeParams :=
  HandshakeParams.mk <$> .required "protocolVersion" Decode.string
    <*> .withDefault "capabilities" .null Decode.value
    <*> .required "clientInfo" ClientInfo.decode

def decode : Value → Except DecodeError HandshakeParams := layout.decode "struct InitializeParams"

end HandshakeParams

structure PageParams where
  cursor : Option String := none
deriving DecidableEq

namespace PageParams

def layout : Layout PageParams := PageParams.mk <$> .optional "cursor" Decode.string

def decode : Value → Except DecodeError PageParams := layout.decode "struct PaginatedParams"

end PageParams

def nextCursor? (result : Value) : Option String :=
  ((result.get? "nextCursor").bind Value.asString?).filter (!·.isEmpty)

structure ToolCallParams where
  name : String
  arguments : Option Value := none
deriving DecidableEq

namespace ToolCallParams

def layout : Layout ToolCallParams :=
  ToolCallParams.mk <$> .required "name" Decode.string <*> .optional "arguments" Decode.value

def decode : Value → Except DecodeError ToolCallParams := layout.decode "struct ToolsCallParams"

end ToolCallParams

def decodeTextField (field type : String) : Value → Except DecodeError String :=
  (Layout.required field Decode.string).decode ("struct " ++ type)

def decodeResourceUri : Value → Except DecodeError String :=
  decodeTextField "uri" "ResourcesReadParams"

def decodePromptName : Value → Except DecodeError String :=
  decodeTextField "name" "PromptsGetParams"

def decodeLogLevel : Value → Except DecodeError String :=
  decodeTextField "level" "SetLevelParams"

structure ToolDefinition where
  name : String
  description : String
  inputSchema : Value
deriving DecidableEq

def ToolDefinition.encode (d : ToolDefinition) : Value :=
  .ofFields [("name", .string d.name), ("description", .string d.description),
    ("inputSchema", d.inputSchema)]

structure ToolResult where
  texts : List String
  isError : Bool := false
deriving DecidableEq

namespace ToolResult

def text (s : String) : ToolResult := { texts := [s] }

def json (v : Value) : ToolResult := text v.pretty

def failure (s : String) : ToolResult := { texts := [s], isError := true }

def encode (r : ToolResult) : Value :=
  .ofPresent [
    ("content", some (.array (r.texts.map fun s =>
      .ofFields [("type", .string "text"), ("text", .string s)]))),
    ("isError", if r.isError then some (.bool true) else none)]

end ToolResult

end AgentGateway
