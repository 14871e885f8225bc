import AgentGateway.Decode

namespace AgentGateway

open Json (Value)

inductive Role where
  | user
  | agent
deriving DecidableEq, Repr

namespace Role

def name : Role → String
  | .user => "user"
  | .agent => "agent"

def encode (r : Role) : Value := .string r.name

def decode : Value → Except DecodeError Role :=
  Decode.variant ([Role.user, .agent].map fun r => (r.name, r)) "enum Role"

end Role

structure FileContent where
  name : Option String := none
  mimeType : Option String := none
  bytes : Option String := none
  uri : Option String := none
deriving DecidableEq, Repr

namespace FileContent

def encode (f : FileContent) : Value :=
  .ofPresent [("name", f.name.map .string), ("mimeType", f.mimeType.map .string),
    ("bytes", f.bytes.map .string), ("uri", f.uri.map .string)]

def layout : Layout FileContent :=
  FileContent.mk <$> .optional "name" Decode.string
    <*> .optional "mimeType" Decode.string
    <*> .optional "bytes" Decode.string
    <*> .optional "uri" Decode.string

def decode : Value → Except DecodeError FileContent := layout.decode "struct FileContent"

end FileContent

inductive Part where
  | text (s : String)
  | file (f : FileContent)
  | data (v : Value)
deriving DecidableEq

namespace Part

def asText? : Part → Option String
  | .text s => some s
  | _ => none

def encode : Part → Value
  | .text s => .ofFields [("type", .string "text"), ("text", .string s)]
  | .file f => .ofFields [("type", .string "file"), ("file", f.encode)]
  | .data v => .ofFields [("type", .string "data"), ("data", v)]

def layouts : List (String × Layout Part) :=
  [("text", Part.text <$> .required "text" Decode.string),
    ("file", Part.file <$> .required "file" FileContent.decode),
    ("data", Part.data <$> .required "data" Decode.value)]

def decodeTagged (tag content : Value) : Except DecodeError Part :=
  match tag with
  | .string kind =>
    match layouts.lookup kind with
    | some layout => layout.decode ("struct variant Part::" ++ kind) content
    | none => .error (.unknownVariant kind (layouts.map Prod.fst))
  | v => .error (.wrongType v "variant identifier")

/-- A part is an object with a tag among its keys, or an array that starts with the tag. -/
def decode : Value → Except DecodeError Part
  | .object fields =>
    match fields.lookup "type" with
    | none => .error (.missingField "type")
    | some tag => decodeTagged tag (.object (fields.filter (·.1 ≠ "type")))
  | .array [] => .error (.missingField "type")
  | .array (tag :: rest) => decodeTagged tag (.array rest)
  | v => .error (.wrongType v "internally tagged enum Part")

end Part

structure TaskMessage where
  role : Role
  parts : List Part
  metadata : Option Value := none
deriving DecidableEq

namespace TaskMessage

def userText (s : String) : TaskMessage := { role := .user, parts := [.text s] }

def agentText (s : String) : TaskMessage := { role := .agent, parts := [.text s] }

def texts (m : TaskMessage) : List String := m.parts.filterMap Part.asText?

def encode (m : TaskMessage) : Value :=
  .ofPresent [("role", some m.role.encode), ("parts", some (.array (m.parts.map Part.encode))),
    ("metadata", m.metadata)]

def layout : Layout TaskMessage :=
  TaskMessage.mk <$> .required "role" Role.decode
    <*> .required "parts" (Decode.list Part.decode)
    <*> .optional "metadata" Decode.value

def decode : Value → Except DecodeError TaskMessage := layout.decode "struct TaskMessage"

end TaskMessage

end AgentGateway
