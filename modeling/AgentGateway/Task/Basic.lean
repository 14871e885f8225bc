import AgentGateway.Task.Message
import AgentGateway.Task.State

namespace AgentGateway

open Json (Value)

structure TaskStatus where
  state : TaskState
  message : Option TaskMessage := none
  timestamp : Option String := none
deriving DecidableEq

namespace TaskStatus

def encode (s : TaskStatus) : Value :=
  .ofPresent [("state", some s.state.encode), ("message", s.message.map TaskMessage.encode),
    ("timestamp", s.timestamp.map .string)]

def layout : Layout TaskStatus :=
  TaskStatus.mk <$> .required "state" TaskState.decode
    <*> .optional "message" TaskMessage.decode
    <*> .optional "timestamp" Decode.string

def decode : Value → Except DecodeError TaskStatus := layout.decode "struct TaskStatus"

end TaskStatus

/-- A chunk of an output. The chunks of one output share its index. -/
structure Artifact where
  name : Option String := none
  description : Option String := none
  parts : List Part
  index : Nat
  append : Bool := false
  lastChunk : Bool := false
  metadata : Option Value := none
deriving DecidableEq

namespace Artifact

def whole (name : String) (index : Nat) (parts : List Part) : Artifact :=
  { name := some name, parts, index, lastChunk := true }

def encode (a : Artifact) : Value :=
  .ofPresent [("name", a.name.map .string), ("description", a.description.map .string),
    ("parts", some (.array (a.parts.map Part.encode))), ("index", some (.nat a.index)),
    ("append", some (.bool a.append)), ("lastChunk", some (.bool a.lastChunk)),
    ("metadata", a.metadata)]

def layout : Layout Artifact :=
  Artifact.mk <$> .optional "name" Decode.string
    <*> .optional "description" Decode.string
    <*> .required "parts" (Decode.list Part.decode)
    <*> .required "index" (Decode.natBits 32)
    <*> .withDefault "append" false Decode.bool
    <*> .withDefault "lastChunk" false Decode.bool
    <*> .optional "metadata" Decode.value

def decode : Value → Except DecodeError Artifact := layout.decode "struct Artifact"

end Artifact

structure TaskMetadata where
  headers : Option (List (String × String)) := none
  extra : List (String × Value) := []
deriving DecidableEq

namespace TaskMetadata

def encode (m : TaskMetadata) : Value :=
  let headers := m.headers.map fun hs => Value.ofFields (hs.map fun (k, v) => (k, .string v))
  .ofFields ((headers.map (("headers", ·))).toList ++ m.extra)

def decode : Value → Except DecodeError TaskMetadata
  | .object fields => do
    let headers ← (fields.lookup "headers").mapM (Decode.option Decode.stringMap)
    .ok ⟨headers.join, fields.filter (·.1 ≠ "headers")⟩
  | v => .error (.wrongType v "struct TaskMetadata")

end TaskMetadata

structure Task where
  id : String
  sessionId : Option String := none
  status : TaskStatus
  history : List TaskMessage := []
  artifacts : List Artifact := []
  metadata : TaskMetadata := {}
deriving DecidableEq

namespace Task

def state (t : Task) : TaskState := t.status.state

def new (id timestamp : String) : Task :=
  { id, status := { state := .submitted, timestamp := some timestamp } }

/-- The first index that no artifact has; indexes have 32 bits. -/
def nextArtifactIndex (t : Task) : Nat :=
  t.artifacts.foldl (fun n a => max n ((a.index + 1) % Nat.pow 2 32)) 0

def withHistoryLength (t : Task) : Option Nat → Task
  | none => t
  | some n => { t with history := t.history.drop (t.history.length - n) }

def encode (t : Task) : Value :=
  .ofPresent [("id", some (.string t.id)), ("sessionId", t.sessionId.map .string),
    ("status", some t.status.encode),
    ("history", some (.array (t.history.map TaskMessage.encode))),
    ("artifacts", some (.array (t.artifacts.map Artifact.encode))),
    ("metadata", some t.metadata.encode)]

def layout : Layout Task :=
  Task.mk <$> .required "id" Decode.string
    <*> .optional "sessionId" Decode.string
    <*> .required "status" TaskStatus.decode
    <*> .withDefault "history" [] (Decode.list TaskMessage.decode)
    <*> .withDefault "artifacts" [] (Decode.list Artifact.decode)
    <*> .withDefault "metadata" {} TaskMetadata.decode

def decode : Value → Except DecodeError Task := layout.decode "struct Task"

end Task

end AgentGateway
