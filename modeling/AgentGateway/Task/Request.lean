import AgentGateway.Task.Basic

namespace AgentGateway

open Json (Value)

structure TaskSendParams where
  id : String
  sessionId : Option String := none
  message : TaskMessage
  historyLength : Option Nat := none
  metadata : Option (List (String × Value)) := none
deriving DecidableEq

namespace TaskSendParams

def encode (p : TaskSendParams) : Value :=
  .ofPresent [("id", some (.string p.id)), ("sessionId", p.sessionId.map .string),
    ("message", some p.message.encode), ("historyLength", p.historyLength.map .nat),
    ("metadata", p.metadata.map .object)]

def decodeMetadata : Value → Except DecodeError (List (String × Value))
  | .object fields => .ok fields
  | v => .error (.wrongType v "a map")

def layout : Layout TaskSendParams :=
  TaskSendParams.mk <$> .required "id" Decode.string
    <*> .optional "sessionId" Decode.string
    <*> .required "message" TaskMessage.decode
    <*> .optional "historyLength" (Decode.natBits 64)
    <*> .optional "metadata" decodeMetadata

def decode : Value → Except DecodeError TaskSendParams := layout.decode "struct TaskSendParams"

end TaskSendParams

structure TaskQueryParams where
  id : String
  historyLength : Option Nat := none
deriving DecidableEq

namespace TaskQueryParams

def encode (p : TaskQueryParams) : Value :=
  .ofPresent [("id", some (.string p.id)), ("historyLength", p.historyLength.map .nat)]

def layout : Layout TaskQueryParams :=
  TaskQueryParams.mk <$> .required "id" Decode.string
    <*> .optional "historyLength" (Decode.natBits 64)

def decode : Value → Except DecodeError TaskQueryParams := layout.decode "struct TaskQueryParams"

end TaskQueryParams

structure TaskIdParams where
  id : String
deriving DecidableEq

namespace TaskIdParams

def encode (p : TaskIdParams) : Value := .ofFields [("id", .string p.id)]

def layout : Layout TaskIdParams := TaskIdParams.mk <$> .required "id" Decode.string

def decode : Value → Except DecodeError TaskIdParams := layout.decode "struct TaskIdParams"

end TaskIdParams

structure StatusEvent where
  id : String
  status : TaskStatus
  isFinal : Bool
deriving DecidableEq

namespace StatusEvent

def encode (e : StatusEvent) : Value :=
  .ofFields [("id", .string e.id), ("status", e.status.encode), ("final", .bool e.isFinal)]

def layout : Layout StatusEvent :=
  StatusEvent.mk <$> .required "id" Decode.string
    <*> .required "status" TaskStatus.decode
    <*> .required "final" Decode.bool

def decode : Value → Except DecodeError StatusEvent := layout.decode "struct TaskStatusUpdateEvent"

end StatusEvent

structure ArtifactEvent where
  id : String
  artifact : Artifact
deriving DecidableEq

namespace ArtifactEvent

def encode (e : ArtifactEvent) : Value :=
  .ofFields [("id", .string e.id), ("artifact", e.artifact.encode)]

def layout : Layout ArtifactEvent :=
  ArtifactEvent.mk <$> .required "id" Decode.string
    <*> .required "artifact" Artifact.decode

def decode : Value → Except DecodeError ArtifactEvent :=
  layout.decode "struct TaskArtifactUpdateEvent"

end ArtifactEvent

end AgentGateway
