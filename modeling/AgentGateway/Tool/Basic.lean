import AgentGateway.Session.Basic
import AgentGateway.Store.Basic
import AgentGateway.Tool.Payload
/-!
Tools and the toolbox that holds them in ascending order of their names. A tool may answer as soon
as it is called or wait first. What it does to sessions while it waits are acts of the program that
has it, which says when the tool has come further.
-/

namespace AgentGateway

open Json (Value)

structure ToolContext where
  sessionId : String
  ownerId : String
  headers : List (String × String)
  sessions : List Session
  tasks : TaskStore
  toolCount : Nat
  serverVersion : String
  uptimeSecs : Nat

namespace ToolContext

def liveSessions (c : ToolContext) : Nat := c.sessions.length

def storedTasks (c : ToolContext) : Nat := c.tasks.size

end ToolContext

/-- How far a tool has come with a call. -/
inductive ToolPoll where
  | ok (result : ToolResult)
  | error (fault : Fault)
  | pending
deriving DecidableEq

namespace ToolPoll

def reply? (request : RequestId) : ToolPoll → Option Message
  | .ok result => some (.success request result.encode)
  | .error f => some (.failure (some request) f.toRpc)
  | .pending => none

end ToolPoll

structure Tool where
  definition : ToolDefinition
  /-- The tool from where it is called up to where it waits for the first time. -/
  run : ToolContext → Value → ToolPoll

namespace Tool

def name (t : Tool) : String := t.definition.name

def openSchema : Value :=
  .ofFields [("type", .string "object"), ("properties", .object [])]

end Tool

structure Toolbox where
  tools : List Tool := []

namespace Toolbox

/-- Puts a tool in its place, for any of the same name. -/
def insertSorted (t : Tool) : List Tool → List Tool
  | [] => [t]
  | u :: rest =>
    if t.name < u.name then t :: u :: rest
    else if t.name = u.name then t :: rest
    else u :: insertSorted t rest

def insert (b : Toolbox) (t : Tool) : Toolbox := ⟨insertSorted t b.tools⟩

def ofList (ts : List Tool) : Toolbox := ts.foldl insert {}

def find? (b : Toolbox) (name : String) : Option Tool := b.tools.find? (·.name = name)

def size (b : Toolbox) : Nat := b.tools.length

/-- The definitions from an offset on, at most `limit` and at least one, and the offset of the next
page where one follows. -/
def page (b : Toolbox) (offset limit : Nat) : List ToolDefinition × Option Nat :=
  let found := (b.tools.drop offset).take (max limit 1)
  let next := offset + found.length
  (found.map Tool.definition, if next < b.size ∧ found ≠ [] then some next else none)

end Toolbox

end AgentGateway
