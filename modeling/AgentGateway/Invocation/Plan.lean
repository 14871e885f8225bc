import AgentGateway.Command.Grammar
import AgentGateway.Task.Update
import AgentGateway.Text.Base64
import AgentGateway.Time.Duration
/-!
What an invocation of a task does. The message that triggers it is read as commands, and these give
a plan: updates to emit, pauses, and the ending that follows when nothing stops it. Artifacts of
single responses are kept back until no command can end the invocation any more.
-/

namespace AgentGateway

inductive Action where
  | check
  | pause (d : Nanos)
  | emit (u : Update)
  | chunks (index next count : Nat)
deriving DecidableEq

structure Plan where
  actions : List Action
  ending : Ending
deriving DecidableEq

namespace Plan

def after (actions : List Action) (p : Plan) : Plan := { p with actions := actions ++ p.actions }

def statusUpdate (id : String) (state : TaskState) (message : Option TaskMessage)
    (isFinal : Bool) : Update :=
  .status ⟨id, { state, message }, isFinal⟩

def failing (id reason : String) : Plan where
  actions := [.emit (statusUpdate id .failed (some (.agentText reason)) true)]
  ending := .failed (.internal reason)

def completedUpdate (id : String) : Action := .emit (statusUpdate id .completed none true)

def asking (id prompt : String) : Plan where
  actions := [.emit (statusUpdate id .inputRequired (some (.agentText prompt)) true)]
  ending := .reached .inputRequired

def streaming (id : String) (index count : Nat) : Plan where
  actions := [.chunks index 0 count, completedUpdate id]
  ending := .reached .completed

def requestedError (code : Int) : RpcError :=
  { code, message := "Task requested error " ++ toString code }

def refusing (code : Int) : Plan where
  actions := [.emit (.error (requestedError code))]
  ending := .failed (.rpc (requestedError code))

def partOf (kind : RespondKind) (payload : String) : Except String Part :=
  match kind with
  | .text => .ok (.text payload)
  | .file => .ok (.file {
      name := some "response.txt"
      mimeType := some "text/plain"
      bytes := some (String.ofList (Text.Base64.encode payload.toUTF8.toList)) })
  | .data =>
    match Json.parse payload with
    | .ok v => .ok (.data v)
    | .error e => .error ("invalid JSON payload for data response: " ++ e.message)

def previewLength : Nat := 50

def defaultArtifact (trigger : TaskMessage) (index : Nat) : Artifact :=
  let text :=
    match trigger.parts.head?.bind Part.asText? with
    | none | some "" => "OK"
    | some s => "OK: " ++ String.ofList (s.toList.take previewLength) ++ "..."
  .whole "response" index [.text text]

/-- What the commands so far have left: artifacts kept back, the next index, and a pause to make
before the next command. -/
structure Draft where
  kept : List Artifact := []
  nextIndex : Nat
  delay : Option Nanos := none

namespace Draft

def keep (d : Draft) (name : String) (part : Part) : Draft :=
  { d with
    kept := d.kept ++ [.whole name d.nextIndex [part]]
    nextIndex := (d.nextIndex + 1) % Nat.pow 2 32
    delay := none }

def pauses (d : Draft) : List Action := (d.delay.map Action.pause).toList

end Draft

def headersPart (headers : List (String × String)) : Part :=
  .data (.ofFields (headers.map fun (k, v) => (k, .string v)))

def ofCommands (task : Task) (trigger : TaskMessage) : List Command → Draft → Plan
  | [], d =>
    let kept := if d.kept.isEmpty then [defaultArtifact trigger d.nextIndex] else d.kept
    { actions := d.pauses ++ kept.map (fun a => .emit (.artifact ⟨task.id, a⟩))
        ++ [completedUpdate task.id]
      ending := .reached .completed }
  | c :: rest, d =>
    let next (d : Draft) : Plan := (ofCommands task trigger rest d).after [.check]
    let plan :=
      match c with
      | .wait ms => next { d with delay := some (Nanos.ofMillis ms) }
      | .respond kind payload =>
        match partOf kind payload with
        | .ok part => next (d.keep "response" part)
        | .error reason => failing task.id reason
      | .ask prompt => asking task.id prompt
      | .stream count => streaming task.id d.nextIndex count
      | .error (.code n) => refusing n
      | .error .fail => failing task.id "task requested failure"
      | .getHeaders =>
        match task.metadata.headers with
        | some headers => next (d.keep "headers" (headersPart headers))
        | none => failing task.id "task metadata carries no request headers"
      | .unknown _ => next { d with delay := none }
    plan.after (.check :: d.pauses)

/-- The plan of an invocation, which the last message of the history triggers. -/
def ofTask (task : Task) : Plan :=
  let start : Action :=
    .emit (statusUpdate task.id .working (some (.agentText "Parsing task commands")) false)
  let plan :=
    match task.history.getLast? with
    | none => failing task.id "task has no messages to execute"
    | some trigger =>
      ofCommands task trigger (Command.ofMessage trigger) { nextIndex := task.nextArtifactIndex }
  plan.after [start]

end Plan

end AgentGateway
