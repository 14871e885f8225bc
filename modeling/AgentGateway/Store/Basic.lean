import AgentGateway.Task.Update
/-!
The store of tasks. Beside each task stands the token of the invocation that works on it, if one
does; signalling the token stops that invocation. Failing operations leave the store as it is.
-/

namespace AgentGateway

open Json (Value)

abbrev Token := Nat

structure TaskEntry where
  task : Task
  /-- Present while an invocation runs. -/
  token : Option Token
deriving DecidableEq

structure TaskStore where
  maxHistory : Nat
  entries : List (String × TaskEntry) := []
deriving DecidableEq

namespace TaskStore

/-- The empty store; a history keeps at least one entry. -/
def empty (maxHistory : Nat) : TaskStore := { maxHistory := max maxHistory 1 }

def find? (s : TaskStore) (id : String) : Option TaskEntry := s.entries.lookup id

def put (id : String) (e : TaskEntry) (s : TaskStore) : TaskStore :=
  { s with entries := KeyOrder.insert id e s.entries }

def size (s : TaskStore) : Nat := s.entries.length

def trim (max : Nat) (history : List TaskMessage) : List TaskMessage :=
  history.drop (history.length - max)

/-- What the client says about a task, with the transport's headers put over its own. -/
def metadataOf (supplied : Option (List (String × Value))) (headers : List (String × String)) :
    Except Fault TaskMetadata := do
  let metadata : TaskMetadata ←
    match supplied with
    | none => .ok {}
    | some fields =>
      (TaskMetadata.decode (.object fields)).mapError fun e =>
        .invalidParams ("invalid task metadata: " ++ e.message)
  if headers.isEmpty then .ok metadata
  else .ok { metadata with
    headers := some (KeyOrder.insertAll headers (metadata.headers.getD [])) }

def create (p : TaskSendParams) (headers : List (String × String)) (timestamp : String) :
    Except Fault Task := do
  let metadata ← metadataOf p.metadata headers
  .ok { Task.new p.id timestamp with
    sessionId := p.sessionId, metadata, history := [p.message] }

def resume (max : Nat) (p : TaskSendParams) (t : Task) : Task :=
  { t with
    history := trim max (t.history ++ [p.message])
    sessionId := p.sessionId <|> t.sessionId }

/-- Records a message that is sent to a task, for an invocation with a fresh token. A new task is
created; one that has ended, or that an invocation works on, is refused. -/
def send (p : TaskSendParams) (headers : List (String × String)) (token : Token)
    (timestamp : String) (s : TaskStore) : Except Fault (Task × TaskStore) :=
  match s.find? p.id with
  | none => do
    let task ← create p headers timestamp
    .ok (task, s.put p.id ⟨task, some token⟩)
  | some e =>
    if e.task.state.isTerminal then
      .error (.invalidRequest
        ("Task " ++ p.id ++ " is " ++ e.task.state.name ++ " and cannot be resumed"))
    else if e.token.isSome then
      .error (.invalidRequest ("Task " ++ p.id ++ " is already running"))
    else
      let task := resume s.maxHistory p e.task
      .ok (task, s.put p.id ⟨task, some token⟩)

/-- Folds a chunk into the artifacts: appended to, in place of, or after those with its index. -/
def addChunk (chunk : Artifact) : List Artifact → List Artifact
  | [] => [chunk]
  | a :: rest =>
    if a.index = chunk.index then
      if chunk.append then
        { a with parts := a.parts ++ chunk.parts, lastChunk := chunk.lastChunk } :: rest
      else chunk :: rest
    else a :: addChunk chunk rest

/-- A status replaces the one before it, and its message joins the history unless it tells of work.
-/
def withStatus (max : Nat) (status : TaskStatus) (t : Task) : Task :=
  match status.message with
  | some m =>
    if status.state = .working then { t with status }
    else { t with status, history := trim max (t.history ++ [m]) }
  | none => { t with status }

def fold (max : Nat) (timestamp : String) (u : Update) (t : Task) : Task :=
  match u with
  | .status e => withStatus max e.status t
  | .artifact e => { t with artifacts := addChunk e.artifact t.artifacts }
  | .error e =>
    { t with status := ⟨.failed, some (.agentText e.message), some timestamp⟩ }

def update (id : String) (u : Update) (timestamp : String) (s : TaskStore) : TaskStore :=
  match s.find? id with
  | none => s
  | some e =>
    if e.task.state.isTerminal then s
    else s.put id { e with task := fold s.maxHistory timestamp u e.task }

/-- The task as an invocation's end leaves it, where no update has ended it before. -/
def conclude (ending : Ending) (timestamp : String) (t : Task) : Task :=
  if t.state.isTerminal then t
  else
    match ending with
    | .reached .completed => { t with status := ⟨.completed, none, some timestamp⟩ }
    | .reached .inputRequired => t
    | .failed .cancelled | .failed .abandoned =>
      { t with status := ⟨.canceled, none, some timestamp⟩ }
    | .failed e =>
      { t with status := ⟨.failed, some (.agentText e.message), some timestamp⟩ }

def finish (id : String) (ending : Ending) (timestamp : String) (s : TaskStore) :
    Option Task × TaskStore :=
  match s.find? id with
  | none => (none, s)
  | some e =>
    let task := conclude ending timestamp e.task
    (some task, s.put id ⟨task, none⟩)

def get (id : String) (historyLength : Option Nat) (s : TaskStore) : Except Fault Task :=
  match s.find? id with
  | none => .error (.taskNotFound id)
  | some e => .ok (e.task.withHistoryLength historyLength)

def cancel (id timestamp : String) (s : TaskStore) :
    Except Fault (Task × Option Token × TaskStore) :=
  match s.find? id with
  | none => .error (.taskNotFound id)
  | some e =>
    if e.task.state.isTerminal then .error (.taskNotCancelable id)
    else
      let task := { e.task with status := ⟨.canceled, none, some timestamp⟩ }
      .ok (task, e.token, s.put id { e with task })

end TaskStore

end AgentGateway
