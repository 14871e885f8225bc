import AgentGateway.Gateway.Basic

namespace AgentGateway

open Json (Value)

inductive Dispatched where
  | result (v : Value)
  | fault (f : Fault)
  /-- The reply comes when an invocation has ended. -/
  | running (i : Invocation) (historyLength : Option Nat)
  | streaming
  /-- The reply comes when a tool has answered. -/
  | calling

namespace Gateway

def logLevels : List String :=
  ["debug", "info", "notice", "warning", "error", "critical", "alert", "emergency"]

def emptyResult : Value := .object []

def decodeParams {α : Type} (decode : Value → Except DecodeError α) (params : Option Value) :
    Except Fault α :=
  match params with
  | none => .error (.invalidParams "Missing params")
  | some v => (decode v).mapError fun e => .invalidParams e.message

def decodeOptionalParams {α : Type} (default : α) (decode : Value → Except DecodeError α)
    (params : Option Value) : Except Fault α :=
  match params with
  | none | some .null => .ok default
  | some v => (decode v).mapError fun e => .invalidParams e.message

def answer (r : Except Fault Value) : Dispatched :=
  match r with
  | .ok v => .result v
  | .error f => .fault f

def connect (r : SessionRef) (g : Gateway) : Except Fault Gateway :=
  match (g.session? r).map Session.markConnected with
  | some (.ok s) => .ok (g.setSession r s)
  | some (.error e) => .error (.invalidRequest e.message)
  | none => .ok g

def present (enabled : Bool) (v : Value) : Option Value := if enabled then some v else none

def greeting (s : GatewaySettings) : Value :=
  .ofFields [
    ("protocolVersion", .string toolProtocolVersion),
    ("capabilities", .ofPresent [
      ("tools", present s.toolsEnabled (.ofFields [("listChanged", .bool false)])),
      ("resources", some (.ofFields [("subscribe", .bool false)])),
      ("prompts", some (.object [])),
      ("logging", some (.object [])),
      ("tasks", present s.tasksEnabled (.ofFields [("streaming", .bool true)]))]),
    ("serverInfo", .ofFields [
      ("name", .string s.serverName), ("version", .string s.serverVersion)])]

def handshake (r : SessionRef) (params : Option Value) (g : Gateway) :
    Except Fault (Value × Gateway) := do
  match params with
  | none => pure ()
  | some v =>
    let _ ← (HandshakeParams.decode v).mapError fun e => Fault.invalidParams e.message
  let g ← g.connect r
  .ok (greeting g.settings, g)

def offsetOf (cursor : Option String) : Except Fault Nat :=
  match cursor with
  | none | some "" => .ok 0
  | some c =>
    match Text.unsigned? (Nat.pow 2 64 - 1) c.toList with
    | some n => .ok n
    | none => .error (.invalidParams ("Invalid cursor: " ++ c))

def listTools (params : Option Value) (g : Gateway) : Except Fault Value := do
  let p ← decodeOptionalParams {} PageParams.decode params
  let offset ← offsetOf p.cursor
  let (page, next) := g.toolbox.page offset g.settings.toolsPageSize
  .ok (.ofPresent [("tools", some (.array (page.map ToolDefinition.encode))),
    ("nextCursor", next.map fun n => .string (toString n))])

def toolContext (s : Session) (g : Gateway) : ToolContext where
  sessionId := s.id
  ownerId := s.owner
  headers := s.context
  sessions := g.live.filterMap g.session?
  tasks := g.store
  toolCount := g.toolbox.size
  serverVersion := g.settings.serverVersion
  uptimeSecs := g.uptimeSecs

def callTool (s : Session) (params : Option Value) (g : Gateway) : ToolPoll :=
  match decodeParams ToolCallParams.decode params with
  | .error f => .error f
  | .ok p =>
    match g.toolbox.find? p.name with
    | none => .error (.invalidParams ("Unknown tool: " ++ p.name))
    | some tool => tool.run (g.toolContext s) (p.arguments.getD (.object []))

def called : ToolPoll → Dispatched
  | .ok result => .result result.encode
  | .error f => .fault f
  | .pending => .calling

def setLogLevel (r : SessionRef) (s : Session) (params : Option Value) (g : Gateway) :
    Except Fault (Value × Gateway) := do
  let level ← decodeParams decodeLogLevel params
  if logLevels.contains level then
    .ok (emptyResult, g.setSession r { s with logLevel := some level })
  else .error (.invalidParams ("Unknown log level: " ++ level))

def completionResult : Value :=
  .ofFields [("completion", .ofFields
    [("values", .array []), ("total", .nat 0), ("hasMore", .bool false)])]

def beginTask (s : Session) (params : Option Value) (subscriber : Option Subscriber)
    (g : Gateway) : Except Fault (Invocation × Option Nat × Gateway) := do
  let p ← decodeParams TaskSendParams.decode params
  let (token, g) := g.takeToken
  let (task, store) ← g.store.send p s.context token g.timestamp
  .ok (.start g.settings.chunkDelay task token subscriber, p.historyLength, { g with store })

def getTask (params : Option Value) (g : Gateway) : Except Fault Value := do
  let p ← decodeParams TaskQueryParams.decode params
  .ok (← g.store.get p.id p.historyLength).encode

def cancelTask (params : Option Value) (g : Gateway) : Except Fault (Value × Gateway) := do
  let p ← decodeParams TaskIdParams.decode params
  let (task, token, store) ← g.store.cancel p.id g.timestamp
  let g := token.elim g fun t => g.signal t
  .ok (task.encode, { g with store })

def orElse (g : Gateway) : Except Fault (Value × Gateway) → Dispatched × Gateway
  | .ok (v, g) => (.result v, g)
  | .error f => (.fault f, g)

def dispatchTask (method : Method) (r : SessionRef) (s : Session) (request : RequestId)
    (params : Option Value) (g : Gateway) : Dispatched × Gateway :=
  match method with
  | .tasksSend =>
    match g.beginTask s params none with
    | .ok (i, n, g) => (.running i n, g)
    | .error f => (.fault f, g)
  | .tasksSendSubscribe =>
    match g.beginTask s params (some ⟨r, request⟩) with
    | .ok (i, _, g) => (.streaming, (g.spawn (.subscription (.running i))).2)
    | .error f => (.fault f, g)
  | .tasksGet => (answer (g.getTask params), g)
  | _ => g.orElse (g.cancelTask params)

def dispatchTool (method : Method) (r : SessionRef) (s : Session) (params : Option Value)
    (g : Gateway) : Dispatched × Gateway :=
  match method with
  | .toolsList => (answer (g.listTools params), g)
  | .toolsCall => (called (g.callTool s params), g)
  | .promptsList => (.result (.ofFields [("prompts", .array [])]), g)
  | .promptsGet =>
    match decodeParams decodePromptName params with
    | .ok name => (.fault (.resourceNotFound ("prompt " ++ name)), g)
    | .error f => (.fault f, g)
  | .resourcesList => (.result (.ofFields [("resources", .array [])]), g)
  | .resourcesTemplatesList => (.result (.ofFields [("resourceTemplates", .array [])]), g)
  | .resourcesRead =>
    match decodeParams decodeResourceUri params with
    | .ok uri => (.fault (.resourceNotFound uri), g)
    | .error f => (.fault f, g)
  | .resourcesSubscribe | .resourcesUnsubscribe => (.result emptyResult, g)
  | .complete => (.result completionResult, g)
  | .setLogLevel => g.orElse (g.setLogLevel r s params)
  | other => (.fault (.methodNotFound other.name), g)

def isDisabled (method : Method) (g : Gateway) : Bool :=
  !g.settings.toolsEnabled && (method = .toolsList || method = .toolsCall)

/-- Dispatches a request. Methods on tasks and the handshake start a session; all others but a ping
need one that has started. -/
def dispatch (name : String) (r : SessionRef) (s : Session) (request : RequestId)
    (params : Option Value) (g : Gateway) : Dispatched × Gateway :=
  match Method.ofName? name with
  | none =>
    if s.status = .connected then (.fault (.methodNotFound name), g)
    else (.fault (.invalidRequest "Session not initialized"), g)
  | some method =>
    if method.onTasks then
      if !g.settings.tasksEnabled then (.fault (.methodNotFound name), g)
      else
        match if s.status = .connecting then g.connect r else .ok g with
        | .error f => (.fault f, g)
        | .ok g => g.dispatchTask method r s request params
    else if method = .handshake then g.orElse (g.handshake r params)
    else if method = .ping then (.result emptyResult, g)
    else if s.status ≠ .connected then (.fault (.invalidRequest "Session not initialized"), g)
    else if g.isDisabled method then (.fault (.methodNotFound name), g)
    else g.dispatchTool method r s params

def reply (request : RequestId) (f : Fault) : Option Message :=
  some (.failure (some request) f.toRpc)

def handleRequest (name : String) (r : SessionRef) (request : RequestId) (params : Option Value)
    (g : Gateway) : Handling × Gateway :=
  match g.session? r with
  | none => (.done none, g)
  | some s =>
    match g.dispatch name r s request params with
    | (.result v, g) => (.done (some (.success request v)), g)
    | (.fault f, g) => (.done (reply request f), g)
    | (.running i n, g) => (.running i request n, g)
    | (.streaming, g) => (.done none, g)
    | (.calling, g) => (.calling request .pending, g)

def handleNotification (name : String) (r : SessionRef) (g : Gateway) : Gateway :=
  if name = Method.handshakeDone.name then (g.connect r).toOption.getD g else g

def handleValid (r : SessionRef) (m : Message) (g : Gateway) : Handling × Gateway :=
  match m.method, m.id with
  | none, _ => (.done none, (g.resolve r { m with processed := true }).2)
  | some name, none => (.done none, g.handleNotification name r)
  | some name, some request => g.handleRequest name r request m.params

def validate (r : SessionRef) (s : Session) (m : Message) (g : Gateway) :
    Except Rejection Unit × Gateway :=
  let (result, s) :=
    (Pipeline.standard g.settings.validation).validate g.now (s.touch g.now) m
  (result, g.setSession r s)

/-- Handles a message up to where it has to wait. A rejected message with an id is answered, one
without is only counted. -/
def handle (sessionId : String) (m : Message) (g : Gateway) : Handling × Gateway :=
  match g.get sessionId with
  | .error e =>
    (.done (if m.isRequest then some (.failure m.id (Fault.invalidRequest e.message).toRpc)
      else none), g)
  | .ok (r, s) =>
    match g.validate r s m with
    | (.error rejection, g) =>
      let g := { g with metrics := g.metrics.rejected rejection.reason }
      (.done (m.id.bind fun id => reply id rejection.toFault), g)
    | (.ok (), g) => g.handleValid r m

def replyTo (request : RequestId) (taskId : String) (historyLength : Option Nat) (ending : Ending)
    (g : Gateway) : Message :=
  match ending with
  | .failed (.rpc e) => .failure (some request) (Fault.ofRpc e).toRpc
  | .failed (.internal reason) => .failure (some request) (Fault.internal reason).toRpc
  | _ =>
    match g.store.get taskId historyLength with
    | .ok task => .success request task.encode
    | .error f => .failure (some request) f.toRpc

end Gateway

end AgentGateway
