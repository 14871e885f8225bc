import AgentGateway.Tool.Basic

namespace AgentGateway.Tool

open Json (Value)

def echoSchema : Value :=
  .ofFields [
    ("type", .string "object"),
    ("properties", .ofFields [
      ("text", .ofFields [("type", .string "string"),
        ("description", .string "Text to echo back")])]),
    ("required", .strings ["text"])]

def echo : Tool where
  definition := ⟨"echo", "Return the given text unchanged", echoSchema⟩
  run _ arguments :=
    match decodeTextField "text" "EchoParams" arguments with
    | .ok text => .ok (.text text)
    | .error e => .error (.invalidParams e.message)

def status : Tool where
  definition := ⟨"gateway_status",
    "Report gateway version, uptime, live sessions, tools and stored tasks", openSchema⟩
  run context _ := .ok (.json (.object [
    ("version", .string context.serverVersion),
    ("uptime_secs", .nat context.uptimeSecs),
    ("active_sessions", .nat context.liveSessions),
    ("registered_tools", .nat context.toolCount),
    ("stored_tasks", .nat context.storedTasks),
    ("caller_session", .string context.sessionId)]))

def standard : List Tool := [echo, status]

end AgentGateway.Tool
