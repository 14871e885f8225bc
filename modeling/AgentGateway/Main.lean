import AgentGateway.Config.Arguments
import AgentGateway.Gateway.Service
/-!
The program: it checks its configuration and keeps a gateway until its input ends. Transports are
attached by programs that hold a gateway of their own.
-/

namespace AgentGateway

def loadConfig (words : List String) : IO (Except String Config) := do
  match Arguments.ofList words with
  | .error e => return .error e.message
  | .ok arguments =>
    let file ← match arguments.configPath with
      | none => pure (Except.ok {})
      | some path =>
        try
          match FileConfig.ofToml? (← IO.FS.readFile path) with
          | some file => pure (Except.ok file)
          | none => pure (Except.error (LoadError.malformed.message path))
        catch _ => pure (Except.error (LoadError.unreadable.message path))
    match file with
    | .error e => return .error e
    | .ok file => return (Config.resolve arguments.cli file).mapError ConfigError.message

def Config.start (c : Config) : ProcessId × Gateway :=
  (Gateway.new c.gatewaySettings []).startSweeper (Nanos.ofSecs c.idleTimeoutSecs)
    (Nanos.ofSecs c.sweepIntervalSecs)

def GatewaySettings.announcement (s : GatewaySettings) : String :=
  "Starting " ++ s.serverName ++ " " ++ s.serverVersion ++ " (tools: " ++ toString s.toolsEnabled
    ++ ", tasks: " ++ toString s.tasksEnabled ++ ")"

partial def awaitEnd (input : IO.FS.Stream) : IO Unit := do
  let line ← input.getLine
  if !line.isEmpty then awaitEnd input

def runProgram (words : List String) : IO UInt32 := do
  let output ← IO.getStdout
  match ← loadConfig words with
  | .error reason =>
    (← IO.getStderr).putStrLn ("Error: " ++ reason)
    return 1
  | .ok config =>
    output.putStrLn config.gatewaySettings.announcement
    let (sweeper, gateway) := config.start
    output.putStrLn "Gateway ready"
    output.flush
    awaitEnd (← IO.getStdin)
    output.putStrLn "Shutting down..."
    let (closed, _) := (gateway.stopSweeper sweeper).settle.shutdown
    output.putStrLn ("Closed " ++ toString closed ++ " sessions, bye")
    return 0

end AgentGateway

def main (words : List String) : IO UInt32 := AgentGateway.runProgram words
