import AgentGateway.Config.File
import AgentGateway.Settings
/-!
The configuration of the program: values of a file go before those of the command line, and limits
that would refuse everything are errors.
-/

namespace AgentGateway

inductive LogLevel where
  | trace
  | debug
  | info
  | warn
  | error
deriving DecidableEq, Repr

namespace LogLevel

def name : LogLevel → String
  | .trace => "trace"
  | .debug => "debug"
  | .info => "info"
  | .warn => "warn"
  | .error => "error"

def all : List LogLevel := [.trace, .debug, .info, .warn, .error]

def ofName? (name : String) : Option LogLevel := all.find? (·.name = name)

def ofAnyCase? (name : String) : Option LogLevel :=
  ofName? (String.ofList (name.toList.map Char.toLower))

end LogLevel

structure CliConfig where
  logLevel : LogLevel := .info
  idleTimeoutSecs : Nat := 1800
  sweepIntervalSecs : Nat := 60
  requestsPerMinute : Nat := 600
  requestsPerSecond : Nat := 60
  maxParamsBytes : Nat := 102400
deriving DecidableEq

structure Config where
  logLevel : LogLevel
  idleTimeoutSecs : Nat
  sweepIntervalSecs : Nat
  maxParamsBytes : Nat
  maxIdBytes : Nat
  outboundBuffer : Nat
  toolsPageSize : Nat
  requestsPerMinute : Nat
  requestsPerSecond : Nat
  toolsEnabled : Bool
  tasksEnabled : Bool
  chunkDelayMs : Nat
  maxHistory : Nat
  requestTimeoutSecs : Nat
  maxSkippedPages : Nat
deriving DecidableEq

inductive ConfigError where
  | unknownLogLevel (level : String)
  | zero (setting : String)
  | sweepExceedsIdle (sweep idle : Nat)
  | zeroThrottle
deriving DecidableEq

namespace ConfigError

def message : ConfigError → String
  | .unknownLogLevel level => "Unknown log_level in config file: " ++ level
  | .zero setting => setting ++ " must be greater than zero"
  | .sweepExceedsIdle sweep idle =>
    "sweep_interval_secs (" ++ toString sweep ++ ") must not exceed idle_timeout_secs ("
      ++ toString idle ++ ")"
  | .zeroThrottle => "Throttle limits must be greater than zero"

end ConfigError

namespace Config

def positive (setting : String) (n : Nat) : Except ConfigError Nat :=
  if n = 0 then .error (.zero setting) else .ok n

def resolveLogLevel (cli : CliConfig) (file : FileConfig) : Except ConfigError LogLevel :=
  match file.logLevel with
  | none => .ok cli.logLevel
  | some level =>
    match LogLevel.ofAnyCase? level with
    | some level => .ok level
    | none => .error (.unknownLogLevel level)

/-- Joins the values of a file to those of the command line, and checks them in a fixed order. -/
def resolve (cli : CliConfig) (file : FileConfig) : Except ConfigError Config := do
  let logLevel ← resolveLogLevel cli file
  let idle ← positive "idle_timeout_secs" (file.idleTimeoutSecs.getD cli.idleTimeoutSecs)
  let sweep ← positive "sweep_interval_secs" (file.sweepIntervalSecs.getD cli.sweepIntervalSecs)
  if idle < sweep then .error (.sweepExceedsIdle sweep idle)
  let maxParamsBytes ← positive "max_params_bytes" (file.maxParamsBytes.getD cli.maxParamsBytes)
  let outboundBuffer ← positive "outbound_buffer" (file.outboundBuffer.getD 64)
  let toolsPageSize ← positive "tools_page_size" (file.toolsPageSize.getD 50)
  let throttle := file.throttle.getD {}
  let perMinute := throttle.requestsPerMinute.getD cli.requestsPerMinute
  let perSecond := throttle.requestsPerSecond.getD cli.requestsPerSecond
  if perMinute = 0 ∨ perSecond = 0 then .error .zeroThrottle
  let capabilities := file.capabilities.getD {}
  let tasks := file.tasks.getD {}
  let client := file.client.getD {}
  .ok {
    logLevel
    idleTimeoutSecs := idle
    sweepIntervalSecs := sweep
    maxParamsBytes
    maxIdBytes := file.maxIdBytes.getD 256
    outboundBuffer
    toolsPageSize
    requestsPerMinute := perMinute
    requestsPerSecond := perSecond
    toolsEnabled := capabilities.tools.getD true
    tasksEnabled := capabilities.tasks.getD true
    chunkDelayMs := tasks.chunkDelayMs.getD 100
    maxHistory := tasks.maxHistory.getD 100
    requestTimeoutSecs := client.requestTimeoutSecs.getD 30
    maxSkippedPages := client.maxSkippedPages.getD 3
  }

def gatewaySettings (c : Config) : GatewaySettings where
  validation := {
    maxIdBytes := c.maxIdBytes
    maxParamsBytes := c.maxParamsBytes
    requestsPerMinute := c.requestsPerMinute
    requestsPerSecond := c.requestsPerSecond }
  outboundBuffer := c.outboundBuffer
  toolsPageSize := c.toolsPageSize
  toolsEnabled := c.toolsEnabled
  tasksEnabled := c.tasksEnabled
  chunkDelay := Nanos.ofMillis c.chunkDelayMs
  maxTaskHistory := c.maxHistory
  client := {
    requestTimeout := Nanos.ofSecs c.requestTimeoutSecs
    maxSkippedPages := c.maxSkippedPages }

end Config

end AgentGateway
