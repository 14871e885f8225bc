import AgentGateway.Decode
import AgentGateway.Text.Quoted
import AgentGateway.Toml.Document

namespace AgentGateway

open Json (Value)

structure ThrottleSection where
  requestsPerMinute : Option Nat := none
  requestsPerSecond : Option Nat := none
deriving DecidableEq

structure CapabilitiesSection where
  tools : Option Bool := none
  tasks : Option Bool := none
deriving DecidableEq

structure TasksSection where
  chunkDelayMs : Option Nat := none
  maxHistory : Option Nat := none
deriving DecidableEq

structure ClientSection where
  requestTimeoutSecs : Option Nat := none
  maxSkippedPages : Option Nat := none
deriving DecidableEq

structure FileConfig where
  logLevel : Option String := none
  idleTimeoutSecs : Option Nat := none
  sweepIntervalSecs : Option Nat := none
  maxParamsBytes : Option Nat := none
  maxIdBytes : Option Nat := none
  outboundBuffer : Option Nat := none
  toolsPageSize : Option Nat := none
  throttle : Option ThrottleSection := none
  capabilities : Option CapabilitiesSection := none
  tasks : Option TasksSection := none
  client : Option ClientSection := none
deriving DecidableEq

namespace FileConfig

def throttleLayout : Layout ThrottleSection :=
  ThrottleSection.mk <$> .optional "requests_per_minute" (Decode.natBits 32)
    <*> .optional "requests_per_second" (Decode.natBits 32)

def capabilitiesLayout : Layout CapabilitiesSection :=
  CapabilitiesSection.mk <$> .optional "tools" Decode.bool <*> .optional "tasks" Decode.bool

def tasksLayout : Layout TasksSection :=
  TasksSection.mk <$> .optional "stream_chunk_delay_ms" (Decode.natBits 64)
    <*> .optional "max_history" (Decode.natBits 64)

def clientLayout : Layout ClientSection :=
  ClientSection.mk <$> .optional "request_timeout_secs" (Decode.natBits 64)
    <*> .optional "max_skipped_pages" (Decode.natBits 64)

/-- The layout of a file; where `surplus` is allowed, a section written as an array may have more
items than fields. -/
def layout (surplus : Bool) : Layout FileConfig :=
  FileConfig.mk <$> .optional "log_level" Decode.string
    <*> .optional "idle_timeout_secs" (Decode.natBits 64)
    <*> .optional "sweep_interval_secs" (Decode.natBits 64)
    <*> .optional "max_params_bytes" (Decode.natBits 64)
    <*> .optional "max_id_bytes" (Decode.natBits 64)
    <*> .optional "outbound_buffer" (Decode.natBits 64)
    <*> .optional "tools_page_size" (Decode.natBits 64)
    <*> .optional "throttle" (throttleLayout.decode "struct ThrottleConfig" · surplus)
    <*> .optional "capabilities" (capabilitiesLayout.decode "struct CapabilitiesConfig" · surplus)
    <*> .optional "tasks" (tasksLayout.decode "struct TasksConfig" · surplus)
    <*> .optional "client" (clientLayout.decode "struct ClientConfig" · surplus)

def decode : Value → Except DecodeError FileConfig := ((layout false).decode "struct FileConfig" ·)

def ofToml? (text : String) : Option FileConfig := do
  let document ← Toml.parse? text
  ((layout true).decode "struct FileConfig" document.toJson).toOption

end FileConfig

inductive LoadError where
  | unreadable
  | malformed
deriving DecidableEq

namespace LoadError

def text : LoadError → String
  | .unreadable => "Failed to read config file"
  | .malformed => "Failed to parse config file"

def message (path : String) (e : LoadError) : String :=
  e.text ++ ": " ++ String.ofList (Text.quoted path.toList)

end LoadError

end AgentGateway
