import AgentGateway.Rpc.Method
import AgentGateway.Throttle.Bucket

namespace AgentGateway

structure ValidationSettings where
  allowed : AllowList := .standard
  maxIdBytes : Nat := 256
  maxParamsBytes : Nat := 100 * 1024
  requestsPerMinute : Nat := 600
  requestsPerSecond : Nat := 60
  rounding : Rounding := .binary64

structure ClientSettings where
  requestTimeout : Nanos := Nanos.ofSecs 30
  maxSkippedPages : Nat := 3
deriving DecidableEq

structure GatewaySettings where
  validation : ValidationSettings := {}
  outboundBuffer : Nat := 64
  toolsPageSize : Nat := 50
  toolsEnabled : Bool := true
  tasksEnabled : Bool := true
  chunkDelay : Nanos := Nanos.ofMillis 100
  maxTaskHistory : Nat := 100
  client : ClientSettings := {}
  serverName : String := "pezzottify-gateway"
  serverVersion : String := "0.5.0"

end AgentGateway
