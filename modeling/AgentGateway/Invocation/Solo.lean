import AgentGateway.Invocation.Producer

namespace AgentGateway

structure SoloScript where
  cancelAt : Option Nanos := none
  cancelAfter : Option Nat := none
  leaveAfter : Option Nat := none

structure Solo where
  taskId : String
  script : SoloScript
  producer : Producer
  capacity : Nat
  queue : List Update := []
  now : Nanos := 0
  cancelled : Bool := false
  reading : Bool := true
  read : List (Nanos × Update) := []

namespace Solo

def obey (s : Solo) : Solo :=
  let count := s.read.length
  let s := if s.script.cancelAfter = some count then { s with cancelled := true } else s
  if s.script.leaveAfter = some count then { s with reading := false, queue := [] } else s

def start (chunkDelay : Nanos) (capacity : Nat) (task : Task) (script : SoloScript) : Solo :=
  obey { taskId := task.id, script, producer := .start chunkDelay task, capacity }

def produce (timestamp : String) : Nat → Solo → Solo
  | 0, s => s
  | fuel + 1, s =>
    let around : Surroundings :=
      { now := s.now, timestamp, cancelled := s.cancelled
        hasRoom := s.queue.length < s.capacity, hasTaker := s.reading }
    match s.producer.advance? s.taskId around with
    | none => s
    | some (u, producer) =>
      produce timestamp fuel { s with producer, queue := s.queue ++ u.toList }

def consume : List Update → Solo → Solo
  | [], s => s
  | u :: rest, s =>
    if s.reading then
      consume rest (obey { s with queue := rest, read := s.read ++ [(s.now, u)] })
    else s

def sleep (s : Solo) : Option Solo :=
  match s.producer.wakesAt? with
  | none => none
  | some t =>
    match s.script.cancelAt with
    | some c =>
      if !s.cancelled ∧ c ≤ t then some { s with now := max s.now c, cancelled := true }
      else some { s with now := max s.now t }
    | none => some { s with now := max s.now t }

def run (timestamp : String) : Nat → Solo → Solo
  | 0, s => s
  | rounds + 1, s =>
    let s := s.produce timestamp (8 * s.capacity + 4 * s.producer.plan.actions.length + 8)
    let before := s.queue
    let s := consume s.queue s
    if s.producer.ending?.isSome then s
    else if before.isEmpty then
      match s.sleep with
      | none => s
      | some s => run timestamp rounds s
    else run timestamp rounds s

end Solo

end AgentGateway
