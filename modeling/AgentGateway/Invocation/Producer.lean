import AgentGateway.Invocation.Plan
/-!
The side of an invocation that emits updates. It goes through its plan one step at a time, and stops
at the first action that finds it told to stop or its updates without a taker.
-/

namespace AgentGateway

structure Surroundings where
  now : Nanos
  timestamp : String
  cancelled : Bool
  hasRoom : Bool
  hasTaker : Bool

inductive ProducerStage where
  | ready
  | emitting (u : Update)
  | sleeping (until' : Nanos)
  | ended (ending : Ending)
deriving DecidableEq

structure Producer where
  chunkDelay : Nanos
  plan : Plan
  stage : ProducerStage := .ready
deriving DecidableEq

namespace Producer

def start (chunkDelay : Nanos) (task : Task) : Producer :=
  { chunkDelay, plan := .ofTask task }

def ending? (p : Producer) : Option Ending :=
  match p.stage with
  | .ended e => some e
  | _ => none

def wakesAt? (p : Producer) : Option Nanos :=
  match p.stage with
  | .sleeping t => some t
  | _ => none

def chunk (index next count : Nat) : Artifact where
  name := some "stream"
  parts := [.text ("chunk " ++ toString (next + 1) ++ " of " ++ toString count)]
  index := index
  append := 0 < next
  lastChunk := next + 1 = count

/-- The actions that a stream of chunks begins with; an artifact belongs to the task of the plan. -/
def expand (id : String) (chunkDelay : Nanos) (index next count : Nat) : List Action :=
  if next < count then
    (if 0 < next then [.pause chunkDelay] else [])
      ++ [.emit (.artifact ⟨id, chunk index next count⟩), .chunks index (next + 1) count]
  else []

def stop (failure : Failure) (p : Producer) : Producer :=
  { p with stage := .ended (.failed failure) }

def goto (actions : List Action) (stage : ProducerStage) (p : Producer) : Producer :=
  { p with plan := { p.plan with actions }, stage }

/-- One step of the producer, with the update that it puts into the queue; none where it waits or
has ended. -/
def advance? (id : String) (around : Surroundings) (p : Producer) :
    Option (Option Update × Producer) :=
  match p.stage with
  | .ended _ => none
  | .sleeping t =>
    if around.cancelled then some (none, p.stop .cancelled)
    else if t ≤ around.now then some (none, { p with stage := .ready })
    else none
  | .emitting u =>
    if around.cancelled then some (none, p.stop .cancelled)
    else if !around.hasTaker then some (none, p.stop .abandoned)
    else if around.hasRoom then some (some u, { p with stage := .ready })
    else none
  | .ready =>
    match p.plan.actions with
    | [] => some (none, { p with stage := .ended p.plan.ending })
    | .chunks index next count :: rest =>
      some (none, p.goto (expand id p.chunkDelay index next count ++ rest) .ready)
    | action :: rest =>
      if around.cancelled then some (none, p.stop .cancelled)
      else
        match action with
        | .pause d => some (none, p.goto rest (.sleeping (around.now + d)))
        | .emit u => some (none, p.goto rest (.emitting (u.stamped around.timestamp)))
        | _ => some (none, p.goto rest .ready)

end Producer

end AgentGateway
