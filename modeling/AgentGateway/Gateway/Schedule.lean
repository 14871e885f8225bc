import AgentGateway.Gateway.Step
/-!
The order in which processes run. Each runs until it waits, and those that have been woken take
turns; the clock moves only when all of them wait, and stops wherever one of them has asked to be
woken.
-/

namespace AgentGateway.Gateway

/-- How many steps a process may take before the next one gets to run. -/
def patience : Nat := Nat.pow 2 20

def exhaust (step : Gateway → Option Gateway) : Nat → Gateway → Gateway
  | 0, g => g
  | n + 1, g =>
    match step g with
    | none => g
    | some g => exhaust step n g

def produceAll (p : ProcessId) (g : Gateway) : Gateway := exhaust (produce? p) patience g

def consumeAll (p : ProcessId) (g : Gateway) : Gateway :=
  (exhaust (consume? p) patience g).listen p

def invoke (p : ProcessId) (g : Gateway) : Gateway :=
  match g.invocation? p with
  | none => g
  | some i =>
    let g := g.setInvocation p { i with consumerFirst := !i.consumerFirst }
    if i.consumerFirst then (g.consumeAll p).produceAll p else (g.produceAll p).consumeAll p

def controlAll (p : ProcessId) (g : Gateway) : Gateway := exhaust (control? p) patience g

/-- Lets a process run until it waits. One that has been woken meanwhile is put in line again. -/
def run (p : ProcessId) (g : Gateway) : Gateway :=
  let g := { g with schedule := { g.schedule with running := some p, rewoken := false } }
  let g := ((g.controlAll p).invoke p).controlAll p
  let again := g.schedule.rewoken
  let g := { g with schedule := { g.schedule with running := none, rewoken := false } }
  if again then g.wake p else g

def settleWithin : Nat → Gateway → Gateway
  | 0, g => g
  | n + 1, g =>
    match g.schedule.ready with
    | [] => g
    | p :: rest =>
      settleWithin n (run p { g with schedule := { g.schedule with ready := rest } })

def settle (g : Gateway) : Gateway := g.settleWithin patience

def fire (g : Gateway) : Gateway :=
  let (due, later) := g.schedule.timers.partition (·.1 ≤ g.now)
  { g with schedule := { g.schedule with timers := later } }.wakeAll (due.map Prod.snd)

def nextTimer? (g : Gateway) : Option Nanos := (g.schedule.timers.map (·.1)).min?

def sleepWithin (target : Nanos) : Nat → Gateway → Gateway
  | 0, g => g
  | n + 1, g =>
    match g.nextTimer? with
    | some t =>
      if t ≤ target then sleepWithin target n (settle (fire { g with now := max g.now t }))
      else { g with now := max g.now target }
    | none => { g with now := max g.now target }

def sleep (d : Nanos) (g : Gateway) : Gateway := g.sleepWithin (g.now + d) patience

end AgentGateway.Gateway
