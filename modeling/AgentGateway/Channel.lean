/-!
Bounded queues between senders and one receiver. A sender that finds no room waits; the room that a
taken item leaves is granted to the first who waits, and nobody else can use it.
-/

namespace AgentGateway

abbrev ProcessId := Nat

structure Channel (α : Type) where
  capacity : Nat
  queue : List α := []
  waiting : List ProcessId := []
  /-- Those whose room is kept free until they send. -/
  granted : List ProcessId := []
  attached : Bool := true
  receiving : Bool := true
deriving DecidableEq

inductive Offer where
  | sent
  | full
  | disconnected
deriving DecidableEq, Repr

namespace Channel

variable {α : Type}

def maxCapacity : Nat := Nat.pow 2 61 - 1

def hasRoom (c : Channel α) : Bool := c.queue.length + c.granted.length < c.capacity

def hasSender (c : Channel α) : Bool := c.attached || !c.waiting.isEmpty || !c.granted.isEmpty

def push (c : Channel α) (a : α) : Channel α := { c with queue := c.queue ++ [a] }

def offer (c : Channel α) (a : α) : Offer × Channel α :=
  if !c.receiving then (.disconnected, c)
  else if c.hasRoom then (.sent, c.push a)
  else (.full, c)

def offerFor (p : ProcessId) (c : Channel α) (a : α) : Offer × Channel α :=
  if !c.receiving then (.disconnected, c)
  else if p ∈ c.granted then (.sent, { c with granted := c.granted.erase p }.push a)
  else if p ∈ c.waiting then (.full, c)
  else if c.hasRoom then (.sent, c.push a)
  else (.full, { c with waiting := c.waiting ++ [p] })

def grantNext (c : Channel α) : Option ProcessId × Channel α :=
  match c.waiting with
  | [] => (none, c)
  | p :: rest => (some p, { c with waiting := rest, granted := c.granted ++ [p] })

def take? (c : Channel α) : Option (α × Option ProcessId × Channel α) :=
  match c.queue with
  | [] => none
  | a :: rest =>
    let (woken, c) := { c with queue := rest }.grantNext
    some (a, woken, c)

def withdraw (p : ProcessId) (c : Channel α) : Option ProcessId × Channel α :=
  if p ∈ c.granted then { c with granted := c.granted.erase p }.grantNext
  else (none, { c with waiting := c.waiting.erase p })

def dropReceiver (c : Channel α) : List ProcessId × Channel α :=
  (c.waiting ++ c.granted,
    { c with queue := [], waiting := [], granted := [], receiving := false })

def dropSender (c : Channel α) : Channel α := { c with attached := false }

end Channel

end AgentGateway
