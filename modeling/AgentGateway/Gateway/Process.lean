import AgentGateway.Invocation.Producer
import AgentGateway.Tool.Basic

namespace AgentGateway

open Json (Value)

/-- The place of a session among all that were ever opened. -/
abbrev SessionRef := Nat

inductive Delivery where
  | fresh (m : Message)
  /-- Holds a sender of its own and waits for room. -/
  | waiting (m : Message)
deriving DecidableEq

structure Subscriber where
  session : SessionRef
  request : RequestId
deriving DecidableEq

inductive ConsumerStage where
  | receiving
  | forwarding (d : Delivery)
  | stopped
deriving DecidableEq

structure Invocation where
  taskId : String
  token : Token
  producer : Producer
  queue : List Update := []
  consumer : ConsumerStage := .receiving
  subscriber : Option Subscriber := none
  consumerFirst : Bool := false
  /-- Whether the consumer has found the queue empty and asked to be told. -/
  listening : Bool := false
deriving DecidableEq

namespace Invocation

def queueCapacity : Nat := 32

def start (chunkDelay : Nanos) (task : Task) (token : Token) (subscriber : Option Subscriber) :
    Invocation :=
  { taskId := task.id, token, producer := .start chunkDelay task, subscriber }

def ending? (i : Invocation) : Option Ending :=
  if i.consumer = .stopped then i.producer.ending? else none

def isStuck (i : Invocation) : Bool :=
  match i.producer.stage with
  | .emitting _ => queueCapacity ≤ i.queue.length
  | _ => false

def isWatching (i : Invocation) : Bool :=
  match i.producer.stage with
  | .sleeping _ | .emitting _ => true
  | _ => false

end Invocation

inductive Handling where
  | start (sessionId : String) (m : Message)
  | running (i : Invocation) (request : RequestId) (historyLength : Option Nat)
  | calling (request : RequestId) (poll : ToolPoll)
  | done (reply : Option Message)
deriving DecidableEq

def Handling.settle (poll : ToolPoll) : Handling → Handling
  | .calling request .pending => .calling request poll
  | h => h

inductive Answering where
  | handling (h : Handling)
  | replying (reply : Message)
  | sending (session : SessionRef) (d : Delivery)
  /-- Whether the session can still be written to. -/
  | done (writable : Bool)
deriving DecidableEq

inductive LoopStage where
  | receiving
  | answering (a : Answering)
  | stopped
deriving DecidableEq

structure SessionLoop where
  sessionId : String
  inbound : Channel Message
  stage : LoopStage := .receiving
deriving DecidableEq

namespace SessionLoop

def stop (l : SessionLoop) : SessionLoop :=
  { l with stage := .stopped, inbound := l.inbound.dropReceiver.2 }

end SessionLoop

inductive Subscription where
  | running (i : Invocation)
  /-- Tells the peer that the task was cancelled. -/
  | closing (session : SessionRef) (d : Delivery)
  | done
deriving DecidableEq

inductive CallError where
  | session (e : SessionError)
  | cancelled (id : RequestId)
  | timeout (method : String) (limit : Nanos)
deriving DecidableEq

namespace CallError

def message : CallError → String
  | .session e => e.message
  | .cancelled id => "request " ++ id.display ++ " was cancelled before a response arrived"
  | .timeout method limit => method ++ " request timed out after " ++ limit.text

end CallError

structure Handle where
  session : SessionRef
  id : RequestId
  ticket : Ticket
deriving DecidableEq

inductive CallStage where
  | start
  | sending (h : Handle) (d : Delivery)
  | waiting (h : Handle) (deadline : Option Nanos)
  | done (result : Except CallError Message)

structure Call where
  sessionId : String
  method : String
  params : Option Value
  timeout : Option Nanos
  stage : CallStage := .start

structure PageWalk where
  sessionId : String
  method : String
  params : Option Value
  timeout : Nanos
  maxSkipped : Nat
  token : Token
  cursor : Option String := none
  skipped : Nat := 0
  call : Option Call
  items : List Message := []

inductive NoticeStage where
  | start
  | sending (pending : List (SessionRef × Delivery))
  | done
deriving DecidableEq

structure Notice where
  message : Message
  stage : NoticeStage := .start
  delivered : Nat := 0
  failed : List SessionRef := []
deriving DecidableEq

structure Sweeper where
  idleTimeout : Nanos
  interval : Nanos
  token : Token
  wakesAt : Option Nanos := none
  finished : Bool := false
deriving DecidableEq

inductive Process where
  | message (h : Handling)
  | answer (sessionId : String) (a : Answering)
  | sessionLoop (l : SessionLoop)
  | subscription (s : Subscription)
  | call (c : Call)
  | pages (w : PageWalk)
  | notice (n : Notice)
  | sweeper (s : Sweeper)

namespace Process

def invocation? : Process → Option Invocation
  | .message (.running i _ _) => some i
  | .answer _ (.handling (.running i _ _)) => some i
  | .sessionLoop { stage := .answering (.handling (.running i _ _)), .. } => some i
  | .subscription (.running i) => some i
  | _ => none

def withInvocation (i : Invocation) : Process → Process
  | .message (.running _ r n) => .message (.running i r n)
  | .answer id (.handling (.running _ r n)) => .answer id (.handling (.running i r n))
  | .sessionLoop l =>
    match l.stage with
    | .answering (.handling (.running _ r n)) =>
      .sessionLoop { l with stage := .answering (.handling (.running i r n)) }
    | _ => .sessionLoop l
  | .subscription (.running _) => .subscription (.running i)
  | p => p

def settle (poll : ToolPoll) : Process → Process
  | .message h => .message (h.settle poll)
  | .answer id (.handling h) => .answer id (.handling (h.settle poll))
  | .sessionLoop l =>
    match l.stage with
    | .answering (.handling h) =>
      .sessionLoop { l with stage := .answering (.handling (h.settle poll)) }
    | _ => .sessionLoop l
  | p => p

def watches (t : Token) (x : Process) : Bool :=
  match x with
  | .pages p => p.token = t && p.call.isSome
  | .sweeper s => s.token = t && !s.finished
  | _ => x.invocation?.any fun i => i.token = t && i.isWatching

end Process

end AgentGateway
