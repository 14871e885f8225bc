
namespace AgentGateway

inductive CloseReason where
  | explicit
  | idle
  | shutdown
  | disconnected
deriving DecidableEq, Repr

namespace CloseReason

def label : CloseReason → String
  | .explicit => "explicit"
  | .idle => "idle"
  | .shutdown => "shutdown"
  | .disconnected => "disconnected"

def all : List CloseReason := [.explicit, .idle, .shutdown, .disconnected]

def ofLabel? (label : String) : Option CloseReason := all.find? (·.label = label)

end CloseReason

abbrev Tally := List (String × Nat)

namespace Tally

def count (label : String) (t : Tally) : Nat := (t.lookup label).getD 0

def record (label : String) : Tally → Tally
  | [] => [(label, 1)]
  | (l, n) :: rest => if l = label then (l, n + 1) :: rest else (l, n) :: record label rest

end Tally

structure Metrics where
  active : Int := 0
  created : Nat := 0
  closed : Tally := []
  rejections : Tally := []
  updates : Tally := []
  outcomes : Tally := []
deriving DecidableEq

namespace Metrics

def sessionCreated (m : Metrics) : Metrics :=
  { m with created := m.created + 1, active := m.active + 1 }

def sessionClosed (reason : CloseReason) (m : Metrics) : Metrics :=
  { m with closed := m.closed.record reason.label, active := m.active - 1 }

def rejected (reason : String) (m : Metrics) : Metrics :=
  { m with rejections := m.rejections.record reason }

def updated (kind : String) (m : Metrics) : Metrics :=
  { m with updates := m.updates.record kind }

def ended (label : String) (m : Metrics) : Metrics :=
  { m with outcomes := m.outcomes.record label }

def labelled (name label value : String) : String :=
  "gateway_" ++ name ++ "\x7b" ++ label ++ "=\"" ++ value ++ "\"\x7d"

def tallied (name label : String) (t : Tally) : List (String × Int) :=
  t.map fun (value, n) => (labelled name label value, (n : Int))

def series (m : Metrics) : List (String × Int) :=
  [("gateway_active_sessions", m.active), ("gateway_sessions_created_total", (m.created : Int))]
    ++ tallied "sessions_closed_total" "reason" m.closed
    ++ tallied "validation_rejections_total" "reason" m.rejections
    ++ tallied "task_updates_total" "kind" m.updates
    ++ tallied "task_outcomes_total" "outcome" m.outcomes

end Metrics

end AgentGateway
