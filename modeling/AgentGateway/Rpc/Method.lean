
namespace AgentGateway

inductive Method where
  | handshake
  | handshakeDone
  | ping
  | toolsList
  | toolsCall
  | promptsList
  | promptsGet
  | resourcesList
  | resourcesTemplatesList
  | resourcesRead
  | resourcesSubscribe
  | resourcesUnsubscribe
  | complete
  | setLogLevel
  | rootsChanged
  | tasksSend
  | tasksSendSubscribe
  | tasksGet
  | tasksCancel
deriving DecidableEq, Repr

namespace Method

def name : Method → String
  | .handshake => "initialize"
  | .handshakeDone => "notifications/initialized"
  | .ping => "ping"
  | .toolsList => "tools/list"
  | .toolsCall => "tools/call"
  | .promptsList => "prompts/list"
  | .promptsGet => "prompts/get"
  | .resourcesList => "resources/list"
  | .resourcesTemplatesList => "resources/templates/list"
  | .resourcesRead => "resources/read"
  | .resourcesSubscribe => "resources/subscribe"
  | .resourcesUnsubscribe => "resources/unsubscribe"
  | .complete => "completion/complete"
  | .setLogLevel => "logging/setLevel"
  | .rootsChanged => "notifications/roots/list_changed"
  | .tasksSend => "tasks/send"
  | .tasksSendSubscribe => "tasks/sendSubscribe"
  | .tasksGet => "tasks/get"
  | .tasksCancel => "tasks/cancel"

def all : List Method :=
  [.handshake, .ping, .toolsList, .toolsCall, .promptsList, .promptsGet, .resourcesList,
    .resourcesTemplatesList, .resourcesRead, .resourcesSubscribe, .resourcesUnsubscribe, .complete,
    .setLogLevel, .tasksSend, .tasksSendSubscribe, .tasksGet, .tasksCancel, .handshakeDone,
    .rootsChanged]

def ofName? (name : String) : Option Method := all.find? (·.name = name)

def onTasks : Method → Bool
  | .tasksSend | .tasksSendSubscribe | .tasksGet | .tasksCancel => true
  | _ => false

end Method

def namesTaskMethod (name : String) : Bool := (Method.ofName? name).any Method.onTasks

structure AllowList where
  names : List String
deriving DecidableEq, Repr

namespace AllowList

def ofList (names : List String) : AllowList := ⟨names.eraseDups⟩

def standard : AllowList := ofList (Method.all.map Method.name)

def contains (l : AllowList) (name : String) : Bool := l.names.contains name

def size (l : AllowList) : Nat := l.names.length

def isEmpty (l : AllowList) : Bool := l.names.isEmpty

end AllowList

end AgentGateway
