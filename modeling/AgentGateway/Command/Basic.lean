
namespace AgentGateway

inductive RespondKind where
  | text
  | file
  | data
deriving DecidableEq, Repr

namespace RespondKind

def name : RespondKind → String
  | .text => "text"
  | .file => "file"
  | .data => "data"

def ofName? (name : String) : Option RespondKind := [text, file, data].find? (·.name = name)

end RespondKind

inductive ErrorOutcome where
  | code (n : Int)
  | fail
deriving DecidableEq, Repr

inductive Command where
  | wait (ms : Nat)
  | respond (kind : RespondKind) (payload : String)
  | ask (prompt : String)
  | stream (count : Nat)
  | error (outcome : ErrorOutcome)
  | getHeaders
  | unknown (name : String)
deriving DecidableEq, Repr

namespace Command

def name : Command → String
  | .wait _ => "wait"
  | .respond _ _ => "respond"
  | .ask _ => "ask"
  | .stream _ => "stream"
  | .error _ => "error"
  | .getHeaders => "get_headers"
  | .unknown name => name

end Command

inductive ArgumentFault where
  | missing
  | badDuration (argument : List Char)
  | noPayload
  | unknownKind (kind : List Char)
  | badCount (argument : List Char)
  | badCode (argument : List Char)
  | unexpected
deriving DecidableEq, Repr

end AgentGateway
