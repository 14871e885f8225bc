import AgentGateway.Command.Basic
import AgentGateway.Json.Reader
import AgentGateway.Task.Message
import AgentGateway.Text.Blank
import AgentGateway.Text.Quoted
/-!
The grammar of commands: one a line, a name alone or with arguments in parentheses. Other lines are
prose and carry no command.
-/

namespace AgentGateway

namespace ArgumentFault

def reason : ArgumentFault → List Char
  | .missing => "missing argument".toList
  | .badDuration argument => "bad duration ".toList ++ Text.quoted argument
  | .noPayload => "expected kind and payload".toList
  | .unknownKind kind => "unknown kind ".toList ++ Text.quoted kind
  | .badCount argument => "bad count ".toList ++ Text.quoted argument
  | .badCode argument => "bad code ".toList ++ Text.quoted argument
  | .unexpected => "takes no arguments".toList

def message (command : String) (f : ArgumentFault) : String :=
  "invalid arguments for " ++ command ++ ": " ++ String.ofList f.reason

end ArgumentFault

namespace Command

def isNameStart (c : Char) : Bool := c.isAlpha || c = '_'

def isNameChar (c : Char) : Bool := c.isAlphanum || c = '_'

def parenthesised? : List Char → Option (List Char)
  | '(' :: cs =>
    if cs.getLast? = some ')' ∧ '\n' ∉ cs then some cs.dropLast else none
  | _ => none

def split? (line : List Char) : Option (List Char × Option (List Char)) :=
  match Text.trim line with
  | [] => none
  | c :: cs =>
    if isNameStart c then
      let name := c :: cs.takeWhile isNameChar
      match cs.dropWhile isNameChar with
      | [] => some (name, none)
      | rest => (parenthesised? (Text.trimLeft rest)).map fun args => (name, some (Text.trim args))
    else none

/-- The value of an argument written bare or after its key. -/
def stripKey (key : String) (argument : List Char) : List Char :=
  let value := do Text.after? ['='] (Text.trimLeft (← Text.after? key.toList argument))
  (value.map Text.trim).getD argument

/-- A string literal of JSON for its text; anything else as it stands. -/
def unquote (cs : List Char) : List Char :=
  match cs with
  | '"' :: rest =>
    match Json.readQuoted (rest.length + 1) rest with
    | .ok (s, after) => if (Json.skipBlanks after).isEmpty then s else cs
    | .error _ => cs
  | _ => cs

def maxAmount : Nat := Nat.pow 2 64 - 1

def duration? (cs : List Char) : Option Nat := do
  let amount ← (Text.natOf? (cs.takeWhile Char.isDigit)).filter (· ≤ maxAmount)
  match Text.trimLeft (cs.dropWhile Char.isDigit) with
  | ['m', 's'] => some amount
  | ['s'] => some (amount * 1000)
  | _ => none

def required : Option (List Char) → Except ArgumentFault (List Char)
  | none | some [] => .error .missing
  | some argument => .ok argument

def ofSome {α : Type} (fault : ArgumentFault) : Option α → Except ArgumentFault α
  | none => .error fault
  | some a => .ok a

def readWait (argument : List Char) : Except ArgumentFault Command := do
  .ok (.wait (← ofSome (.badDuration argument) (duration? (stripKey "duration" argument))))

def readRespond (argument : List Char) : Except ArgumentFault Command := do
  let (kind, payload) ← ofSome .noPayload (Text.splitOnce? ',' argument)
  let kind := stripKey "kind" (Text.trim kind)
  let kind ← ofSome (.unknownKind kind) (RespondKind.ofName? (String.ofList kind))
  .ok (.respond kind (String.ofList (unquote (stripKey "payload" (Text.trim payload)))))

def readAsk (argument : List Char) : Except ArgumentFault Command :=
  .ok (.ask (String.ofList (unquote (stripKey "prompt" argument))))

def readStream (argument : List Char) : Except ArgumentFault Command := do
  let count := Text.unsigned? (Nat.pow 2 32 - 1) (stripKey "count" argument)
  .ok (.stream (← ofSome (.badCount argument) (count.filter (0 < ·))))

def readError (argument : List Char) : Except ArgumentFault Command :=
  let code := unquote (stripKey "code" argument)
  if code = "fail".toList then .ok (.error .fail)
  else do
    let n ← ofSome (.badCode code) (Text.signed? (-Nat.pow 2 31) (Nat.pow 2 31 - 1) code)
    .ok (.error (.code n))

def ofParts (name : String) (args : Option (List Char)) : Except ArgumentFault Command :=
  match name with
  | "wait" => do readWait (← required args)
  | "respond" => do readRespond (← required args)
  | "ask" => do readAsk (← required args)
  | "stream" => do readStream (← required args)
  | "error" => do readError (← required args)
  | "get_headers" =>
    match args with
    | none | some [] => .ok .getHeaders
    | some _ => .error .unexpected
  | other => .ok (.unknown other)

structure Line where
  name : String
  command : Except ArgumentFault Command

def ofLine? (line : List Char) : Option Line :=
  (split? line).map fun (name, args) =>
    let name := String.ofList name
    ⟨name, ofParts name args⟩

/-- The commands in a text, in order; lines with faulty arguments are dropped. -/
def ofText (text : String) : List Command :=
  (Text.lines text.toList).filterMap fun line => (ofLine? line).bind (·.command.toOption)

def ofMessage (m : TaskMessage) : List Command := m.texts.flatMap ofText

end Command

end AgentGateway
