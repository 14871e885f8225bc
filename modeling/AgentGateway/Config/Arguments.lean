import AgentGateway.Config.Resolve
import AgentGateway.Text.Blank

namespace AgentGateway

inductive Flag where
  | config
  | logLevel
  | idleTimeoutSecs
  | sweepIntervalSecs
  | requestsPerMinute
  | requestsPerSecond
  | maxParamsBytes
deriving DecidableEq, Repr

namespace Flag

def name : Flag → String
  | .config => "--config"
  | .logLevel => "--log-level"
  | .idleTimeoutSecs => "--idle-timeout-secs"
  | .sweepIntervalSecs => "--sweep-interval-secs"
  | .requestsPerMinute => "--requests-per-minute"
  | .requestsPerSecond => "--requests-per-second"
  | .maxParamsBytes => "--max-params-bytes"

def placeholder : Flag → String
  | .config => "<CONFIG>"
  | .logLevel => "<LOG_LEVEL>"
  | .idleTimeoutSecs => "<IDLE_TIMEOUT_SECS>"
  | .sweepIntervalSecs => "<SWEEP_INTERVAL_SECS>"
  | .requestsPerMinute => "<REQUESTS_PER_MINUTE>"
  | .requestsPerSecond => "<REQUESTS_PER_SECOND>"
  | .maxParamsBytes => "<MAX_PARAMS_BYTES>"

def all : List Flag :=
  [.config, .logLevel, .idleTimeoutSecs, .sweepIntervalSecs, .requestsPerMinute, .requestsPerSecond,
    .maxParamsBytes]

def ofName? (name : String) : Option Flag := all.find? (·.name = name)

def usage (f : Flag) : String := f.name ++ " " ++ f.placeholder

end Flag

inductive ArgumentError where
  | unexpected (argument : String)
  | missingValue (f : Flag)
  | repeated (f : Flag)
  | invalidValue (f : Flag) (value reason : String)
deriving DecidableEq

namespace ArgumentError

def message : ArgumentError → String
  | .unexpected argument => "unexpected argument '" ++ argument ++ "' found"
  | .missingValue f => "a value is required for '" ++ f.usage ++ "' but none was supplied"
  | .repeated f => "the argument '" ++ f.usage ++ "' cannot be used multiple times"
  | .invalidValue f value reason =>
    "invalid value '" ++ value ++ "' for '" ++ f.usage ++ "': " ++ reason

end ArgumentError

structure Arguments where
  configPath : Option String := none
  cli : CliConfig := {}
deriving DecidableEq

namespace Arguments

def split (argument : String) : String × Option String :=
  match argument.toList.span (· ≠ '=') with
  | (name, '=' :: value) => (String.ofList name, some (String.ofList value))
  | _ => (argument, none)

def numberFault (value : String) : String :=
  let digits := (Text.after? ['+'] value.toList).getD value.toList
  if value.isEmpty then "cannot parse integer from empty string"
  else if digits.isEmpty || !digits.all Char.isDigit then "invalid digit found in string"
  else "number too large to fit in target type"

def number (f : Flag) (bits : Nat) (value : String) : Except ArgumentError Nat :=
  match Text.unsigned? (Nat.pow 2 bits - 1) value.toList with
  | some n => .ok n
  | none => .error (.invalidValue f value (numberFault value))

def level (value : String) : Except ArgumentError LogLevel :=
  match LogLevel.ofAnyCase? value with
  | some l => .ok l
  | none => .error (.invalidValue .logLevel value
      ("expected one of " ++ ", ".intercalate (LogLevel.all.map LogLevel.name)))

def set (f : Flag) (value : String) (a : Arguments) : Except ArgumentError Arguments :=
  let c := a.cli
  match f with
  | .config => .ok { a with configPath := some value }
  | .logLevel => (level value).map fun l => { a with cli := { c with logLevel := l } }
  | .idleTimeoutSecs =>
    (number f 64 value).map fun n => { a with cli := { c with idleTimeoutSecs := n } }
  | .sweepIntervalSecs =>
    (number f 64 value).map fun n => { a with cli := { c with sweepIntervalSecs := n } }
  | .requestsPerMinute =>
    (number f 32 value).map fun n => { a with cli := { c with requestsPerMinute := n } }
  | .requestsPerSecond =>
    (number f 32 value).map fun n => { a with cli := { c with requestsPerSecond := n } }
  | .maxParamsBytes =>
    (number f 64 value).map fun n => { a with cli := { c with maxParamsBytes := n } }

def pairs : List String → Except ArgumentError (List (Flag × String))
  | [] => .ok []
  | word :: rest =>
    match Flag.ofName? (split word).1, (split word).2 with
    | none, _ => .error (.unexpected word)
    | some f, some value => (pairs rest).map ((f, value) :: ·)
    | some f, none =>
      match rest with
      | [] => .error (.missingValue f)
      | value :: rest => (pairs rest).map ((f, value) :: ·)

def setAll (given : List Flag) (a : Arguments) :
    List (Flag × String) → Except ArgumentError Arguments
  | [] => .ok a
  | (f, value) :: rest =>
    if f ∈ given then .error (.repeated f) else (a.set f value).bind (setAll (f :: given) · rest)

def ofList (words : List String) : Except ArgumentError Arguments :=
  (pairs words).bind (setAll [] {})

end Arguments

end AgentGateway
