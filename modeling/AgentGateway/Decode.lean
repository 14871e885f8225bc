import AgentGateway.Json.Value
/-!
Decoding JSON values into records. A `Layout` lists a record's fields in order and says how each is
decoded. A record may be written as an object, whose unknown keys are passed over, or as an array of
its fields in order. Of several defects the first in the written order counts, and a field that is
missing counts only where every field that is present decodes.
-/

namespace AgentGateway

open Json (Value)

inductive DecodeError where
  | missingField (name : String)
  | unknownVariant (given : String) (known : List String)
  | noVariant (type : String)
  | wrongType (found : Value) (expected : String)
  | wrongValue (found : Value) (expected : String)
  | wrongLength (n : Nat) (expected : String)
deriving DecidableEq

namespace DecodeError

def ticked (s : String) : String := "`" ++ s ++ "`"

def variants : List String → String
  | [] => "there are no variants"
  | [a] => "expected " ++ ticked a
  | [a, b] => "expected " ++ ticked a ++ " or " ++ ticked b
  | vs => "expected one of " ++ ", ".intercalate (vs.map ticked)

def kind : Value → String
  | .null => "null"
  | .bool b => "boolean " ++ ticked (toString b)
  | .number (.int n) => "integer " ++ ticked (toString n)
  | .number (.float x) => "floating point " ++ ticked (String.ofList (Json.Number.floatChars x))
  | .string s => "string \"" ++ s ++ "\""
  | .array _ => "sequence"
  | .object _ => "map"

def message : DecodeError → String
  | .missingField name => "missing field " ++ ticked name
  | .unknownVariant given known => "unknown variant " ++ ticked given ++ ", " ++ variants known
  | .noVariant type => "data did not match any variant of untagged enum " ++ type
  | .wrongType found expected => "invalid type: " ++ kind found ++ ", expected " ++ expected
  | .wrongValue found expected => "invalid value: " ++ kind found ++ ", expected " ++ expected
  | .wrongLength n expected => "invalid length " ++ toString n ++ ", expected " ++ expected

end DecodeError

namespace Decode

def string : Value → Except DecodeError String
  | .string s => .ok s
  | v => .error (.wrongType v "a string")

def bool : Value → Except DecodeError Bool
  | .bool b => .ok b
  | v => .error (.wrongType v "a boolean")

def value (v : Value) : Except DecodeError Value := .ok v

def intBetween (low high : Int) (expected : String) : Value → Except DecodeError Int
  | .number (.int n) =>
    if low ≤ n ∧ n ≤ high then .ok n else .error (.wrongValue (.int n) expected)
  | v => .error (.wrongType v expected)

def int32 : Value → Except DecodeError Int := intBetween (-Nat.pow 2 31) (Nat.pow 2 31 - 1) "i32"

def int64 : Value → Except DecodeError Int := intBetween (-Nat.pow 2 63) (Nat.pow 2 63 - 1) "i64"

def natBits (bits : Nat) (v : Value) : Except DecodeError Nat :=
  (intBetween 0 (Nat.pow 2 bits - 1) ("u" ++ toString bits) v).map Int.toNat

def option {α : Type} (decode : Value → Except DecodeError α) :
    Value → Except DecodeError (Option α)
  | .null => .ok none
  | v => (decode v).map some

def list {α : Type} (decode : Value → Except DecodeError α) :
    Value → Except DecodeError (List α)
  | .array xs => xs.mapM decode
  | v => .error (.wrongType v "a sequence")

def stringMap : Value → Except DecodeError (List (String × String))
  | .object fields => fields.mapM fun (k, v) => do .ok (k, ← string v)
  | v => .error (.wrongType v "a map")

def variant {α : Type} (known : List (String × α)) (expected : String) :
    Value → Except DecodeError α
  | .string s => choose s
  | .object [(s, content)] => do
    let a ← choose s
    if content = .null then .ok a else .error (.wrongType content "unit variant")
  | .object fields => .error (.wrongValue (.object fields) "map with a single key")
  | v => .error (.wrongType v expected)
where
  choose (s : String) : Except DecodeError α :=
    match known.lookup s with
    | some a => .ok a
    | none => .error (.unknownVariant s (known.map Prod.fst))

end Decode

inductive Defect where
  | fault (place : Nat) (e : DecodeError)
  | missing (name : String)

/-- The defect that counts: the fault at the first place, or else the field declared first. -/
def Defect.first : Defect → Defect → Defect
  | .fault i e, .fault j f => if j < i then .fault j f else .fault i e
  | .missing _, .fault j f => .fault j f
  | d, _ => d

structure Layout (α : Type) where
  names : List String
  gather : List (String × Value) → Except Defect α

namespace Layout

variable {α β : Type}

def find? : List (String × Value) → String → Option (Nat × Value)
  | [], _ => none
  | (k, v) :: rest, name =>
    if k = name then some (0, v) else (find? rest name).map fun (i, v) => (i + 1, v)

def field (name : String) (absent : Except Defect α) (decode : Value → Except DecodeError α) :
    Layout α where
  names := [name]
  gather written :=
    match find? written name with
    | none => absent
    | some (place, v) => (decode v).mapError (.fault place)

def required (name : String) (decode : Value → Except DecodeError α) : Layout α :=
  field name (.error (.missing name)) decode

def withDefault (name : String) (a : α) (decode : Value → Except DecodeError α) : Layout α :=
  field name (.ok a) decode

def optional (name : String) (decode : Value → Except DecodeError α) : Layout (Option α) :=
  withDefault name none (Decode.option decode)

/-- Applies gathered functions to gathered values; of two defects the one that counts is kept. -/
def apply : Except Defect (α → β) → Except Defect α → Except Defect β
  | .ok f, .ok a => .ok (f a)
  | .ok _, .error d => .error d
  | .error d, .ok _ => .error d
  | .error d, .error e => .error (d.first e)

instance : Functor Layout where
  map f l := ⟨l.names, fun written => (l.gather written).map f⟩

instance : Seq Layout where
  seq f l := ⟨f.names ++ (l ()).names,
    fun written => apply (f.gather written) ((l ()).gather written)⟩

/-- Decodes a record written as an object or as an array of its fields; surplus items of an array
are passed over only where that is asked for. -/
def decode (l : Layout α) (expected : String) (v : Value) (surplus : Bool := false) :
    Except DecodeError α :=
  match v with
  | .object fields =>
    (l.gather fields).mapError fun
      | .fault _ e => e
      | .missing name => .missingField name
  | .array items => do
    let a ← (l.gather (l.names.zip items)).mapError fun
      | .fault _ e => e
      | .missing _ => .wrongLength items.length expected
    if surplus || items.length ≤ l.names.length then .ok a
    else .error (.wrongLength items.length expected)
  | v => .error (.wrongType v expected)

end Layout

end AgentGateway
