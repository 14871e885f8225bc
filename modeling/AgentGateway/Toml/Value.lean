import AgentGateway.Json.Value
/-!
Values of TOML documents. Floats and dates keep their text, since nothing is computed with them.
-/

namespace AgentGateway.Toml

inductive Value where
  | string (s : String)
  | integer (n : Int)
  | float (text : String)
  | boolean (b : Bool)
  | datetime (text : String)
  | array (items : List Value)
  | table (entries : List (String × Value))
deriving Repr

namespace Value

mutual

/-- The value as JSON. Of a float only its kind is kept, and a date becomes an object that holds its
text. -/
def toJson : Value → Json.Value
  | .string s => .string s
  | .integer n => .int n
  | .float _ => .number (.float ⟨false, 0, Binary64.minExponent⟩)
  | .boolean b => .bool b
  | .datetime text => .object [("datetime", .string text)]
  | .array items => .array (toJsonItems items)
  | .table entries => .object (toJsonEntries entries)

def toJsonItems : List Value → List Json.Value
  | [] => []
  | v :: vs => toJson v :: toJsonItems vs

def toJsonEntries : List (String × Value) → List (String × Json.Value)
  | [] => []
  | (k, v) :: es => KeyOrder.insert k (toJson v) (toJsonEntries es)

end

end Value

end AgentGateway.Toml
