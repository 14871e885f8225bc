import AgentGateway.Toml.Value
/-!
Building the tables of a TOML document. A table is defined once: by its header, by dotted keys, or
in line; a header may go through tables that other headers or dotted keys only imply.
-/

namespace AgentGateway.Toml

inductive Node where
  | leaf (v : Value)
  /-- A table; implied where no header names it yet, dotted where keys with points made it. -/
  | table (implied dotted : Bool) (entries : List (String × Node))
  /-- The tables of an array, the last one first. -/
  | tables (items : List (List (String × Node)))

abbrev Entries := List (String × Node)

namespace Entries

def set (key : String) (n : Node) : Entries → Entries
  | [] => [(key, n)]
  | (k, m) :: rest => if k = key then (k, n) :: rest else (k, m) :: set key n rest

/-- Changes the table at the end of a path, which is made where it is missing. Keys with points may
only go through tables of their own kind. The change is told whether the table is a dotted one. -/
def descend (dotted : Bool) : List String → (Bool → Entries → Option Entries) → Bool → Entries →
    Option Entries
  | [], change, here, es => change here es
  | key :: path, change, _, es =>
    match es.lookup key with
    | none => do
      let inner ← descend dotted path change dotted []
      some (set key (.table true dotted inner) es)
    | some (.leaf _) => none
    | some (.table implied d inner) =>
      if dotted && !implied then none
      else do
        let inner ← descend dotted path change d inner
        some (set key (.table implied d inner) es)
    | some (.tables []) => none
    | some (.tables (last :: before)) => do
      let last ← descend dotted path change false last
      some (set key (.tables (last :: before)) es)

def assign (path : List String) (key : String) (v : Value) (es : Entries) : Option Entries :=
  descend true path (fun here es =>
    if here = path.isEmpty || (es.lookup key).isSome then none
    else some (set key (.leaf v) es)) false es

/-- Opens the table of a header: a new one, or one that was implied. -/
def openTable (path : List String) (key : String) (es : Entries) : Option Entries :=
  descend false path (fun _ es =>
    match es.lookup key with
    | none => some (set key (.table false false []) es)
    | some (.table true false inner) => some (set key (.table false false inner) es)
    | some _ => none) false es

def openItem (path : List String) (key : String) (es : Entries) : Option Entries :=
  descend false path (fun _ es =>
    match es.lookup key with
    | none => some (set key (.tables [[]]) es)
    | some (.tables items) => some (set key (.tables ([] :: items)) es)
    | some _ => none) false es

def within (header : List String) (change : Entries → Option Entries) (es : Entries) :
    Option Entries :=
  descend false header (fun _ es => change es) false es

end Entries

mutual

def Node.toValue : Node → Value
  | .leaf v => v
  | .table _ _ entries => .table (entriesToValue entries)
  | .tables items => .array (itemsToValue items).reverse

def entriesToValue : List (String × Node) → List (String × Value)
  | [] => []
  | (k, n) :: rest => (k, n.toValue) :: entriesToValue rest

def itemsToValue : List (List (String × Node)) → List Value
  | [] => []
  | es :: rest => .table (entriesToValue es) :: itemsToValue rest

end

end AgentGateway.Toml
