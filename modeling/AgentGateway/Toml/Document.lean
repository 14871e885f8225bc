import AgentGateway.Toml.Scalar
import AgentGateway.Toml.Table

namespace AgentGateway.Toml

def isBare (c : Char) : Bool := c.isAlphanum || c = '_' || c = '-'

def simpleKey? : List Char → Option (String × List Char)
  | '"' :: rest => do
    let (key, rest) ← line? '"' (rest.length + 1) rest
    some (String.ofList key, rest)
  | '\'' :: rest => do
    let (key, rest) ← line? '\'' (rest.length + 1) rest
    some (String.ofList key, rest)
  | cs =>
    let key := cs.takeWhile isBare
    if key.isEmpty then none else some (String.ofList key, cs.dropWhile isBare)

def keyParts? : Nat → List Char → Option (List String × List Char)
  | 0, _ => none
  | fuel + 1, cs => do
    let (key, rest) ← simpleKey? (skipSpaces cs)
    match skipSpaces rest with
    | '.' :: rest =>
      let (path, rest) ← keyParts? fuel rest
      some (key :: path, rest)
    | rest => some ([key], rest)

def maxParts : Nat := 79

def key? (cs : List Char) : Option ((List String × String) × List Char) := do
  let (parts, rest) ← keyParts? maxParts cs
  some ((parts.dropLast, ← parts.getLast?), rest)

def comment? (cs : List Char) : Option (List Char) :=
  match cs with
  | '#' :: rest =>
    let after := rest.dropWhile fun c => !isControl c
    if after.isEmpty ∨ (newline? after).isSome then some after else none
  | _ => some cs

def skipLines? : Nat → List Char → Option (List Char)
  | 0, cs => some cs
  | fuel + 1, cs => do
    let rest ← comment? (skipSpaces cs)
    match newline? rest with
    | some rest => skipLines? fuel rest
    | none => some rest

def between? (cs : List Char) : Option (List Char) := skipLines? (cs.length + 1) cs

mutual

def value? : Nat → Nat → List Char → Option (Value × List Char)
  | 0, _, _ => none
  | fuel + 1, depth, cs =>
    match cs with
    | '"' :: rest => (string? '"' rest).map fun (s, rest) => (.string s, rest)
    | '\'' :: rest => (string? '\'' rest).map fun (s, rest) => (.string s, rest)
    | '[' :: rest =>
      match depth with
      | 0 => none
      | depth + 1 => do
        let (items, rest) ← items? fuel depth rest
        some (.array items, rest)
    | '{' :: rest =>
      match depth with
      | 0 => none
      | depth + 1 =>
        match skipSpaces rest with
        | '}' :: rest => some (.table [], rest)
        | rest => do
          let (entries, rest) ← entries? fuel depth [] rest
          some (.table (entriesToValue entries), rest)
    | 't' :: rest => (word? "rue".toList rest).map fun rest => (.boolean true, rest)
    | 'f' :: rest => (word? "alse".toList rest).map fun rest => (.boolean false, rest)
    | 'i' :: _ | 'n' :: _ => special? cs
    | _ => (datetime? cs).orElse fun _ => number? cs

def items? : Nat → Nat → List Char → Option (List Value × List Char)
  | 0, _, _ => none
  | fuel + 1, depth, cs => do
    match ← between? cs with
    | ']' :: rest => some ([], rest)
    | rest =>
      let (v, rest) ← value? fuel depth rest
      match ← between? rest with
      | ',' :: rest =>
        let (vs, rest) ← items? fuel depth rest
        some (v :: vs, rest)
      | ']' :: rest => some ([v], rest)
      | _ => none

def entries? : Nat → Nat → Entries → List Char → Option (Entries × List Char)
  | 0, _, _, _ => none
  | fuel + 1, depth, found, cs => do
    let ((path, key), rest) ← key? cs
    let rest ← word? ['='] rest
    let (v, rest) ← value? fuel depth (skipSpaces rest)
    let found ← found.assign path key v
    match skipSpaces rest with
    | ',' :: rest => entries? fuel depth found rest
    | '}' :: rest => some (found, rest)
    | _ => none

end

def maxDepth : Nat := 79

def lineEnd? (cs : List Char) : Option (List Char) := do
  let rest ← comment? (skipSpaces cs)
  if rest.isEmpty then some [] else newline? rest

def header? (close : List Char) (cs : List Char) : Option ((List String × String) × List Char) := do
  let (key, rest) ← key? cs
  some (key, ← lineEnd? (← word? close rest))

def lines? : Nat → List String → Entries → List Char → Option Entries
  | 0, _, _, _ => none
  | fuel + 1, header, es, cs => do
    match ← between? cs with
    | [] => some es
    | '[' :: '[' :: rest =>
      let ((path, key), rest) ← header? [']', ']'] rest
      lines? fuel (path ++ [key]) (← es.openItem path key) rest
    | '[' :: rest =>
      let ((path, key), rest) ← header? [']'] rest
      lines? fuel (path ++ [key]) (← es.openTable path key) rest
    | rest =>
      let ((path, key), rest) ← key? rest
      let rest ← word? ['='] rest
      let (v, rest) ← value? (rest.length + 1) maxDepth (skipSpaces rest)
      let rest ← lineEnd? rest
      lines? fuel header (← es.within header fun table => table.assign path key v) rest

def parse? (text : String) : Option Value :=
  let cs := match text.toList with
    | '\uFEFF' :: rest => rest
    | cs => cs
  (lines? (cs.length + 1) [] [] cs).map fun es => .table (entriesToValue es)

end AgentGateway.Toml
