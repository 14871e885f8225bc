import AgentGateway.Json.Value
/-!
Reading JSON texts. Containers nest at most 127 deep. A `Shape` says which fields of a record are
read; a record refuses a field given twice, and skips the fields that it does not know by a laxer
grammar: neither their depth nor the range of their numbers is checked.
-/

namespace AgentGateway.Json

inductive ReadError where
  | unexpectedEnd
  | unexpected (c : Char)
  | malformedNumber
  | numberOutOfRange
  | malformedEscape
  | controlCharacter (c : Char)
  | tooDeep
  | trailingCharacters
  | duplicateField (name : String)
deriving DecidableEq, Repr

namespace ReadError

def message : ReadError → String
  | .unexpectedEnd => "the text ends too early"
  | .unexpected c => "unexpected character " ++ c.toString
  | .malformedNumber => "invalid number"
  | .numberOutOfRange => "number out of range"
  | .malformedEscape => "invalid escape"
  | .controlCharacter _ => "control character in a string"
  | .tooDeep => "recursion limit exceeded"
  | .trailingCharacters => "trailing characters"
  | .duplicateField name => "duplicate field " ++ name

end ReadError

/-- Which fields of a value are read: all of it, or the named fields of a record. -/
inductive Shape where
  | whole
  | record (fields : List (String × Shape))

def isBlank (c : Char) : Bool := c = ' ' || c = '\n' || c = '\t' || c = '\r'

def skipBlanks (cs : List Char) : List Char := cs.dropWhile isBlank

def unexpected {α : Type} : List Char → Except ReadError α
  | [] => .error .unexpectedEnd
  | c :: _ => .error (.unexpected c)

def hexValue? (c : Char) : Option Nat :=
  if c.isDigit then some (c.toNat - '0'.toNat)
  else if 'a' ≤ c ∧ c ≤ 'f' then some (c.toNat - 'a'.toNat + 10)
  else if 'A' ≤ c ∧ c ≤ 'F' then some (c.toNat - 'A'.toNat + 10)
  else none

def readUnit : List Char → Except ReadError (Nat × List Char)
  | a :: b :: c :: d :: rest =>
    match hexValue? a, hexValue? b, hexValue? c, hexValue? d with
    | some a, some b, some c, some d => .ok (((a * 16 + b) * 16 + c) * 16 + d, rest)
    | _, _, _, _ => .error .malformedEscape
  | _ => .error .unexpectedEnd

def readUnicode (cs : List Char) : Except ReadError (Char × List Char) := do
  let (unit, rest) ← readUnit cs
  if unit < 0xD800 ∨ 0xDFFF < unit then .ok (Char.ofNat unit, rest)
  else if 0xDC00 ≤ unit then .error .malformedEscape
  else
    match rest with
    | '\\' :: 'u' :: rest => do
      let (low, rest) ← readUnit rest
      if 0xDC00 ≤ low ∧ low ≤ 0xDFFF then
        .ok (Char.ofNat ((unit - 0xD800) * 0x400 + (low - 0xDC00) + 0x10000), rest)
      else .error .malformedEscape
    | _ => .error .malformedEscape

def simpleEscape? : Char → Option Char
  | '"' => some '"'
  | '\\' => some '\\'
  | '/' => some '/'
  | 'b' => some '\x08'
  | 'f' => some '\x0c'
  | 'n' => some '\n'
  | 'r' => some '\r'
  | 't' => some '\t'
  | _ => none

def readQuoted : Nat → List Char → Except ReadError (List Char × List Char)
  | 0, _ | _, [] => .error .unexpectedEnd
  | _ + 1, '"' :: rest => .ok ([], rest)
  | fuel + 1, '\\' :: 'u' :: rest => do
    let (c, rest) ← readUnicode rest
    let (cs, rest) ← readQuoted fuel rest
    .ok (c :: cs, rest)
  | _ + 1, ['\\'] => .error .unexpectedEnd
  | fuel + 1, '\\' :: e :: rest =>
    match simpleEscape? e with
    | none => .error .malformedEscape
    | some c => do
      let (cs, rest) ← readQuoted fuel rest
      .ok (c :: cs, rest)
  | fuel + 1, c :: rest =>
    if c.toNat < 32 then .error (.controlCharacter c)
    else do
      let (cs, rest) ← readQuoted fuel rest
      .ok (c :: cs, rest)

/-- Skips a string up to its closing quote; surrogates may stand alone. -/
def skipQuoted : Nat → List Char → Except ReadError (List Char)
  | 0, _ | _, [] => .error .unexpectedEnd
  | _ + 1, '"' :: rest => .ok rest
  | fuel + 1, '\\' :: 'u' :: rest => do
    let (_, rest) ← readUnit rest
    skipQuoted fuel rest
  | _ + 1, ['\\'] => .error .unexpectedEnd
  | fuel + 1, '\\' :: e :: rest =>
    if (simpleEscape? e).isSome then skipQuoted fuel rest else .error .malformedEscape
  | fuel + 1, c :: rest =>
    if c.toNat < 32 then .error (.controlCharacter c) else skipQuoted fuel rest

def readString (cs : List Char) : Except ReadError (String × List Char) := do
  let (chars, rest) ← readQuoted (cs.length + 1) cs
  .ok (String.ofList chars, rest)

def readNumber (cs : List Char) : Except ReadError (Number × List Char) :=
  match Numeral.read? cs with
  | none => .error .malformedNumber
  | some (n, rest) =>
    match n.value? with
    | none => .error .numberOutOfRange
    | some v => .ok (v, rest)

def readWord : List Char → List Char → Except ReadError (List Char)
  | [], rest => .ok rest
  | w :: ws, c :: cs => if w = c then readWord ws cs else .error (.unexpected c)
  | _ :: _, [] => .error .unexpectedEnd

def readKey : List Char → Except ReadError (String × List Char)
  | '"' :: cs => do
    let (key, rest) ← readString cs
    match skipBlanks rest with
    | ':' :: rest => .ok (key, rest)
    | rest => unexpected rest
  | cs => unexpected cs

def isNumberStart (c : Char) : Bool := c = '-' || c.isDigit

mutual

def skipValue : Nat → List Char → Except ReadError (List Char)
  | 0, _ => .error .unexpectedEnd
  | fuel + 1, cs =>
    match skipBlanks cs with
    | 'n' :: rest => readWord "ull".toList rest
    | 't' :: rest => readWord "rue".toList rest
    | 'f' :: rest => readWord "alse".toList rest
    | '"' :: rest => skipQuoted (rest.length + 1) rest
    | '[' :: rest =>
      match skipBlanks rest with
      | ']' :: rest => .ok rest
      | rest => skipItems fuel rest
    | '{' :: rest =>
      match skipBlanks rest with
      | '}' :: rest => .ok rest
      | rest => skipFields fuel rest
    | rest =>
      if (rest.head?.map isNumberStart).getD false then
        match Numeral.read? rest with
        | none => .error .malformedNumber
        | some (_, rest) => .ok rest
      else unexpected rest

def skipItems : Nat → List Char → Except ReadError (List Char)
  | 0, _ => .error .unexpectedEnd
  | fuel + 1, cs => do
    let rest ← skipValue fuel cs
    match skipBlanks rest with
    | ',' :: rest => skipItems fuel rest
    | ']' :: rest => .ok rest
    | rest => unexpected rest

def skipFields : Nat → List Char → Except ReadError (List Char)
  | 0, _ => .error .unexpectedEnd
  | fuel + 1, cs => do
    match skipBlanks cs with
    | '"' :: rest =>
      let rest ← skipQuoted (rest.length + 1) rest
      match skipBlanks rest with
      | ':' :: rest =>
        let rest ← skipValue fuel rest
        match skipBlanks rest with
        | ',' :: rest => skipFields fuel rest
        | '}' :: rest => .ok rest
        | rest => unexpected rest
      | rest => unexpected rest
    | rest => unexpected rest

end

def Shape.field? : Shape → String → Option Shape
  | .whole, _ => some .whole
  | .record fields, key => fields.lookup key

/-- The shape of the next item of an array and of the items after it: a record lists its fields in
order. -/
def Shape.item : Shape → Shape × Shape
  | .whole => (.whole, .whole)
  | .record [] => (.whole, .record [])
  | .record ((_, s) :: rest) => (s, .record rest)

def Shape.isRecord : Shape → Bool
  | .whole => false
  | .record _ => true

mutual

/-- Reads a value; `depth` is the number of containers that may still be entered. -/
def readValue : Nat → Nat → Shape → List Char → Except ReadError (Value × List Char)
  | 0, _, _, _ => .error .unexpectedEnd
  | fuel + 1, depth, shape, cs =>
    match skipBlanks cs with
    | 'n' :: rest => do .ok (.null, ← readWord "ull".toList rest)
    | 't' :: rest => do .ok (.bool true, ← readWord "rue".toList rest)
    | 'f' :: rest => do .ok (.bool false, ← readWord "alse".toList rest)
    | '"' :: rest => do
      let (s, rest) ← readString rest
      .ok (.string s, rest)
    | '[' :: rest =>
      match depth with
      | 0 => .error .tooDeep
      | depth + 1 =>
        match skipBlanks rest with
        | ']' :: rest => .ok (.array [], rest)
        | rest => do
          let (items, rest) ← readItems fuel depth shape rest
          .ok (.array items, rest)
    | '{' :: rest =>
      match depth with
      | 0 => .error .tooDeep
      | depth + 1 =>
        match skipBlanks rest with
        | '}' :: rest => .ok (.object [], rest)
        | rest => do
          let (fields, rest) ← readFields fuel depth shape [] rest
          .ok (.object fields, rest)
    | rest =>
      if (rest.head?.map isNumberStart).getD false then do
        let (n, rest) ← readNumber rest
        .ok (.number n, rest)
      else unexpected rest

def readItems : Nat → Nat → Shape → List Char → Except ReadError (List Value × List Char)
  | 0, _, _, _ => .error .unexpectedEnd
  | fuel + 1, depth, shape, cs => do
    let (v, rest) ← readValue fuel depth shape.item.1 cs
    match skipBlanks rest with
    | ',' :: rest =>
      let (vs, rest) ← readItems fuel depth shape.item.2 rest
      .ok (v :: vs, rest)
    | ']' :: rest => .ok ([v], rest)
    | rest => unexpected rest

def readFields : Nat → Nat → Shape → List (String × Value) → List Char →
    Except ReadError (List (String × Value) × List Char)
  | 0, _, _, _, _ => .error .unexpectedEnd
  | fuel + 1, depth, shape, found, cs => do
    let (key, rest) ← readKey (skipBlanks cs)
    let (found, rest) ←
      match shape.field? key with
      | none => do .ok (found, ← skipValue fuel rest)
      | some field =>
        if shape.isRecord && (found.lookup key).isSome then .error (.duplicateField key)
        else do
          let (v, rest) ← readValue fuel depth field rest
          .ok (KeyOrder.insert key v found, rest)
    match skipBlanks rest with
    | ',' :: rest => readFields fuel depth shape found rest
    | '}' :: rest => .ok (found, rest)
    | rest => unexpected rest

end

def maxDepth : Nat := 127

def readText (shape : Shape) (text : String) : Except ReadError Value := do
  let cs := text.toList
  let (v, rest) ← readValue (cs.length + 1) maxDepth shape cs
  if (skipBlanks rest).isEmpty then .ok v else .error .trailingCharacters

def parse (text : String) : Except ReadError Value := readText .whole text

end AgentGateway.Json
