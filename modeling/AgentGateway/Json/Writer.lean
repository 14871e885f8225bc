import AgentGateway.Json.Value

namespace AgentGateway.Json

def hexDigit (n : Nat) : Char := Nat.digitChar (n % 16)

def escapeChar (c : Char) : List Char :=
  if c = '"' then ['\\', '"']
  else if c = '\\' then ['\\', '\\']
  else if c = '\x08' then ['\\', 'b']
  else if c = '\x0c' then ['\\', 'f']
  else if c = '\n' then ['\\', 'n']
  else if c = '\r' then ['\\', 'r']
  else if c = '\t' then ['\\', 't']
  else if c.toNat < 32 then ['\\', 'u', '0', '0', hexDigit (c.toNat / 16), hexDigit c.toNat]
  else [c]

def quoteChars (cs : List Char) : List Char := '"' :: cs.flatMap escapeChar ++ ['"']

def quote (s : String) : String := String.ofList (quoteChars s.toList)

namespace Value

mutual

def chars : Value → List Char
  | .null => ['n', 'u', 'l', 'l']
  | .bool true => ['t', 'r', 'u', 'e']
  | .bool false => ['f', 'a', 'l', 's', 'e']
  | .number n => n.chars
  | .string s => quoteChars s.toList
  | .array [] => ['[', ']']
  | .array (v :: vs) => '[' :: (chars v ++ itemsChars vs)
  | .object [] => ['{', '}']
  | .object ((k, v) :: fs) => '{' :: (quoteChars k.toList ++ ':' :: (chars v ++ fieldsChars fs))

def itemsChars : List Value → List Char
  | [] => [']']
  | v :: vs => ',' :: (chars v ++ itemsChars vs)

def fieldsChars : List (String × Value) → List Char
  | [] => ['}']
  | (k, v) :: fs => ',' :: (quoteChars k.toList ++ ':' :: (chars v ++ fieldsChars fs))

end

def compact (v : Value) : String := String.ofList v.chars

def newline (depth : Nat) : List Char := '\n' :: List.replicate (2 * depth) ' '

mutual

def prettyChars (depth : Nat) : Value → List Char
  | .array [] => ['[', ']']
  | .array (v :: vs) =>
    '[' :: (newline (depth + 1) ++ prettyChars (depth + 1) v ++ prettyItems depth vs)
  | .object [] => ['{', '}']
  | .object ((k, v) :: fs) =>
    '{' :: (newline (depth + 1) ++ quoteChars k.toList ++ ':' :: ' ' ::
      (prettyChars (depth + 1) v ++ prettyFields depth fs))
  | .null => ['n', 'u', 'l', 'l']
  | .bool true => ['t', 'r', 'u', 'e']
  | .bool false => ['f', 'a', 'l', 's', 'e']
  | .number n => n.chars
  | .string s => quoteChars s.toList

def prettyItems (depth : Nat) : List Value → List Char
  | [] => newline depth ++ [']']
  | v :: vs => ',' :: (newline (depth + 1) ++ prettyChars (depth + 1) v ++ prettyItems depth vs)

def prettyFields (depth : Nat) : List (String × Value) → List Char
  | [] => newline depth ++ ['}']
  | (k, v) :: fs =>
    ',' :: (newline (depth + 1) ++ quoteChars k.toList ++ ':' :: ' ' ::
      (prettyChars (depth + 1) v ++ prettyFields depth fs))

end

def pretty (v : Value) : String := String.ofList (v.prettyChars 0)

def size (v : Value) : Nat := v.compact.utf8ByteSize

end Value

end AgentGateway.Json
