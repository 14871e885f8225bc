import AgentGateway.Json.Reader
import AgentGateway.Toml.Value

namespace AgentGateway.Toml

def isControl (c : Char) : Bool := (c.toNat < 32 && c ≠ '\t') || c.toNat = 127

def newline? : List Char → Option (List Char)
  | '\n' :: rest => some rest
  | '\r' :: '\n' :: rest => some rest
  | _ => none

def skipSpaces (cs : List Char) : List Char := cs.dropWhile fun c => c = ' ' || c = '\t'

def scalar? (count : Nat) (cs : List Char) : Option (Char × List Char) := do
  let digits := cs.take count
  if digits.length ≠ count then none
  else
    let values ← digits.mapM Json.hexValue?
    let n := values.foldl (fun n d => n * 16 + d) 0
    if n < 0xD800 ∨ (0xDFFF < n ∧ n < 0x110000) then some (Char.ofNat n, cs.drop count) else none

def escape? : List Char → Option (Char × List Char)
  | 'b' :: rest => some ('\x08', rest)
  | 't' :: rest => some ('\t', rest)
  | 'n' :: rest => some ('\n', rest)
  | 'f' :: rest => some ('\x0c', rest)
  | 'r' :: rest => some ('\r', rest)
  | '"' :: rest => some ('"', rest)
  | '\\' :: rest => some ('\\', rest)
  | 'u' :: rest => scalar? 4 rest
  | 'U' :: rest => scalar? 8 rest
  | _ => none

def push (c : Char) : Option (List Char × List Char) → Option (List Char × List Char)
  | some (cs, rest) => some (c :: cs, rest)
  | none => none

def line? (mark : Char) : Nat → List Char → Option (List Char × List Char)
  | 0, _ | _, [] => none
  | fuel + 1, c :: rest =>
    if c = mark then some ([], rest)
    else if isControl c then none
    else if c = '\\' ∧ mark = '"' then do
      let (e, rest) ← escape? rest
      push e (line? mark fuel rest)
    else push c (line? mark fuel rest)

def continued? (cs : List Char) : Option (List Char) := do
  let rest ← newline? (skipSpaces cs)
  some (rest.dropWhile fun c => c = ' ' || c = '\t' || c = '\n' || c = '\r')

/-- The rest of a string of several lines, up to three closing marks; one or two more marks before
those belong to the string. -/
def block? (mark : Char) : Nat → List Char → Option (List Char × List Char)
  | 0, _ | _, [] => none
  | fuel + 1, c :: rest =>
    if c = mark then
      let marks := (c :: rest).takeWhile (· = mark)
      if marks.length < 3 then push c (block? mark fuel rest)
      else if marks.length ≤ 5 then some (marks.drop 3, (c :: rest).drop marks.length)
      else none
    else if c = '\\' ∧ mark = '"' then
      match continued? rest with
      | some rest => block? mark fuel rest
      | none => do
        let (e, rest) ← escape? rest
        push e (block? mark fuel rest)
    else
      match newline? (c :: rest) with
      | some rest => push '\n' (block? mark fuel rest)
      | none => if isControl c then none else push c (block? mark fuel rest)

def string? (mark : Char) (cs : List Char) : Option (String × List Char) := do
  let (found, rest) ←
    match cs with
    | a :: b :: rest =>
      if a = mark ∧ b = mark then
        let rest := (newline? rest).getD rest
        block? mark (rest.length + 1) rest
      else line? mark (cs.length + 1) cs
    | _ => line? mark (cs.length + 1) cs
  some (String.ofList found, rest)

def digits? (isDigit : Char → Bool) : List Char → Option (List Char × List Char)
  | [] => none
  | c :: '_' :: rest => if isDigit c then push c (digits? isDigit rest) else none
  | c :: rest =>
    if isDigit c then
      if (rest.head?.map isDigit).getD false then push c (digits? isDigit rest)
      else some ([c], rest)
    else none

def fits (n : Int) : Bool := -Nat.pow 2 63 ≤ n && n < Nat.pow 2 63

def integer? (negative : Bool) (base : Nat) (digits : List Char) : Option Value := do
  let values ← digits.mapM Json.hexValue?
  let magnitude := values.foldl (fun n d => n * base + d) 0
  let n : Int := if negative then -magnitude else magnitude
  if fits n then some (.integer n) else none

def isHex (c : Char) : Bool := (Json.hexValue? c).isSome

def isOctal (c : Char) : Bool := '0' ≤ c && c ≤ '7'

def isBinary (c : Char) : Bool := c = '0' || c = '1'

def ofBase? (base : Nat) (isDigit : Char → Bool) (cs : List Char) : Option (Value × List Char) := do
  let (digits, rest) ← digits? isDigit cs
  some (← integer? false base digits, rest)

def whole? (cs : List Char) : Option (List Char × List Char) :=
  match cs with
  | '0' :: rest => some (['0'], rest)
  | _ => digits? Char.isDigit cs

def fraction? : List Char → Option (List Char × List Char)
  | '.' :: rest => digits? Char.isDigit rest
  | cs => some ([], cs)

def exponent? : List Char → Option (Option (Bool × List Char) × List Char)
  | c :: rest =>
    if c = 'e' ∨ c = 'E' then do
      let (negative, rest) := Json.Numeral.exponentSign rest
      let (digits, rest) ← digits? Char.isDigit rest
      some (some (negative, digits), rest)
    else some (none, c :: rest)
  | [] => some (none, [])

def natOf (digits : List Char) : Nat := digits.foldl (fun n c => n * 10 + (c.toNat - '0'.toNat)) 0

def overflows (digits : List Char) (exponent : Int) : Bool :=
  let digits := digits.dropWhile (· = '0')
  let magnitude : Int := digits.length + exponent
  if digits.isEmpty || magnitude < 300 then false
  else if 320 < magnitude then true
  else
    let n := natOf digits
    if 0 ≤ exponent then (Binary64.ofRatio? false (n * Nat.pow 10 exponent.toNat) 1).isNone
    else (Binary64.ofRatio? false n (Nat.pow 10 (-exponent).toNat)).isNone

def decimal? (negative : Bool) (cs : List Char) : Option (Value × List Char) := do
  let (whole, rest) ← whole? cs
  let (fraction, rest) ← fraction? rest
  let (exponent, rest) ← exponent? rest
  if fraction.isEmpty ∧ exponent.isNone then some (← integer? negative 10 whole, rest)
  else
    let power : Int := match exponent with
      | none => 0
      | some (true, ds) => -(natOf ds)
      | some (false, ds) => natOf ds
    if !negative && overflows (whole ++ fraction) (power - fraction.length) then none
    else some (.float (String.ofList (cs.take (cs.length - rest.length))), rest)

def word? : List Char → List Char → Option (List Char)
  | [], rest => some rest
  | w :: ws, c :: cs => if w = c then word? ws cs else none
  | _ :: _, [] => none

def special? (cs : List Char) : Option (Value × List Char) :=
  match word? "inf".toList cs, word? "nan".toList cs with
  | some rest, _ => some (.float "inf", rest)
  | none, some rest => some (.float "nan", rest)
  | none, none => none

def number? : List Char → Option (Value × List Char)
  | '+' :: cs => (special? cs).orElse fun _ => decimal? false cs
  | '-' :: cs => (special? cs).orElse fun _ => decimal? true cs
  | '0' :: 'x' :: cs => ofBase? 16 isHex cs
  | '0' :: 'o' :: cs => ofBase? 8 isOctal cs
  | '0' :: 'b' :: cs => ofBase? 2 isBinary cs
  | cs => decimal? false cs

def field? (count low high : Nat) (cs : List Char) : Option (Nat × List Char) :=
  let digits := cs.take count
  let n := natOf digits
  if digits.length = count ∧ digits.all Char.isDigit ∧ low ≤ n ∧ n ≤ high then
    some (n, cs.drop count)
  else none

def daysIn (year month : Nat) : Nat :=
  if month = 2 then
    if year % 4 = 0 ∧ (year % 100 ≠ 0 ∨ year % 400 = 0) then 29 else 28
  else if month = 4 ∨ month = 6 ∨ month = 9 ∨ month = 11 then 30
  else 31

def date? (cs : List Char) : Option (List Char) := do
  let (year, rest) ← field? 4 0 9999 cs
  let (month, rest) ← field? 2 1 12 (← word? ['-'] rest)
  let (_, rest) ← field? 2 1 (daysIn year month) (← word? ['-'] rest)
  some rest

def time? (cs : List Char) : Option (List Char) := do
  let (_, rest) ← field? 2 0 23 cs
  let (_, rest) ← field? 2 0 59 (← word? [':'] rest)
  let (_, rest) ← field? 2 0 60 (← word? [':'] rest)
  match rest with
  | '.' :: more =>
    if (more.head?.map Char.isDigit).getD false then some (more.dropWhile Char.isDigit) else none
  | _ => some rest

def offset? : List Char → Option (List Char)
  | 'Z' :: rest | 'z' :: rest => some rest
  | '+' :: rest | '-' :: rest => do
    let (_, rest) ← field? 2 0 23 rest
    let (_, rest) ← field? 2 0 59 (← word? [':'] rest)
    some rest
  | cs => some cs

def moment? (cs : List Char) : Option (List Char) :=
  match date? cs with
  | none => time? cs
  | some rest =>
    match rest with
    | [] => some []
    | c :: more =>
      if c = 'T' ∨ c = 't' then do offset? (← time? more)
      else if c = ' ' then
        match time? more with
        | some rest => offset? rest
        | none => some rest
      else some rest

def datetime? (cs : List Char) : Option (Value × List Char) := do
  let rest ← moment? cs
  some (.datetime (String.ofList (cs.take (cs.length - rest.length))), rest)

end AgentGateway.Toml
