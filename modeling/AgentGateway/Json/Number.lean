import AgentGateway.Number.Shortest
/-!
Numbers of JSON texts. Integers of 64 bits, signed or not, stay exact; every other numeral is a
finite binary number. Reading a fraction goes in steps: a significand of 64 bits, then one power of
ten.
-/

namespace AgentGateway.Json

inductive Number where
  | int (n : Int)
  | float (x : Binary64)
deriving DecidableEq, Repr

structure Numeral where
  negative : Bool
  whole : List Nat
  fraction : Option (List Nat)
  exponent : Option (Bool × List Nat)
deriving DecidableEq, Repr

namespace Numeral

def digitValue (c : Char) : Nat := c.toNat - '0'.toNat

def spanDigits (cs : List Char) : List Nat × List Char :=
  ((cs.takeWhile Char.isDigit).map digitValue, cs.dropWhile Char.isDigit)

def digits? (cs : List Char) : Option (List Nat × List Char) :=
  match spanDigits cs with
  | ([], _) => none
  | found => some found

def whole? (cs : List Char) : Option (List Nat × List Char) := do
  let (ds, rest) ← digits? cs
  if ds.head? = some 0 ∧ ds.length ≠ 1 then none else some (ds, rest)

def fraction? : List Char → Option (Option (List Nat) × List Char)
  | '.' :: cs => do
    let (ds, rest) ← digits? cs
    some (some ds, rest)
  | cs => some (none, cs)

def exponentSign : List Char → Bool × List Char
  | '-' :: cs => (true, cs)
  | '+' :: cs => (false, cs)
  | cs => (false, cs)

def exponent? : List Char → Option (Option (Bool × List Nat) × List Char)
  | c :: cs =>
    if c = 'e' ∨ c = 'E' then do
      let (negative, rest) := exponentSign cs
      let (ds, rest) ← digits? rest
      some (some (negative, ds), rest)
    else some (none, c :: cs)
  | [] => some (none, [])

def sign : List Char → Bool × List Char
  | '-' :: cs => (true, cs)
  | cs => (false, cs)

def read? (cs : List Char) : Option (Numeral × List Char) := do
  let (negative, rest) := sign cs
  let (whole, rest) ← whole? rest
  let (fraction, rest) ← fraction? rest
  let (exponent, rest) ← exponent? rest
  some (⟨negative, whole, fraction, exponent⟩, rest)

def maxSignificand : Nat := Nat.pow 2 64 - 1

def fill : Nat → List Nat → Nat × List Nat
  | s, [] => (s, [])
  | s, d :: ds => if maxSignificand < s * 10 + d then (s, d :: ds) else fill (s * 10 + d) ds

def ofDigits (ds : List Nat) : Nat := ds.foldl (fun n d => n * 10 + d) 0

def powerOfTen? (k : Nat) : Option Binary64 := Binary64.ofRatio? false (Nat.pow 10 k) 1

/-- Multiplies by a power of ten in one rounding, or, where the power is below the least one, after
divisions by the greatest. -/
def scale? (x : Binary64) (e : Int) : Option Binary64 :=
  if 308 < e then if x.mantissa = 0 then some x else none
  else if 0 ≤ e then do x.mul? (← powerOfTen? e.toNat)
  else if e < -308 then
    if x.mantissa = 0 then some x
    else do scale? (← x.div? (← powerOfTen? 308)) (e + 308)
  else do x.div? (← powerOfTen? (-e).toNat)
termination_by (-e).toNat
decreasing_by omega

def maxExponent : Nat := Nat.pow 2 31 - 1

/-- A significand, a power of ten, and the exponent that the text gives beside it. -/
def float? (negative : Bool) (s : Nat) (e : Int) : Option (Bool × List Nat) → Option Binary64
  | none => do scale? (← Binary64.ofRatio? negative s 1) e
  | some (down, ds) =>
    let k := ofDigits ds
    if maxExponent < k then
      if s ≠ 0 ∧ !down then none else Binary64.ofRatio? negative 0 1
    else do scale? (← Binary64.ofRatio? negative s 1) (if down then e - k else e + k)

/-- A whole number that fits 64 bits, or else the nearest float: zero with a minus sign is one. -/
def integral (negative : Bool) (s : Nat) : Option Number :=
  if !negative then some (.int s)
  else if s = 0 ∨ Nat.pow 2 63 < s then (Binary64.ofRatio? true s 1).map .float
  else some (.int (-s))

def value? (n : Numeral) : Option Number :=
  match fill 0 n.whole, n.fraction, n.exponent with
  | (s, []), none, none => integral n.negative s
  | (s, rest), none, e => (float? n.negative s rest.length e).map .float
  | (s, rest), some ds, e =>
    let (s, unused) := fill s ds
    let taken : Nat := ds.length - unused.length
    (float? n.negative s ((rest.length : Int) - taken) e).map .float

end Numeral

namespace Number

/-- Places a point among the digits: positional between `10 ^ -5` and `10 ^ 16`, else one digit
before the point and an exponent. -/
def layout (d : Decimal) : List Char :=
  let ds := Nat.toDigits 10 d.digits
  let point : Int := ds.length + d.exponent
  if 0 ≤ d.exponent ∧ point ≤ 16 then
    ds ++ List.replicate d.exponent.toNat '0' ++ ['.', '0']
  else if 0 < point ∧ point ≤ 16 then
    ds.take point.toNat ++ '.' :: ds.drop point.toNat
  else if -5 < point ∧ point ≤ 0 then
    '0' :: '.' :: List.replicate (-point).toNat '0' ++ ds
  else
    let tail := match ds.drop 1 with
      | [] => []
      | more => '.' :: more
    ds.take 1 ++ tail ++ 'e' :: (toString (point - 1)).toList

def floatChars (x : Binary64) : List Char :=
  let magnitude := if x.mantissa = 0 then ['0', '.', '0'] else layout x.shortest
  if x.negative then '-' :: magnitude else magnitude

def intChars (n : Int) : List Char :=
  if n < 0 then '-' :: Nat.toDigits 10 n.natAbs else Nat.toDigits 10 n.natAbs

def chars : Number → List Char
  | .int n => intChars n
  | .float x => floatChars x

end Number

end AgentGateway.Json
