import AgentGateway.Number.Binary64
/-!
The shortest decimal text of a binary number: the fewest digits that read back as the number, of
those the nearest to it, and of two equally near the even one.
-/

namespace AgentGateway

structure Decimal where
  digits : Nat
  exponent : Int
deriving DecidableEq, Repr

namespace Decimal

def digitCount (n : Nat) : Nat := (Nat.toDigits 10 n).length

def ratio (x : Decimal) : Nat × Nat :=
  if 0 ≤ x.exponent then (x.digits * Nat.pow 10 x.exponent.toNat, 1)
  else (x.digits, Nat.pow 10 (-x.exponent).toNat)

def stripZeros : Nat → Decimal → Decimal
  | 0, x => x
  | fuel + 1, x =>
    if x.digits % 10 = 0 then stripZeros fuel ⟨x.digits / 10, x.exponent + 1⟩ else x

def magnitude (num den : Nat) : Int :=
  let e : Int := (digitCount num : Int) - digitCount den
  let reached :=
    if 0 ≤ e then den * Nat.pow 10 e.toNat ≤ num else den ≤ num * Nat.pow 10 (-e).toNat
  if reached then e else e - 1

end Decimal

structure Interval where
  low : Nat × Nat
  high : Nat × Nat
  closed : Bool

namespace Interval

def contains (i : Interval) (x : Nat × Nat) : Bool :=
  if i.closed then
    i.low.1 * x.2 ≤ x.1 * i.low.2 && x.1 * i.high.2 ≤ i.high.1 * x.2
  else
    i.low.1 * x.2 < x.1 * i.low.2 && x.1 * i.high.2 < i.high.1 * x.2

end Interval

namespace Binary64

/-- The interval of magnitudes that round to a number: half a step to each side, or a quarter below
a power of two, whose lower neighbour is half as far. -/
def interval (x : Binary64) : Interval :=
  let scale (quarters : Nat) : Nat × Nat :=
    if 0 ≤ x.exponent then (quarters * Nat.pow 2 x.exponent.toNat, 4)
    else (quarters, 4 * Nat.pow 2 (-x.exponent).toNat)
  let below := if x.mantissa = Nat.pow 2 52 ∧ minExponent < x.exponent then 1 else 2
  ⟨scale (4 * x.mantissa - below), scale (4 * x.mantissa + 2), x.mantissa % 2 = 0⟩

/-- The neighbour of the magnitude on the grid of the multiples of `10 ^ e` that reads back as the
number, if one does. -/
def onGrid? (x : Binary64) (e : Int) : Option Decimal :=
  let (num, den) := x.ratio
  let (n, d) :=
    if 0 ≤ e then (num, den * Nat.pow 10 e.toNat) else (num * Nat.pow 10 (-e).toNat, den)
  let lower : Decimal := ⟨n / d, e⟩
  let upper : Decimal := ⟨n / d + 1, e⟩
  let lowerFits := 0 < lower.digits && x.interval.contains lower.ratio
  let upperFits := x.interval.contains upper.ratio
  match lowerFits, upperFits with
  | true, true =>
    let r := n % d
    if 2 * r < d then some lower
    else if d < 2 * r then some upper
    else if lower.digits % 2 = 0 then some lower
    else some upper
  | true, false => some lower
  | false, true => some upper
  | false, false => none

def shortest (x : Binary64) : Decimal :=
  let (num, den) := x.ratio
  let top := Decimal.magnitude num den
  let found := (List.range 17).findSome? fun (n : Nat) => x.onGrid? (top - n)
  (found.getD ⟨x.mantissa, 0⟩).stripZeros 20

end Binary64

end AgentGateway
