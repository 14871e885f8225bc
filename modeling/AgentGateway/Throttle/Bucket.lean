import AgentGateway.Number.Binary64
import AgentGateway.Time.Duration
/-!
Token buckets. A bucket fills at a steady rate up to its capacity, and each permit takes one token.
All arithmetic goes through a rounding: none for the exact bucket, or to binary numbers of 64 bits.
-/

namespace AgentGateway

/-- What is done to the result of each operation. -/
structure Rounding where
  round : Rat → Rat

namespace Rounding

def exact : Rounding := ⟨id⟩

def binary64 : Rounding := ⟨Binary64.roundRat⟩

def add (r : Rounding) (x y : Rat) : Rat := r.round (x + y)

def sub (r : Rounding) (x y : Rat) : Rat := r.round (x - y)

def mul (r : Rounding) (x y : Rat) : Rat := r.round (x * y)

def div (r : Rounding) (x y : Rat) : Rat := r.round (x / y)

def seconds (r : Rounding) (d : Nanos) : Rat :=
  r.add (r.round d.toSecs) (r.div (d % 1000000000 : Nat) 1000000000)

end Rounding

structure Bucket where
  rate : Rat
  capacity : Rat
  tokens : Rat
  refilledAt : Nanos
deriving DecidableEq

namespace Bucket

def full (rate : Rat) (capacity : Nat) (now : Nanos) : Bucket :=
  ⟨rate, capacity, capacity, now⟩

def refill (r : Rounding) (now : Nanos) (b : Bucket) : Bucket :=
  let gained := r.mul (r.seconds (now - b.refilledAt)) b.rate
  let filled := r.add b.tokens gained
  { b with tokens := if filled ≤ b.capacity then filled else b.capacity, refilledAt := now }

def available (b : Bucket) : Nat := b.tokens.floor.toNat

def hasPermit (b : Bucket) : Bool := 1 ≤ b.tokens

def take (r : Rounding) (b : Bucket) : Bucket := { b with tokens := r.sub b.tokens 1 }

def acquire (r : Rounding) (now : Nanos) (b : Bucket) : Bool × Bucket :=
  let b := b.refill r now
  if b.hasPermit then (true, b.take r) else (false, b)

/-- How long the bucket takes from its last refill to the next permit, to the nearest nanosecond. -/
def retryAfter (r : Rounding) (b : Bucket) : Nanos :=
  if b.hasPermit ∨ b.rate ≤ 0 then 0
  else
    let secs := r.div (r.sub 1 b.tokens) b.rate
    roundHalfEven (secs.num.toNat * 1000000000) secs.den

end Bucket

end AgentGateway
