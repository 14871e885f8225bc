
namespace AgentGateway

/-- A length of time, or an instant counted from the start of the clock, in nanoseconds. -/
abbrev Nanos := Nat

namespace Nanos

def ofMicros (n : Nat) : Nanos := n * 1000

def ofMillis (n : Nat) : Nanos := n * 1000000

def ofSecs (n : Nat) : Nanos := n * 1000000000

def toMicros (d : Nanos) : Nat := d / 1000

def toMillis (d : Nanos) : Nat := d / 1000000

def toSecs (d : Nanos) : Nat := d / 1000000000

def decimal (n digits : Nat) : List Char :=
  let unit := Nat.pow 10 digits
  let whole := Nat.toDigits 10 (n / unit)
  let shown := Nat.toDigits 10 (n % unit)
  let padded := List.replicate (digits - shown.length) '0' ++ shown
  match (padded.reverse.dropWhile (· = '0')).reverse with
  | [] => whole
  | fraction => whole ++ '.' :: fraction

def text (d : Nanos) : String :=
  if 1000000000 ≤ d then String.ofList (decimal d 9) ++ "s"
  else if 1000000 ≤ d then String.ofList (decimal d 6) ++ "ms"
  else if 1000 ≤ d then String.ofList (decimal d 3) ++ "µs"
  else toString d ++ "ns"

end Nanos

end AgentGateway
