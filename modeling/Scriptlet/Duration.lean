/-!
Lengths of time in nanoseconds, and their text: the largest unit that leaves a whole part, with
as many decimal places as are needed to be exact.
-/

namespace Scriptlet

structure Duration where
  nanoseconds : Nat
  deriving Repr, DecidableEq

namespace Duration

def ofSeconds (n : Nat) : Duration := ⟨n * 1000000000⟩

def ofMilliseconds (n : Nat) : Duration := ⟨n * 1000000⟩

/-- The decimal digits of `n` without the zeros at the end, `width` digits in all. -/
def fraction (width n : Nat) : List Char :=
  let digits := Nat.toDigits 10 n
  let padded := List.replicate (width - digits.length) '0' ++ digits
  (padded.reverse.dropWhile (· == '0')).reverse

/-- A number of nanoseconds in a unit of `10 ^ width` of them. -/
def inUnit (width n : Nat) (unit : String) : String :=
  let whole := toString (n / Nat.pow 10 width)
  match fraction width (n % Nat.pow 10 width) with
  | [] => whole ++ unit
  | digits => whole ++ "." ++ String.ofList digits ++ unit

def text (d : Duration) : String :=
  if d.nanoseconds ≥ 1000000000 then inUnit 9 d.nanoseconds "s"
  else if d.nanoseconds ≥ 1000000 then inUnit 6 d.nanoseconds "ms"
  else if d.nanoseconds ≥ 1000 then inUnit 3 d.nanoseconds "µs"
  else toString d.nanoseconds ++ "ns"

end Duration

end Scriptlet
