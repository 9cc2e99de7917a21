import Scriptlet.Number.Binary

/-!
The shortest decimal that reads back as a given float. The reals that round to
`mantissa · 2^exponent` form an interval, whose ends count when the mantissa is even. On the
decimal grid with one, two, … seventeen digits the two neighbours of the number are tested
against it in exact integer arithmetic: the first grid with a hit wins, of two hits the nearer,
and `Tie` says what happens when both are equally near.
-/

namespace Scriptlet.Number

/-- Which of two equally near decimals is written. -/
inductive Tie where
  | upper
  | even
  deriving Repr, DecidableEq

/-- `d₁.d₂d₃… · 10^exponent`, with `d₁` zero for the number zero only. -/
structure Decimal where
  digits : List Char
  exponent : Int
  deriving Repr, DecidableEq

def decimalDigits (n : Nat) : List Char :=
  Nat.toDigits 10 n

/-- The power of ten of the leading digit of `num / den`, both positive. -/
def leadingExponent (num den : Nat) : Int :=
  if den ≤ num then Int.ofNat (decimalDigits (num / den)).length - 1
  else
    -- `10^j ≥ den / num` holds first for the number of digits of the quotient, rounded up, less one
    -Int.ofNat (decimalDigits ((den - 1) / num)).length

/-- A float as four times its mantissa over `scale`, with the half gaps to its neighbours. -/
structure Interval where
  value : Nat
  below : Nat
  above : Nat
  scale : Nat
  closed : Bool
  deriving Repr

/-- Below a power of two the gap is half as wide as above it. -/
def Interval.around (mantissa : Nat) (exponent : Int) : Interval :=
  let up := Nat.pow 2 (exponent - 2).toNat
  let narrow := mantissa == 0x10000000000000 && -1074 < exponent
  { value := 4 * mantissa * up
    below := (if narrow then 1 else 2) * up
    above := 2 * up
    scale := Nat.pow 2 (2 - exponent).toNat
    closed := mantissa % 2 == 0 }

/-- Whether `num / den` reads back as the float. -/
def Interval.holds (i : Interval) (num den : Nat) : Bool :=
  let x := num * i.scale
  let low := (i.value - i.below) * den
  let high := (i.value + i.above) * den
  if i.closed then low ≤ x && x ≤ high else low < x && x < high

/-- The better of the two neighbours on the grid of `10^step`, if either reads back. -/
def Interval.onGrid (tie : Tie) (i : Interval) (step : Int) : Option Nat :=
  let up := Nat.pow 10 step.toNat
  let down := Nat.pow 10 (-step).toNat
  let num := i.value * down
  let den := i.scale * up
  let lower := num / den
  let upper := lower + 1
  match i.holds (lower * up) down, i.holds (upper * up) down with
  | false, false => none
  | true, false => some lower
  | false, true => some upper
  | true, true =>
      let twice := 2 * (num % den)
      if twice < den then some lower
      else if den < twice then some upper
      else match tie with
        | .upper => some upper
        | .even => some (if lower % 2 == 0 then lower else upper)

/-- Tries `digits`, `digits + 1`, … figures, `fuel` grids in all. -/
def Interval.search (tie : Tie) (i : Interval) (lead : Int) : Nat → Nat → Option (Nat × Int)
  | 0, _ => none
  | fuel + 1, digits =>
      let step := lead - digits + 1
      match i.onGrid tie step with
      | some n => some (n, step)
      | none => i.search tie lead fuel (digits + 1)

/-- Zeros at the end carry no information. -/
def dropTrailingZeros (ds : List Char) : List Char :=
  (ds.reverse.dropWhile (· == '0')).reverse

/-- The digits of `mantissa · 2^exponent`; zero is the digit `0`. -/
def shortest (tie : Tie) (mantissa : Nat) (exponent : Int) : Decimal :=
  if mantissa = 0 then ⟨['0'], 0⟩
  else
    let i := Interval.around mantissa exponent
    match i.search tie (leadingExponent i.value i.scale) 17 1 with
    | some (n, step) =>
        let ds := decimalDigits n
        ⟨dropTrailingZeros ds, step + ds.length - 1⟩
    | none => ⟨['0'], 0⟩

end Scriptlet.Number
