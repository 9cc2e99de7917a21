import Scriptlet.Number.Binary
import Scriptlet.Text.Ascii

/-!
Decimal numerals and the numbers they stand for. A numeral is kept as it was written: sign, digits
before and after the point, and the exponent with its sign. Two readings are given. `nearest` is
the float nearest to the exact decimal. `scaled` keeps the leading digits that fit in 64 bits,
widens them to a float and scales that by one power of ten; it is off by a rounding step on long
numerals, and it refuses a number that leaves the range of floats.
-/

namespace Scriptlet.Number

/-- A numeral as written; `fraction` is `none` without a point. -/
structure Numeral where
  negative : Bool := false
  whole : List Char
  fraction : Option (List Char) := none
  exponent : Option (Bool × List Char) := none
  deriving Repr, DecidableEq

def digitValue (c : Char) : Nat :=
  c.toNat - '0'.toNat

/-- The number that a row of decimal digits stands for. -/
def natOfDigits (ds : List Char) : Nat :=
  ds.foldl (fun n c => n * 10 + digitValue c) 0

/-- The number of a text of decimal digits, with a plus sign or without, that has 64 bits. -/
def word? (text : String) : Option Nat :=
  let digits := match text.toList with
    | '+' :: rest => rest
    | rest => rest
  let n := natOfDigits digits
  if digits.isEmpty || digits.any (!Text.isDigit ·) || 0x10000000000000000 ≤ n then none else some n

def Numeral.power (n : Numeral) : Int :=
  match n.exponent with
  | none => 0
  | some (true, ds) => -Int.ofNat (natOfDigits ds)
  | some (false, ds) => Int.ofNat (natOfDigits ds)

/-- No point and no exponent. -/
def Numeral.isInteger (n : Numeral) : Bool :=
  n.fraction.isNone && n.exponent.isNone

/-- The float nearest to `n · 10^power`. Far outside the range of floats the power is not
computed: the answer is infinity or zero already. -/
def nearestScaled (n : Nat) (power : Int) : Float :=
  let length := Int.ofNat (Nat.toDigits 10 n).length
  if n = 0 then 0.0
  else if 400 < length + power then 1.0 / 0.0
  else if length + power < -400 then 0.0
  else Float.ofScientific n (power < 0) power.natAbs

/-- The float nearest to the exact decimal; infinity beyond the range. -/
def Numeral.nearest (n : Numeral) : Float :=
  let fraction := n.fraction.getD []
  signed n.negative
    (nearestScaled (natOfDigits (n.whole ++ fraction)) (n.power - fraction.length))

/-- Appends digits to `acc` for as long as the number stays below `2^64`; the rest is returned. -/
def accumulate (acc : Nat) : List Char → Nat × List Char
  | [] => (acc, [])
  | d :: ds =>
      let next := acc * 10 + digitValue d
      if next < 0x10000000000000000 then accumulate next ds else (acc, d :: ds)

/-- `10^n` as a float, for `n ≤ 308`. -/
def powerOfTen (n : Nat) : Float :=
  Float.ofScientific 1 false n

/-- Multiplies or divides once by a power of ten; what lies beyond `10^-308` is divided by
`10^308` first, `fuel` times at most. `none` is a number beyond the range. -/
def scaleBy (x : Float) (power : Int) : Nat → Option Float
  | 0 => some 0.0
  | fuel + 1 =>
      if power.natAbs ≤ 308 then
        if 0 ≤ power then
          let y := x * powerOfTen power.natAbs
          if y.isInf then none else some y
        else some (x / powerOfTen power.natAbs)
      else if x == 0.0 then some x
      else if 0 ≤ power then none
      else scaleBy (x / powerOfTen 308) (power + 308) fuel

/-- A number of a document: an integer below `2^64` and not below `-2^63`, or a float. -/
inductive Scalar where
  | integer (n : Int)
  | float (x : Float)

/-- An integer without point and exponent stays one while it fits; `-0` is a float. -/
def integerScalar (negative : Bool) (n : Nat) : Scalar :=
  if !negative then .integer n
  else if n = 0 || 0x8000000000000000 < n then .float (-n.toUInt64.toFloat)
  else .integer (-n)

/-- An exponent of more than 31 bits leaves no number but zero. -/
private def scaledWith (negative : Bool) (n : Nat) (shift : Int) :
    Option (Bool × List Char) → Option Float
  | none => (scaleBy n.toUInt64.toFloat shift 8).map (signed negative)
  | some (down, ds) =>
      if natOfDigits ds < 0x80000000 then
        let power := Int.ofNat (natOfDigits ds)
        let total := if down then shift - power else shift + power
        (scaleBy n.toUInt64.toFloat total 8).map (signed negative)
      else if n ≠ 0 && !down then none
      else some (signed negative 0.0)

/-- The number of a document numeral; `none` beyond the range of floats. -/
def Numeral.scaled (n : Numeral) : Option Scalar :=
  let (leading, dropped) := accumulate 0 n.whole
  match n.fraction with
  | none =>
      if dropped.isEmpty && n.exponent.isNone then some (integerScalar n.negative leading)
      else (scaledWith n.negative leading dropped.length n.exponent).map .float
  | some fraction =>
      let (digits, unread) := accumulate leading fraction
      let shift := Int.ofNat dropped.length - (fraction.length - unread.length)
      (scaledWith n.negative digits shift n.exponent).map .float

end Scriptlet.Number
