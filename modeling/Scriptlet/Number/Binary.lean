/-!
Double-precision numbers read off their bits. A finite number is
`(-1)^negative · mantissa · 2^exponent` with `mantissa < 2^53`, and the roundings and
the remainder are computed on that integer form, so each of them is exact: no step
rounds except where the rule itself says so. A result keeps the sign of its argument,
also when it is zero.
-/

namespace Scriptlet.Number

/-- What the bits of a float stand for. -/
inductive Content where
  | nan
  | infinite (negative : Bool)
  | finite (negative : Bool) (mantissa : Nat) (exponent : Int)
  deriving Repr, DecidableEq

/-- Sign, exponent and fraction fields; an exponent field of zero has no implicit leading bit. -/
def content (x : Float) : Content :=
  let bits := x.toBits.toNat
  let negative := bits / 0x8000000000000000 % 2 == 1
  let field := bits / 0x10000000000000 % 2048
  let fraction := bits % 0x10000000000000
  if field = 2047 then
    if fraction = 0 then .infinite negative else .nan
  else if field = 0 then .finite negative fraction (-1074)
  else .finite negative (fraction + 0x10000000000000) (Int.ofNat field - 1075)

def signed (negative : Bool) (x : Float) : Float :=
  if negative then -x else x

/-- The float nearest to a natural number below `2^64`, with the given sign. -/
def ofMagnitude (negative : Bool) (n : Nat) : Float :=
  signed negative n.toUInt64.toFloat

/-- The float nearest to a 64-bit integer; a tie goes to the even mantissa. -/
def ofInt64 (n : Int64) : Float :=
  ofMagnitude (n < 0) n.toInt.natAbs

/-- Rounds a finite number with a fractional part to an integer. `carry` says, from the sign,
the remainder and the unit, whether the magnitude goes up. -/
def toIntegral (carry : Bool → Nat → Nat → Bool) (x : Float) : Float :=
  match content x with
  | .finite negative mantissa exponent =>
      if 0 ≤ exponent then x
      else
        let unit := Nat.pow 2 exponent.natAbs
        let whole := mantissa / unit
        ofMagnitude negative
          (if carry negative (mantissa % unit) unit then whole + 1 else whole)
  | _ => x

def floor : Float → Float :=
  toIntegral fun negative rest _ => negative && rest != 0

def ceiling : Float → Float :=
  toIntegral fun negative rest _ => !negative && rest != 0

/-- A half goes away from zero. -/
def round : Float → Float :=
  toIntegral fun _ rest unit => unit ≤ 2 * rest

/-- `2^exponent` for an exponent from -1074 to 1023. -/
def powerOfTwo (exponent : Int) : Float :=
  if exponent < -1022 then Float.ofBits (Nat.pow 2 (exponent + 1074).toNat).toUInt64
  else Float.ofBits ((exponent + 1023).toNat * 0x10000000000000).toUInt64

/-- The remainder of the division that truncates toward zero. It is always representable. -/
def remainder (x y : Float) : Float :=
  match content x, content y with
  | .finite negative m e, .finite _ n f =>
      if n = 0 then 0.0 / 0.0
      else
        let low := min e f
        let a := m * Nat.pow 2 (e - low).toNat
        let b := n * Nat.pow 2 (f - low).toNat
        signed negative ((a % b).toUInt64.toFloat * powerOfTwo low)
  | .finite .., .infinite _ => x
  | _, _ => 0.0 / 0.0

/-- How two floats compare; NaN compares with nothing. -/
def compare? (x y : Float) : Option Ordering :=
  if x < y then some .lt
  else if x == y then some .eq
  else if y < x then some .gt
  else none

end Scriptlet.Number
