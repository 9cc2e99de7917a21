import Scriptlet.Fault
import Scriptlet.Number.Integer
import Scriptlet.Number.Numeral
import Scriptlet.Builtin.Arguments

/-!
The functions on numbers. An integer stays an integer where that makes sense; otherwise a number
is taken as a float.
-/

namespace Scriptlet.Builtin

def abs (args : List Value) : Except Fault Value := do
  match ← argument args 0 .mathAbs with
  | .int n =>
      match Number.int64? n.toInt.natAbs with
      | some m => .ok (.int m)
      | none => .error .absOverflow
  | _ => .ok (.float (← numberArgument args 0 .mathAbs).abs)

/-- Integers pass, floats are rounded. -/
def integral (args : List Value) (f : Builtin) (rounding : Float → Float) :
    Except Fault Value := do
  match ← argument args 0 f with
  | .int n => .ok (.int n)
  | _ => .ok (.float (rounding (← numberArgument args 0 f)))

/-- Rounds to a number of decimal places by scaling, so the scaled number rounds too. -/
def roundTo (x : Float) (digits : Nat) : Float :=
  let scale := Number.powerOfTen digits
  Number.round (x * scale) / scale

def round (args : List Value) : Except Fault Value := do
  let x ← numberArgument args 0 .mathRound
  if args.length < 2 then integral args .mathRound Number.round
  else
    match ← argument args 1 .mathRound with
    | .int digits =>
        if 0 ≤ digits.toInt ∧ digits.toInt ≤ 15 then
          .ok (.float (roundTo x digits.toInt.toNat))
        else .error .roundDigits
    | _ => .error .roundDigits

/-- One of two arguments, compared as floats; the first when `keepFirst` holds. -/
def pick (args : List Value) (f : Builtin) (keepFirst : Float → Float → Bool) :
    Except Fault Value := do
  let a ← numberArgument args 0 f
  let b ← numberArgument args 1 f
  if keepFirst a b then argument args 0 f else argument args 1 f

def min (args : List Value) : Except Fault Value :=
  pick args .mathMin fun a b => a ≤ b

def max (args : List Value) : Except Fault Value :=
  pick args .mathMax fun a b => b ≤ a

def pow (args : List Value) : Except Fault Value := do
  let base ← numberArgument args 0 .mathPow
  let exponent ← numberArgument args 1 .mathPow
  .ok (.float (Float.pow base exponent))

def sqrt (args : List Value) : Except Fault Value := do
  let x ← numberArgument args 0 .mathSqrt
  if x < 0.0 then .error .sqrtOfNegative else .ok (.float x.sqrt)

end Scriptlet.Builtin
