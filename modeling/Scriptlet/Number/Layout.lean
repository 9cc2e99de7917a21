import Scriptlet.Number.Shortest

/-!
How a float is written. The plain layout never has an exponent and writes whole numbers without
a point; it is used where a float joins a text. The document layout always shows that the number
is a float: a point with a digit behind it, or an exponent with its sign, and the exponent form is
used outside `10^-5 ≤ x < 10^16`.
-/

namespace Scriptlet.Number

private def zeros (n : Int) : List Char :=
  List.replicate n.toNat '0'

/-- Positional notation, without a point when there is no fraction. -/
def Decimal.positional (d : Decimal) : List Char :=
  let whole := d.exponent + 1
  if whole ≤ 0 then '0' :: '.' :: (zeros (-whole) ++ d.digits)
  else if d.digits.length ≤ whole then d.digits ++ zeros (whole - d.digits.length)
  else d.digits.take whole.toNat ++ '.' :: d.digits.drop whole.toNat

/-- One digit, a point if more follow, and a signed exponent. -/
def Decimal.scientific (d : Decimal) : List Char :=
  let sign := if d.exponent < 0 then '-' else '+'
  let power := sign :: decimalDigits d.exponent.natAbs
  match d.digits with
  | [] => 'e' :: power
  | [digit] => digit :: 'e' :: power
  | digit :: more => digit :: '.' :: (more ++ 'e' :: power)

private def withSign (negative : Bool) (text : List Char) : String :=
  String.ofList (if negative then '-' :: text else text)

/-- The text of a float inside a string: `1`, `2.5`, `-0`, `0.0000001`, `inf`, `NaN`. -/
def plainText (x : Float) : String :=
  match content x with
  | .nan => "NaN"
  | .infinite negative => withSign negative ['i', 'n', 'f']
  | .finite negative m e => withSign negative (shortest .upper m e).positional

/-- The text of a finite float in a JSON document; other floats have none and read `null`. -/
def documentText (x : Float) : String :=
  match content x with
  | .finite negative m e =>
      let d := shortest .even m e
      withSign negative <|
        if d.exponent < -5 || 16 ≤ d.exponent then d.scientific
        else if d.digits.length ≤ d.exponent + 1 then d.positional ++ ['.', '0']
        else d.positional
  | _ => "null"

end Scriptlet.Number
