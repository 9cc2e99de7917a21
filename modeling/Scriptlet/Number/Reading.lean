import Scriptlet.Number.Integer
import Scriptlet.Number.Numeral
import Scriptlet.Text.Case

/-!
Numbers that a whole text spells: a sign, if there is one, and behind it nothing but the number.
Integers have decimal digits; floats have a point, an exponent, both or neither, and may be
infinite or no number.
-/

namespace Scriptlet.Number

/-- A sign, a minus or not, and the text behind it. -/
def sign : List Char → Bool × List Char
  | '-' :: rest => (true, rest)
  | '+' :: rest => (false, rest)
  | rest => (false, rest)

/-- The integer of 64 bits that a text spells. -/
def integerOfText? (text : String) : Option Int64 :=
  let (negative, digits) := sign text.toList
  let magnitude := Int.ofNat (natOfDigits digits)
  if digits.isEmpty || digits.any (!Text.isDigit ·) then none
  else int64? (if negative then -magnitude else magnitude)

/-- The float that a text spells. -/
def floatOfText? (text : String) : Option Float :=
  let (negative, cs) := sign text.toList
  match Text.toLower (String.ofList cs) with
  | "inf" | "infinity" => some (signed negative (1.0 / 0.0))
  | "nan" => some (0.0 / 0.0)
  | _ =>
      let whole := cs.takeWhile Text.isDigit
      let (fraction, rest) := match cs.dropWhile Text.isDigit with
        | '.' :: rest => (rest.takeWhile Text.isDigit, rest.dropWhile Text.isDigit)
        | rest => ([], rest)
      if whole.isEmpty && fraction.isEmpty then none
      else
        match rest with
        | [] => some (Numeral.nearest { negative, whole, fraction := some fraction })
        | c :: rest =>
            let (down, digits) := sign rest
            if (c == 'e' || c == 'E') && !digits.isEmpty && digits.all Text.isDigit then
              some (Numeral.nearest
                { negative, whole, fraction := some fraction, exponent := some (down, digits) })
            else none

end Scriptlet.Number
