import Scriptlet.Builtin.Call
import Scriptlet.Sha256

/-!
Surroundings made of a seed and a reading of the clock: identifiers that differ from call to call
and from seed to seed, and one time for a whole evaluation, in milliseconds since the start of
1970.
-/

namespace Scriptlet

/-- Decimal digits, filled up with zeros. -/
def padded (width n : Nat) : String :=
  let digits := Nat.toDigits 10 n
  String.ofList (List.replicate (width - digits.length) '0' ++ digits)

/-- Year, month and day of a day counted from the start of 1970. Years are counted from March, so
that the day that some of them have more is their last one. -/
def civil (day : Nat) : Nat × Nat × Nat :=
  let day := day + 719468
  let era := day / 146097
  let inEra := day % 146097
  let year := (inEra - inEra / 1460 + inEra / 36524 - inEra / 146096) / 365
  let inYear := inEra - (365 * year + year / 4 - year / 100)
  let fromMarch := (5 * inYear + 2) / 153
  let month := if fromMarch < 10 then fromMarch + 3 else fromMarch - 9
  let date := inYear - (153 * fromMarch + 2) / 5 + 1
  (era * 400 + year + (if month ≤ 2 then 1 else 0), month, date)

/-- A time in universal time, to the millisecond. -/
def timeText (milliseconds : Nat) : String :=
  let seconds := milliseconds / 1000
  let (year, month, date) := civil (seconds / 86400)
  padded 4 year ++ "-" ++ padded 2 month ++ "-" ++ padded 2 date ++ "T"
    ++ padded 2 (seconds / 3600 % 24) ++ ":" ++ padded 2 (seconds / 60 % 60) ++ ":"
    ++ padded 2 (seconds % 60) ++ "." ++ padded 3 (milliseconds % 1000) ++ "Z"

/-- Sixteen random bytes as an identifier of the fourth version: thirty-two digits in five
groups, one of which tells the version and one the variant. -/
def identifier (bytes : List UInt8) : String :=
  let marked := (bytes.take 16).mapIdx fun i b =>
    if i = 6 then (b &&& 0x0f) ||| 0x40 else if i = 8 then (b &&& 0x3f) ||| 0x80 else b
  let digits := Sha256.hexDigits marked
  let group (first count : Nat) := String.ofList ((digits.drop first).take count)
  group 0 8 ++ "-" ++ group 8 4 ++ "-" ++ group 12 4 ++ "-" ++ group 16 4 ++ "-" ++ group 20 12

def Surroundings.ofSeed (seed : List UInt8) (milliseconds : Nat) : Surroundings where
  newGuid site :=
    let name := site.foldl (fun text i => text ++ "/" ++ toString i) ""
    identifier (Sha256.digest (seed ++ name.toUTF8.toList))
  utcNow _ := timeText milliseconds
  unixMillis _ := Int64.ofNat milliseconds

end Scriptlet
