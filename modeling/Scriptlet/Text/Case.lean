import Scriptlet.Text.CaseTables
import Scriptlet.Text.Ranges

/-!
Upper and lower case of a text, by the full case mappings of Unicode. A character may become
several. Lower case has one rule that looks around: a capital sigma at the end of a word, that is
with a cased character before it and none after it, ignorable characters passed over, becomes `ς`
and otherwise `σ`.
-/

namespace Scriptlet.Text

def CaseRun.holds (r : CaseRun) (n : Nat) : Bool :=
  r.first ≤ n && n ≤ r.last && (n - r.first) % r.step == 0

/-- The image of a character under a case mapping given by its tables. -/
def mapCase (runs : Array CaseRun) (expansions : Array (Nat × List Nat)) (c : Char) : List Char :=
  match expansions.find? fun (n, _) => n == c.toNat with
  | some (_, image) => image.map Char.ofNat
  | none =>
      match runs.find? fun r => r.holds c.toNat with
      | some r => [Char.ofNat (Int.ofNat c.toNat + r.delta).toNat]
      | none => [c]

def toUpper (s : String) : String :=
  String.ofList (s.toList.flatMap (mapCase upperRuns upperExpansions))

def isCased (c : Char) : Bool :=
  inRanges casedRanges c.toNat

def isCaseIgnorable (c : Char) : Bool :=
  inRanges caseIgnorableRanges c.toNat

/-- Whether the first character that is not ignorable is cased. -/
def leadsToCased (cs : List Char) : Bool :=
  match cs.dropWhile isCaseIgnorable with
  | c :: _ => isCased c
  | [] => false

/-- Lower case of the characters after `before`, which is held in reverse. -/
def lowerAfter (before : List Char) : List Char → List Char
  | [] => []
  | 'Σ' :: rest =>
      (if leadsToCased before && !leadsToCased rest then 'ς' else 'σ')
        :: lowerAfter ('Σ' :: before) rest
  | c :: rest => mapCase lowerRuns lowerExpansions c ++ lowerAfter (c :: before) rest

def toLower (s : String) : String :=
  String.ofList (lowerAfter [] s.toList)

end Scriptlet.Text
