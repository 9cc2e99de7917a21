import Scriptlet.Number.Numeral
import Scriptlet.Text.Ascii

/-!
The lexemes of the snippet language. White space and `//` comments separate lexemes and mean
nothing else. Numbers, strings and words are read as far as they go. Every other character is a
mark of its own; a mark is glued when it and the character right behind it spell one of the
operators of two characters, so that `? ?` and `??` differ. A quote that opens no string, because
the string does not end or holds an unknown escape, is a mark too, and no rule of the grammar
takes it.
-/

namespace Scriptlet.Grammar

open Text (isDigit isLetter)

inductive Lexeme where
  | integer (digits : List Char)
  | float (numeral : Number.Numeral)
  | string (text : String)
  | word (name : String)
  | mark (c : Char) (glued : Bool)
  deriving Repr, DecidableEq

def isBlank (c : Char) : Bool :=
  c == ' ' || c == '\t' || c == '\r' || c == '\n'

def startsWord (c : Char) : Bool :=
  isLetter c || c == '_'

def continuesWord (c : Char) : Bool :=
  isLetter c || isDigit c || c == '_'

/-- Drops white space and comments; the flag says whether a comment is open. -/
def skipLayout : Bool → List Char → List Char
  | _, [] => []
  | true, c :: rest => skipLayout (c != '\n') rest
  | false, '/' :: '/' :: rest => skipLayout true rest
  | false, c :: rest => if isBlank c then skipLayout false rest else c :: rest

/-- Whether two adjacent marks are one operator. -/
def joins (c d : Char) : Bool :=
  match c, d with
  | '=', '=' | '!', '=' | '<', '=' | '>', '=' | '&', '&' | '|', '|' | '?', '?' => true
  | _, _ => false

/-- What the character behind a backslash stands for. -/
def unescape? : Char → Option Char
  | '"' => some '"'
  | '\\' => some '\\'
  | '/' => some '/'
  | 'n' => some '\n'
  | 't' => some '\t'
  | 'r' => some '\r'
  | _ => none

/-- The text from behind an opening quote to the closing one, escapes resolved. -/
def stringBody? : List Char → Option (List Char × List Char)
  | [] => none
  | '"' :: rest => some ([], rest)
  | '\\' :: c :: rest => do
      let c ← unescape? c
      let (text, rest) ← stringBody? rest
      some (c :: text, rest)
  | '\\' :: [] => none
  | c :: rest => (stringBody? rest).map fun (text, rest) => (c :: text, rest)

/-- At least one digit, with the sign read before. -/
def exponentDigits? (down : Bool) (cs : List Char) : Option ((Bool × List Char) × List Char) :=
  match cs.takeWhile isDigit with
  | [] => none
  | ds => some ((down, ds), cs.dropWhile isDigit)

def exponent? : List Char → Option ((Bool × List Char) × List Char)
  | [] => none
  | c :: rest =>
      if c == 'e' || c == 'E' then
        match rest with
        | '-' :: rest => exponentDigits? true rest
        | '+' :: rest => exponentDigits? false rest
        | rest => exponentDigits? false rest
      else none

/-- Closes a float with the exponent that follows, if one does. -/
def floatWith (whole : List Char) (fraction : Option (List Char)) (cs : List Char) :
    Lexeme × List Char :=
  match exponent? cs with
  | some (exponent, rest) =>
      (.float { whole, fraction, exponent := some exponent }, rest)
  | none => (.float { whole, fraction }, cs)

/-- Digits; a point with a digit behind it or an exponent makes a float of them. -/
def number (cs : List Char) : Lexeme × List Char :=
  let whole := cs.takeWhile isDigit
  let rest := cs.dropWhile isDigit
  match rest with
  | '.' :: after =>
      match after.takeWhile isDigit with
      | [] => (.integer whole, rest)
      | fraction => floatWith whole (some fraction) (after.dropWhile isDigit)
  | _ =>
      match exponent? rest with
      | some _ => floatWith whole none rest
      | none => (.integer whole, rest)

/-- The lexeme that starts with `c`, and the text behind it. -/
def lexeme (c : Char) (rest : List Char) : Lexeme × List Char :=
  if isDigit c then number (c :: rest)
  else if startsWord c then
    (.word (String.ofList (c :: rest.takeWhile continuesWord)), rest.dropWhile continuesWord)
  else if c = '"' then
    match stringBody? rest with
    | some (text, rest) => (.string (String.ofList text), rest)
    | none => (.mark c false, rest)
  else
    match rest with
    | d :: _ => (.mark c (joins c d), rest)
    | [] => (.mark c false, rest)

theorem length_dropWhile_le {α : Type} (p : α → Bool) (xs : List α) :
    (xs.dropWhile p).length ≤ xs.length :=
  (List.dropWhile_sublist p).length_le

theorem skipLayout_length_le (open_ : Bool) (cs : List Char) :
    (skipLayout open_ cs).length ≤ cs.length := by
  fun_induction skipLayout open_ cs <;> simp_all <;> omega

theorem stringBody?_length {cs text rest : List Char} (h : stringBody? cs = some (text, rest)) :
    rest.length < cs.length := by
  fun_induction stringBody? cs generalizing text rest with
  | case1 => simp at h
  | case2 => simp_all
  | case3 c r ih =>
    simp only [bind, Option.bind_eq_some_iff] at h
    obtain ⟨_, _, ⟨t, r'⟩, hr, h⟩ := h
    simp only [Option.some.injEq, Prod.mk.injEq] at h
    have := ih hr
    simp only [List.length_cons, ← h.2]
    omega
  | case4 => simp at h
  | case5 c r _ _ _ ih =>
    simp only [Option.map_eq_some_iff, Prod.exists, Prod.mk.injEq] at h
    obtain ⟨t, r', hr, _, rfl⟩ := h
    have := ih hr
    simp only [List.length_cons]
    omega

private theorem exponentDigits?_length {down : Bool} {cs rest : List Char} {e : Bool × List Char}
    (h : exponentDigits? down cs = some (e, rest)) : rest.length ≤ cs.length := by
  unfold exponentDigits? at h
  split at h
  · simp at h
  · simp only [Option.some.injEq, Prod.mk.injEq] at h
    exact h.2 ▸ length_dropWhile_le _ _

theorem exponent?_length {cs rest : List Char} {e : Bool × List Char}
    (h : exponent? cs = some (e, rest)) : rest.length ≤ cs.length := by
  unfold exponent? at h
  split at h
  · simp at h
  · split at h
    · split at h <;> have := exponentDigits?_length h <;> simp_all <;> omega
    · simp at h

theorem floatWith_length (whole : List Char) (fraction : Option (List Char)) (cs : List Char) :
    (floatWith whole fraction cs).2.length ≤ cs.length := by
  unfold floatWith
  split
  · exact exponent?_length (by assumption)
  · exact Nat.le_refl _

theorem number_length {c : Char} (h : isDigit c = true) (rest : List Char) :
    (number (c :: rest)).2.length ≤ rest.length := by
  have drop : ((c :: rest).dropWhile isDigit).length ≤ rest.length := by
    simpa [List.dropWhile_cons, h] using length_dropWhile_le isDigit rest
  unfold number
  dsimp only
  split
  · rename_i after heq
    rw [heq] at drop
    simp only [List.length_cons] at drop
    split
    · rw [heq]
      simpa using drop
    · have := floatWith_length ((c :: rest).takeWhile isDigit)
        (some (after.takeWhile isDigit)) (after.dropWhile isDigit)
      have := length_dropWhile_le isDigit after
      omega
  · split
    · exact Nat.le_trans (floatWith_length _ _ _) drop
    · exact drop

/-- Every lexeme takes at least one character. -/
theorem lexeme_length (c : Char) (rest : List Char) :
    (lexeme c rest).2.length ≤ rest.length := by
  unfold lexeme
  split
  · exact number_length (by assumption) rest
  · split
    · exact length_dropWhile_le _ _
    · split
      · split
        · exact Nat.le_of_lt (stringBody?_length (by assumption))
        · exact Nat.le_refl _
      · split <;> exact Nat.le_refl _

/-- The lexemes of a source, each with the source from its first character on. -/
def scan (cs : List Char) : List (List Char × Lexeme) :=
  match _h : skipLayout false cs with
  | [] => []
  | c :: rest => (c :: rest, (lexeme c rest).1) :: scan (lexeme c rest).2
termination_by cs.length
decreasing_by
  have := skipLayout_length_le false cs
  have := lexeme_length c rest
  simp only [_h, List.length_cons] at *
  omega

def lexemes (source : String) : List Lexeme :=
  (scan source.toList).map (·.2)

end Scriptlet.Grammar
