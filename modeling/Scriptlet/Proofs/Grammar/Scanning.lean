import Scriptlet.Proofs.Grammar.Writing

/-!
What the scanner makes of a written phrase. Each lexeme is read as far as it goes, so it matters
what stands behind it: a word must not go on as a word, digits not as more digits, a point or an
exponent. `Stops` says of a text that it cuts off whatever phrase is in front of it.
-/

namespace Scriptlet.Grammar

open Text (isDigit isLetter)

/-- The lexemes of a text, without their places. -/
def tokens (cs : List Char) : List Lexeme :=
  (scan cs).map (·.2)

theorem tokens_eq (cs : List Char) :
    tokens cs = match skipLayout false cs with
      | [] => []
      | c :: rest => (lexeme c rest).1 :: tokens (lexeme c rest).2 := by
  unfold tokens
  rw [scan]
  split <;> rename_i h <;> simp [h]

/-- The text stands at a lexeme: there is nothing to skip. -/
def AtLexeme (cs : List Char) : Prop :=
  skipLayout false cs = cs

theorem tokens_of_atLexeme {c : Char} {rest : List Char} (h : AtLexeme (c :: rest)) :
    tokens (c :: rest) = (lexeme c rest).1 :: tokens (lexeme c rest).2 := by
  rw [tokens_eq, h]

theorem tokens_space (rest : List Char) : tokens (' ' :: rest) = tokens rest := by
  have hskip : skipLayout false (' ' :: rest) = skipLayout false rest := by
    simp [skipLayout, isBlank]
  rw [tokens_eq, hskip, ← tokens_eq]

theorem atLexeme_of_ne {c : Char} (rest : List Char) (hblank : isBlank c = false)
    (hslash : c ≠ '/') : AtLexeme (c :: rest) := by
  unfold AtLexeme
  rw [skipLayout]
  · simp [hblank]
  · intro _ h _
    exact hslash h

/-! ### Characters -/

theorem isDigit_of_startsWord {c : Char} (h : startsWord c = true) : isDigit c = false := by
  rw [Bool.eq_false_iff]
  intro hdigit
  simp only [isDigit, Bool.and_eq_true, decide_eq_true_eq, Char.le_def,
    UInt32.le_iff_toNat_le] at hdigit
  obtain ⟨_, hle⟩ := hdigit
  change c.val.toNat ≤ 57 at hle
  simp only [startsWord, isLetter, Bool.or_eq_true, Bool.and_eq_true, decide_eq_true_eq, beq_iff_eq,
    Char.le_def, UInt32.le_iff_toNat_le] at h
  rcases h with (⟨hge, _⟩ | ⟨hge, _⟩) | rfl
  · change 97 ≤ c.val.toNat at hge
    omega
  · change 65 ≤ c.val.toNat at hge
    omega
  · exact absurd hle (by decide)

theorem continuesWord_of_isDigit {c : Char} (h : isDigit c = true) : continuesWord c = true := by
  simp [continuesWord, h]

theorem not_isBlank_of_continuesWord {c : Char} (h : continuesWord c = true) :
    isBlank c = false ∧ c ≠ '/' ∧ c ≠ '"' ∧ c ≠ '=' := by
  refine ⟨?_, ?_, ?_, ?_⟩
  · rw [Bool.eq_false_iff]
    intro hblank
    simp only [isBlank, Bool.or_eq_true, beq_iff_eq] at hblank
    rcases hblank with ((rfl | rfl) | rfl) | rfl <;> exact absurd h (by decide)
  all_goals
    rintro rfl
    exact absurd h (by decide)

theorem continuesWord_of_startsWord {c : Char} (h : startsWord c = true) :
    continuesWord c = true := by
  simp only [startsWord, continuesWord, Bool.or_eq_true] at h ⊢
  exact h.imp_left Or.inl

/-! ### One lexeme -/

/-- The text cuts off whatever stands in front of it: it goes on neither as a word or a number nor
as an operator. -/
def Stops : List Char → Prop
  | [] => True
  | c :: rest =>
      continuesWord c = false ∧ c ≠ '=' ∧ (c = '.' → ∀ d ∈ rest.head?, isDigit d = false)

theorem stops_cons {c : Char} (rest : List Char) (hword : continuesWord c = false)
    (hequal : c ≠ '=') (hdot : c ≠ '.') : Stops (c :: rest) :=
  ⟨hword, hequal, fun h => absurd h hdot⟩

theorem Stops.head_ne {rest : List Char} (h : Stops rest) : '=' ∉ rest.head? := by
  intro hhead
  cases rest with
  | nil => cases hhead
  | cons d rest => exact h.2.1 (Option.some.inj hhead)

theorem Stops.head {rest : List Char} (h : Stops rest) {c : Char} (hc : c ∈ rest.head?) :
    continuesWord c = false := by
  cases rest with
  | nil => cases hc
  | cons d rest =>
      obtain rfl := Option.some.inj hc
      exact h.1

theorem Stops.head_not_digit {rest : List Char} (h : Stops rest) {c : Char} (hc : c ∈ rest.head?) :
    isDigit c = false := by
  have hword := h.head hc
  simp only [continuesWord, Bool.or_eq_false_iff] at hword
  exact hword.1.2

/-- What is read as far as it goes ends where the next character is of another kind. -/
theorem span_append {p : Char → Bool} {cs rest : List Char} (hcs : ∀ c ∈ cs, p c = true)
    (hrest : ∀ c ∈ rest.head?, p c = false) :
    (cs ++ rest).takeWhile p = cs ∧ (cs ++ rest).dropWhile p = rest := by
  rw [List.takeWhile_append_of_pos hcs, List.dropWhile_append_of_pos hcs]
  cases rest with
  | nil => simp
  | cons c rest =>
      have hc : p c = false := hrest c rfl
      simp [hc]

theorem tokens_word {c : Char} {cs rest : List Char} (hc : startsWord c = true)
    (hcs : ∀ d ∈ cs, continuesWord d = true) (hrest : Stops rest) :
    tokens (c :: (cs ++ rest)) = .word (String.ofList (c :: cs)) :: tokens rest := by
  obtain ⟨hblank, hslash, _, _⟩ := not_isBlank_of_continuesWord (continuesWord_of_startsWord hc)
  obtain ⟨htake, hdrop⟩ := span_append hcs fun _ => hrest.head
  rw [tokens_of_atLexeme (atLexeme_of_ne _ hblank hslash)]
  simp only [lexeme, isDigit_of_startsWord hc, hc, htake, hdrop, Bool.false_eq_true, if_false,
    if_true]

theorem tokens_identifier {name : String} (h : IsIdentifier name) {rest : List Char}
    (hrest : Stops rest) : tokens (name.toList ++ rest) = .word name :: tokens rest := by
  obtain ⟨⟨c, cs, hname, hc, hcs⟩, _⟩ := h
  have hofList : String.ofList (c :: cs) = name := by rw [← hname, String.ofList_toList]
  rw [hname, List.cons_append, tokens_word hc hcs hrest, hofList]

theorem isBlank_of_isDigit {c : Char} (h : isDigit c = true) : isBlank c = false ∧ c ≠ '/' :=
  let ⟨hblank, hslash, _⟩ := not_isBlank_of_continuesWord (continuesWord_of_isDigit h)
  ⟨hblank, hslash⟩

theorem tokens_digits {digits rest : List Char} (h : IsDigits digits) :
    tokens (digits ++ rest) =
      (number (digits ++ rest)).1 :: tokens (number (digits ++ rest)).2 := by
  obtain ⟨hne, hall⟩ := h
  cases digits with
  | nil => exact absurd rfl hne
  | cons c cs =>
      have hc : isDigit c = true := hall c (by simp)
      obtain ⟨hblank, hslash⟩ := isBlank_of_isDigit hc
      rw [List.cons_append, tokens_of_atLexeme (atLexeme_of_ne _ hblank hslash)]
      simp only [lexeme, hc, if_true]

theorem exponent?_of_stops {rest : List Char} (h : Stops rest) : exponent? rest = none := by
  cases rest with
  | nil => rfl
  | cons c rest =>
      have hword := h.1
      have hlower : c ≠ 'e' := by
        rintro rfl
        exact absurd hword (by decide)
      have hupper : c ≠ 'E' := by
        rintro rfl
        exact absurd hword (by decide)
      simp [exponent?, hlower, hupper]

theorem tokens_integer {digits rest : List Char} (h : IsDigits digits) (hrest : Stops rest) :
    tokens (digits ++ rest) = .integer digits :: tokens rest := by
  obtain ⟨htake, hdrop⟩ := span_append h.2 fun _ => hrest.head_not_digit
  have hnumber : number (digits ++ rest) = (.integer digits, rest) := by
    simp only [number, htake, hdrop]
    split
    · next after =>
        have hafter : after.takeWhile isDigit = [] := by
          cases after with
          | nil => rfl
          | cons d after =>
              have hd : isDigit d = false := hrest.2.2 rfl d rfl
              simp [hd]
        rw [hafter]
    · rw [exponent?_of_stops hrest]
  rw [tokens_digits h, hnumber]

theorem exponentDigits?_append {digits rest : List Char} (h : IsDigits digits) (hrest : Stops rest)
    (down : Bool) : exponentDigits? down (digits ++ rest) = some ((down, digits), rest) := by
  obtain ⟨htake, hdrop⟩ := span_append h.2 fun _ => hrest.head_not_digit
  simp only [exponentDigits?, htake, hdrop]
  cases digits with
  | nil => exact absurd rfl h.1
  | cons d ds => rfl

theorem exponent?_text {e : Bool × List Char} {rest : List Char} (h : IsDigits e.2)
    (hrest : Stops rest) :
    exponent? (Number.exponentText (some e) ++ rest) = some (e, rest) := by
  obtain ⟨down, digits⟩ := e
  have hread := exponentDigits?_append h hrest
  cases down with
  | true => exact hread true
  | false =>
      cases digits with
      | nil => exact absurd rfl h.1
      | cons d ds =>
          have hd : isDigit d = true := h.2 d (by simp)
          have hminus : d ≠ '-' := by
            rintro rfl
            exact absurd hd (by decide)
          have hplus : d ≠ '+' := by
            rintro rfl
            exact absurd hd (by decide)
          have hfalse := hread false
          simp only [List.cons_append] at hfalse
          simp only [Number.exponentText, List.cons_append, exponent?]
          split
          · split
            · next heq => exact absurd (List.cons_eq_cons.mp heq).1 hminus
            · next heq => exact absurd (List.cons_eq_cons.mp heq).1 hplus
            · exact hfalse
          · next hnot => simp at hnot

theorem floatWith_text {whole : List Char} {fraction : Option (List Char)}
    {exponent : Option (Bool × List Char)} {rest : List Char}
    (hexponent : ∀ e ∈ exponent, IsDigits e.2) (hrest : Stops rest) :
    floatWith whole fraction (Number.exponentText exponent ++ rest) =
      (.float { whole, fraction, exponent }, rest) := by
  cases exponent with
  | none =>
      simp only [Number.exponentText, List.nil_append, floatWith, exponent?_of_stops hrest]
  | some e => rw [floatWith, exponent?_text (hexponent e rfl) hrest]

/-- An exponent or the end of a numeral is no digit. -/
theorem exponentText_head (exponent : Option (Bool × List Char)) {rest : List Char}
    (hrest : Stops rest) :
    ∀ c ∈ (Number.exponentText exponent ++ rest).head?, isDigit c = false := by
  intro c hc
  rcases exponent with _ | ⟨_ | _, digits⟩
  · exact hrest.head_not_digit hc
  · obtain rfl := Option.some.inj hc
    rfl
  · obtain rfl := Option.some.inj hc
    rfl

theorem not_isDigit_of_head {c : Char} (hc : isDigit c = false) (cs : List Char) :
    ∀ d ∈ (c :: cs).head?, isDigit d = false := by
  intro d hd
  obtain rfl := Option.some.inj hd
  exact hc

theorem number_text {n : Number.Numeral} (h : IsFloat n) {rest : List Char} (hrest : Stops rest) :
    number (n.text ++ rest) = (.float n, rest) := by
  obtain ⟨negative, whole, fraction, exponent⟩ := n
  obtain ⟨rfl, hwhole, hfraction, hexponent, hfloat⟩ := h
  simp only at hwhole hfraction hexponent
  simp only [Number.Numeral.text, List.append_assoc]
  cases fraction with
  | some digits =>
      have hdigits := hfraction digits rfl
      obtain ⟨htake, hdrop⟩ := span_append hwhole.2 (not_isDigit_of_head (c := '.') rfl
        (digits ++ (Number.exponentText exponent ++ rest)))
      obtain ⟨htake', hdrop'⟩ := span_append hdigits.2 (exponentText_head exponent hrest)
      simp only [number, Number.fractionText, List.cons_append, htake, hdrop, htake', hdrop',
        floatWith_text hexponent hrest]
      cases digits with
      | nil => exact absurd rfl hdigits.1
      | cons d ds => rfl
  | none =>
      cases exponent with
      | none => exact absurd hfloat (by simp [Number.Numeral.isInteger])
      | some e =>
          have hread := exponent?_text (hexponent e rfl) hrest
          obtain ⟨htake, hdrop⟩ := span_append hwhole.2 (exponentText_head (some e) hrest)
          simp only [number, Number.fractionText, List.nil_append, htake, hdrop]
          split
          · next heq =>
              obtain ⟨_ | _, digits⟩ := e <;> cases heq
          · simp only [hread, floatWith_text hexponent hrest]

theorem tokens_float {n : Number.Numeral} (h : IsFloat n) {rest : List Char} (hrest : Stops rest) :
    tokens (n.text ++ rest) = .float n :: tokens rest := by
  have hnumber := number_text h hrest
  simp only [Number.Numeral.text, List.append_assoc] at hnumber ⊢
  rw [tokens_digits h.whole, hnumber]

theorem stringBody?_escaped {c d : Char} {cs text rest : List Char} (hd : unescape? d = some c)
    (hrest : stringBody? cs = some (text, rest)) :
    stringBody? ('\\' :: d :: cs) = some (c :: text, rest) := by
  simp only [stringBody?, hd, hrest]
  rfl

theorem stringBody?_raw {c : Char} {cs text rest : List Char} (hquote : c ≠ '"')
    (hbackslash : c ≠ '\\') (hrest : stringBody? cs = some (text, rest)) :
    stringBody? (c :: cs) = some (c :: text, rest) := by
  rw [stringBody?]
  · rw [hrest]
    rfl
  · exact hquote
  · exact fun _ _ h _ => hbackslash h
  · exact fun h _ => hbackslash h

theorem stringBody?_escape (c : Char) {cs text rest : List Char}
    (hrest : stringBody? cs = some (text, rest)) :
    stringBody? (escape c ++ cs) = some (c :: text, rest) := by
  unfold escape
  split
  case h_6 hquote hbackslash _ _ _ => exact stringBody?_raw hquote hbackslash hrest
  all_goals exact stringBody?_escaped rfl hrest

theorem stringBody?_text (text rest : List Char) :
    stringBody? (text.flatMap escape ++ '"' :: rest) = some (text, rest) := by
  induction text with
  | nil => rfl
  | cons c cs ih =>
      rw [List.flatMap_cons, List.append_assoc]
      exact stringBody?_escape c ih

theorem tokens_string (s : String) (rest : List Char) :
    tokens ('"' :: (s.toList.flatMap escape ++ '"' :: rest)) = .string s :: tokens rest := by
  rw [tokens_of_atLexeme (atLexeme_of_ne _ rfl (by decide))]
  have hlexeme : lexeme '"' (s.toList.flatMap escape ++ '"' :: rest) = (.string s, rest) := by
    have hquote : isDigit '"' = false ∧ startsWord '"' = false := by decide
    simp only [lexeme, hquote, Bool.false_eq_true, if_false, if_true, stringBody?_text,
      String.ofList_toList]
  rw [hlexeme]

/-- A character that is no part of a longer lexeme. -/
def IsMark (c : Char) : Prop :=
  isBlank c = false ∧ isDigit c = false ∧ startsWord c = false ∧ c ≠ '"'

instance (c : Char) : Decidable (IsMark c) := by
  unfold IsMark
  infer_instance

theorem tokens_mark {c : Char} {rest : List Char} {glued : Bool} (hc : IsMark c)
    (hat : AtLexeme (c :: rest)) (hglued : rest.head?.any (joins c) = glued) :
    tokens (c :: rest) = .mark c glued :: tokens rest := by
  obtain ⟨_, hdigit, hword, hquote⟩ := hc
  rw [tokens_of_atLexeme hat]
  cases rest with
  | nil =>
      obtain rfl : false = glued := hglued
      simp only [lexeme, hdigit, hword, hquote, Bool.false_eq_true, if_false]
  | cons d rest =>
      obtain rfl : joins c d = glued := hglued
      simp only [lexeme, hdigit, hword, hquote, Bool.false_eq_true, if_false]

/-- A mark that starts no operator of two characters and no comment. -/
theorem tokens_single {c : Char} (hc : IsMark c) (hslash : c ≠ '/')
    (hjoins : ∀ d, joins c d = false) (rest : List Char) :
    tokens (c :: rest) = .mark c false :: tokens rest := by
  refine tokens_mark hc (atLexeme_of_ne rest hc.1 hslash) ?_
  cases rest with
  | nil => rfl
  | cons d rest => exact hjoins d

theorem tokens_one {c : Char} (hc : IsMark c) (hat : ∀ rest, AtLexeme (c :: ' ' :: rest))
    (hjoins : joins c ' ' = false) (rest : List Char) :
    tokens (c :: ' ' :: rest) = .mark c false :: tokens rest := by
  rw [tokens_mark hc (hat rest) hjoins, tokens_space]

theorem tokens_two {c d : Char} (hc : IsMark c) (hd : IsMark d) (hslash : c ≠ '/' ∧ d ≠ '/')
    (hglued : joins c d = true) (hjoins : joins d ' ' = false) (rest : List Char) :
    tokens (c :: d :: ' ' :: rest) = .mark c true :: .mark d false :: tokens rest := by
  have hboth : (d :: ' ' :: rest).head?.any (joins c) = true := hglued
  rw [tokens_mark hc (atLexeme_of_ne _ hc.1 hslash.1) hboth,
    tokens_one hd (fun rest => atLexeme_of_ne _ hd.1 hslash.2) hjoins]

/-- An operator between two blanks, the first of which is read already. -/
theorem tokens_operator (op : BinaryOp) (rest : List Char) :
    tokens (op.symbol.toList ++ ' ' :: rest) = marks op.symbol.toList ++ tokens rest := by
  cases op with
  | div => exact tokens_one (c := '/') (by decide) (fun rest => rfl) (by decide) rest
  | add | sub | mul | rem | lt | gt =>
      exact tokens_one (by decide) (fun rest => atLexeme_of_ne _ rfl (by decide)) (by decide) rest
  | eq | ne | le | ge | and | or | coalesce =>
      exact tokens_two (by decide) (by decide) (by decide) (by decide) (by decide) rest

theorem joins_not {d : Char} (hd : d ≠ '=') : joins '!' d = false := by
  unfold joins
  split <;> simp_all

theorem head_signs (signs : List UnaryOp) {rest : List Char} (hrest : '=' ∉ rest.head?) :
    '=' ∉ (signs.flatMap (·.symbol.toList) ++ rest).head? := by
  cases signs with
  | nil => exact hrest
  | cons op ops => cases op <;> exact fun h => absurd (Option.some.inj h) (by decide)

/-- Signs in front of a text that does not begin with `=`. -/
theorem tokens_signs (signs : List UnaryOp) {rest : List Char} (hrest : '=' ∉ rest.head?) :
    tokens (signs.flatMap (·.symbol.toList) ++ rest) =
      signs.flatMap (marks ·.symbol.toList) ++ tokens rest := by
  induction signs with
  | nil => rfl
  | cons op ops ih =>
      rw [List.flatMap_cons, List.flatMap_cons, List.append_assoc, List.append_assoc, ← ih]
      cases op with
      | neg => exact tokens_single (by decide) (by decide) (fun _ => rfl) _
      | not =>
          have hhead := head_signs ops hrest
          have hglued : (ops.flatMap (·.symbol.toList) ++ rest).head?.any (joins '!') = false := by
            cases hnext : (ops.flatMap (·.symbol.toList) ++ rest).head? with
            | none => rfl
            | some d =>
                rw [hnext] at hhead
                exact joins_not fun h => hhead (h ▸ rfl)
          exact tokens_mark (by decide) (atLexeme_of_ne _ rfl (by decide)) hglued

/-! ### Phrases -/

theorem head_of_continuesWord {c : Char} (hc : continuesWord c = true) (cs : List Char) :
    '=' ∉ (c :: cs).head? := by
  intro h
  obtain ⟨_, _, _, hne⟩ := not_isBlank_of_continuesWord hc
  exact hne (Option.some.inj h)

theorem IsDigits.head {digits : List Char} (h : IsDigits digits) (rest : List Char) :
    '=' ∉ (digits ++ rest).head? := by
  cases digits with
  | nil => exact absurd rfl h.1
  | cons d ds => exact head_of_continuesWord (continuesWord_of_isDigit (h.2 d (by simp))) _

/-- No phrase begins with `=`, which a `!` in front of it would be glued to. -/
theorem Phrase.head_text (p : Phrase) (hp : p.Proper) {rest : List Char}
    (hrest : '=' ∉ rest.head?) : '=' ∉ (p.text ++ rest).head? := by
  match p with
  | .null => exact fun h => absurd (Option.some.inj h) (by decide)
  | .bool b => cases b <;> exact fun h => absurd (Option.some.inj h) (by decide)
  | .integer digits => exact IsDigits.head hp rest
  | .float numeral =>
      have hwhole := IsFloat.whole hp
      rw [text, Number.Numeral.text, List.append_assoc]
      exact hwhole.head _
  | .string s => exact fun h => absurd (Option.some.inj h) (by decide)
  | .name n =>
      obtain ⟨⟨c, cs, hname, hc, _⟩, _⟩ := hp
      rw [text, hname]
      exact head_of_continuesWord (continuesWord_of_startsWord hc) _
  | .list items => exact fun h => absurd (Option.some.inj h) (by decide)
  | .group inner => exact fun h => absurd (Option.some.inj h) (by decide)
  | .member object property =>
      rw [text, List.append_assoc]
      exact object.head_text hp.1 (by simp)
  | .index object key =>
      rw [text, List.append_assoc]
      exact object.head_text hp.1 (by simp)
  | .call callee args =>
      rw [text, List.append_assoc]
      exact callee.head_text hp.1 (by simp)
  | .signed signs operand =>
      rw [text, List.append_assoc]
      exact head_signs signs (operand.head_text hp.2.1 hrest)
  | .binary op left right =>
      rw [text, List.append_assoc]
      exact left.head_text hp.1 (by simp)
  | .conditional test thenP elseP =>
      rw [text, List.append_assoc]
      exact test.head_text hp.1 (by simp)

theorem tokens_open {c : Char} (hc : c = '(' ∨ c = '[' ∨ c = ')' ∨ c = ']' ∨ c = ',' ∨ c = '.')
    (rest : List Char) : tokens (c :: rest) = .mark c false :: tokens rest := by
  rcases hc with rfl | rfl | rfl | rfl | rfl | rfl <;>
    exact tokens_single (by decide) (by decide) (fun _ => rfl) rest

theorem stops_close {c : Char} (hc : c = ' ' ∨ c = '(' ∨ c = '[' ∨ c = ')' ∨ c = ']' ∨ c = ',')
    (rest : List Char) : Stops (c :: rest) := by
  rcases hc with rfl | rfl | rfl | rfl | rfl | rfl <;>
    exact stops_cons rest (by decide) (by decide) (by decide)

/-- A point that a name stands behind is no part of a number in front of it. -/
theorem stops_point {name : String} (h : IsIdentifier name) (rest : List Char) :
    Stops ('.' :: (name.toList ++ rest)) := by
  obtain ⟨⟨c, cs, hname, hc, _⟩, _⟩ := h
  refine ⟨by decide, by decide, fun _ d hd => ?_⟩
  rw [hname] at hd
  obtain rfl := Option.some.inj hd
  exact isDigit_of_startsWord hc

mutual

/-- The scanner reads a phrase that is cut off by what stands behind it as its lexemes. -/
theorem Phrase.tokens_text (p : Phrase) (hp : p.Proper) {rest : List Char} (hrest : Stops rest) :
    tokens (p.text ++ rest) = p.lexemes ++ tokens rest := by
  match p with
  | .null => exact tokens_word (c := 'n') (by decide) (List.all_eq_true.mp rfl) hrest
  | .bool true => exact tokens_word (c := 't') (by decide) (List.all_eq_true.mp rfl) hrest
  | .bool false => exact tokens_word (c := 'f') (by decide) (List.all_eq_true.mp rfl) hrest
  | .integer digits => exact tokens_integer hp hrest
  | .float numeral => exact tokens_float hp hrest
  | .string s =>
      simp only [text, List.cons_append, List.append_assoc, List.nil_append]
      exact tokens_string s rest
  | .name n => exact tokens_identifier hp hrest
  | .list items =>
      have hitems := tokens_textItems items hp (stops_close (c := ']') (by simp) rest)
      simp only [text, lexemes, List.cons_append, List.append_assoc, List.nil_append]
      rw [tokens_open (by simp), hitems, tokens_open (by simp)]
  | .group inner =>
      have hinner := inner.tokens_text hp (stops_close (c := ')') (by simp) rest)
      simp only [text, lexemes, List.cons_append, List.append_assoc, List.nil_append]
      rw [tokens_open (by simp), hinner, tokens_open (by simp)]
  | .member object property =>
      have hobject := object.tokens_text hp.1 (stops_point hp.2.2 rest)
      simp only [text, lexemes, List.cons_append, List.append_assoc, List.nil_append]
      rw [hobject, tokens_open (by simp), tokens_identifier hp.2.2 hrest]
  | .index object key =>
      have hkey := key.tokens_text hp.2.2 (stops_close (c := ']') (by simp) rest)
      have hobject := object.tokens_text hp.1
        (stops_close (c := '[') (by simp) (key.text ++ ']' :: rest))
      simp only [text, lexemes, List.cons_append, List.append_assoc, List.nil_append]
      rw [hobject, tokens_open (by simp), hkey, tokens_open (by simp)]
  | .call callee args =>
      have hargs := tokens_textItems args hp.2.2 (stops_close (c := ')') (by simp) rest)
      have hcallee := callee.tokens_text hp.1
        (stops_close (c := '(') (by simp) (textItems args ++ ')' :: rest))
      simp only [text, lexemes, List.cons_append, List.append_assoc, List.nil_append]
      rw [hcallee, tokens_open (by simp), hargs, tokens_open (by simp)]
  | .signed signs operand =>
      have hhead := operand.head_text hp.2.1 hrest.head_ne
      simp only [text, lexemes, List.append_assoc]
      rw [tokens_signs signs hhead, operand.tokens_text hp.2.1 hrest]
  | .binary op left right =>
      have hright := right.tokens_text hp.2.2.1 hrest
      have hleft := left.tokens_text hp.1
        (stops_close (c := ' ') (by simp) (op.symbol.toList ++ ' ' :: (right.text ++ rest)))
      simp only [text, lexemes, List.cons_append, List.append_assoc]
      rw [hleft, tokens_space, tokens_operator, hright]
  | .conditional test thenP elseP =>
      have helse := elseP.tokens_text hp.2.2.2 hrest
      have hthen := thenP.tokens_text hp.2.2.1
        (stops_close (c := ' ') (by simp) (':' :: ' ' :: (elseP.text ++ rest)))
      have htest := test.tokens_text hp.1 (stops_close (c := ' ') (by simp)
        ('?' :: ' ' :: (thenP.text ++ ' ' :: ':' :: ' ' :: (elseP.text ++ rest))))
      have hmark : ∀ c, c = '?' ∨ c = ':' → ∀ rest, tokens (c :: ' ' :: rest) =
          .mark c false :: tokens rest := by
        rintro c (rfl | rfl) rest <;>
          exact tokens_one (by decide) (fun rest => atLexeme_of_ne _ rfl (by decide)) (by decide)
            rest
      simp only [text, lexemes, List.cons_append, List.append_assoc]
      rw [htest, tokens_space, hmark '?' (Or.inl rfl), hthen, tokens_space,
        hmark ':' (Or.inr rfl), helse]

theorem Phrase.tokens_textItems (items : List Phrase) (hitems : ProperItems items)
    {rest : List Char} (hrest : Stops rest) :
    tokens (textItems items ++ rest) = lexemesItems items ++ tokens rest := by
  match items with
  | [] => rfl
  | item :: more =>
      have hstop : Stops (textFurther more ++ rest) := by
        cases more with
        | nil => exact hrest
        | cons next more => exact stops_close (by simp) _
      simp only [textItems, lexemesItems, List.append_assoc]
      rw [item.tokens_text hitems.1 hstop, tokens_textFurther more hitems.2 hrest]

theorem Phrase.tokens_textFurther (items : List Phrase) (hitems : ProperItems items)
    {rest : List Char} (hrest : Stops rest) :
    tokens (textFurther items ++ rest) = lexemesFurther items ++ tokens rest := by
  match items with
  | [] => rfl
  | item :: more =>
      have hstop : Stops (textFurther more ++ rest) := by
        cases more with
        | nil => exact hrest
        | cons next more => exact stops_close (by simp) _
      simp only [textFurther, lexemesFurther, List.cons_append, List.append_assoc]
      rw [tokens_open (by simp), tokens_space, item.tokens_text hitems.1 hstop,
        tokens_textFurther more hitems.2 hrest]

end

/-- The lexemes of a written phrase. -/
theorem Phrase.lexemes_text (p : Phrase) (hp : p.Proper) :
    Grammar.lexemes (String.ofList p.text) = p.lexemes := by
  have hread := p.tokens_text hp (show Stops [] from trivial)
  rw [List.append_nil, tokens_eq []] at hread
  simpa [Grammar.lexemes, String.toList_ofList, tokens, skipLayout] using hread

end Scriptlet.Grammar
