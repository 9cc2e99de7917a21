import Scriptlet.Proofs.Grammar.Integers

/-!
Strings as they are written. A character of a string stands for itself or is written as an escape,
and which of the two is free wherever both are possible. However a string is written, the guard, the
scanner and the builder get past the same characters of it and find the same closing quote, so it
reads back. A quote with another escape behind it, or with no closing quote, opens no string, and a
source in which one stands at a lexeme is refused.
-/

namespace Scriptlet

namespace Grammar

/-- What may be written behind a backslash, with the character it stands for. -/
def escapes : List (Char × Char) :=
  [('"', '"'), ('\\', '\\'), ('/', '/'), ('n', '\n'), ('t', '\t'), ('r', '\r')]

/-- A way to write a text between quotes. -/
inductive Spelling : (text written : List Char) → Prop
  | nil : Spelling [] []
  | raw {c : Char} {text written : List Char} :
      c ≠ '"' → c ≠ '\\' → Spelling text written → Spelling (c :: text) (c :: written)
  | escaped {d c : Char} {text written : List Char} :
      (d, c) ∈ escapes → Spelling text written → Spelling (c :: text) ('\\' :: d :: written)

/-- What stands behind an opening quote that has no closing one, or another escape in front of
it. -/
inductive Broken : List Char → Prop
  | unclosed : Broken []
  | cutOff : Broken ['\\']
  | unknown {d : Char} (rest : List Char) : (∀ c, (d, c) ∉ escapes) → Broken ('\\' :: d :: rest)
  | raw {c : Char} {rest : List Char} : c ≠ '"' → c ≠ '\\' → Broken rest → Broken (c :: rest)
  | escaped {d c : Char} {rest : List Char} :
      (d, c) ∈ escapes → Broken rest → Broken ('\\' :: d :: rest)

/-! ### The body of a string -/

theorem unescape?_eq_some_iff {d c : Char} : unescape? d = some c ↔ (d, c) ∈ escapes := by
  constructor
  · intro h
    unfold unescape? at h
    split at h
    case h_7 => cases h
    all_goals
      obtain rfl := Option.some.inj h
      decide
  · intro h
    simp only [escapes, List.mem_cons, Prod.mk.injEq, List.not_mem_nil, or_false] at h
    rcases h with ⟨rfl, rfl⟩ | ⟨rfl, rfl⟩ | ⟨rfl, rfl⟩ | ⟨rfl, rfl⟩ | ⟨rfl, rfl⟩ | ⟨rfl, rfl⟩ <;>
      rfl

theorem unescape?_eq_none_iff {d : Char} : unescape? d = none ↔ ∀ c, (d, c) ∉ escapes := by
  rw [Option.eq_none_iff_forall_ne_some]
  exact forall_congr' fun c => not_congr unescape?_eq_some_iff

/-- A character that the reader of a string takes for itself. -/
theorem raw_of_other {c : Char} {rest : List Char} (hquote : c ≠ '"')
    (hescape : ∀ d more, c = '\\' → rest = d :: more → False)
    (hend : c = '\\' → rest = [] → False) :
    c ≠ '"' ∧ c ≠ '\\' := by
  refine ⟨hquote, fun hslash => ?_⟩
  cases rest with
  | nil => exact hend hslash rfl
  | cons d more => exact hescape d more hslash rfl

theorem spelling_of_stringBody? {cs text rest : List Char}
    (h : stringBody? cs = some (text, rest)) :
    ∃ written, cs = written ++ '"' :: rest ∧ Spelling text written := by
  fun_induction stringBody? cs generalizing text rest with
  | case1 => cases h
  | case2 more =>
      obtain ⟨rfl, rfl⟩ := Prod.mk.inj (Option.some.inj h)
      exact ⟨[], rfl, .nil⟩
  | case3 d more ih =>
      simp only [bind, Option.bind_eq_some_iff] at h
      obtain ⟨c, hc, ⟨inner, behind⟩, hinner, h⟩ := h
      obtain ⟨rfl, rfl⟩ := Prod.mk.inj (Option.some.inj h)
      obtain ⟨written, rfl, hwritten⟩ := ih hinner
      exact ⟨'\\' :: d :: written, rfl, .escaped (unescape?_eq_some_iff.mp hc) hwritten⟩
  | case4 => cases h
  | case5 c more hquote hescape hend ih =>
      obtain ⟨_, hslash⟩ := raw_of_other hquote hescape hend
      simp only [Option.map_eq_some_iff, Prod.mk.injEq] at h
      obtain ⟨⟨inner, behind⟩, hinner, rfl, rfl⟩ := h
      obtain ⟨written, rfl, hwritten⟩ := ih hinner
      exact ⟨c :: written, rfl, .raw hquote hslash hwritten⟩

theorem Spelling.stringBody? {text written : List Char} (h : Spelling text written)
    (rest : List Char) : Grammar.stringBody? (written ++ '"' :: rest) = some (text, rest) := by
  induction h with
  | nil => rfl
  | raw hquote hslash _ ih => exact stringBody?_raw hquote hslash ih
  | escaped hescape _ ih => exact stringBody?_escaped (unescape?_eq_some_iff.mpr hescape) ih

theorem Broken.stringBody? {cs : List Char} (h : Broken cs) : Grammar.stringBody? cs = none := by
  induction h with
  | unclosed => rfl
  | cutOff => rfl
  | unknown rest hunknown =>
      rw [Grammar.stringBody?, unescape?_eq_none_iff.mpr hunknown]
      rfl
  | raw hquote hslash _ ih =>
      rw [Grammar.stringBody?]
      · rw [ih]
        rfl
      · exact hquote
      · exact fun _ _ h _ => hslash h
      · exact fun h _ => hslash h
  | escaped hescape _ ih =>
      rw [Grammar.stringBody?, unescape?_eq_some_iff.mpr hescape, ih]
      rfl

theorem broken_of_stringBody? {cs : List Char} (h : stringBody? cs = none) : Broken cs := by
  fun_induction stringBody? cs with
  | case1 => exact .unclosed
  | case2 => cases h
  | case3 d more ih =>
      cases hc : unescape? d with
      | none => exact .unknown more (unescape?_eq_none_iff.mp hc)
      | some c =>
          rw [hc] at h
          cases hmore : stringBody? more with
          | none => exact .escaped (unescape?_eq_some_iff.mp hc) (ih hmore)
          | some found =>
              rw [hmore] at h
              cases h
  | case4 => exact .cutOff
  | case5 c more hquote hescape hend ih =>
      obtain ⟨_, hslash⟩ := raw_of_other hquote hescape hend
      exact .raw hquote hslash (ih (Option.map_eq_none_iff.mp h))

/-- Every text can be written: what the printer puts between quotes is a spelling. -/
theorem spelling_escape (text : List Char) : Spelling text (text.flatMap escape) := by
  obtain ⟨written, hwritten, hspelling⟩ :=
    spelling_of_stringBody? (stringBody?_text text [])
  rwa [List.append_cancel_right hwritten]

/-! ### The three readers -/

theorem tooNested_string {text written : List Char} (h : Spelling text written) :
    tooNested (String.ofList ('"' :: (written ++ ['"']))) = false := by
  rw [tooNested, String.toList_ofList]
  exact exceeds_string (h.stringBody? [])

theorem lexeme_string {text written : List Char} (h : Spelling text written) (rest : List Char) :
    lexeme '"' (written ++ '"' :: rest) = (.string (String.ofList text), rest) := by
  have hquote : Text.isDigit '"' = false ∧ startsWord '"' = false := by decide
  simp only [lexeme, hquote, Bool.false_eq_true, if_false, if_true, h.stringBody?]

theorem phrase?_string {text written : List Char} (h : Spelling text written) :
    phrase? (String.ofList ('"' :: (written ++ ['"']))) = some (.string (String.ofList text)) := by
  have htokens : tokens ('"' :: (written ++ ['"'])) = [.string (String.ofList text)] := by
    rw [tokens_of_atLexeme (atLexeme_of_ne _ rfl (by decide)), lexeme_string h]
    exact congrArg (List.cons _) (tokens_eq [])
  have hlexemes : lexemes (String.ofList ('"' :: (written ++ ['"']))) =
      (Phrase.string (String.ofList text)).lexemes := by
    rw [lexemes, String.toList_ofList]
    exact htokens
  have hproper : (Phrase.string (String.ofList text)).Proper := trivial
  rw [phrase?, hlexemes, Phrase.program_lexemes _ hproper]

/-- What is scanned at a place is the lexeme that begins there. -/
theorem lexeme_of_mem_scan {cs rest : List Char} {c : Char} {l : Lexeme}
    (h : (c :: rest, l) ∈ scan cs) : l = (lexeme c rest).1 := by
  induction hn : cs.length using Nat.strongRecOn generalizing cs with
  | ind n ih =>
      have hlength := skipLayout_length_le false cs
      rw [scan] at h
      split at h
      · cases h
      · next d more hskip =>
          rw [hskip, List.length_cons] at hlength
          have hlexeme := lexeme_length d more
          rcases List.mem_cons.mp h with hhere | hlater
          · obtain ⟨⟨rfl, rfl⟩, rfl⟩ := Prod.mk.inj hhere |>.imp_left List.cons.inj
            rfl
          · exact ih _ (by omega) hlater rfl

/-- A quote that opens no string is a lexeme that no rule of the grammar takes. -/
theorem phrase?_of_broken {source : String} {cs : List Char} {l : Lexeme}
    (hscan : ('"' :: cs, l) ∈ scan source.toList) (hbroken : Broken cs) :
    phrase? source = none := by
  have hmark : l = .mark '"' false := by
    have hquote : Text.isDigit '"' = false ∧ startsWord '"' = false := by decide
    rw [lexeme_of_mem_scan hscan]
    simp only [lexeme, hquote, Bool.false_eq_true, if_false, if_true, hbroken.stringBody?]
  cases hphrase : phrase? source with
  | none => rfl
  | some phrase =>
      have hmem : Lexeme.mark '"' false ∈ lexemes source :=
        hmark ▸ List.mem_map_of_mem hscan
      exact absurd hmem ((balanced_of_phrase? hphrase).clean false)

end Grammar

open Grammar

/-- Strings read back. Every text can be written between quotes, and a source that is nothing but a
text written so, in whichever way, is parsed as the text. Wherever a quote stands at a lexeme of a
source, it opens a string that is spelled up to its closing quote, or it has no closing quote or
another escape behind it; in the latter case the grammar refuses the source. -/
theorem strings_read_back :
    (∀ text, ∃ written, Spelling text written) ∧
      (∀ text written, Spelling text written →
        parse (String.ofList ('"' :: (written ++ ['"']))) = .ok (.string (String.ofList text))) ∧
        ∀ source cs l, ('"' :: cs, l) ∈ scan source.toList →
          (Broken cs ∨ ∃ text written rest, cs = written ++ '"' :: rest ∧ Spelling text written ∧
            l = .string (String.ofList text)) ∧
          (Broken cs → phrase? source = none ∧ ∀ e, parse source ≠ .ok e) := by
  refine ⟨fun text => ⟨_, spelling_escape text⟩, ?_, ?_⟩
  · intro text written h
    exact parse_eq_ok_iff.mpr ⟨tooNested_string h, _, phrase?_string h, by rw [Phrase.build]⟩
  · intro source cs l hscan
    constructor
    · cases hbody : stringBody? cs with
      | none => exact .inl (broken_of_stringBody? hbody)
      | some found =>
          obtain ⟨written, rfl, hspelling⟩ := spelling_of_stringBody? hbody
          refine .inr ⟨found.1, written, found.2, rfl, hspelling, ?_⟩
          rw [lexeme_of_mem_scan hscan, lexeme_string hspelling]
    · intro hbroken
      have hrefused := phrase?_of_broken hscan hbroken
      refine ⟨hrefused, fun e he => ?_⟩
      obtain ⟨_, phrase, hphrase, _⟩ := parse_eq_ok_iff.mp he
      rw [hrefused] at hphrase
      cases hphrase

/-- Brackets, a comment, a line break and a row of backslashes in front of a quote; and an unknown
escape behind another string. -/
theorem strings_read_back_of_brackets :
    let text := ['(', '?', '/', '/', '\n', '\\', '"']
    let written := ['(', '?', '\\', '/', '/', '\n', '\\', '\\', '\\', '"']
    let unknown := ['\\', 'q', '"']
    let source := String.ofList ('"' :: (written ++ '"' :: '+' :: '"' :: unknown))
    Spelling text written ∧
      parse (String.ofList ('"' :: (written ++ ['"']))) = .ok (.string (String.ofList text)) ∧
        Broken unknown ∧ ∀ e, parse source ≠ .ok e := by
  intro text written unknown source
  have hspelling : Spelling text written :=
    .raw (by decide) (by decide) <| .raw (by decide) (by decide) <| .escaped (by decide) <|
      .raw (by decide) (by decide) <| .raw (by decide) (by decide) <| .escaped (by decide) <|
        .escaped (by decide) .nil
  have hbroken : Broken unknown := .unknown _ fun c hc => by simp [escapes] at hc
  have hscan : ('"' :: unknown, .mark '"' false) ∈ scan source.toList := by
    rw [String.toList_ofList]
    decide +kernel
  obtain ⟨_, hread, hquote⟩ := strings_read_back
  exact ⟨hspelling, hread _ _ hspelling, hbroken, ((hquote _ _ _ hscan).2 hbroken).2⟩

end Scriptlet
