import Scriptlet.Proofs.Grammar.Terminals

/-!
When the grammar and a rule on lexemes agree at a place of a source: both fail there, or both go on
at places with the same lexemes, and the nodes of the one mean what the other has read. The rules
without rules inside of them agree: identifiers, literals, operators and signs.
-/

namespace Scriptlet.Grammar

open Text (isDigit)

variable {α : Type} {source cs : List Char}

/-! ### Agreement -/

inductive Agrees (source : List Char) (peg : Peg) (cs : List Char)
    (Means : α → List Node → Prop) : Option (α × List Lexeme) → Prop
  | reads {a : α} {nodes : List Node} {rest : List Char} :
      Reads source .loose peg cs (some (nodes, rest)) →
        (tokens rest).length < (tokens cs).length → Means a nodes →
          Agrees source peg cs Means (some (a, tokens rest))
  | fails : Reads source .loose peg cs none → Agrees source peg cs Means none

/-- What a phrase becomes, with what the builder has against it as a complaint. -/
def Phrase.complaining (p : Phrase) : Except Complaint Expr :=
  Grammar.complaining (p.build (some depthLimit))

/-- One node of a rule, which the builder that trusts nothing builds as the phrase is built. -/
def Stands (name : Nonterminal) (p : Phrase) (nodes : List Node) : Prop :=
  ∃ text parts, nodes = [.mk name text parts] ∧
    (Node.mk name text parts).build = p.complaining

theorem inside_plain {name : Nonterminal} (hplain : name.style = .plain) (around : Spacing) :
    name.style.inside around = around := by
  rw [hplain]
  rfl

theorem inside_atomic {name : Nonterminal} (hatomic : name.style = .atomic) (around : Spacing) :
    name.style.inside around = .atomic := by
  rw [hatomic]
  rfl

/-- A rule with gaps gives one node with the nodes of its parts. -/
theorem Agrees.plain {name : Nonterminal} {Parts Means : α → List Node → Prop}
    {result : Option (α × List Lexeme)} (hplain : name.style = .plain)
    (h : Agrees source name.body cs Parts result)
    (hmeans : ∀ a text parts, Parts a parts → Means a [.mk name text parts]) :
    Agrees source (.rule name) cs Means result := by
  have hnodes : ∀ node inner, name.style.nodes .loose node inner = [node] := by
    rw [hplain]
    exact fun _ _ => rfl
  cases h with
  | reads hbody hlength hnode =>
      rw [← inside_plain hplain .loose] at hbody
      have hrule := Reads.rule hbody
      rw [hnodes] at hrule
      exact .reads hrule hlength (hmeans _ _ _ hnode)
  | fails hbody =>
      rw [← inside_plain hplain .loose] at hbody
      exact .fails (.no_rule hbody)

theorem reads_atomic {name : Nonterminal} {rest : List Char} (hatomic : name.style = .atomic)
    (h : Reads source .atomic name.body cs (some ([], rest))) :
    Reads source .loose (.rule name) cs (some ([.mk name (taken cs rest) []], rest)) := by
  rw [← inside_atomic hatomic .loose] at h
  have hrule := Reads.rule h
  rw [hatomic] at hrule
  exact hrule

theorem no_atomic {name : Nonterminal} (hatomic : name.style = .atomic)
    (h : Reads source .atomic name.body cs none) : Reads source .loose (.rule name) cs none := by
  rw [← inside_atomic hatomic .loose] at h
  exact .no_rule h

/-! ### Places -/

/-- A place at which there is nothing to skip, and its lexemes. -/
inductive Begins : List Char → List Lexeme → Prop
  | ending : Begins [] []
  | number {c : Char} {rest : List Char} : isDigit c = true →
      Begins (c :: rest) ((number (c :: rest)).1 :: tokens (number (c :: rest)).2)
  | word {c : Char} {rest : List Char} : startsWord c = true →
      Begins (c :: rest) (.word (String.ofList ((c :: rest).takeWhile continuesWord)) ::
        tokens ((c :: rest).dropWhile continuesWord))
  | string {text written : List Char} (rest : List Char) : Spelling text written →
      Begins ('"' :: (written ++ '"' :: rest)) (.string (String.ofList text) :: tokens rest)
  | broken {body : List Char} : Broken body → Begins ('"' :: body) (.mark '"' false :: tokens body)
  | mark {c : Char} {rest : List Char} : IsMark c →
      Begins (c :: rest) (.mark c (rest.head?.any (joins c)) :: tokens rest)

theorem begins (h : AtLexeme cs) : Begins cs (tokens cs) := by
  cases cs with
  | nil =>
      rw [tokens_eq]
      exact .ending
  | cons c rest =>
      have htokens := tokens_of_atLexeme h
      by_cases hdigit : isDigit c = true
      · have hlexeme : lexeme c rest = number (c :: rest) := if_pos hdigit
        rw [htokens, hlexeme]
        exact .number hdigit
      by_cases hword : startsWord c = true
      · have hcont := continuesWord_of_startsWord hword
        have hlexeme : lexeme c rest =
            (.word (String.ofList ((c :: rest).takeWhile continuesWord)),
              (c :: rest).dropWhile continuesWord) := by
          rw [List.takeWhile_cons_of_pos hcont, List.dropWhile_cons_of_pos hcont]
          exact (if_neg hdigit).trans (if_pos hword)
        rw [htokens, hlexeme]
        exact .word hword
      by_cases hquote : c = '"'
      · subst hquote
        rw [htokens]
        cases hbody : stringBody? rest with
        | none =>
            have hlexeme : lexeme '"' rest = (.mark '"' false, rest) := by
              simp [lexeme, hdigit, hword, hbody]
            rw [hlexeme]
            exact .broken (broken_of_stringBody? hbody)
        | some found =>
            obtain ⟨text, behind⟩ := found
            obtain ⟨written, rfl, hspelling⟩ := spelling_of_stringBody? hbody
            rw [lexeme_string hspelling]
            exact .string behind hspelling
      · rw [htokens, lexeme_mark hdigit hword hquote]
        have hblank : isBlank c = false := (skipLayout_head h).1
        exact .mark ⟨hblank, Bool.eq_false_iff.mpr hdigit, Bool.eq_false_iff.mpr hword, hquote⟩

/-- A mark stands at a place, or the lexemes from there on begin with another lexeme. -/
theorem mark_or_not {c : Char} (hc : IsMark c) (h : AtLexeme cs) :
    (∃ rest glued, cs = c :: rest ∧ tokens cs = .mark c glued :: tokens rest) ∨
      c ∉ cs.head? ∧ ∀ glued s, tokens cs ≠ .mark c glued :: s := by
  have hbegins := begins h
  generalize htokens : tokens cs = s at hbegins
  cases hbegins with
  | ending => exact .inr ⟨by simp, fun _ _ h => by cases h⟩
  | number hd =>
      refine .inr ⟨fun hmem => ?_, fun glued s heq => ?_⟩
      · obtain rfl := Option.some.inj hmem
        rw [hc.2.1] at hd
        cases hd
      · exact number_ne_mark _ _ _ (List.cons.inj heq).1
  | word hd =>
      refine .inr ⟨fun hmem => ?_, fun _ _ heq => by cases heq⟩
      obtain rfl := Option.some.inj hmem
      rw [hc.2.2.1] at hd
      cases hd
  | string =>
      exact .inr ⟨fun hmem => hc.2.2.2 (Option.some.inj hmem).symm, fun _ _ heq => by cases heq⟩
  | broken =>
      refine .inr ⟨fun hmem => hc.2.2.2 (Option.some.inj hmem).symm, fun glued s heq => ?_⟩
      exact hc.2.2.2 (Lexeme.mark.inj (List.cons.inj heq).1).1.symm
  | @mark d rest hd =>
      by_cases hsame : d = c
      · subst hsame
        exact .inl ⟨rest, _, rfl, rfl⟩
      · refine .inr ⟨fun hmem => hsame (Option.some.inj hmem), fun glued s heq => ?_⟩
        exact hsame (Lexeme.mark.inj (List.cons.inj heq).1).1

/-! ### Words -/

/-- The words that are no names. -/
def keywords : List (List Char) :=
  ["true".toList, "false".toList, "null".toList]

theorem ofList_eq_iff {cs : List Char} {name : String} :
    String.ofList cs = name ↔ cs = name.toList := by
  constructor
  · rintro rfl
    exact String.toList_ofList.symm
  · rintro rfl
    exact String.ofList_toList

theorem isKeyword_ofList (word : List Char) :
    isKeyword (String.ofList word) = decide (word ∈ keywords) := by
  simp [isKeyword, keywords, Bool.beq_eq_decide_eq, ofList_eq_iff, Bool.or_assoc]

theorem apart_keywords : Apart keywords := ⟨by decide, by decide⟩

theorem apart_boolean : Apart ["true".toList, "false".toList] := ⟨by decide, by decide⟩

theorem apart_null : Apart ["null".toList] := ⟨by decide, by decide⟩

/-- A name is a leaf. -/
def Names (name : String) (nodes : List Node) : Prop :=
  nodes = [.mk .identifier name.toList []]

section Words

variable {c : Char} {rest : List Char}

theorem no_name_of_keyword (h : cs.takeWhile continuesWord ∈ keywords) :
    Reads source .atomic (.absent (.rule .keyword)) cs none := by
  have hbody : Reads source .atomic Nonterminal.keyword.body cs
    (some ([], cs.dropWhile continuesWord)) := reads_word apart_keywords not_loose h
  exact .present (.rule hbody)

theorem no_keyword (h : cs.takeWhile continuesWord ∉ keywords) :
    Reads source .atomic (.absent (.rule .keyword)) cs (some ([], cs)) := by
  have hbody : Reads source .atomic Nonterminal.keyword.body cs none :=
    no_word apart_keywords not_loose h
  exact .absent (.no_rule hbody)

theorem no_identifier (h : ∀ c ∈ cs.head?, startsWord c = false) :
    Reads source .loose (.rule .identifier) cs none := by
  apply no_atomic rfl
  by_cases hmem : cs.takeWhile continuesWord ∈ keywords
  · exact no_next_first (no_name_of_keyword hmem)
  · exact no_closed not_loose (no_keyword hmem) (no_next_first (.no_one h))

theorem no_identifier_cons (h : startsWord c = false) (rest : List Char) :
    Reads source .loose (.rule .identifier) (c :: rest) none :=
  no_identifier fun _ hc => Option.some.inj hc ▸ h

theorem takeWhile_digits_ne_nil (h : isDigit c = true) (rest : List Char) :
    (c :: rest).takeWhile isDigit ≠ [] := by
  rw [List.takeWhile_cons_of_pos h]
  exact List.cons_ne_nil c _

theorem startsWord_of_isDigit (h : isDigit c = true) : startsWord c = false := by
  rw [Bool.eq_false_iff]
  intro hword
  rw [isDigit_of_startsWord hword] at h
  cases h

theorem identifier_number (h : isDigit c = true) (rest : List Char) (s : List Lexeme) :
    identifier ((number (c :: rest)).1 :: s) = none := by
  have hread := @numberRead [] (c :: rest) (takeWhile_digits_ne_nil h rest)
  generalize number (c :: rest) = found at hread
  cases hread <;> rfl

theorem reads_identifier (hc : startsWord c = true)
    (hmem : (c :: rest).takeWhile continuesWord ∉ keywords) :
    Reads source .loose (.rule .identifier) (c :: rest)
      (some ([.mk .identifier ((c :: rest).takeWhile continuesWord) []],
        (c :: rest).dropWhile continuesWord)) := by
  have hbody : Reads source .atomic Nonterminal.identifier.body (c :: rest)
      (some ([], (c :: rest).dropWhile continuesWord)) := by
    rw [List.dropWhile_cons_of_pos (continuesWord_of_startsWord hc)]
    exact reads_closed not_loose (no_keyword hmem)
      (reads_closed not_loose (.one rest hc) (takesOne_identChar.many not_loose rest))
  have hrule := reads_atomic rfl hbody
  rwa [taken_of_append List.takeWhile_append_dropWhile.symm] at hrule

end Words

theorem agrees_identifier (h : AtLexeme cs) :
    Agrees source (.rule .identifier) cs Names (identifier (tokens cs)) := by
  have hbegins := begins h
  generalize htokens : tokens cs = s at hbegins
  cases hbegins with
  | ending => exact .fails (no_identifier fun _ hc => by cases hc)
  | number hc =>
      rw [identifier_number hc]
      exact .fails (no_identifier_cons (startsWord_of_isDigit hc) _)
  | @word c rest hc =>
      rw [identifier, isKeyword_ofList]
      by_cases hmem : (c :: rest).takeWhile continuesWord ∈ keywords
      · rw [decide_eq_true hmem]
        exact .fails (no_atomic rfl (no_next_first (no_name_of_keyword hmem)))
      · rw [decide_eq_false hmem]
        refine .reads (reads_identifier hc hmem) ?_ ?_
        · rw [htokens]
          exact Nat.lt_succ_self _
        · rw [Names, String.toList_ofList]
  | string | broken => exact .fails (no_identifier_cons (by decide) _)
  | mark hc => exact .fails (no_identifier_cons hc.2.2.1 _)

/-! ### Literals -/

theorem IsMark.continuesWord {c : Char} (h : IsMark c) : Grammar.continuesWord c = false := by
  obtain ⟨_, hdigit, hword, _⟩ := h
  simp only [startsWord, Bool.or_eq_false_iff] at hword
  simp [Grammar.continuesWord, hdigit, hword]

/-- What is found of an integer in a node, where the phrase is nothing but an integer. -/
def Bare : Phrase → Option (List Char) → Prop
  | .integer digits, found => found = some digits ∧ IsDigits digits
  | _, found => found = none

/-- A leaf that is built as a phrase. -/
def Leaf (p : Phrase) (nodes : List Node) : Prop :=
  ∃ leaf, nodes = [leaf] ∧ leaf.build = p.complaining ∧ Bare p leaf.digits?

section Literals

variable {result : Option (List Node × List Char)}

theorem behind_numbers (h : ∀ c ∈ cs.head?, isDigit c = false)
    (hread : Reads source .loose (.firstOf (.rule .string) [.rule .boolean, .rule .nullLit]) cs
      result) : Reads source .loose Nonterminal.literal.body cs result := by
  have hdigits : Reads source .atomic Nonterminal.body.digits cs none :=
    no_digits (takeWhile_digits_eq_nil h)
  have hfloat : Reads source .atomic Nonterminal.float.body cs none :=
    .choice_second (no_next_first hdigits) (no_next_first hdigits)
  exact .choice_second (no_atomic rfl hfloat) (.choice_second (no_atomic rfl hdigits) hread)

theorem behind_strings (h : '"' ∉ cs.head?)
    (hread : Reads source .loose (.firstOf (.rule .boolean) [.rule .nullLit]) cs result) :
    Reads source .loose (.firstOf (.rule .string) [.rule .boolean, .rule .nullLit]) cs result := by
  refine .choice_second (.no_rule (no_next_first (.no_text ?_))) hread
  rintro ⟨rest, rfl⟩
  exact h rfl

theorem no_words (h : cs.takeWhile continuesWord ∉ keywords) :
    Reads source .loose (.firstOf (.rule .boolean) [.rule .nullLit]) cs none := by
  have hboolean : ∀ word ∈ ["true".toList, "false".toList], word ∈ keywords := by decide
  have hnull : ∀ word ∈ ["null".toList], word ∈ keywords := by decide
  exact .choice_second
    (no_atomic rfl (no_word apart_boolean not_loose fun hmem => h (hboolean _ hmem)))
    (no_atomic rfl (no_word apart_null not_loose fun hmem => h (hnull _ hmem)))

theorem agrees_number {c : Char} {rest : List Char} (h : isDigit c = true)
    (hlength : (tokens (number (c :: rest)).2).length < (tokens (c :: rest)).length) :
    Agrees source Nonterminal.literal.body (c :: rest) Leaf
      (literal ((number (c :: rest)).1 :: tokens (number (c :: rest)).2)) := by
  have hdigits := takeWhile_digits_ne_nil h rest
  have hnumber := @numberRead source (c :: rest) hdigits
  generalize number (c :: rest) = found at hnumber hlength
  cases hnumber with
  | float hbody hfloat =>
      refine .reads (.choice_first (reads_atomic rfl hbody)) hlength ⟨_, rfl, ?_, rfl⟩
      rw [Node.build, hfloat]
      rfl
  | integer hbody =>
      have hinteger : Reads source .atomic Nonterminal.integer.body (c :: rest)
          (some ([], (c :: rest).dropWhile isDigit)) := reads_digits not_loose hdigits
      have hleaf := reads_atomic rfl hinteger
      have hall : IsDigits ((c :: rest).takeWhile isDigit) := ⟨hdigits, all_takeWhile isDigit _⟩
      rw [taken_of_append List.takeWhile_append_dropWhile.symm] at hleaf
      exact .reads (.choice_second (no_atomic rfl hbody) (.choice_first hleaf)) hlength
        ⟨_, rfl, readInteger_digits false hall, rfl, hall⟩

theorem literal_word (word : List Char) (s : List Lexeme) :
    literal (.word (String.ofList word) :: s) =
      if word ∈ ["true".toList, "false".toList] then some (.bool (word = "true".toList), s)
      else if word ∈ ["null".toList] then some (.null, s) else none := by
  simp only [literal, beq_iff_eq, ofList_eq_iff, List.mem_cons, List.not_mem_nil, or_false]
  by_cases htrue : word = "true".toList
  · subst htrue
    rfl
  by_cases hfalse : word = "false".toList
  · subst hfalse
    rfl
  simp only [htrue, hfalse, if_false, or_false]

theorem agrees_word {c : Char} {rest : List Char} (h : startsWord c = true)
    (hlength : (tokens ((c :: rest).dropWhile continuesWord)).length <
      (tokens (c :: rest)).length) :
    Agrees source Nonterminal.literal.body (c :: rest) Leaf
      (literal (.word (String.ofList ((c :: rest).takeWhile continuesWord)) ::
        tokens ((c :: rest).dropWhile continuesWord))) := by
  have hnumbers : ∀ d ∈ (c :: rest).head?, isDigit d = false := by
    intro d hd
    obtain rfl := Option.some.inj hd
    exact isDigit_of_startsWord h
  have hstrings : '"' ∉ (c :: rest).head? := by
    intro hc
    obtain rfl := Option.some.inj hc
    cases h
  have hbehind := fun {result} hread => @behind_numbers source _ result hnumbers
    (behind_strings hstrings hread)
  have htaken : taken (c :: rest) ((c :: rest).dropWhile continuesWord) =
      (c :: rest).takeWhile continuesWord :=
    taken_of_append List.takeWhile_append_dropWhile.symm
  rw [literal_word]
  split
  · next hmem =>
      have hbody : Reads source .atomic Nonterminal.boolean.body (c :: rest)
          (some ([], (c :: rest).dropWhile continuesWord)) :=
        reads_word apart_boolean not_loose hmem
      have hleaf := reads_atomic rfl hbody
      rw [htaken] at hleaf
      refine .reads (hbehind (.choice_first hleaf)) hlength ⟨_, rfl, ?_, rfl⟩
      rw [Node.build]
      rfl
  · next hboolean =>
      have hno : Reads source .atomic Nonterminal.boolean.body (c :: rest) none :=
        no_word apart_boolean not_loose hboolean
      split
      · next hmem =>
          have hbody : Reads source .atomic Nonterminal.nullLit.body (c :: rest)
              (some ([], (c :: rest).dropWhile continuesWord)) :=
            reads_word apart_null not_loose hmem
          refine .reads (hbehind (.choice_second (no_atomic rfl hno) (reads_atomic rfl hbody)))
            hlength ⟨_, rfl, rfl, rfl⟩
      · next hnull =>
          have hnot : Reads source .atomic Nonterminal.nullLit.body (c :: rest) none :=
            no_word apart_null not_loose hnull
          exact .fails (hbehind (.choice_second (no_atomic rfl hno) (no_atomic rfl hnot)))

theorem agrees_leaf (h : AtLexeme cs) :
    Agrees source Nonterminal.literal.body cs Leaf (literal (tokens cs)) := by
  have hbegins := begins h
  generalize htokens : tokens cs = s at hbegins
  cases hbegins with
  | ending =>
      exact .fails (behind_numbers (fun _ hc => by cases hc)
        (behind_strings (by simp) (no_words (by decide))))
  | number hc =>
      apply agrees_number hc
      rw [htokens]
      exact Nat.lt_succ_self _
  | word hc =>
      apply agrees_word hc
      rw [htokens]
      exact Nat.lt_succ_self _
  | string rest hspelling =>
      obtain ⟨node, hrule, hbuild, hread⟩ := @reads_string source _ _ hspelling rest
      refine .reads (behind_numbers ?_ (.choice_first hread)) ?_ ⟨node, rfl, hbuild, ?_⟩
      · intro c hc
        obtain rfl := Option.some.inj hc
        rfl
      · rw [htokens]
        exact Nat.lt_succ_self _
      · rw [Node.digits?, hrule]
        rfl
  | broken hbroken =>
      refine .fails (behind_numbers ?_ (.choice_second (no_string hbroken) (no_words ?_)))
      · intro c hc
        obtain rfl := Option.some.inj hc
        rfl
      · rw [List.takeWhile_cons_of_neg (by decide)]
        decide
  | @mark c rest hc =>
      refine .fails (behind_numbers ?_ (behind_strings ?_ (no_words ?_)))
      · intro d hd
        obtain rfl := Option.some.inj hd
        exact hc.2.1
      · exact fun hmem => hc.2.2.2 (Option.some.inj hmem)
      · rw [List.takeWhile_cons_of_neg (Bool.eq_false_iff.mp hc.continuesWord)]
        decide

theorem agrees_literal (h : AtLexeme cs) :
    Agrees source (.rule .literal) cs
      (fun p nodes => Stands .literal p nodes ∧ Bare p (nodes.head?.bind Node.literalDigits?))
      (literal (tokens cs)) := by
  apply (agrees_leaf h).plain rfl
  intro p text parts hleaf
  obtain ⟨leaf, rfl, hbuild, hdigits⟩ := hleaf
  exact ⟨⟨text, [leaf], rfl, hbuild⟩, hdigits⟩

end Literals

/-! ### Operators -/

/-- Two marks that are one operator stand at a place, or the lexemes do not begin with them. -/
theorem pair_or_not {c d : Char} (hjoins : joins c d = true) (h : AtLexeme cs) :
    (∃ rest glued, cs = [c, d] ++ rest ∧
      tokens cs = .mark c true :: .mark d glued :: tokens rest) ∨
      ¬ [c, d] <+: cs ∧ ∀ glued s, tokens cs ≠ .mark c true :: .mark d glued :: s := by
  by_cases hstarts : [c, d] <+: cs
  · obtain ⟨rest, rfl⟩ := hstarts
    exact .inl ⟨rest, _, rfl, tokens_operator_pair hjoins rest⟩
  · refine .inr ⟨hstarts, fun glued s htokens => hstarts ?_⟩
    rcases mark_or_not (isMark_left hjoins).1 h with ⟨rest, first, rfl, hfirst⟩ | ⟨_, hno⟩
    · rw [tokens_of_atLexeme h] at htokens
      obtain ⟨hlexeme, hrest⟩ := List.cons.inj htokens
      obtain ⟨e, more, rfl, hjoins', hbehind⟩ := lexeme_eq_glued hlexeme
      obtain ⟨he, hslash⟩ := isMark_of_joins hjoins'
      rw [hbehind, tokens_mark he (atLexeme_of_ne more he.1 hslash) rfl] at hrest
      obtain ⟨rfl, _⟩ := Lexeme.mark.inj (List.cons.inj hrest).1
      exact ⟨more, rfl⟩
    · exact absurd htokens (hno true _)

/-- The operators of a level in the order in which they are tried. -/
def Level.operators : Level → List BinaryOp
  | .coalesce => [.coalesce]
  | .or => [.or]
  | .and => [.and]
  | .equality => [.eq, .ne]
  | .comparison => [.le, .ge, .lt, .gt]
  | .additive => [.add, .sub]
  | .multiplicative => [.mul, .div, .rem]

/-- The rule that keeps the operator of a level, where a level has several. -/
def Level.kept? : Level → Option Nonterminal
  | .coalesce | .or | .and => none
  | .equality => some .eqOp
  | .comparison => some .cmpOp
  | .additive => some .addOp
  | .multiplicative => some .mulOp

/-- What stands between two operands of a level. -/
def Level.symbol : Level → Peg
  | .coalesce => .text ['?', '?']
  | .or => .text ['|', '|']
  | .and => .text ['&', '&']
  | .equality => .rule .eqOp
  | .comparison => .rule .cmpOp
  | .additive => .rule .addOp
  | .multiplicative => .rule .mulOp

def Level.symbolNodes (level : Level) (op : BinaryOp) : List Node :=
  level.kept?.toList.map fun name => .mk name op.symbol.toList []

theorem operator_eq_none {level : Level} {s : List Lexeme}
    (htwo : ∀ op ∈ level.operators, ∀ c d, op.symbol.toList = [c, d] →
      ∀ glued s', s ≠ .mark c true :: .mark d glued :: s')
    (hone : ∀ op ∈ level.operators, ∀ c, op.symbol.toList = [c] →
      ∀ glued s', s ≠ .mark c glued :: s') : operator level s = none := by
  unfold operator
  split
  case h_15 => rfl
  case h_1 | h_2 | h_3 => exact absurd rfl (htwo _ List.mem_cons_self _ _ rfl _ _)
  case h_4 => exact absurd rfl (htwo .eq (by decide) _ _ rfl _ _)
  case h_5 => exact absurd rfl (htwo .ne (by decide) _ _ rfl _ _)
  case h_6 => exact absurd rfl (htwo .le (by decide) _ _ rfl _ _)
  case h_7 => exact absurd rfl (htwo .ge (by decide) _ _ rfl _ _)
  case h_8 => exact absurd rfl (hone .lt (by decide) _ rfl _ _)
  case h_9 => exact absurd rfl (hone .gt (by decide) _ rfl _ _)
  case h_10 => exact absurd rfl (hone .add (by decide) _ rfl _ _)
  case h_11 => exact absurd rfl (hone .sub (by decide) _ rfl _ _)
  case h_12 => exact absurd rfl (hone .mul (by decide) _ rfl _ _)
  case h_13 => exact absurd rfl (hone .div (by decide) _ rfl _ _)
  case h_14 => exact absurd rfl (hone .rem (by decide) _ rfl _ _)

theorem joins_of_symbol {op : BinaryOp} {c d : Char} (h : op.symbol.toList = [c, d]) :
    joins c d = true := by
  cases op <;> cases h <;> rfl

theorem isMark_of_symbol {op : BinaryOp} {c : Char} (h : op.symbol.toList = [c]) : IsMark c := by
  cases op <;> cases h <;> decide

/-- The operator of a level whose symbol is the first that stands at a place. -/
def Level.here? (level : Level) (cs : List Char) : Option BinaryOp :=
  level.operators.find? fun op => op.symbol.toList.isPrefixOf cs

theorem operator_of_none {level : Level} (h : AtLexeme cs) (hnone : level.here? cs = none) :
    operator level (tokens cs) = none := by
  have hno : ∀ op ∈ level.operators, ¬ op.symbol.toList <+: cs := fun op hop hstarts =>
    List.find?_eq_none.mp hnone op hop (List.isPrefixOf_iff_prefix.mpr hstarts)
  refine operator_eq_none (fun op hop c d hsymbol => ?_) fun op hop c hsymbol => ?_
  · rcases pair_or_not (joins_of_symbol hsymbol) h with ⟨rest, _, rfl, _⟩ | ⟨_, hother⟩
    · exact absurd ⟨rest, hsymbol ▸ rfl⟩ (hno op hop)
    · exact hother
  · rcases mark_or_not (isMark_of_symbol hsymbol) h with ⟨rest, _, rfl, _⟩ | ⟨_, hother⟩
    · exact absurd ⟨rest, hsymbol ▸ rfl⟩ (hno op hop)
    · exact hother

/-- A mark that is an operator by itself, when it is not the first of a pair. -/
theorem operator_single {op : BinaryOp} {c : Char} (hsymbol : op.symbol.toList = [c])
    {glued : Bool} {s : List Lexeme}
    (hpair : ∀ glued' s', glued = true → s ≠ .mark '=' glued' :: s') :
    operator op.level (.mark c glued :: s) = some (op, s) := by
  cases op with
  | lt =>
      obtain rfl : '<' = c := (List.cons.inj hsymbol).1
      rw [BinaryOp.level, operator]
      exact fun glued' s' hs hglued => hpair glued' s' hglued hs
  | gt =>
      obtain rfl : '>' = c := (List.cons.inj hsymbol).1
      rw [BinaryOp.level, operator]
      exact fun glued' s' hs hglued => hpair glued' s' hglued hs
  | add | sub | mul | div | rem =>
      cases hsymbol
      rfl
  | _ => cases hsymbol

theorem operator_pair {op : BinaryOp} {c d : Char} (hsymbol : op.symbol.toList = [c, d])
    (glued : Bool) (s : List Lexeme) :
    operator op.level (.mark c true :: .mark d glued :: s) = some (op, s) := by
  cases op <;> cases hsymbol <;> rfl

theorem symbol_cases (op : BinaryOp) :
    (∃ c d, op.symbol.toList = [c, d]) ∨ ∃ c, op.symbol.toList = [c] := by
  cases op with
  | add | sub | mul | div | rem | lt | gt => exact .inr ⟨_, rfl⟩
  | _ => exact .inl ⟨_, _, rfl⟩

/-- Where a symbol of two characters stands, the operator that it begins with is not the first. -/
theorem not_first_of_pair {op : BinaryOp} {c : Char} (hsymbol : op.symbol.toList = [c])
    {more : List Char} (hjoins : joins c '=' = true) :
    op.level.here? (c :: '=' :: more) ≠ some op := by
  cases op with
  | lt =>
      obtain rfl : '<' = c := (List.cons.inj hsymbol).1
      exact fun h => by cases (h : some BinaryOp.le = some .lt)
  | gt =>
      obtain rfl : '>' = c := (List.cons.inj hsymbol).1
      exact fun h => by cases (h : some BinaryOp.ge = some .gt)
  | add | sub | mul | div | rem =>
      cases hsymbol
      cases hjoins
  | _ => cases hsymbol

theorem operator_here {op : BinaryOp} {rest : List Char} (h : AtLexeme (op.symbol.toList ++ rest))
    (hfirst : op.level.here? (op.symbol.toList ++ rest) = some op) :
    operator op.level (tokens (op.symbol.toList ++ rest)) = some (op, tokens rest) ∧
      (tokens rest).length < (tokens (op.symbol.toList ++ rest)).length := by
  rcases symbol_cases op with ⟨c, d, hsymbol⟩ | ⟨c, hsymbol⟩
  · rw [hsymbol, tokens_operator_pair (joins_of_symbol hsymbol)]
    exact ⟨operator_pair hsymbol _ _, by simp only [List.length_cons]; omega⟩
  · have hc := isMark_of_symbol hsymbol
    rw [hsymbol] at h hfirst ⊢
    rw [List.singleton_append] at h hfirst ⊢
    rw [tokens_mark hc h rfl]
    refine ⟨operator_single hsymbol fun glued s hglued htokens => ?_, Nat.lt_succ_self _⟩
    cases rest with
    | nil => cases hglued
    | cons d more =>
        have hjoins : joins c d = true := hglued
        obtain ⟨hd, hslash⟩ := isMark_of_joins hjoins
        rw [tokens_mark hd (atLexeme_of_ne more hd.1 hslash) rfl] at htokens
        obtain ⟨rfl, _⟩ := Lexeme.mark.inj (List.cons.inj htokens).1
        exact not_first_of_pair hsymbol hjoins hfirst

/-- An operator and the node that is kept of it. -/
def Level.Stands (level : Level) (op : BinaryOp) (nodes : List Node) : Prop :=
  op.level = level ∧ nodes = level.symbolNodes op

theorem level_of_here? {level : Level} {op : BinaryOp} (h : level.here? cs = some op) :
    op.level = level := by
  have hmem : op ∈ level.operators := List.mem_of_find?_eq_some h
  revert hmem
  cases level <;> cases op <;> decide

/-- The symbols of a level in order, of which the first that stands at a place is read. -/
theorem reads_symbols {level : Level} {t : List Char} {ts : List (List Char)}
    (hsymbols : level.operators.map (·.symbol.toList) = t :: ts) (cs : List Char) :
    Reads source .loose (.firstOf (.text t) (ts.map .text)) cs
      ((level.here? cs).map fun op => ([], cs.drop op.symbol.toList.length)) := by
  have hread := @reads_texts source .loose t ts cs
  rw [← hsymbols, firstHere, List.find?_map, Option.map_map] at hread
  exact hread

theorem prefix_of_here? {level : Level} {op : BinaryOp} (h : level.here? cs = some op) :
    ∃ rest, cs = op.symbol.toList ++ rest := by
  obtain ⟨rest, hrest⟩ := List.isPrefixOf_iff_prefix.mp (List.find?_some h :)
  exact ⟨rest, hrest.symm⟩

/-- The rule that keeps an operator gives a leaf with its symbol. -/
theorem reads_kept {level : Level} {name : Nonterminal} {t : List Char} {ts : List (List Char)}
    (hkept : level.kept? = some name) (hplain : name.style = .plain)
    (hsymbols : level.operators.map (·.symbol.toList) = t :: ts)
    (hbody : name.body = .firstOf (.text t) (ts.map .text)) (cs : List Char) :
    Reads source .loose (.rule name) cs
      ((level.here? cs).map fun op => (level.symbolNodes op, cs.drop op.symbol.toList.length)) := by
  have hread := @reads_symbols source _ _ _ hsymbols cs
  rw [← hbody, ← inside_plain hplain .loose] at hread
  cases hhere : level.here? cs with
  | none =>
      rw [hhere] at hread
      exact .no_rule hread
  | some op =>
      rw [hhere] at hread
      obtain ⟨rest, rfl⟩ := prefix_of_here? hhere
      have hrule := Reads.rule hread
      rw [List.drop_left, taken_append, hplain] at hrule
      rw [Option.map_some, List.drop_left, Level.symbolNodes, hkept]
      exact hrule

theorem reads_symbol (level : Level) (cs : List Char) :
    Reads source .loose level.symbol cs
      ((level.here? cs).map fun op => (level.symbolNodes op, cs.drop op.symbol.toList.length)) := by
  cases level with
  | coalesce => exact @reads_symbols _ .coalesce _ [] rfl cs
  | or => exact @reads_symbols _ .or _ [] rfl cs
  | and => exact @reads_symbols _ .and _ [] rfl cs
  | equality => exact @reads_kept _ .equality .eqOp _ _ rfl rfl rfl rfl cs
  | comparison => exact @reads_kept _ .comparison .cmpOp _ _ rfl rfl rfl rfl cs
  | additive => exact @reads_kept _ .additive .addOp _ _ rfl rfl rfl rfl cs
  | multiplicative => exact @reads_kept _ .multiplicative .mulOp _ _ rfl rfl rfl rfl cs

theorem agrees_operator (level : Level) (h : AtLexeme cs) :
    Agrees source level.symbol cs level.Stands (operator level (tokens cs)) := by
  have hread := @reads_symbol source level cs
  cases hhere : level.here? cs with
  | none =>
      rw [hhere] at hread
      rw [operator_of_none h hhere]
      exact .fails hread
  | some op =>
      rw [hhere] at hread
      obtain rfl := level_of_here? hhere
      obtain ⟨rest, rfl⟩ := prefix_of_here? hhere
      obtain ⟨hoperator, hlength⟩ := operator_here h hhere
      rw [Option.map_some, List.drop_left] at hread
      rw [hoperator]
      exact .reads hread hlength ⟨rfl, rfl⟩

/-! ### Signs -/

theorem reads_unaryOp {c : Char} (hc : c ∈ ['-', '!']) (rest : List Char) :
    Reads source .loose (.rule .unaryOp) (c :: rest) (some ([.mk .unaryOp [c] []], rest)) := by
  have hbody : Reads source .loose Nonterminal.unaryOp.body (c :: rest) (some ([], rest)) :=
    (takesOne_texts '-' ['!']).reads c rest (decide_eq_true hc)
  have hrule : Reads source .loose (.rule .unaryOp) (c :: rest)
      (some ([.mk .unaryOp (taken (c :: rest) rest) []], rest)) := .rule hbody
  rwa [@taken_of_append (c :: rest) [c] rest rfl] at hrule

/-- A sign stands at a place, or no lexeme of a sign. -/
theorem sign_or_not (h : AtLexeme cs) :
    (∃ node rest, node.rule = .unaryOp ∧
      Reads source .loose (.rule .unaryOp) cs (some ([node], rest)) ∧
        (tokens rest).length < (tokens cs).length ∧
          signs (tokens cs) = (node.sign :: (signs (tokens rest)).1, (signs (tokens rest)).2)) ∨
      Reads source .loose (.rule .unaryOp) cs none ∧ signs (tokens cs) = ([], tokens cs) := by
  rcases @mark_or_not cs '-' (by decide) h with ⟨rest, glued, rfl, htokens⟩ | ⟨hminus, hno⟩
  · refine .inl ⟨_, rest, rfl, reads_unaryOp (by decide) rest, ?_, ?_⟩
    · rw [htokens]
      exact Nat.lt_succ_self _
    · rw [htokens]
      rfl
  rcases @mark_or_not cs '!' (by decide) h with ⟨rest, glued, rfl, htokens⟩ | ⟨hbang, hno'⟩
  · refine .inl ⟨_, rest, rfl, reads_unaryOp (by decide) rest, ?_, ?_⟩
    · rw [htokens]
      exact Nat.lt_succ_self _
    · rw [htokens]
      rfl
  · have hbody : Reads source .loose Nonterminal.unaryOp.body cs none := by
      apply (takesOne_texts '-' ['!']).fails cs
      intro c hc
      apply decide_eq_false
      intro hmem
      simp only [List.mem_cons, List.not_mem_nil, or_false] at hmem
      rcases hmem with rfl | rfl
      · exact hminus hc
      · exact hbang hc
    refine .inr ⟨.no_rule hbody, ?_⟩
    rw [signs]
    · exact hno
    · exact hno'

/-- Further signs, each behind a gap. -/
theorem reads_signs (cs : List Char) : ∃ nodes rest,
    Reads source .loose (.further (.rule .unaryOp)) cs (some (nodes, rest)) ∧
      (tokens rest).length ≤ (tokens cs).length ∧
        signs (tokens cs) = (nodes.map Node.sign, tokens rest) ∧
          ∀ node ∈ nodes, node.rule = .unaryOp := by
  induction hn : (tokens cs).length using Nat.strongRecOn generalizing cs with
  | ind n ih =>
      have hskip := tokens_skipLayout cs
      rcases @sign_or_not source _ (atLexeme_skipLayout cs) with
        ⟨node, rest, hnode, hread, hlength, hsigns⟩ | ⟨hread, hsigns⟩
      · rw [hskip] at hsigns hlength
        obtain ⟨nodes, behind, hmore, hle, hrest, hall⟩ := ih _ (hn ▸ hlength) rest rfl
        refine ⟨node :: nodes, behind, reads_further hread hmore, by omega, ?_, ?_⟩
        · rw [hsigns, hrest]
          rfl
        · exact List.forall_mem_cons.mpr ⟨hnode, hall⟩
      · rw [hskip] at hsigns
        exact ⟨[], cs, no_further hread, by omega, hsigns, by simp⟩

end Scriptlet.Grammar
