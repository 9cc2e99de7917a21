import Scriptlet.Grammar.Lexeme

/-!
The grammar of snippets as parsing expressions over characters, with the trees that it gives. What
a parsing expression reads is a relation, derived case by case: it takes characters off the front
of a text and gives nodes, or it fails; a text has no more than one of the two, and one result.

White space and comments are nowhere in the rules. In a row of parts, and between the turns of a
repetition, there is a gap, which takes what the rules for white space and comments read. Inside of
an atomic rule the gaps are closed. Such a rule gives one node without parts; a compound rule closes
the gaps too and keeps its parts; a silent rule gives no node of its own.
-/

namespace Scriptlet.Grammar

/-- The rules of the grammar. -/
inductive Nonterminal where
  | whitespace | comment
  | program | expression | conditional | coalesce | orExpr | andExpr
  | equality | comparison | additive | multiplicative | unary | suffixed
  | eqOp | cmpOp | addOp | mulOp | unaryOp
  | member | index | call | primary | list
  | literal | exponent | float | integer | string | stringInner | stringChar | boolean | nullLit
  | keyword | identifier | identChar
  | ending
  deriving Repr, DecidableEq

/-- How a rule stands to gaps and nodes. -/
inductive Style where
  | plain | silent | atomic | compound
  deriving Repr, DecidableEq

/-- Whether gaps are open, closed, or closed with no nodes. -/
inductive Spacing where
  | loose | tight | atomic
  deriving Repr, DecidableEq

inductive Peg where
  | text (cs : List Char)
  | one (p : Char → Bool)
  | beginning
  | ending
  | gap
  | seq (first second : Peg)
  | choice (first second : Peg)
  | star (turn : Peg)
  /-- Takes nothing, and fails where the expression reads something. -/
  | absent (other : Peg)
  | rule (name : Nonterminal)

namespace Peg

/-- One part behind another, with a gap between. -/
def next (first second : Peg) : Peg :=
  .seq first (.seq .gap second)

def maybe (part : Peg) : Peg :=
  .choice part (.text [])

/-- Turns behind one another, each behind a gap. -/
def further (turn : Peg) : Peg :=
  .star (.seq .gap turn)

/-- Any number of turns, with a gap between each two. -/
def many (turn : Peg) : Peg :=
  maybe (.seq turn turn.further)

def atLeastOne (turn : Peg) : Peg :=
  turn.next turn.many

/-- The first that reads something, of expressions in order. -/
def firstOf : Peg → List Peg → Peg
  | part, [] => part
  | part, other :: more => .choice part (firstOf other more)

end Peg

namespace Nonterminal

def style : Nonterminal → Style
  | .whitespace | .comment | .exponent | .stringChar | .identChar => .silent
  | .float | .integer | .stringInner | .boolean | .nullLit | .keyword | .identifier => .atomic
  | .string => .compound
  | _ => .plain

open Peg in
/-- What a rule reads. -/
def body : Nonterminal → Peg
  | .whitespace => .one isBlank
  | .comment => next (.text ['/', '/']) (many (next (.absent (.text ['\n'])) (.one fun _ => true)))
  | .program =>
      next .beginning (next (.rule .expression) (next (maybe (.text [';'])) .ending))
  | .expression => .rule .conditional
  | .conditional =>
      next (.rule .coalesce) (maybe
        (next (.text ['?']) (next (.rule .expression) (next (.text [':']) (.rule .expression)))))
  | .coalesce => next (.rule .orExpr) (many (next (.text ['?', '?']) (.rule .orExpr)))
  | .orExpr => next (.rule .andExpr) (many (next (.text ['|', '|']) (.rule .andExpr)))
  | .andExpr => next (.rule .equality) (many (next (.text ['&', '&']) (.rule .equality)))
  | .equality => next (.rule .comparison) (many (next (.rule .eqOp) (.rule .comparison)))
  | .comparison => next (.rule .additive) (many (next (.rule .cmpOp) (.rule .additive)))
  | .additive => next (.rule .multiplicative) (many (next (.rule .addOp) (.rule .multiplicative)))
  | .multiplicative => next (.rule .unary) (many (next (.rule .mulOp) (.rule .unary)))
  | .unary => next (many (.rule .unaryOp)) (.rule .suffixed)
  | .suffixed =>
      next (.rule .primary) (many (firstOf (.rule .member) [.rule .index, .rule .call]))
  | .eqOp => firstOf (.text ['=', '=']) [.text ['!', '=']]
  | .cmpOp => firstOf (.text ['<', '=']) [.text ['>', '='], .text ['<'], .text ['>']]
  | .addOp => firstOf (.text ['+']) [.text ['-']]
  | .mulOp => firstOf (.text ['*']) [.text ['/'], .text ['%']]
  | .unaryOp => firstOf (.text ['-']) [.text ['!']]
  | .member => next (.text ['.']) (.rule .identifier)
  | .index => next (.text ['[']) (next (.rule .expression) (.text [']']))
  | .call => next (.text ['(']) (next (maybe items) (.text [')']))
  | .primary =>
      firstOf (.rule .literal) [.rule .list, .rule .identifier,
        next (.text ['(']) (next (.rule .expression) (.text [')']))]
  | .list => next (.text ['[']) (next (maybe items) (.text [']']))
  | .literal =>
      firstOf (.rule .float) [.rule .integer, .rule .string, .rule .boolean, .rule .nullLit]
  | .exponent => next (.one fun c => c == 'e' || c == 'E')
      (next (maybe (firstOf (.text ['+']) [.text ['-']])) digits)
  | .float =>
      firstOf (next digits (next (.text ['.']) (next digits (maybe (.rule .exponent)))))
        [next digits (.rule .exponent)]
  | .integer => digits
  | .string => next (.text ['"']) (next (.rule .stringInner) (.text ['"']))
  | .stringInner => many (.rule .stringChar)
  | .stringChar =>
      firstOf (next (.absent (firstOf (.text ['"']) [.text ['\\']])) (.one fun _ => true))
        [next (.text ['\\']) (firstOf (.text ['"'])
          [.text ['\\'], .text ['n'], .text ['t'], .text ['r'], .text ['/']])]
  | .boolean => next (firstOf (.text "true".toList) [.text "false".toList])
      (.absent (.rule .identChar))
  | .nullLit => next (.text "null".toList) (.absent (.rule .identChar))
  | .keyword => next (firstOf (.text "true".toList) [.text "false".toList, .text "null".toList])
      (.absent (.rule .identChar))
  | .identifier => next (.absent (.rule .keyword))
      (next (.one startsWord) (many (.rule .identChar)))
  | .identChar => .one continuesWord
  | .ending => .ending
where
  digits : Peg := atLeastOne (.one Text.isDigit)
  items : Peg := next (.rule .expression) (many (next (.text [',']) (.rule .expression)))

end Nonterminal

/-- A rule with the text that it took and the nodes of its parts. -/
inductive Node where
  | mk (rule : Nonterminal) (text : List Char) (parts : List Node)
  deriving Repr

/-- Whether gaps are open inside of a rule. -/
def Style.inside : Style → Spacing → Spacing
  | .plain, around | .silent, around => around
  | .atomic, _ => .atomic
  | .compound, _ => .tight

/-- The nodes of a rule where it has read something. -/
def Style.nodes (style : Style) (around : Spacing) (node : Node) (inner : List Node) : List Node :=
  if style = .silent then inner
  else if around = .atomic then []
  else [node]

/-- What has been taken between one place of a text and a later one. -/
def taken (cs rest : List Char) : List Char :=
  cs.take (cs.length - rest.length)

/-- White space and comments, as many as there are. -/
def Peg.layout : Peg :=
  .seq (.star (.rule .whitespace)) (.star (.seq (.rule .comment) (.star (.rule .whitespace))))

/-- What a parsing expression does at a place of a source: it gives nodes and goes on at a later
place, or it fails. -/
inductive Reads (source : List Char) :
    Spacing → Peg → List Char → Option (List Node × List Char) → Prop
  | text {around : Spacing} (cs rest : List Char) :
      Reads source around (.text cs) (cs ++ rest) (some ([], rest))
  | no_text {around : Spacing} {cs here : List Char} :
      ¬ cs <+: here → Reads source around (.text cs) here none
  | one {around : Spacing} {p : Char → Bool} {c : Char} (rest : List Char) :
      p c = true → Reads source around (.one p) (c :: rest) (some ([], rest))
  | no_one {around : Spacing} {p : Char → Bool} {here : List Char} :
      (∀ c ∈ here.head?, p c = false) → Reads source around (.one p) here none
  | beginning {around : Spacing} : Reads source around .beginning source (some ([], source))
  | no_beginning {around : Spacing} {here : List Char} :
      here ≠ source → Reads source around .beginning here none
  | ending {around : Spacing} :
      Reads source around .ending [] (some ([.mk .ending [] []], []))
  | no_ending {around : Spacing} (c : Char) (rest : List Char) :
      Reads source around .ending (c :: rest) none
  | gap {here : List Char} {result : Option (List Node × List Char)} :
      Reads source .atomic .layout here result → Reads source .loose .gap here result
  | no_gap {around : Spacing} (here : List Char) :
      around ≠ .loose → Reads source around .gap here (some ([], here))
  | seq {around : Spacing} {first second : Peg} {here mid rest : List Char}
      {nodes more : List Node} :
      Reads source around first here (some (nodes, mid)) →
        Reads source around second mid (some (more, rest)) →
          Reads source around (.seq first second) here (some (nodes ++ more, rest))
  | seq_first {around : Spacing} {first second : Peg} {here : List Char} :
      Reads source around first here none → Reads source around (.seq first second) here none
  | seq_second {around : Spacing} {first second : Peg} {here mid : List Char}
      {nodes : List Node} :
      Reads source around first here (some (nodes, mid)) →
        Reads source around second mid none →
          Reads source around (.seq first second) here none
  | choice_first {around : Spacing} {first second : Peg} {here : List Char}
      {result : List Node × List Char} :
      Reads source around first here (some result) →
        Reads source around (.choice first second) here (some result)
  | choice_second {around : Spacing} {first second : Peg} {here : List Char}
      {result : Option (List Node × List Char)} :
      Reads source around first here none → Reads source around second here result →
        Reads source around (.choice first second) here result
  | star {around : Spacing} {turn : Peg} {here mid rest : List Char} {nodes more : List Node} :
      Reads source around turn here (some (nodes, mid)) →
        Reads source around (.star turn) mid (some (more, rest)) →
          Reads source around (.star turn) here (some (nodes ++ more, rest))
  | star_end {around : Spacing} {turn : Peg} {here : List Char} :
      Reads source around turn here none → Reads source around (.star turn) here (some ([], here))
  | absent {around : Spacing} {other : Peg} {here : List Char} :
      Reads source around other here none →
        Reads source around (.absent other) here (some ([], here))
  | present {around : Spacing} {other : Peg} {here : List Char}
      {result : List Node × List Char} :
      Reads source around other here (some result) → Reads source around (.absent other) here none
  | rule {around : Spacing} {name : Nonterminal} {here rest : List Char} {inner : List Node} :
      Reads source (name.style.inside around) name.body here (some (inner, rest)) →
        Reads source around (.rule name) here
          (some (name.style.nodes around (.mk name (taken here rest) inner) inner, rest))
  | no_rule {around : Spacing} {name : Nonterminal} {here : List Char} :
      Reads source (name.style.inside around) name.body here none →
        Reads source around (.rule name) here none

variable {source : List Char} {around : Spacing}

/-- At a place of a source a parsing expression does one thing. -/
theorem Reads.unique {peg : Peg} {here : List Char}
    {result result' : Option (List Node × List Char)}
    (h : Reads source around peg here result) (h' : Reads source around peg here result') :
    result = result' := by
  induction h generalizing result' with
  | text cs rest =>
      generalize hhere : cs ++ rest = here at h'
      cases h' with
      | text _ rest' => rw [List.append_cancel_left hhere]
      | no_text hno => exact absurd (hhere ▸ List.prefix_append cs rest) hno
  | no_text hno =>
      cases h' with
      | text _ rest' => exact absurd (List.prefix_append _ _) hno
      | no_text _ => rfl
  | one rest hc =>
      cases h' with
      | one _ _ => rfl
      | no_one hno => rw [hno _ rfl] at hc; cases hc
  | no_one hno =>
      cases h' with
      | one _ hc => rw [hno _ rfl] at hc; cases hc
      | no_one _ => rfl
  | beginning =>
      cases h' with
      | beginning => rfl
      | no_beginning hne => exact absurd rfl hne
  | no_beginning hne =>
      cases h' with
      | beginning => exact absurd rfl hne
      | no_beginning _ => rfl
  | ending | no_ending =>
      cases h'
      rfl
  | gap _ ih =>
      cases h' with
      | gap hlayout => exact ih hlayout
      | no_gap _ hne => exact absurd rfl hne
  | no_gap _ hne =>
      cases h' with
      | gap _ => exact absurd rfl hne
      | no_gap _ _ => rfl
  | seq _ _ ih ih' =>
      cases h' with
      | seq hfirst hsecond =>
          cases ih hfirst
          cases ih' hsecond
          rfl
      | seq_first hfirst => cases ih hfirst
      | seq_second hfirst hsecond =>
          cases ih hfirst
          cases ih' hsecond
  | seq_first _ ih =>
      cases h' with
      | seq hfirst _ => cases ih hfirst
      | seq_first _ => rfl
      | seq_second _ _ => rfl
  | seq_second _ _ ih ih' =>
      cases h' with
      | seq hfirst hsecond =>
          cases ih hfirst
          cases ih' hsecond
      | seq_first _ => rfl
      | seq_second _ _ => rfl
  | choice_first _ ih =>
      cases h' with
      | choice_first hfirst => exact ih hfirst
      | choice_second hfirst _ => cases ih hfirst
  | choice_second _ _ ih ih' =>
      cases h' with
      | choice_first hfirst => cases ih hfirst
      | choice_second _ hsecond => exact ih' hsecond
  | star _ _ ih ih' =>
      cases h' with
      | star hturn hmore =>
          cases ih hturn
          cases ih' hmore
          rfl
      | star_end hturn => cases ih hturn
  | star_end _ ih =>
      cases h' with
      | star hturn _ => cases ih hturn
      | star_end _ => rfl
  | absent _ ih =>
      cases h' with
      | absent _ => rfl
      | present hother => cases ih hother
  | present _ ih =>
      cases h' with
      | absent hother => cases ih hother
      | present _ => rfl
  | rule _ ih =>
      cases h' with
      | rule hbody =>
          cases ih hbody
          rfl
      | no_rule hbody => cases ih hbody
  | no_rule _ ih =>
      cases h' with
      | rule hbody => cases ih hbody
      | no_rule _ => rfl

end Scriptlet.Grammar
