import Scriptlet.Proofs.Grammar.Leaves

/-!
The grammar and the scanner agree on the ends of the grammar: on gaps, numbers, strings, words and
marks. Where the grammar reads one of these at the beginning of a lexeme, it takes the characters
that the scanner takes, and it fails where the scanner finds a lexeme of another kind.
-/

namespace Scriptlet.Grammar

open Text (isDigit)

variable {source : List Char} {around : Spacing}

/-! ### Parts in a row and turns -/

theorem not_loose : Spacing.atomic ≠ .loose := fun h => by cases h

theorem tight_not_loose : Spacing.tight ≠ .loose := fun h => by cases h

/-- What a gap takes. -/
def Spacing.skip : Spacing → List Char → List Char
  | .loose, cs => skipLayout false cs
  | _, cs => cs

/-- A turn takes one character of a kind. -/
structure TakesOne (source : List Char) (around : Spacing) (turn : Peg) (p : Char → Bool) :
    Prop where
  reads : ∀ c rest, p c = true → Reads source around turn (c :: rest) (some ([], rest))
  fails : ∀ here, (∀ c ∈ here.head?, p c = false) → Reads source around turn here none

theorem takesOne_one (p : Char → Bool) : TakesOne source around (.one p) p where
  reads _ rest hc := .one rest hc
  fails _ hno := .no_one hno

/-- A silent rule is what it reads. -/
theorem TakesOne.rule {name : Nonterminal} {p : Char → Bool} (hsilent : name.style = .silent)
    (h : TakesOne source around name.body p) : TakesOne source around (.rule name) p where
  reads c rest hc := by
    have hinside : Reads source (name.style.inside around) name.body (c :: rest)
        (some ([], rest)) := by
      rw [hsilent]
      exact h.reads c rest hc
    have hrule := Reads.rule hinside
    rw [hsilent] at hrule
    exact hrule
  fails here hno := by
    apply Reads.no_rule
    rw [hsilent]
    exact h.fails here hno

theorem TakesOne.star {turn : Peg} {p : Char → Bool} (h : TakesOne source around turn p)
    (cs : List Char) : Reads source around (.star turn) cs (some ([], cs.dropWhile p)) := by
  induction cs with
  | nil => exact .star_end (h.fails [] fun _ hc => by cases hc)
  | cons c rest ih =>
      cases hc : p c with
      | true =>
          rw [List.dropWhile_cons_of_pos hc]
          exact .star (h.reads c rest hc) ih
      | false =>
          rw [List.dropWhile_cons_of_neg (by simp [hc])]
          refine .star_end (h.fails _ fun d hd => ?_)
          obtain rfl := Option.some.inj hd
          exact hc

theorem TakesOne.behindGap {turn : Peg} {p : Char → Bool} (hclosed : around ≠ .loose)
    (h : TakesOne source around turn p) : TakesOne source around (.seq .gap turn) p where
  reads c rest hc := .seq (.no_gap _ hclosed) (h.reads c rest hc)
  fails here hno := .seq_second (.no_gap _ hclosed) (h.fails here hno)

theorem TakesOne.many {turn : Peg} {p : Char → Bool} (hclosed : around ≠ .loose)
    (h : TakesOne source around turn p) (cs : List Char) :
    Reads source around turn.many cs (some ([], cs.dropWhile p)) := by
  cases cs with
  | nil => exact .choice_second (.seq_first (h.fails [] fun _ hc => by cases hc)) (.text [] [])
  | cons c rest =>
      cases hc : p c with
      | true =>
          rw [List.dropWhile_cons_of_pos hc]
          exact .choice_first (.seq (h.reads c rest hc) ((h.behindGap hclosed).star rest))
      | false =>
          rw [List.dropWhile_cons_of_neg (by simp [hc])]
          refine .choice_second (.seq_first (h.fails _ fun d hd => ?_)) (.text [] _)
          obtain rfl := Option.some.inj hd
          exact hc

/-! ### Gaps -/

theorem takesOne_whitespace : TakesOne source around (.rule .whitespace) isBlank :=
  .rule rfl (takesOne_one isBlank)

theorem skipLayout_dropWhile (cs : List Char) :
    skipLayout false (cs.dropWhile isBlank) = skipLayout false cs := by
  induction cs with
  | nil => rfl
  | cons c rest ih =>
      cases hc : isBlank c with
      | true => rw [List.dropWhile_cons_of_pos hc, skipLayout_blank hc, ih]
      | false => rw [List.dropWhile_cons_of_neg (by simp [hc])]

/-- A comment goes up to its newline, which is white space. -/
theorem skipLayout_to_newline (cs : List Char) :
    skipLayout false (cs.dropWhile (· != '\n')) = skipLayout true cs := by
  induction cs with
  | nil => rfl
  | cons c rest ih =>
      cases hc : c != '\n' with
      | true =>
          have hdrop : (c :: rest).dropWhile (· != '\n') = rest.dropWhile (· != '\n') :=
            List.dropWhile_cons_of_pos hc
          rw [hdrop, skipLayout, hc, ih]
      | false =>
          obtain rfl : c = '\n' := by simpa using hc
          rfl

theorem no_gap_atomic (here : List Char) : Reads source .atomic .gap here (some ([], here)) :=
  .no_gap here not_loose

theorem takesOne_comment_character :
    TakesOne source .atomic (.next (.absent (.text ['\n'])) (.one fun _ => true)) (· != '\n') where
  reads c rest hc := by
    have hno : ¬ ['\n'] <+: c :: rest := by
      rintro ⟨more, hmore⟩
      obtain rfl := (List.cons.inj hmore).1
      simp at hc
    exact .seq (.absent (.no_text hno)) (.seq (no_gap_atomic _) (.one rest rfl))
  fails here hno := by
    cases here with
    | nil =>
        have hnil : ¬ ['\n'] <+: ([] : List Char) := by simp
        exact .seq_second (.absent (.no_text hnil))
          (.seq_second (no_gap_atomic _) (.no_one fun _ hc => by cases hc))
    | cons c rest =>
        obtain rfl : c = '\n' := by simpa using hno c rfl
        exact .seq_first (.present (.text ['\n'] rest))

theorem reads_comment (rest : List Char) :
    Reads source .atomic (.rule .comment) ('/' :: '/' :: rest)
      (some ([], rest.dropWhile (· != '\n'))) :=
  .rule (.seq (.text ['/', '/'] rest)
    (.seq (no_gap_atomic rest) (takesOne_comment_character.many not_loose rest)))

theorem no_comment {here : List Char} (h : ¬ ['/', '/'] <+: here) :
    Reads source .atomic (.rule .comment) here none :=
  .no_rule (.seq_first (.no_text h))

theorem reads_comments {here : List Char} (hblank : ∀ c ∈ here.head?, isBlank c = false) :
    Reads source .atomic (.star (.seq (.rule .comment) (.star (.rule .whitespace)))) here
      (some ([], skipLayout false here)) := by
  induction hn : here.length using Nat.strongRecOn generalizing here with
  | ind n ih =>
      by_cases hcomment : ['/', '/'] <+: here
      · obtain ⟨rest, rfl⟩ := hcomment
        have hbehind : skipLayout false ('/' :: '/' :: rest) =
            skipLayout false ((rest.dropWhile (· != '\n')).dropWhile isBlank) := by
          rw [skipLayout_dropWhile, skipLayout_to_newline]
          rfl
        have hshorter : ((rest.dropWhile (· != '\n')).dropWhile isBlank).length < n := by
          have hle := length_dropWhile_le isBlank (rest.dropWhile (· != '\n'))
          have hle' := length_dropWhile_le (· != '\n') rest
          simp only [List.cons_append, List.nil_append, List.length_cons] at hn
          omega
        have hmore := ih _ hshorter (head_dropWhile isBlank _) rfl
        rw [← hbehind] at hmore
        exact .star (.seq (reads_comment rest) (takesOne_whitespace.star _)) hmore
      · have hhere : skipLayout false here = here := by
          cases here with
          | nil => rfl
          | cons c rest =>
              apply atLexeme_of_head (hblank c rfl)
              intro hslash hhead
              apply hcomment
              obtain ⟨more, rfl⟩ := List.head?_eq_some_iff.mp hhead
              exact ⟨more, by rw [hslash]; rfl⟩
        rw [hhere]
        exact .star_end (.seq_first (no_comment hcomment))

/-- A gap takes what the scanner skips. -/
theorem reads_gap (around : Spacing) (here : List Char) :
    Reads source around .gap here (some ([], around.skip here)) := by
  cases around with
  | loose =>
      have hcomments := @reads_comments source _ (head_dropWhile isBlank here)
      rw [skipLayout_dropWhile] at hcomments
      exact .gap (.seq (takesOne_whitespace.star here) hcomments)
  | tight => exact .no_gap here tight_not_loose
  | atomic => exact .no_gap here not_loose

section Rows

variable {first second : Peg} {here mid rest : List Char} {nodes more : List Node}

theorem reads_next (h : Reads source around first here (some (nodes, mid)))
    (h' : Reads source around second (around.skip mid) (some (more, rest))) :
    Reads source around (first.next second) here (some (nodes ++ more, rest)) :=
  .seq h (.seq (reads_gap around mid) h')

theorem no_next_first (h : Reads source around first here none) :
    Reads source around (first.next second) here none :=
  .seq_first h

theorem no_next_second (h : Reads source around first here (some (nodes, mid)))
    (h' : Reads source around second (around.skip mid) none) :
    Reads source around (first.next second) here none :=
  .seq_second h (.seq_second (reads_gap around mid) h')

theorem reads_maybe {part : Peg} {result : List Node × List Char}
    (h : Reads source around part here (some result)) :
    Reads source around part.maybe here (some result) :=
  .choice_first h

theorem no_maybe {part : Peg} (h : Reads source around part here none) :
    Reads source around part.maybe here (some ([], here)) :=
  .choice_second h (.text [] here)

/-- One more turn behind a gap. -/
theorem reads_further {turn : Peg}
    (h : Reads source around turn (around.skip here) (some (nodes, mid)))
    (h' : Reads source around turn.further mid (some (more, rest))) :
    Reads source around turn.further here (some (nodes ++ more, rest)) :=
  .star (.seq (reads_gap around here) h) h'

theorem no_further {turn : Peg} (h : Reads source around turn (around.skip here) none) :
    Reads source around turn.further here (some ([], here)) :=
  .star_end (.seq_second (reads_gap around here) h)

/-- Turns behind a part. The gap in front of the first of them is taken even when there is none. -/
theorem reads_turns {turn : Peg} (h : Reads source around first here (some (nodes, mid)))
    (h' : Reads source around turn.further mid (some (more, rest))) :
    Reads source around (first.next turn.many) here (some (nodes ++ more, rest)) ∨
      more = [] ∧ rest = mid ∧
        Reads source around (first.next turn.many) here (some (nodes, around.skip mid)) := by
  cases h' with
  | star hturn hmore =>
      cases hturn with
      | seq hgap hturn =>
          cases hgap.unique (reads_gap around mid)
          exact .inl (reads_next h (.choice_first (.seq hturn hmore)))
  | star_end hturn =>
      refine .inr ⟨rfl, rfl, ?_⟩
      have hnone : Reads source around turn (around.skip mid) none := by
        cases hturn with
        | seq_first hgap => cases hgap.unique (reads_gap around mid)
        | seq_second hgap hturn =>
            cases hgap.unique (reads_gap around mid)
            exact hturn
      have hnext := reads_next h (no_maybe (.seq_first hnone : Reads source around
        (.seq turn turn.further) _ none))
      rwa [List.append_nil] at hnext

end Rows

theorem taken_append (front rest : List Char) : taken (front ++ rest) rest = front := by
  simp [taken]

/-! ### Where gaps are closed -/

section Closed

variable {first second : Peg} {here mid rest : List Char} {nodes more : List Node}

theorem skip_closed (hclosed : around ≠ .loose) (cs : List Char) : around.skip cs = cs := by
  cases around with
  | loose => exact absurd rfl hclosed
  | tight | atomic => rfl

theorem reads_closed (hclosed : around ≠ .loose)
    (h : Reads source around first here (some (nodes, mid)))
    (h' : Reads source around second mid (some (more, rest))) :
    Reads source around (first.next second) here (some (nodes ++ more, rest)) :=
  reads_next h ((skip_closed hclosed mid).symm ▸ h')

theorem no_closed (hclosed : around ≠ .loose)
    (h : Reads source around first here (some (nodes, mid)))
    (h' : Reads source around second mid none) :
    Reads source around (first.next second) here none :=
  no_next_second h ((skip_closed hclosed mid).symm ▸ h')

end Closed

/-! ### Numbers -/

theorem reads_digits (hclosed : around ≠ .loose) {cs : List Char} (h : cs.takeWhile isDigit ≠ []) :
    Reads source around Nonterminal.body.digits cs (some ([], cs.dropWhile isDigit)) := by
  cases cs with
  | nil => exact absurd rfl h
  | cons c rest =>
      cases hc : isDigit c with
      | false => simp [hc] at h
      | true =>
          rw [List.dropWhile_cons_of_pos hc]
          exact reads_closed hclosed (.one rest hc) ((takesOne_one isDigit).many hclosed rest)

theorem no_digits {cs : List Char} (h : cs.takeWhile isDigit = []) :
    Reads source around Nonterminal.body.digits cs none :=
  no_next_first (.no_one (head_not_digit h))

theorem reads_sign (cs : List Char) :
    Reads source around (.maybe (.firstOf (.text ['+']) [.text ['-']])) cs
      (some ([], (Number.sign cs).2)) := by
  unfold Number.sign
  split
  · next rest =>
      have hplus : ¬ ['+'] <+: '-' :: rest := by simp
      exact reads_maybe (.choice_second (.no_text hplus) (.text ['-'] rest))
  · next rest => exact reads_maybe (.choice_first (.text ['+'] rest))
  · next hminus hplus =>
      refine no_maybe (.choice_second (.no_text ?_) (.no_text ?_))
      · rintro ⟨rest, rfl⟩
        exact hplus rest rfl
      · rintro ⟨rest, rfl⟩
        exact hminus rest rfl

theorem exponentDigits?_eq (down : Bool) (cs : List Char) :
    exponentDigits? down cs =
      if cs.takeWhile isDigit = [] then none
      else some ((down, cs.takeWhile isDigit), cs.dropWhile isDigit) := by
  unfold exponentDigits?
  cases cs.takeWhile isDigit <;> rfl

theorem exponent?_cons {c : Char} (hc : (c == 'e' || c == 'E') = true) (rest : List Char) :
    exponent? (c :: rest) = exponentDigits? (Number.sign rest).1 (Number.sign rest).2 := by
  rw [exponent?.eq_def]
  dsimp only
  rw [if_pos hc]
  split
  · rfl
  · rfl
  · next hminus hplus =>
      rw [Number.sign]
      · exact hminus
      · exact hplus

/-- The rule for exponents reads what the scanner takes for one. -/
theorem reads_exponent (hclosed : around ≠ .loose) (cs : List Char) :
    Reads source around (.rule .exponent) cs ((exponent? cs).map fun found => ([], found.2)) := by
  cases cs with
  | nil => exact .no_rule (no_next_first (.no_one fun _ hc => by cases hc))
  | cons c rest =>
      cases hc : c == 'e' || c == 'E' with
      | false =>
          have hnone : exponent? (c :: rest) = none := by simp [exponent?.eq_def, hc]
          rw [hnone]
          refine .no_rule (no_next_first (.no_one fun d hd => ?_))
          obtain rfl := Option.some.inj hd
          exact hc
      | true =>
          have hletter : Reads source around (.one fun c => c == 'e' || c == 'E') (c :: rest)
            (some ([], rest)) := .one rest hc
          rw [exponent?_cons hc, exponentDigits?_eq]
          split
          · next hnone =>
              have hbehind := no_closed hclosed (@reads_sign source around rest)
                (no_digits hnone)
              have hbody : Reads source around Nonterminal.exponent.body (c :: rest) none :=
                no_closed hclosed hletter hbehind
              exact .no_rule hbody
          · next hdigits =>
              have hbehind := reads_closed hclosed (@reads_sign source around rest)
                (reads_digits hclosed hdigits)
              have hbody : Reads source around Nonterminal.exponent.body (c :: rest)
                  (some ([], (Number.sign rest).2.dropWhile isDigit)) :=
                reads_closed hclosed hletter hbehind
              exact .rule hbody

/-- A text with a point or an exponent behind its digits, and without. -/
inductive NumberRead (source cs : List Char) : Lexeme × List Char → Prop
  | float {numeral : Number.Numeral} {rest : List Char} :
      Reads source .atomic Nonterminal.float.body cs (some ([], rest)) →
        readFloat (taken cs rest) = .ok (.float numeral.nearest) →
          NumberRead source cs (.float numeral, rest)
  | integer : Reads source .atomic Nonterminal.float.body cs none →
      NumberRead source cs (.integer (cs.takeWhile isDigit), cs.dropWhile isDigit)

/-- The exponent that a float may end with. -/
theorem reads_floatWith (whole : List Char) (fraction : Option (List Char)) (cs : List Char) :
    ∃ exponent written rest, cs = written ++ rest ∧ Exponentiated exponent written ∧
      floatWith whole fraction cs = (.float { whole, fraction, exponent }, rest) ∧
      Reads source .atomic (.maybe (.rule .exponent)) cs (some ([], rest)) := by
  have hread := @reads_exponent source .atomic not_loose cs
  cases hexponent : exponent? cs with
  | none =>
      rw [hexponent] at hread
      exact ⟨none, [], cs, rfl, rfl, by rw [floatWith, hexponent], no_maybe hread⟩
  | some found =>
      obtain ⟨e, rest⟩ := found
      rw [hexponent] at hread
      obtain ⟨written, hwritten, htext, _⟩ := exponentText_of_exponent? hexponent
      exact ⟨some e, written, rest, hwritten, htext, by rw [floatWith, hexponent],
        reads_maybe hread⟩

theorem behindDigits_fraction {after : List Char} (h : after.takeWhile isDigit ≠ [])
    (whole : List Char) :
    behindDigits whole ('.' :: after) =
      floatWith whole (some (after.takeWhile isDigit)) (after.dropWhile isDigit) := by
  rw [behindDigits_point]
  split
  · next hnone => exact absurd hnone h
  · rfl

theorem taken_of_append {cs front rest : List Char} (h : cs = front ++ rest) :
    taken cs rest = front := by
  rw [h, taken_append]

/-- Digits with a point behind them. -/
theorem numberRead_point {cs after : List Char} (h : cs.takeWhile isDigit ≠ [])
    (hafter : cs.dropWhile isDigit = '.' :: after) : NumberRead source cs (number cs) := by
  have hdigits : Reads source .atomic Nonterminal.body.digits cs (some ([], '.' :: after)) :=
    hafter ▸ reads_digits not_loose h
  have hpoint : Reads source .atomic (.text ['.']) ('.' :: after) (some ([], after)) :=
    .text ['.'] after
  by_cases hfraction : after.takeWhile isDigit = []
  · have hnumber : number cs = (.integer (cs.takeWhile isDigit), cs.dropWhile isDigit) := by
      rw [number_eq, hafter, behindDigits_point, hfraction]
    rw [hnumber]
    refine .integer (.choice_second ?_ ?_)
    · exact no_closed not_loose hdigits
        (no_closed not_loose hpoint (no_next_first (no_digits hfraction)))
    · exact no_closed not_loose hdigits (reads_exponent not_loose ('.' :: after))
  · obtain ⟨exponent, written, rest, hwritten, htext, hfloat, hread⟩ :=
      @reads_floatWith source (cs.takeWhile isDigit) (some (after.takeWhile isDigit))
        (after.dropWhile isDigit)
    have hnumber : number cs =
        (.float ⟨false, cs.takeWhile isDigit, some (after.takeWhile isDigit), exponent⟩, rest) := by
      rw [number_eq, hafter, behindDigits_fraction hfraction, hfloat]
    have hcs : cs = (cs.takeWhile isDigit ++
        (Number.fractionText (some (after.takeWhile isDigit)) ++ written)) ++ rest := by
      rw [List.append_assoc, List.append_assoc, ← hwritten, Number.fractionText, List.cons_append,
        List.takeWhile_append_dropWhile, ← hafter, List.takeWhile_append_dropWhile]
    have hall : ∀ digits ∈ some (after.takeWhile isDigit), IsDigits digits := by
      intro digits hmem
      obtain rfl := Option.some.inj hmem
      exact ⟨hfraction, all_takeWhile isDigit after⟩
    rw [hnumber]
    refine .float (.choice_first ?_) ?_
    · exact reads_closed not_loose hdigits (reads_closed not_loose hpoint
        (reads_closed not_loose (reads_digits not_loose hfraction) hread))
    · rw [taken_of_append hcs]
      exact readFloat_written ⟨h, all_takeWhile isDigit cs⟩ hall htext

/-- Digits with an exponent behind them, or nothing more of a number. -/
theorem numberRead_other {cs : List Char} (h : cs.takeWhile isDigit ≠ [])
    (hpoint : '.' ∉ (cs.dropWhile isDigit).head?) : NumberRead source cs (number cs) := by
  have hdigits : Reads source .atomic Nonterminal.body.digits cs
    (some ([], cs.dropWhile isDigit)) := reads_digits not_loose h
  have hno : Reads source .atomic (.next Nonterminal.body.digits (.next (.text ['.'])
      (.next Nonterminal.body.digits (.maybe (.rule .exponent))))) cs none := by
    refine no_closed not_loose hdigits (no_next_first (.no_text ?_))
    rintro ⟨after, hafter⟩
    rw [← hafter] at hpoint
    exact hpoint rfl
  have hexponent := @reads_exponent source .atomic not_loose (cs.dropWhile isDigit)
  cases hfound : exponent? (cs.dropWhile isDigit) with
  | none =>
      have hnumber : number cs = (.integer (cs.takeWhile isDigit), cs.dropWhile isDigit) := by
        rw [number_eq, behindDigits_other hpoint, hfound]
      rw [hfound] at hexponent
      rw [hnumber]
      exact .integer (.choice_second hno (no_closed not_loose hdigits hexponent))
  | some found =>
      obtain ⟨e, rest⟩ := found
      obtain ⟨written, hwritten, htext, _⟩ := exponentText_of_exponent? hfound
      have hnumber : number cs =
          (.float ⟨false, cs.takeWhile isDigit, none, some e⟩, rest) := by
        rw [number_eq, behindDigits_other hpoint, hfound, floatWith, hfound]
      have hcs : cs = (cs.takeWhile isDigit ++ (Number.fractionText none ++ written)) ++ rest := by
        rw [List.append_assoc, Number.fractionText, List.nil_append, ← hwritten,
          List.takeWhile_append_dropWhile]
      rw [hfound] at hexponent
      rw [hnumber]
      apply NumberRead.float (.choice_second hno (reads_closed not_loose hdigits hexponent))
      rw [taken_of_append hcs]
      exact readFloat_written ⟨h, all_takeWhile isDigit cs⟩ (fun _ h => by cases h) htext

/-- The rule for floats takes a number from digits on exactly if the scanner finds a float. -/
theorem numberRead {cs : List Char} (h : cs.takeWhile isDigit ≠ []) :
    NumberRead source cs (number cs) := by
  by_cases hpoint : '.' ∈ (cs.dropWhile isDigit).head?
  · obtain ⟨after, hafter⟩ := List.head?_eq_some_iff.mp hpoint
    exact numberRead_point h hafter
  · exact numberRead_other h hpoint

/-! ### Texts to choose from -/

theorem reads_text_here {t here : List Char} (h : t.isPrefixOf here = true) :
    Reads source around (.text t) here (some ([], here.drop t.length)) := by
  obtain ⟨rest, rfl⟩ := List.isPrefixOf_iff_prefix.mp h
  rw [List.drop_left]
  exact .text t rest

theorem no_text_here {t here : List Char} (h : ¬ t.isPrefixOf here = true) :
    Reads source around (.text t) here none :=
  .no_text fun hstarts => h (List.isPrefixOf_iff_prefix.mpr hstarts)

/-- The first of some texts that stands at a place. -/
def firstHere (texts : List (List Char)) (here : List Char) : Option (List Char) :=
  texts.find? fun t => t.isPrefixOf here

theorem firstHere_mem {texts : List (List Char)} {here t : List Char}
    (h : firstHere texts here = some t) : t ∈ texts ∧ t <+: here :=
  ⟨List.mem_of_find?_eq_some h, List.isPrefixOf_iff_prefix.mp (List.find?_some h :)⟩

theorem reads_texts (t : List Char) (ts : List (List Char)) (here : List Char) :
    Reads source around (.firstOf (.text t) (ts.map .text)) here
      ((firstHere (t :: ts) here).map fun a => ([], here.drop a.length)) := by
  induction ts generalizing t with
  | nil =>
      cases ht : t.isPrefixOf here with
      | true =>
          rw [firstHere, List.find?_cons, ht]
          exact reads_text_here ht
      | false =>
          rw [firstHere, List.find?_cons, ht]
          exact no_text_here (Bool.eq_false_iff.mp ht)
  | cons t' ts ih =>
      cases ht : t.isPrefixOf here with
      | true =>
          rw [firstHere, List.find?_cons, ht]
          exact .choice_first (reads_text_here ht)
      | false =>
          rw [firstHere, List.find?_cons, ht]
          exact .choice_second (no_text_here (Bool.eq_false_iff.mp ht)) (ih t')

/-! ### Words -/

theorem takesOne_identChar : TakesOne source around (.rule .identChar) continuesWord :=
  .rule rfl (takesOne_one continuesWord)

/-- Texts that a word may be. No word is the beginning of another. -/
structure Apart (words : List (List Char)) : Prop where
  word : ∀ a ∈ words, a.all continuesWord = true
  apart : ∀ a ∈ words, ∀ b ∈ words, a.isPrefixOf b = true → a = b

/-- Of the words that are apart only the whole word at a place can be one. -/
theorem Apart.firstHere {words : List (List Char)} (h : Apart words) {here : List Char}
    (hmem : here.takeWhile continuesWord ∈ words) :
    Grammar.firstHere words here = some (here.takeWhile continuesWord) := by
  have hwhole : here.takeWhile continuesWord <+: here := List.takeWhile_prefix _
  cases hfound : Grammar.firstHere words here with
  | none =>
      have hnone := List.find?_eq_none.mp hfound _ hmem
      exact absurd (List.isPrefixOf_iff_prefix.mpr hwhole) hnone
  | some a =>
      obtain ⟨ha, hstarts⟩ := firstHere_mem hfound
      rcases List.prefix_or_prefix_of_prefix hstarts hwhole with hle | hle
      · rw [h.apart a ha _ hmem (List.isPrefixOf_iff_prefix.mpr hle)]
      · rw [h.apart _ hmem a ha (List.isPrefixOf_iff_prefix.mpr hle)]

/-- A rule for words takes a word that is one of them. -/
theorem reads_word {t : List Char} {ts : List (List Char)} (h : Apart (t :: ts))
    (hclosed : around ≠ .loose) {here : List Char} (hmem : here.takeWhile continuesWord ∈ t :: ts) :
    Reads source around
      (.next (.firstOf (.text t) (ts.map .text)) (.absent (.rule .identChar))) here
      (some ([], here.dropWhile continuesWord)) := by
  have htexts := @reads_texts source around t ts here
  have hdrop : here.drop (here.takeWhile continuesWord).length = here.dropWhile continuesWord := by
    have hsplit : here.takeWhile continuesWord ++ here.dropWhile continuesWord = here :=
      List.takeWhile_append_dropWhile
    exact (congrArg _ hsplit.symm).trans List.drop_left
  rw [h.firstHere hmem, Option.map_some, hdrop] at htexts
  exact reads_closed hclosed htexts
    (.absent (takesOne_identChar.fails _ (head_dropWhile continuesWord here)))

/-- Of a longer word it takes no part. -/
theorem no_word {t : List Char} {ts : List (List Char)} (h : Apart (t :: ts))
    (hclosed : around ≠ .loose) {here : List Char} (hmem : here.takeWhile continuesWord ∉ t :: ts) :
    Reads source around
      (.next (.firstOf (.text t) (ts.map .text)) (.absent (.rule .identChar))) here none := by
  have htexts := @reads_texts source around t ts here
  cases hfound : firstHere (t :: ts) here with
  | none =>
      rw [hfound] at htexts
      exact no_next_first htexts
  | some a =>
      rw [hfound] at htexts
      obtain ⟨ha, rest, rfl⟩ := firstHere_mem hfound
      rw [Option.map_some, List.drop_left] at htexts
      apply no_closed hclosed htexts
      -- a text that stands here and is not the whole word is continued by the word
      have hword : ∃ c more, rest = c :: more ∧ continuesWord c = true := by
        apply Classical.byContradiction
        intro hends
        apply hmem
        have hstop : ∀ c ∈ rest.head?, continuesWord c = false := by
          intro c hc
          obtain ⟨more, rfl⟩ := List.head?_eq_some_iff.mp hc
          exact Bool.eq_false_iff.mpr fun hcont => hends ⟨c, more, rfl, hcont⟩
        rw [(span_append (List.all_eq_true.mp (h.word a ha)) hstop).1]
        exact ha
      obtain ⟨c, more, rfl, hc⟩ := hword
      exact .present (takesOne_identChar.reads c more hc)

/-! ### Strings -/

/-- One of some characters. -/
theorem takesOne_texts (c : Char) (cs : List Char) :
    TakesOne source around (.firstOf (.text [c]) (cs.map fun d => .text [d]))
      (fun d => decide (d ∈ c :: cs)) where
  reads d rest hd := by
    induction cs generalizing c with
    | nil =>
        obtain rfl : d = c := by simpa using hd
        exact .text [d] rest
    | cons c' cs ih =>
        by_cases hc : d = c
        · subst hc
          exact .choice_first (.text [d] rest)
        · refine .choice_second (.no_text fun hstarts => ?_) (ih c' ?_)
          · exact hc (List.cons_prefix_cons.mp hstarts).1.symm
          · simpa [hc] using hd
  fails here hno := by
    induction cs generalizing c with
    | nil =>
        apply Reads.no_text
        rintro ⟨rest, rfl⟩
        simpa using hno c rfl
    | cons c' cs ih =>
        refine .choice_second (.no_text ?_) (ih c' fun d hd => ?_)
        · rintro ⟨rest, rfl⟩
          simpa using hno c rfl
        · have hd := hno d hd
          simp only [List.mem_cons, decide_eq_false_iff_not, not_or] at hd ⊢
          exact hd.2

theorem mem_escapes_iff {d : Char} :
    (∃ c, (d, c) ∈ escapes) ↔ d ∈ ['"', '\\', 'n', 't', 'r', '/'] := by
  constructor
  · rintro ⟨c, hc⟩
    simp only [escapes, List.mem_cons, Prod.mk.injEq, List.not_mem_nil, or_false] at hc
    rcases hc with ⟨rfl, _⟩ | ⟨rfl, _⟩ | ⟨rfl, _⟩ | ⟨rfl, _⟩ | ⟨rfl, _⟩ | ⟨rfl, _⟩ <;> decide
  · intro hd
    simp only [List.mem_cons, List.not_mem_nil, or_false] at hd
    rcases hd with rfl | rfl | rfl | rfl | rfl | rfl <;>
      exact ⟨_, unescape?_eq_some_iff.mp rfl⟩

theorem takesOne_behindSlash (around : Spacing) :
    TakesOne source around (.firstOf (.text ['"'])
        [.text ['\\'], .text ['n'], .text ['t'], .text ['r'], .text ['/']])
      (fun d => decide (d ∈ ['"', '\\', 'n', 't', 'r', '/'])) :=
  takesOne_texts '"' ['\\', 'n', 't', 'r', '/']

section Characters

variable {c d : Char} {rest : List Char}

theorem no_special (hquote : c ≠ '"') (hslash : c ≠ '\\') (rest : List Char) :
    Reads source around (.firstOf (.text ['"']) [.text ['\\']]) (c :: rest) none := by
  apply (takesOne_texts '"' ['\\']).fails (c :: rest)
  intro d hd
  obtain rfl := Option.some.inj hd
  simp [hquote, hslash]

theorem reads_raw (hquote : c ≠ '"') (hslash : c ≠ '\\') (rest : List Char) :
    Reads source .atomic (.rule .stringChar) (c :: rest) (some ([], rest)) := by
  have hbody : Reads source .atomic Nonterminal.stringChar.body (c :: rest) (some ([], rest)) :=
    .choice_first (reads_closed not_loose (.absent (no_special hquote hslash rest)) (.one rest rfl))
  exact .rule hbody

/-- A quote or a backslash is no character that stands for itself. -/
theorem no_raw {here : List Char} (h : ∀ c ∈ here.head?, c = '"' ∨ c = '\\') :
    Reads source .atomic (.next (.absent (.firstOf (.text ['"']) [.text ['\\']]))
      (.one fun _ => true)) here none := by
  cases here with
  | nil =>
      have hspecial := (@takesOne_texts source .atomic '"' ['\\']).fails []
        fun _ hc => by cases hc
      exact no_closed not_loose (.absent hspecial) (.no_one fun _ hc => by cases hc)
  | cons c rest =>
      have hspecial := (@takesOne_texts source .atomic '"' ['\\']).reads c rest
        (by simpa using h c rfl)
      exact no_next_first (.present hspecial)

theorem reads_escaped (h : (d, c) ∈ escapes) (rest : List Char) :
    Reads source .atomic (.rule .stringChar) ('\\' :: d :: rest) (some ([], rest)) := by
  have hbehind := (@takesOne_behindSlash source .atomic).reads d rest
    (decide_eq_true (mem_escapes_iff.mp ⟨c, h⟩))
  have hbody : Reads source .atomic Nonterminal.stringChar.body ('\\' :: d :: rest)
      (some ([], rest)) :=
    .choice_second (no_raw fun _ hc => .inr (Option.some.inj hc).symm)
      (reads_closed not_loose (.text ['\\'] (d :: rest)) hbehind)
  exact .rule hbody

/-- A quote, an unknown escape and the end of the text are no character of a string. -/
theorem no_stringChar {here : List Char} (h : ∀ c ∈ here.head?, c = '"' ∨ c = '\\')
    (hescape : ∀ d more, here = '\\' :: d :: more → ∀ c, (d, c) ∉ escapes) :
    Reads source .atomic (.rule .stringChar) here none := by
  refine .no_rule (.choice_second (no_raw h) ?_)
  by_cases hslash : ['\\'] <+: here
  · obtain ⟨rest, rfl⟩ := hslash
    refine no_closed not_loose (.text ['\\'] rest)
      ((takesOne_behindSlash .atomic).fails rest fun d hd => ?_)
    obtain ⟨more, rfl⟩ := List.head?_eq_some_iff.mp hd
    apply decide_eq_false
    intro hmem
    obtain ⟨c, hc⟩ := mem_escapes_iff.mpr hmem
    exact hescape d more rfl c hc
  · exact no_next_first (.no_text hslash)

end Characters

/-- The characters of a string go up to its closing quote. -/
theorem Spelling.reads {text written : List Char} (h : Spelling text written) (rest : List Char) :
    Reads source .atomic (.further (.rule .stringChar)) (written ++ '"' :: rest)
      (some ([], '"' :: rest)) := by
  induction h with
  | nil =>
      refine no_further (no_stringChar (fun c hc => .inl (Option.some.inj hc).symm) ?_)
      intro d more heq
      cases heq
  | raw hquote hslash _ ih => exact reads_further (reads_raw hquote hslash _) ih
  | escaped hescape _ ih => exact reads_further (reads_escaped hescape _) ih

/-- Where a string is broken, its characters go up to no quote. -/
theorem Broken.reads {cs : List Char} (h : Broken cs) :
    ∃ rest, '"' ∉ rest.head? ∧
      Reads source .atomic (.further (.rule .stringChar)) cs (some ([], rest)) := by
  induction h with
  | unclosed =>
      refine ⟨[], by simp, no_further (no_stringChar (fun _ hc => by cases hc) ?_)⟩
      intro d more heq
      cases heq
  | cutOff =>
      refine ⟨['\\'], by simp, no_further (no_stringChar ?_ ?_)⟩
      · exact fun c hc => .inr (Option.some.inj hc).symm
      · intro d more heq
        cases heq
  | @unknown d rest hunknown =>
      refine ⟨'\\' :: d :: rest, by simp, no_further (no_stringChar ?_ ?_)⟩
      · exact fun c hc => .inr (Option.some.inj hc).symm
      · intro d' more heq
        obtain ⟨_, heq⟩ := List.cons.inj heq
        obtain ⟨rfl, _⟩ := List.cons.inj heq
        exact hunknown
  | raw hquote hslash _ ih =>
      obtain ⟨rest, hrest, hread⟩ := ih
      exact ⟨rest, hrest, reads_further (reads_raw hquote hslash _) hread⟩
  | escaped hescape _ ih =>
      obtain ⟨rest, hrest, hread⟩ := ih
      exact ⟨rest, hrest, reads_further (reads_escaped hescape _) hread⟩

/-- Where there is nothing to skip it does not matter which turn is the first. -/
theorem many_of_further {turn : Peg} {here rest : List Char} {nodes : List Node}
    (hskip : around.skip here = here)
    (h : Reads source around turn.further here (some (nodes, rest))) :
    Reads source around turn.many here (some (nodes, rest)) := by
  have hgap := @reads_gap source around here
  rw [hskip] at hgap
  cases h with
  | star hturn hmore =>
      cases hturn with
      | seq hgap' hturn =>
          cases hgap'.unique hgap
          exact .choice_first (.seq hturn hmore)
  | star_end hturn =>
      refine no_maybe (.seq_first ?_)
      cases hturn with
      | seq_first hgap' => cases hgap'.unique hgap
      | seq_second hgap' hturn =>
          cases hgap'.unique hgap
          exact hturn

/-- The node of a string has what stands between its quotes. -/
theorem reads_string {text written : List Char} (h : Spelling text written) (rest : List Char) :
    ∃ node : Node, node.rule = .string ∧ node.build = .ok (.string (String.ofList text)) ∧
      Reads source .loose (.rule .string) ('"' :: (written ++ '"' :: rest))
        (some ([node], rest)) := by
  have hchars : Reads source .atomic Nonterminal.stringInner.body (written ++ '"' :: rest)
      (some ([], '"' :: rest)) := many_of_further rfl (h.reads rest)
  have hinner : Reads source .tight (.rule .stringInner) (written ++ '"' :: rest)
      (some ([.mk .stringInner written []], '"' :: rest)) := by
    have hrule : Reads source .tight (.rule .stringInner) (written ++ '"' :: rest)
        (some ([.mk .stringInner (taken (written ++ '"' :: rest) ('"' :: rest)) []],
          '"' :: rest)) := .rule hchars
    rwa [taken_append] at hrule
  have hbody : Reads source .tight Nonterminal.string.body ('"' :: (written ++ '"' :: rest))
      (some ([.mk .stringInner written []], rest)) :=
    reads_closed tight_not_loose (.text ['"'] _)
      (reads_closed tight_not_loose hinner (.text ['"'] rest))
  refine ⟨_, rfl, ?_, .rule hbody⟩
  change (unescape written).map _ = _
  rw [h.unescape]
  rfl

theorem no_string {cs : List Char} (h : Broken cs) :
    Reads source .loose (.rule .string) ('"' :: cs) none := by
  obtain ⟨rest, hrest, hchars⟩ := @Broken.reads source cs h
  have hinner : Reads source .tight (.rule .stringInner) cs
      (some ([.mk .stringInner (taken cs rest) []], rest)) :=
    .rule (many_of_further rfl hchars)
  refine .no_rule (no_closed tight_not_loose (.text ['"'] cs)
    (no_closed tight_not_loose hinner (.no_text ?_)))
  rintro ⟨more, rfl⟩
  exact hrest rfl

end Scriptlet.Grammar
