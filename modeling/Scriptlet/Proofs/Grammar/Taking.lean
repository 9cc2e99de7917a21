import Scriptlet.Proofs.Grammar.Guard

/-!
What a rule takes. The lexemes that it reads are those of the phrase that it gives, so a phrase
forgets nothing of its source but the layout and how strings and numbers are spelled. The marks are
the only difficulty. Whether one is glued to the next is for the scanner to say, and a rule often
does not ask; but what stands behind an operator begins an operand, and no operand begins with the
second half of an operator.
-/

namespace Scriptlet.Grammar

/-- A glued mark and the mark behind it are an operator, as they are in every source. -/
def Glued (s : List Lexeme) : Prop :=
  ∀ c after, .mark c true :: after <:+ s →
    ∃ d glued more, after = .mark d glued :: more ∧ joins c d = true

theorem Glued.suffix {s t : List Lexeme} (h : Glued s) (hsuffix : t <:+ s) : Glued t :=
  fun c after hafter => h c after (hafter.trans hsuffix)

theorem Glued.tail {l : Lexeme} {s : List Lexeme} (h : Glued (l :: s)) : Glued s :=
  h.suffix (List.suffix_cons l s)

theorem Glued.append_right {s t : List Lexeme} (h : Glued (s ++ t)) : Glued t :=
  h.suffix (List.suffix_append s t)

/-- The lexemes do not begin with the second half of an operator. -/
def Unjoined (s : List Lexeme) : Prop :=
  ∀ d glued more, s = .mark d glued :: more → ∀ c, joins c d = false

theorem Glued.single {c : Char} {glued : Bool} {s : List Lexeme} (h : Glued (.mark c glued :: s))
    (hs : Unjoined s) : glued = false := by
  cases glued with
  | false => rfl
  | true =>
      obtain ⟨d, glued, more, rfl, hjoins⟩ := h c s List.suffix_rfl
      rw [hs d glued more rfl c] at hjoins
      cases hjoins

/-- A mark that begins no operator of two characters. -/
theorem Glued.alone {c : Char} {glued : Bool} {s : List Lexeme} (h : Glued (.mark c glued :: s))
    (hc : ∀ d, joins c d = false) : glued = false := by
  cases glued with
  | false => rfl
  | true =>
      obtain ⟨d, _, _, _, hjoins⟩ := h c s List.suffix_rfl
      rw [hc d] at hjoins
      cases hjoins

/-! ### How phrases begin -/

theorem unjoined_mark {c : Char} (hc : ∀ b, joins b c = false) (glued : Bool) (s : List Lexeme) :
    Unjoined (.mark c glued :: s) := by
  rintro d _ _ heq b
  obtain ⟨rfl, _⟩ := Lexeme.mark.inj (List.cons.inj heq).1
  exact hc b

theorem unjoined_of_not_mark {l : Lexeme} (hl : ∀ c glued, l ≠ .mark c glued) (s : List Lexeme) :
    Unjoined (l :: s) :=
  fun d glued _ heq => absurd (List.cons.inj heq).1 (hl d glued)

theorem joins_of_other {c : Char} (hc : c ≠ '=' ∧ c ≠ '&' ∧ c ≠ '|' ∧ c ≠ '?') (b : Char) :
    joins b c = false := by
  unfold joins
  split <;> simp_all

theorem unjoined_signs (signs : List UnaryOp) {rest : List Lexeme} (hrest : Unjoined rest) :
    Unjoined (signs.flatMap (marks ·.symbol.toList) ++ rest) := by
  cases signs with
  | nil => exact hrest
  | cons op ops => cases op <;> exact unjoined_mark (joins_of_other (by decide)) _ _

/-- No phrase begins with the second half of an operator. -/
theorem Phrase.unjoined (p : Phrase) (rest : List Lexeme) : Unjoined (p.lexemes ++ rest) := by
  match p with
  | .null | .bool _ | .integer _ | .float _ | .string _ | .name _ =>
      exact unjoined_of_not_mark (fun _ _ => Lexeme.noConfusion) _
  | .list _ | .group _ => exact unjoined_mark (joins_of_other (by decide)) _ _
  | .member object _ | .index object _ | .call object _ =>
      rw [lexemes, List.append_assoc]
      exact object.unjoined _
  | .signed signs operand =>
      rw [lexemes, List.append_assoc]
      exact unjoined_signs signs (operand.unjoined rest)
  | .binary _ left _ =>
      rw [lexemes, List.append_assoc]
      exact left.unjoined _
  | .conditional test _ _ =>
      rw [lexemes, List.append_assoc]
      exact test.unjoined _

/-! ### Rules -/

/-- What the rule takes are the lexemes of what it gives. -/
def Takes (rule : Rule Phrase) : Prop :=
  ∀ s p rest, Glued s → rule s = some (p, rest) → s = p.lexemes ++ rest

theorem takes_identifier {s rest : List Lexeme} {name : String}
    (h : identifier s = some (name, rest)) : s = .word name :: rest := by
  unfold identifier at h
  split at h
  · split at h
    · cases h
    · cases h
      rfl
  · cases h

theorem takes_literal : Takes literal := by
  intro s p rest _ h
  unfold literal at h
  split at h
  case h_4 =>
    split at h
    · next hword =>
        cases h
        rw [beq_iff_eq.mp hword]
        rfl
    · split at h
      · next hword =>
          cases h
          rw [beq_iff_eq.mp hword]
          rfl
      · split at h
        · next hword =>
            cases h
            rw [beq_iff_eq.mp hword]
            rfl
        · cases h
  case h_5 => cases h
  all_goals
    cases h
    rfl

theorem operator_suffix {level : Level} {s rest : List Lexeme} {op : BinaryOp}
    (h : operator level s = some (op, rest)) : rest <:+ s := by
  unfold operator at h
  split at h
  case h_15 => cases h
  all_goals
    cases h
  all_goals first
    | exact List.suffix_cons _ _
    | exact (List.suffix_cons _ _).trans (List.suffix_cons _ _)

theorem signs_suffix (s : List Lexeme) : (signs s).2 <:+ s := by
  fun_induction signs s with
  | case1 glued more ops rest heq ih | case2 glued more ops rest heq ih =>
      rw [heq] at ih
      exact ih.trans (List.suffix_cons _ _)
  | case3 s => exact List.suffix_rfl

/-- An operator with something behind it that it cannot be glued to. -/
theorem takes_operator {level : Level} {s rest : List Lexeme} {op : BinaryOp}
    (h : operator level s = some (op, rest)) (hs : Glued s) (hrest : Unjoined rest) :
    s = marks op.symbol.toList ++ rest := by
  unfold operator at h
  split at h
  case h_15 => cases h
  all_goals
    cases h
  all_goals first
    | obtain rfl := hs.single hrest
      rfl
    | obtain rfl := hs.tail.single hrest
      rfl

theorem takes_signs {s : List Lexeme} (hs : Glued s) (hrest : Unjoined (signs s).2) :
    s = (signs s).1.flatMap (marks ·.symbol.toList) ++ (signs s).2 := by
  fun_induction signs s with
  | case1 glued more ops rest heq ih =>
      rw [heq] at ih
      have hmore := ih hs.tail hrest
      obtain rfl := hs.alone fun _ => rfl
      exact congrArg (List.cons _) hmore
  | case2 glued more ops rest heq ih =>
      rw [heq] at ih
      have hmore := ih hs.tail hrest
      rw [hmore] at hs
      obtain rfl := hs.single (unjoined_signs ops hrest)
      exact congrArg (List.cons _) hmore
  | case3 s => rfl

variable {nested : Rule Phrase}

theorem takes_furtherItems (h : Takes nested) {turns : Nat} {s rest : List Lexeme}
    {items : List Phrase} (hs : Glued s) (hread : furtherItems nested turns s = (items, rest)) :
    s = Phrase.lexemesFurther items ++ rest := by
  induction turns generalizing s items rest with
  | zero =>
      obtain ⟨rfl, rfl⟩ := Prod.mk.inj hread
      rfl
  | succ turns ih =>
      unfold furtherItems at hread
      split at hread
      · next glued more =>
          split at hread
          · next item behind hitem =>
              have hmore := h _ _ _ hs.tail hitem
              obtain ⟨rfl, rfl⟩ := Prod.mk.inj hread
              have hbehind := ih (hmore ▸ hs.tail).append_right rfl
              obtain rfl := hs.alone fun _ => rfl
              rw [Phrase.lexemesFurther, List.cons_append, List.append_assoc, ← hbehind, ← hmore]
          · obtain ⟨rfl, rfl⟩ := Prod.mk.inj hread
            rfl
      · obtain ⟨rfl, rfl⟩ := Prod.mk.inj hread
        rfl

/-- Items with their closing bracket. -/
theorem takes_itemsUpTo (h : Takes nested) {close : Char} (hclose : ∀ d, joins close d = false)
    {turns : Nat} {s rest : List Lexeme} {items : List Phrase} (hs : Glued s)
    (hread : itemsUpTo nested close turns s = some (items, rest)) :
    s = Phrase.lexemesItems items ++ .mark close false :: rest := by
  unfold itemsUpTo at hread
  split at hread
  next read behind hitems =>
  have htaken : s = Phrase.lexemesItems read ++ behind := by
    split at hitems
    · next item more hitem =>
        have hmore := h _ _ _ hs hitem
        obtain ⟨rfl, rfl⟩ := Prod.mk.inj hitems
        rw [hmore] at hs
        rw [Phrase.lexemesItems, List.append_assoc, ← takes_furtherItems h hs.append_right rfl,
          ← hmore]
    · obtain ⟨rfl, rfl⟩ := Prod.mk.inj hitems
      rfl
  split at hread
  · next c glued more =>
      split at hread
      · next hc =>
          subst hc
          obtain ⟨rfl, rfl⟩ := Prod.mk.inj (Option.some.inj hread)
          rw [htaken] at hs
          obtain rfl := hs.append_right.alone hclose
          exact htaken
      · cases hread
  · cases hread

theorem takes_primary (h : Takes nested) (turns : Nat) : Takes (primary nested turns) := by
  intro s p rest hs hread
  unfold primary at hread
  split at hread
  · next hliteral => exact takes_literal s p rest hs (hliteral.trans hread)
  · split at hread
    · next glued more _ =>
        split at hread
        · next items behind hitems =>
            obtain ⟨rfl, rfl⟩ := Prod.mk.inj (Option.some.inj hread)
            obtain rfl := hs.alone fun _ => rfl
            rw [takes_itemsUpTo h (fun _ => rfl) hs.tail hitems]
            simp [Phrase.lexemes]
        · cases hread
    · next glued more _ =>
        split at hread
        · next inner glued' behind hinner =>
            obtain ⟨rfl, rfl⟩ := Prod.mk.inj (Option.some.inj hread)
            have hmore := h _ _ _ hs.tail hinner
            have hbehind := hs.tail
            rw [hmore] at hbehind
            obtain rfl := hs.alone fun _ => rfl
            obtain rfl := hbehind.append_right.alone fun _ => rfl
            rw [hmore]
            simp [Phrase.lexemes]
        · cases hread
    · split at hread
      · next name behind hname =>
          obtain ⟨rfl, rfl⟩ := Prod.mk.inj (Option.some.inj hread)
          exact takes_identifier hname
      · cases hread

/-- One phrase goes on as another with what is taken. -/
def Extends (base : Phrase) (s : List Lexeme) (p : Phrase) (rest : List Lexeme) : Prop :=
  ∃ taken, p.lexemes = base.lexemes ++ taken ∧ s = taken ++ rest

theorem Extends.refl (base : Phrase) (s : List Lexeme) : Extends base s base s :=
  ⟨[], (List.append_nil _).symm, rfl⟩

theorem Extends.trans {base p q : Phrase} {s t rest : List Lexeme} (h : Extends base s p t)
    (h' : Extends p t q rest) : Extends base s q rest := by
  obtain ⟨taken, hp, rfl⟩ := h
  obtain ⟨more, hq, rfl⟩ := h'
  exact ⟨taken ++ more, by rw [hq, hp, List.append_assoc], (List.append_assoc _ _ _).symm⟩

theorem Extends.glued {base p : Phrase} {s rest : List Lexeme} (h : Extends base s p rest)
    (hs : Glued s) : Glued rest := by
  obtain ⟨taken, _, rfl⟩ := h
  exact hs.append_right

/-- What is taken behind a phrase that has been taken. -/
theorem Extends.taken {base p : Phrase} {s t rest : List Lexeme} (h : Extends base t p rest)
    (hs : s = base.lexemes ++ t) : s = p.lexemes ++ rest := by
  obtain ⟨taken, hp, rfl⟩ := h
  rw [hs, hp, List.append_assoc]

theorem takes_suffix (h : Takes nested) {base p : Phrase} {turns : Nat} {s rest : List Lexeme}
    (hs : Glued s) (hread : suffix nested base turns s = some (p, rest)) :
    Extends base s p rest := by
  unfold suffix at hread
  split at hread
  · next glued more =>
      split at hread
      · next property behind hproperty =>
          obtain ⟨rfl, rfl⟩ := Prod.mk.inj (Option.some.inj hread)
          obtain rfl := hs.alone fun _ => rfl
          exact ⟨_, rfl, by rw [takes_identifier hproperty]; rfl⟩
      · cases hread
  · next glued more =>
      split at hread
      · next key glued' behind hkey =>
          obtain ⟨rfl, rfl⟩ := Prod.mk.inj (Option.some.inj hread)
          have hmore := h _ _ _ hs.tail hkey
          have hbehind := hs.tail
          rw [hmore] at hbehind
          obtain rfl := hs.alone fun _ => rfl
          obtain rfl := hbehind.append_right.alone fun _ => rfl
          exact ⟨_, rfl, by rw [hmore]; simp⟩
      · cases hread
  · next glued more =>
      split at hread
      · next args behind hargs =>
          obtain ⟨rfl, rfl⟩ := Prod.mk.inj (Option.some.inj hread)
          obtain rfl := hs.alone fun _ => rfl
          exact ⟨_, rfl, by rw [takes_itemsUpTo h (fun _ => rfl) hs.tail hargs]; simp⟩
      · cases hread
  · cases hread

theorem takes_suffixes (h : Takes nested) {turns : Nat} {base p : Phrase} {s rest : List Lexeme}
    (hs : Glued s) (hread : suffixes nested turns base s = (p, rest)) :
    Extends base s p rest := by
  induction turns generalizing base s with
  | zero =>
      obtain ⟨rfl, rfl⟩ := Prod.mk.inj hread
      exact .refl _ _
  | succ turns ih =>
      unfold suffixes at hread
      split at hread
      · next longer behind hsuffix =>
          have hlonger := takes_suffix h hs hsuffix
          exact hlonger.trans (ih (hlonger.glued hs) hread)
      · obtain ⟨rfl, rfl⟩ := Prod.mk.inj hread
        exact .refl _ _

theorem takes_suffixed (h : Takes nested) (turns : Nat) : Takes (suffixed nested turns) := by
  intro s p rest hs hread
  unfold suffixed at hread
  split at hread
  · next base behind hbase =>
      have htaken := takes_primary h turns _ _ _ hs hbase
      rw [htaken] at hs
      exact (takes_suffixes h hs.append_right (Option.some.inj hread)).taken htaken
  · cases hread

theorem takes_unary (h : Takes nested) (turns : Nat) : Takes (unary nested turns) := by
  intro s p rest hs hread
  unfold unary at hread
  dsimp only at hread
  split at hread
  · next operand more hoperand =>
      obtain ⟨rfl, rfl⟩ := Prod.mk.inj (Option.some.inj hread)
      have htaken := takes_suffixed h turns _ _ _ (hs.suffix (signs_suffix s)) hoperand
      have hsigns := takes_signs hs (htaken ▸ operand.unjoined more)
      rw [htaken] at hsigns
      cases hops : (signs s).1 with
      | nil => simpa [hops] using hsigns
      | cons op ops => simpa [hops, Phrase.lexemes] using hsigns
  · cases hread

theorem takes_chainFrom {level : Level} {operand : Rule Phrase} (h : Takes operand) {turns : Nat}
    {left p : Phrase} {s rest : List Lexeme} (hs : Glued s)
    (hread : chainFrom (operator level) operand turns left s = (p, rest)) :
    Extends left s p rest := by
  induction turns generalizing left s with
  | zero =>
      obtain ⟨rfl, rfl⟩ := Prod.mk.inj hread
      exact .refl _ _
  | succ turns ih =>
      unfold chainFrom at hread
      split at hread
      · next op behind hop =>
          split at hread
          · next right more hright =>
              have htaken := h _ _ _ (hs.suffix (operator_suffix hop)) hright
              have hmarks := takes_operator hop hs (htaken ▸ right.unjoined more)
              rw [htaken] at hmarks
              have hlonger : Extends left s (.binary op left right) more :=
                ⟨_, rfl, by rw [hmarks, List.append_assoc]⟩
              exact hlonger.trans (ih (hlonger.glued hs) hread)
          · obtain ⟨rfl, rfl⟩ := Prod.mk.inj hread
            exact .refl _ _
      · obtain ⟨rfl, rfl⟩ := Prod.mk.inj hread
        exact .refl _ _

theorem takes_binary (h : Takes nested) (turns : Nat) (levels : List Level) :
    Takes (binary nested turns levels) := by
  induction levels with
  | nil => exact takes_unary h turns
  | cons level tighter ih =>
      intro s p rest hs hread
      unfold binary at hread
      split at hread
      · next left behind hleft =>
          have htaken := ih _ _ _ hs hleft
          rw [htaken] at hs
          exact (takes_chainFrom ih hs.append_right (Option.some.inj hread)).taken htaken
      · cases hread

theorem takes_conditional (h : Takes nested) (turns : Nat) : Takes (conditional nested turns) := by
  intro s p rest hs hread
  unfold conditional at hread
  split at hread
  · cases hread
  · next test behind htest =>
      have htaken := takes_binary h turns _ _ _ _ hs htest
      rw [htaken] at hs
      have hbehind := hs.append_right
      split at hread
      · next glued afterMark =>
          split at hread
          · next thenP glued' afterColon hthen =>
              split at hread
              · next elseP more helse =>
                  obtain ⟨rfl, rfl⟩ := Prod.mk.inj (Option.some.inj hread)
                  have hthenP := h _ _ _ hbehind.tail hthen
                  have hcolon := hbehind.tail
                  rw [hthenP] at hcolon
                  have helseP := h _ _ _ hcolon.append_right.tail helse
                  obtain rfl := hcolon.append_right.alone fun _ => rfl
                  rw [hthenP] at hbehind
                  obtain rfl := hbehind.single (thenP.unjoined _)
                  rw [htaken, hthenP, helseP]
                  simp [Phrase.lexemes]
              · obtain ⟨rfl, rfl⟩ := Prod.mk.inj (Option.some.inj hread)
                exact htaken
          · obtain ⟨rfl, rfl⟩ := Prod.mk.inj (Option.some.inj hread)
            exact htaken
      · obtain ⟨rfl, rfl⟩ := Prod.mk.inj (Option.some.inj hread)
        exact htaken

theorem takes_expression (depth : Nat) : Takes (expression depth) := by
  induction depth with
  | zero => exact fun _ _ _ _ hread => by cases hread
  | succ depth ih => exact takes_conditional ih (depth + 1)

/-! ### Sources -/

/-- The second half of an operator is a mark that begins no comment. -/
theorem isMark_of_joins {c d : Char} (h : joins c d = true) : IsMark d ∧ d ≠ '/' := by
  unfold joins at h
  split at h
  case h_8 => cases h
  all_goals decide

theorem lexeme_eq_glued {c d : Char} {rest : List Char} (h : (lexeme c rest).1 = .mark d true) :
    ∃ e more, rest = e :: more ∧ joins d e = true ∧ (lexeme c rest).2 = rest := by
  unfold lexeme at h ⊢
  split at h
  · exact absurd h (number_ne_mark _ _ _)
  · split at h
    · cases h
    · split at h
      · split at h
        · cases h
        · cases h
      · cases rest with
        | nil => cases h
        | cons e more =>
            obtain ⟨rfl, hjoins⟩ := Lexeme.mark.inj h
            exact ⟨e, more, rfl, hjoins, by simp [*]⟩

/-- In every source what is glued to the next mark has it right behind it. -/
theorem glued_tokens (cs : List Char) : Glued (tokens cs) := by
  induction hn : cs.length using Nat.strongRecOn generalizing cs with
  | ind n ih =>
      have hlength := skipLayout_length_le false cs
      intro d after hafter
      rw [tokens_eq] at hafter
      cases hlayout : skipLayout false cs with
      | nil =>
          rw [hlayout] at hafter
          cases List.suffix_nil.mp hafter
      | cons c rest =>
          rw [hlayout] at hafter hlength
          rw [List.length_cons] at hlength
          have hlexeme := lexeme_length c rest
          rcases List.suffix_cons_iff.mp hafter with hwhole | hlater
          · obtain ⟨hfirst, rfl⟩ := List.cons.inj hwhole
            obtain ⟨e, more, rfl, hjoins, hbehind⟩ := lexeme_eq_glued hfirst.symm
            obtain ⟨hmark, hslash⟩ := isMark_of_joins hjoins
            rw [hbehind, tokens_mark hmark (atLexeme_of_ne more hmark.1 hslash) rfl]
            exact ⟨e, _, _, rfl, hjoins⟩
          · exact ih _ (by omega) _ rfl d after hlater

/-- The lexemes of an expression are those of its phrase, perhaps with a semicolon behind them. -/
theorem lexemes_of_phrase? {source : String} {phrase : Phrase}
    (h : phrase? source = some phrase) :
    lexemes source = phrase.lexemes ∨ lexemes source = phrase.lexemes ++ [.mark ';' false] := by
  have hs : Glued (lexemes source) := glued_tokens source.toList
  unfold phrase? program at h
  split at h
  · next found hfound =>
      obtain rfl := Option.some.inj h
      have htaken := takes_expression _ _ _ _ hs hfound
      exact .inl (by rw [htaken, List.append_nil])
  · next found glued hfound =>
      obtain rfl := Option.some.inj h
      have htaken := takes_expression _ _ _ _ hs hfound
      rw [htaken] at hs
      obtain rfl := hs.append_right.alone fun _ => rfl
      exact .inr htaken
  · cases h

end Scriptlet.Grammar
