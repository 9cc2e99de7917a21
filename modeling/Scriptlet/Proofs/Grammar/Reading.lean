import Scriptlet.Proofs.Grammar.Writing

/-!
What the rules of the grammar make of the lexemes of a phrase: the phrase itself. A rule reads as
far as it can, so each statement says what may stand behind the phrase; `Ends` says that nothing
there is an operator that binds as tightly as a given rank.

The rules that repeat build their phrases from the left. So for them it is not enough to know that
they read a phrase: an operand that is itself such a row must be known to be read as the first part
of a longer one, with as many turns of the loop used up as it has operators. That is what the
statements with `chainFrom` and `suffixes` on their right sides are for.
-/

namespace Scriptlet.Grammar

/-! ### What stands behind a phrase -/

/-- Nothing of the rank or tighter goes on with the lexemes. -/
structure Ends (rank : Nat) (rest : List Lexeme) : Prop where
  operator : ∀ level : Level, rank ≤ level.rank → operator level rest = none
  suffix : ∀ nested base turns, suffix nested base turns rest = none
  question : rank = 0 → ∀ glued more, rest ≠ .mark '?' glued :: more

theorem Ends.mono {rank tighter : Nat} {rest : List Lexeme} (h : Ends rank rest)
    (hle : rank ≤ tighter) : Ends tighter rest :=
  ⟨fun level hlevel => h.operator level (Nat.le_trans hle hlevel), h.suffix,
    fun hzero => h.question (by omega)⟩

theorem ends_nil (rank : Nat) : Ends rank [] :=
  ⟨fun level _ => by cases level <;> rfl, fun _ _ _ => rfl, fun _ _ _ h => by cases h⟩

theorem ends_close {c : Char} (hc : c = ')' ∨ c = ']' ∨ c = ',' ∨ c = ':') (glued : Bool)
    (more : List Lexeme) : Ends 0 (.mark c glued :: more) := by
  rcases hc with rfl | rfl | rfl | rfl <;>
    exact ⟨fun level _ => by cases level <;> rfl, fun _ _ _ => rfl, fun _ _ _ h => by
      injection h with h _
      injection h with h _
      exact absurd h (by decide)⟩

/-- A lone question mark is no operator between two operands. -/
theorem ends_question (more : List Lexeme) : Ends 1 (.mark '?' false :: more) :=
  ⟨fun level _ => by cases level <;> rfl, fun _ _ _ => rfl, fun h => by omega⟩

theorem operator_marks (op : BinaryOp) (more : List Lexeme) :
    operator op.level (marks op.symbol.toList ++ more) = some (op, more) := by
  cases op <;> rfl

/-- An operator goes on with nothing that binds more tightly. -/
theorem ends_operator (op : BinaryOp) (more : List Lexeme) :
    Ends (op.level.rank + 1) (marks op.symbol.toList ++ more) := by
  refine ⟨?_, ?_, fun h => by omega⟩
  · intro level hlevel
    cases op <;> cases level <;> first | rfl | exact absurd hlevel (by decide)
  · intro nested base turns
    cases op <;> rfl

/-! ### The rules of one depth -/

/-- The rule for phrases of a rank from one to eight. -/
def atRank (fuel rank : Nat) : Rule Phrase :=
  binary (expression fuel) (fuel + 1) (Level.all.drop (rank - 1))

theorem atRank_level (fuel : Nat) (level : Level) (s : List Lexeme) :
    atRank fuel level.rank s =
      match atRank fuel (level.rank + 1) s with
      | some (left, rest) =>
          some (chainFrom (operator level) (atRank fuel (level.rank + 1)) (fuel + 1) left rest)
      | none => none := by
  cases level <;> rfl

theorem expression_succ (fuel : Nat) (s : List Lexeme) :
    expression (fuel + 1) s = conditional (expression fuel) (fuel + 1) s := rfl

theorem chainFrom_of_none {op : Rule BinaryOp} {operand : Rule Phrase} {s : List Lexeme}
    (h : op s = none) (turns : Nat) (left : Phrase) :
    chainFrom op operand turns left s = (left, s) := by
  cases turns with
  | zero => rfl
  | succ turns => simp only [chainFrom, h]

theorem suffixes_of_ends {rank : Nat} {s : List Lexeme} (h : Ends rank s) (nested : Rule Phrase)
    (turns : Nat) (base : Phrase) : suffixes nested turns base s = (base, s) := by
  cases turns with
  | zero => rfl
  | succ turns => simp only [suffixes, h.suffix]

theorem exists_level : ∀ rank, 1 ≤ rank → rank ≤ 7 → ∃ level : Level, level.rank = rank
  | 0, h, _ => absurd h (by decide)
  | 1, _, _ => ⟨.coalesce, rfl⟩
  | 2, _, _ => ⟨.or, rfl⟩
  | 3, _, _ => ⟨.and, rfl⟩
  | 4, _, _ => ⟨.equality, rfl⟩
  | 5, _, _ => ⟨.comparison, rfl⟩
  | 6, _, _ => ⟨.additive, rfl⟩
  | 7, _, _ => ⟨.multiplicative, rfl⟩
  | rank + 8, _, h => absurd h (by omega)

theorem rank_le (level : Level) : 1 ≤ level.rank ∧ level.rank ≤ 7 := by
  cases level <;> decide

/-! ### Being read -/

/-- The rules of a depth read the phrase, each as far as it should. -/
structure Read (fuel : Nat) (p : Phrase) : Prop where
  /-- With suffixes to follow. -/
  spine : 9 ≤ p.rank → ∃ n < p.lexemes.length, ∀ rest,
    suffixed (expression fuel) (fuel + 1) (p.lexemes ++ rest) =
      some (suffixes (expression fuel) (fuel + 1 - n) p rest)
  /-- With operators of a level to follow. -/
  chain : ∀ level : Level, level.rank ≤ p.rank → ∃ n < p.lexemes.length, ∀ rest,
    Ends (level.rank + 1) rest →
      atRank fuel level.rank (p.lexemes ++ rest) =
        some (chainFrom (operator level) (atRank fuel (level.rank + 1)) (fuel + 1 - n) p rest)
  tier : ∀ rank, 1 ≤ rank → rank ≤ 8 → rank ≤ p.rank → ∀ rest, Ends rank rest →
    atRank fuel rank (p.lexemes ++ rest) = some (p, rest)
  whole : ∀ rest, Ends 0 rest → expression (fuel + 1) (p.lexemes ++ rest) = some (p, rest)

variable {fuel : Nat} {p : Phrase}

/-- The rule of a looser rank reads what that of the next one does, if no operator follows. -/
theorem tier_of_tighter {top rank : Nat}
    (htop : ∀ rest, Ends top rest → atRank fuel top (p.lexemes ++ rest) = some (p, rest))
    (hle : top ≤ 8) (hrank : rank ≤ top) (hpos : 1 ≤ rank) :
    ∀ rest, Ends rank rest → atRank fuel rank (p.lexemes ++ rest) = some (p, rest) := by
  obtain ⟨steps, rfl⟩ := Nat.exists_eq_add_of_le hrank
  induction steps generalizing rank with
  | zero => exact htop
  | succ steps ih =>
      intro rest hrest
      obtain ⟨level, rfl⟩ := exists_level rank hpos (by omega)
      have hsteps : level.rank + (steps + 1) = level.rank + 1 + steps := by omega
      rw [hsteps] at htop
      have htighter := ih (by omega) htop (by omega) (by omega) rest (hrest.mono (Nat.le_succ _))
      rw [atRank_level, htighter]
      simp only [chainFrom_of_none (hrest.operator level (Nat.le_refl _))]

theorem whole_of_tier
    (htier : ∀ rest, Ends 1 rest → atRank fuel 1 (p.lexemes ++ rest) = some (p, rest)) :
    ∀ rest, Ends 0 rest → expression (fuel + 1) (p.lexemes ++ rest) = some (p, rest) := by
  intro rest hrest
  have hread : binary (expression fuel) (fuel + 1) Level.all (p.lexemes ++ rest) = some (p, rest) :=
    htier rest (hrest.mono (Nat.zero_le _))
  simp only [expression_succ, conditional, hread]
  split
  · next glued more => exact absurd rfl (hrest.question rfl glued more)
  · rfl

theorem chain_of_tighter (hpos : 0 < p.lexemes.length) {level : Level}
    (htighter : ∀ rest, Ends (level.rank + 1) rest →
      atRank fuel (level.rank + 1) (p.lexemes ++ rest) = some (p, rest)) :
    ∃ n < p.lexemes.length, ∀ rest, Ends (level.rank + 1) rest →
      atRank fuel level.rank (p.lexemes ++ rest) =
        some (chainFrom (operator level) (atRank fuel (level.rank + 1)) (fuel + 1 - n) p rest) := by
  refine ⟨0, hpos, fun rest hrest => ?_⟩
  rw [atRank_level, htighter rest hrest]
  rfl

/-- A row of signs and an operand without one are read as soon as the rule for them does. -/
theorem Read.of_unary (hpos : 0 < p.lexemes.length)
    (hspine : 9 ≤ p.rank → ∃ n < p.lexemes.length, ∀ rest,
      suffixed (expression fuel) (fuel + 1) (p.lexemes ++ rest) =
        some (suffixes (expression fuel) (fuel + 1 - n) p rest))
    (hunary : ∀ rest, Ends 8 rest →
      unary (expression fuel) (fuel + 1) (p.lexemes ++ rest) = some (p, rest)) : Read fuel p := by
  have htier : ∀ rank, 1 ≤ rank → rank ≤ 8 → ∀ rest, Ends rank rest →
      atRank fuel rank (p.lexemes ++ rest) = some (p, rest) := by
    intro rank hone height
    exact tier_of_tighter hunary (Nat.le_refl _) height hone
  refine ⟨hspine, ?_, fun rank hone height _ => htier rank hone height,
    whole_of_tier (htier 1 (by omega) (by omega))⟩
  intro level _
  have hlevel := rank_le level
  exact chain_of_tighter hpos (htier _ (by omega) (by omega))

/-- A phrase with an operator is read as soon as the rule of its level reads it as the first of a
row. -/
theorem Read.of_chain (hpos : 0 < p.lexemes.length) {level : Level} (hrank : p.rank = level.rank)
    (hchain : ∃ n < p.lexemes.length, ∀ rest, Ends (level.rank + 1) rest →
      atRank fuel level.rank (p.lexemes ++ rest) =
        some (chainFrom (operator level) (atRank fuel (level.rank + 1)) (fuel + 1 - n) p rest)) :
    Read fuel p := by
  have hlevel := rank_le level
  have htop : ∀ rest, Ends level.rank rest →
      atRank fuel level.rank (p.lexemes ++ rest) = some (p, rest) := by
    obtain ⟨n, _, hread⟩ := hchain
    intro rest hrest
    rw [hread rest (hrest.mono (Nat.le_succ _)),
      chainFrom_of_none (hrest.operator level (Nat.le_refl _))]
  have htier : ∀ rank, 1 ≤ rank → rank ≤ level.rank → ∀ rest, Ends rank rest →
      atRank fuel rank (p.lexemes ++ rest) = some (p, rest) := by
    intro rank hone hle
    exact tier_of_tighter htop (by omega) hle hone
  refine ⟨fun h => by omega, ?_, fun rank hone _ hle => htier rank hone (hrank ▸ hle),
    whole_of_tier (htier 1 (by omega) (by omega))⟩
  intro other hother
  rcases Nat.lt_or_eq_of_le (hrank ▸ hother) with hlt | heq
  · exact chain_of_tighter hpos (htier _ (by omega) hlt)
  · have hsame : other = level := by
      revert heq
      cases other <;> cases level <;> decide
    exact hsame ▸ hchain

/-- Read at every depth that the number of its lexemes allows. -/
def Readable (p : Phrase) : Prop :=
  ∀ fuel, p.lexemes.length ≤ fuel + 1 → Read fuel p

theorem length_lexemes_pos (p : Phrase) : 0 < p.lexemes.length := by
  match p with
  | .null | .bool _ | .integer _ | .float _ | .string _ | .name _ => exact Nat.one_pos
  | .list _ | .group _ => exact Nat.succ_pos _
  | .member .. | .index .. | .call .. | .conditional .. =>
      simp only [Phrase.lexemes, List.length_append, List.length_cons]
      omega
  | .signed signs operand =>
      have hoperand := length_lexemes_pos operand
      simp only [Phrase.lexemes, List.length_append]
      omega
  | .binary op left right =>
      have hleft := length_lexemes_pos left
      simp only [Phrase.lexemes, List.length_append]
      omega

/-- Inside brackets and branches one depth less is left, and one lexeme less. -/
theorem Readable.nested (h : Readable p) (hlength : p.lexemes.length ≤ fuel) {rest : List Lexeme}
    (hrest : Ends 0 rest) : expression fuel (p.lexemes ++ rest) = some (p, rest) := by
  have hpos := length_lexemes_pos p
  cases fuel with
  | zero => omega
  | succ below => exact (h below hlength).whole rest hrest

/-! ### Operands and their suffixes -/

/-- Nothing that is read as an operand begins with a sign. -/
theorem signs_lexemes (p : Phrase) (hrank : 9 ≤ p.rank) (hp : p.Proper) (rest : List Lexeme) :
    signs (p.lexemes ++ rest) = ([], p.lexemes ++ rest) := by
  match p with
  | .null | .bool _ | .integer _ | .float _ | .string _ | .name _ | .list _ | .group _ => rfl
  | .member object property =>
      rw [Phrase.lexemes, List.append_assoc]
      exact signs_lexemes object hp.2.1 hp.1 _
  | .index object key =>
      rw [Phrase.lexemes, List.append_assoc]
      exact signs_lexemes object hp.2.1 hp.1 _
  | .call callee args =>
      rw [Phrase.lexemes, List.append_assoc]
      exact signs_lexemes callee hp.2.1 hp.1 _
  | .signed _ _ => exact absurd hrank (by simp [Phrase.rank])
  | .binary op _ _ =>
      have hlevel := rank_le op.level
      simp only [Phrase.rank] at hrank
      omega
  | .conditional .. => exact absurd hrank (by simp [Phrase.rank])

theorem signs_append (ops : List UnaryOp) (s : List Lexeme) :
    signs (ops.flatMap (marks ·.symbol.toList) ++ s) = (ops ++ (signs s).1, (signs s).2) := by
  induction ops with
  | nil => rfl
  | cons op ops ih =>
      rw [List.flatMap_cons, List.append_assoc]
      have hone : ∀ s, signs (marks op.symbol.toList ++ s) = (op :: (signs s).1, (signs s).2) := by
        intro s
        cases op <;> rfl
      rw [hone, ih]
      rfl

theorem Read.of_spine
    (hspine : ∃ n < p.lexemes.length, ∀ rest,
      suffixed (expression fuel) (fuel + 1) (p.lexemes ++ rest) =
        some (suffixes (expression fuel) (fuel + 1 - n) p rest))
    (hsigns : ∀ rest, signs (p.lexemes ++ rest) = ([], p.lexemes ++ rest)) : Read fuel p := by
  refine Read.of_unary (length_lexemes_pos p) (fun _ => hspine) ?_
  obtain ⟨n, _, hread⟩ := hspine
  intro rest hrest
  simp only [unary, hsigns, hread, suffixes_of_ends hrest]
  rfl

/-- A phrase that the rule for primaries reads. -/
theorem Read.of_primary
    (hprimary : ∀ rest, primary (expression fuel) (fuel + 1) (p.lexemes ++ rest) = some (p, rest))
    (hsigns : ∀ rest, signs (p.lexemes ++ rest) = ([], p.lexemes ++ rest)) : Read fuel p := by
  refine Read.of_spine ⟨0, length_lexemes_pos p, fun rest => ?_⟩ hsigns
  simp only [suffixed, hprimary, Nat.sub_zero]

theorem identifier_word {name : String} (h : IsIdentifier name) (rest : List Lexeme) :
    identifier (.word name :: rest) = some (name, rest) := by
  simp only [identifier, h.2, Bool.false_eq_true, if_false]

theorem readable_name {name : String} (h : IsIdentifier name) : Readable (.name name) := by
  intro fuel _
  refine Read.of_primary (fun rest => ?_) fun _ => rfl
  have hkeyword := h.2
  simp only [isKeyword, Bool.or_eq_false_iff] at hkeyword
  obtain ⟨⟨htrue, hfalse⟩, hnull⟩ := hkeyword
  have hliteral : literal (.word name :: rest) = none := by
    simp [literal, htrue, hfalse, hnull]
  simp only [Phrase.lexemes, List.cons_append, List.nil_append, primary, hliteral,
    identifier_word h]

theorem expression_close {c : Char} (hc : c = ')' ∨ c = ']') (fuel : Nat) (glued : Bool)
    (rest : List Lexeme) : expression fuel (.mark c glued :: rest) = none := by
  cases fuel with
  | zero => rfl
  | succ fuel => rcases hc with rfl | rfl <;> rfl

theorem length_le_lexemesFurther (items : List Phrase) :
    items.length ≤ (Phrase.lexemesFurther items).length := by
  induction items with
  | nil => exact Nat.le_refl _
  | cons item more ih =>
      simp only [Phrase.lexemesFurther, List.length_cons, List.length_append]
      omega

theorem ends_further (items : List Phrase) {c : Char} (hc : c = ')' ∨ c = ']') (glued : Bool)
    (rest : List Lexeme) : Ends 0 (Phrase.lexemesFurther items ++ .mark c glued :: rest) := by
  cases items with
  | nil => exact ends_close (hc.imp_right Or.inl) glued rest
  | cons item more => exact ends_close (by simp) false _

theorem furtherItems_lexemes {items : List Phrase} (hitems : ∀ item ∈ items, Readable item)
    {turns : Nat} (hturns : items.length ≤ turns)
    (hlength : (Phrase.lexemesFurther items).length ≤ fuel) {c : Char} (hc : c = ')' ∨ c = ']')
    (glued : Bool) (rest : List Lexeme) :
    furtherItems (expression fuel) turns
        (Phrase.lexemesFurther items ++ .mark c glued :: rest) =
      (items, .mark c glued :: rest) := by
  induction items generalizing turns with
  | nil =>
      cases turns with
      | zero => rfl
      | succ turns => rcases hc with rfl | rfl <;> rfl
  | cons item more ih =>
      simp only [Phrase.lexemesFurther, List.length_cons, List.length_append] at hlength hturns
      cases turns with
      | zero => omega
      | succ turns =>
          have hlast := ends_further more hc glued rest
          have hfirst : item.lexemes.length ≤ fuel := by omega
          have hitem := (hitems item (by simp)).nested hfirst hlast
          have hturns' : more.length ≤ turns := by omega
          have hmore := ih (fun other hother => hitems other (by simp [hother])) hturns' (by omega)
          simp only [Phrase.lexemesFurther, List.cons_append, List.append_assoc, furtherItems,
            hitem, hmore]

theorem itemsUpTo_lexemes {items : List Phrase} (hitems : ∀ item ∈ items, Readable item)
    {turns : Nat} (hturns : (Phrase.lexemesItems items).length ≤ turns)
    (hlength : (Phrase.lexemesItems items).length ≤ fuel) {c : Char} (hc : c = ')' ∨ c = ']')
    (glued : Bool) (rest : List Lexeme) :
    itemsUpTo (expression fuel) c turns (Phrase.lexemesItems items ++ .mark c glued :: rest) =
      some (items, rest) := by
  cases items with
  | nil =>
      simp only [Phrase.lexemesItems, List.nil_append, itemsUpTo, expression_close hc, if_true]
  | cons item more =>
      simp only [Phrase.lexemesItems, List.length_append] at hlength hturns
      have hcount := length_le_lexemesFurther more
      have hlast := ends_further more hc glued rest
      have hfirst : item.lexemes.length ≤ fuel := by omega
      have hitem := (hitems item (by simp)).nested hfirst hlast
      have hothers : ∀ other ∈ more, Readable other := fun other hother =>
        hitems other (by simp [hother])
      have hturns' : more.length ≤ turns := by omega
      have hlength' : (Phrase.lexemesFurther more).length ≤ fuel := by omega
      have hmore := furtherItems_lexemes hothers hturns' hlength' hc glued rest
      simp only [Phrase.lexemesItems, List.append_assoc, itemsUpTo, hitem, hmore, if_true]

theorem readable_list {items : List Phrase} (hitems : ∀ item ∈ items, Readable item) :
    Readable (.list items) := by
  intro fuel hlength
  refine Read.of_primary (fun rest => ?_) fun _ => rfl
  simp only [Phrase.lexemes, List.length_cons, List.length_append, List.length_nil] at hlength
  have hturns : (Phrase.lexemesItems items).length ≤ fuel + 1 := by omega
  have hinside : (Phrase.lexemesItems items).length ≤ fuel := by omega
  have hread := itemsUpTo_lexemes hitems hturns hinside (Or.inr rfl) false rest
  simp only [Phrase.lexemes, List.cons_append, List.append_assoc, List.nil_append, primary, literal,
    hread]

theorem readable_group {inner : Phrase} (hinner : Readable inner) : Readable (.group inner) := by
  intro fuel hlength
  refine Read.of_primary (fun rest => ?_) fun _ => rfl
  simp only [Phrase.lexemes, List.length_cons, List.length_append, List.length_nil] at hlength
  have hinside : inner.lexemes.length ≤ fuel := by omega
  have hread := hinner.nested hinside (ends_close (Or.inl rfl) false rest)
  simp only [Phrase.lexemes, List.cons_append, List.append_assoc, List.nil_append, primary, literal,
    hread]

/-- One more suffix behind an operand that is read with suffixes to follow. -/
theorem spine_suffix {base whole : Phrase} {more : List Lexeme} (hbase : Readable base)
    (hrank : 9 ≤ base.rank) (hwhole : whole.lexemes = base.lexemes ++ more)
    (hlength : whole.lexemes.length ≤ fuel + 1) (hmore : 0 < more.length)
    (hsuffix : ∀ turns rest, more.length ≤ turns + 1 →
      suffix (expression fuel) base turns (more ++ rest) = some (whole, rest)) :
    ∃ n < whole.lexemes.length, ∀ rest,
      suffixed (expression fuel) (fuel + 1) (whole.lexemes ++ rest) =
        some (suffixes (expression fuel) (fuel + 1 - n) whole rest) := by
  rw [hwhole, List.length_append] at hlength
  obtain ⟨n, hn, hread⟩ := (hbase fuel (by omega)).spine hrank
  refine ⟨n + 1, ?_, fun rest => ?_⟩
  · rw [hwhole, List.length_append]
    omega
  · obtain ⟨turns, hturns⟩ := Nat.exists_eq_add_of_lt (show n < fuel + 1 by omega)
    have hleft : fuel + 1 - n = turns + 1 := by omega
    have hnext : fuel + 1 - (n + 1) = turns := by omega
    rw [hwhole, List.append_assoc, hread, hleft, hnext, suffixes,
      hsuffix turns rest (by omega)]

theorem readable_member {object : Phrase} {property : String} (hobject : Readable object)
    (hp : (Phrase.member object property).Proper) : Readable (.member object property) := by
  have hrank := hp.2.1
  have hname := hp.2.2
  intro fuel hlength
  refine Read.of_spine ?_ (signs_lexemes _ (Nat.le_refl _) hp)
  refine spine_suffix hobject hrank rfl hlength (by simp) fun turns rest _ => ?_
  simp only [List.cons_append, List.nil_append, suffix, identifier_word hname]

theorem readable_index {object key : Phrase} (hobject : Readable object) (hkey : Readable key)
    (hp : (Phrase.index object key).Proper) : Readable (.index object key) := by
  have hrank := hp.2.1
  intro fuel hlength
  refine Read.of_spine ?_ (signs_lexemes _ (Nat.le_refl _) hp)
  refine spine_suffix hobject hrank rfl hlength (by simp) fun turns rest _ => ?_
  have hpos := length_lexemes_pos object
  simp only [Phrase.lexemes, List.length_cons, List.length_append, List.length_nil] at hlength
  have hinside : key.lexemes.length ≤ fuel := by omega
  have hread := hkey.nested hinside (ends_close (Or.inr (Or.inl rfl)) false rest)
  simp only [List.cons_append, List.append_assoc, List.nil_append, suffix, hread]

theorem readable_call {callee : Phrase} {args : List Phrase} (hcallee : Readable callee)
    (hargs : ∀ arg ∈ args, Readable arg) (hp : (Phrase.call callee args).Proper) :
    Readable (.call callee args) := by
  have hrank := hp.2.1
  intro fuel hlength
  refine Read.of_spine ?_ (signs_lexemes _ (Nat.le_refl _) hp)
  refine spine_suffix hcallee hrank rfl hlength (by simp) fun turns rest hturns => ?_
  simp only [Phrase.lexemes, List.length_cons, List.length_append, List.length_nil]
    at hlength hturns
  have hturns' : (Phrase.lexemesItems args).length ≤ turns := by omega
  have hinside : (Phrase.lexemesItems args).length ≤ fuel := by omega
  have hread := itemsUpTo_lexemes hargs hturns' hinside (Or.inl rfl) false rest
  simp only [List.cons_append, List.append_assoc, List.nil_append, suffix, hread]

/-! ### Signs, operators and branches -/

theorem readable_signed {ops : List UnaryOp} {operand : Phrase} (hoperand : Readable operand)
    (hp : (Phrase.signed ops operand).Proper) : Readable (.signed ops operand) := by
  obtain ⟨hsigns, hproper, hrank⟩ := hp
  intro fuel hlength
  refine Read.of_unary (length_lexemes_pos _) (fun h => absurd h (by simp [Phrase.rank]))
    fun rest hrest => ?_
  simp only [Phrase.lexemes, List.length_append] at hlength
  obtain ⟨n, _, hread⟩ := (hoperand fuel (by omega)).spine hrank
  have hempty : ops.isEmpty = false := by
    rw [List.isEmpty_eq_false_iff]
    exact hsigns
  simp only [Phrase.lexemes, List.append_assoc, unary, signs_append,
    signs_lexemes operand hrank hproper, List.append_nil, hread, suffixes_of_ends hrest, hempty,
    Bool.false_eq_true, if_false]

theorem readable_binary {op : BinaryOp} {left right : Phrase} (hleft : Readable left)
    (hright : Readable right) (hp : (Phrase.binary op left right).Proper) :
    Readable (.binary op left right) := by
  obtain ⟨_, hlrank, _, hrrank⟩ := hp
  have hlevel := rank_le op.level
  have hpos : 0 < (marks op.symbol.toList).length := by cases op <;> decide
  intro fuel hlength
  have hrank : (Phrase.binary op left right).rank = op.level.rank := rfl
  refine Read.of_chain (length_lexemes_pos _) hrank ?_
  simp only [Phrase.lexemes, List.length_append] at hlength
  obtain ⟨n, hn, hread⟩ := (hleft fuel (by omega)).chain op.level hlrank
  refine ⟨n + 1, ?_, fun rest hrest => ?_⟩
  · simp only [Phrase.lexemes, List.length_append]
    omega
  · have hoperand := (hright fuel (by omega)).tier (op.level.rank + 1) (by omega) (by omega) hrrank
      rest hrest
    have hleft : fuel + 1 - n = fuel + 1 - (n + 1) + 1 := by omega
    simp only [Phrase.lexemes, List.append_assoc]
    rw [hread _ (ends_operator op _), hleft, chainFrom, operator_marks]
    simp only [hoperand]

theorem readable_conditional {test thenP elseP : Phrase} (htest : Readable test)
    (hthen : Readable thenP) (helse : Readable elseP)
    (hp : (Phrase.conditional test thenP elseP).Proper) :
    Readable (.conditional test thenP elseP) := by
  obtain ⟨_, hrank, _, _⟩ := hp
  intro fuel hlength
  simp only [Phrase.lexemes, List.length_cons, List.length_append] at hlength
  refine ⟨fun h => absurd h (by simp [Phrase.rank]), fun level h => ?_, fun rank hone _ h => ?_,
    fun rest hrest => ?_⟩
  · have hlevel := rank_le level
    simp only [Phrase.rank] at h
    omega
  · simp only [Phrase.rank] at h
    omega
  · have hread := (htest fuel (by omega)).tier 1 (Nat.le_refl _) (by decide) hrank
      (.mark '?' false :: (thenP.lexemes ++ .mark ':' false :: (elseP.lexemes ++ rest)))
      (ends_question _)
    have hthen' : thenP.lexemes.length ≤ fuel := by omega
    have helse' : elseP.lexemes.length ≤ fuel := by omega
    have hcolon := hthen.nested hthen'
      (ends_close (c := ':') (by simp) false (elseP.lexemes ++ rest))
    have hlast := helse.nested helse' hrest
    change binary (expression fuel) (fuel + 1) Level.all _ = _ at hread
    simp only [Phrase.lexemes, List.cons_append, List.append_assoc, expression_succ, conditional,
      hread, hcolon, hlast]

theorem readable_atom {l : Lexeme} (hlexemes : p.lexemes = [l])
    (hliteral : ∀ rest, literal (l :: rest) = some (p, rest))
    (hsigns : ∀ rest, signs (l :: rest) = ([], l :: rest)) : Readable p := by
  intro fuel _
  refine Read.of_primary (fun rest => ?_) fun rest => ?_
  · simp only [hlexemes, List.cons_append, List.nil_append, primary, hliteral]
  · rw [hlexemes]
    exact hsigns rest

mutual

/-- The rules read every phrase whose parts bind as tightly as their places ask for. -/
theorem Phrase.readable (p : Phrase) (hp : p.Proper) : Readable p := by
  match p with
  | .null => exact readable_atom rfl (fun _ => rfl) fun _ => rfl
  | .bool true => exact readable_atom rfl (fun _ => rfl) fun _ => rfl
  | .bool false => exact readable_atom rfl (fun _ => rfl) fun _ => rfl
  | .integer _ => exact readable_atom rfl (fun _ => rfl) fun _ => rfl
  | .float _ => exact readable_atom rfl (fun _ => rfl) fun _ => rfl
  | .string _ => exact readable_atom rfl (fun _ => rfl) fun _ => rfl
  | .name _ => exact readable_name hp
  | .list items => exact readable_list (readableItems items hp)
  | .group inner => exact readable_group (inner.readable hp)
  | .member object _ => exact readable_member (object.readable hp.1) hp
  | .index object key => exact readable_index (object.readable hp.1) (key.readable hp.2.2) hp
  | .call callee args =>
      exact readable_call (callee.readable hp.1) (readableItems args hp.2.2) hp
  | .signed _ operand => exact readable_signed (operand.readable hp.2.1) hp
  | .binary _ left right =>
      exact readable_binary (left.readable hp.1) (right.readable hp.2.2.1) hp
  | .conditional test thenP elseP =>
      exact readable_conditional (test.readable hp.1) (thenP.readable hp.2.2.1)
        (elseP.readable hp.2.2.2) hp

theorem Phrase.readableItems (items : List Phrase) (hitems : ProperItems items) :
    ∀ item ∈ items, Readable item := by
  match items with
  | [] => exact fun _ h => absurd h (by simp)
  | first :: more =>
      have hfirst := first.readable hitems.1
      have hmore := readableItems more hitems.2
      intro item hitem
      rcases List.mem_cons.mp hitem with rfl | hlater
      · exact hfirst
      · exact hmore item hlater

end

/-- The lexemes of a phrase are a program, whose phrase it is. -/
theorem Phrase.program_lexemes (p : Phrase) (hp : p.Proper) : program p.lexemes = some p := by
  have hread := (p.readable hp p.lexemes.length (Nat.le_succ _)).whole [] (ends_nil 0)
  rw [List.append_nil] at hread
  simp only [program, hread]

end Scriptlet.Grammar
