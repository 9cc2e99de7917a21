import Scriptlet.Proofs.Grammar.Agreement

/-!
Rules put together. The rules of the reader are made of parts in a row, of alternatives and of
repetitions, as the parsing expressions are, and agreement passes from the parts to the whole. Each
rule of the reader is written out here in terms of its parts.
-/

namespace Scriptlet.Grammar

variable {α β : Type} {source cs : List Char}

/-! ### Putting rules together -/

/-- A mark by itself. -/
def markOf (c : Char) : Rule Unit
  | .mark d _ :: rest => if d = c then some ((), rest) else none
  | _ => none

theorem markOf_here (c : Char) (glued : Bool) (rest : List Lexeme) :
    markOf c (.mark c glued :: rest) = some ((), rest) :=
  if_pos rfl

theorem markOf_other {c : Char} {s : List Lexeme} (h : ∀ glued rest, s ≠ .mark c glued :: rest) :
    markOf c s = none := by
  unfold markOf
  split
  · next d glued rest =>
      apply if_neg
      rintro rfl
      exact h glued rest rfl
  · rfl

/-- One rule behind another. -/
def followed (first : Rule α) (second : Rule β) : Rule (α × β) := fun s =>
  match first s with
  | some (a, rest) => (second rest).map fun (b, rest) => ((a, b), rest)
  | none => none

/-- The nodes of two parts in a row. -/
def InRow (First : α → List Node → Prop) (Second : β → List Node → Prop) (ab : α × β)
    (nodes : List Node) : Prop :=
  ∃ front back, nodes = front ++ back ∧ First ab.1 front ∧ Second ab.2 back

/-- A mark gives no node. -/
def NoNode (_ : Unit) (nodes : List Node) : Prop :=
  nodes = []

theorem agrees_mark {c : Char} (hc : IsMark c) (h : AtLexeme cs) :
    Agrees source (.text [c]) cs NoNode (markOf c (tokens cs)) := by
  rcases mark_or_not hc h with ⟨rest, glued, rfl, htokens⟩ | ⟨hhead, hno⟩
  · rw [htokens, markOf_here]
    refine .reads (.text [c] rest) ?_ rfl
    rw [htokens]
    exact Nat.lt_succ_self _
  · rw [markOf_other hno]
    refine .fails (.no_text ?_)
    rintro ⟨rest, rfl⟩
    exact hhead rfl

theorem Agrees.imp {peg : Peg} {result : Option (α × List Lexeme)}
    {Means Means' : α → List Node → Prop} (h : Agrees source peg cs Means result)
    (himp : ∀ a nodes, Means a nodes → Means' a nodes) : Agrees source peg cs Means' result := by
  cases h with
  | reads hread hlength hnodes => exact .reads hread hlength (himp _ _ hnodes)
  | fails hread => exact .fails hread

theorem Agrees.map {peg : Peg} {result : Option (α × List Lexeme)} {Means : α → List Node → Prop}
    {Means' : β → List Node → Prop} (h : Agrees source peg cs Means result) (f : α → β)
    (hmeans : ∀ a nodes, Means a nodes → Means' (f a) nodes) :
    Agrees source peg cs Means' (result.map fun (a, s) => (f a, s)) := by
  cases h with
  | reads hread hlength hnodes => exact .reads hread hlength (hmeans _ _ hnodes)
  | fails hread => exact .fails hread

theorem Agrees.orElse {first second : Peg} {result result' : Option (α × List Lexeme)}
    {Means : α → List Node → Prop} (h : Agrees source first cs Means result)
    (h' : Agrees source second cs Means result') :
    Agrees source (.choice first second) cs Means (result <|> result') := by
  cases h with
  | reads hread hlength hnodes => exact .reads (.choice_first hread) hlength hnodes
  | fails hread =>
      cases h' with
      | reads hread' hlength hnodes => exact .reads (.choice_second hread hread') hlength hnodes
      | fails hread' => exact .fails (.choice_second hread hread')

/-- The second part stands behind a gap, and fewer lexemes are left for it. -/
theorem Agrees.next {first second : Peg} {firstRule : Rule α} {secondRule : Rule β}
    {First : α → List Node → Prop} {Second : β → List Node → Prop}
    (h : Agrees source first cs First (firstRule (tokens cs)))
    (h' : ∀ rest, AtLexeme rest → (tokens rest).length < (tokens cs).length →
      Agrees source second rest Second (secondRule (tokens rest))) :
    Agrees source (first.next second) cs (InRow First Second)
      (followed firstRule secondRule (tokens cs)) := by
  unfold followed
  generalize firstRule (tokens cs) = result at h
  cases h with
  | @reads a nodes mid hread hlength hnodes =>
      have hsecond := h' _ (atLexeme_skipLayout mid) (by rwa [tokens_skipLayout])
      rw [tokens_skipLayout] at hsecond
      dsimp only
      generalize secondRule (tokens mid) = result' at hsecond ⊢
      cases hsecond with
      | reads hread' hlength' hnodes' =>
          rw [tokens_skipLayout] at hlength'
          exact .reads (reads_next hread hread') (Nat.lt_trans hlength' hlength)
            ⟨_, _, rfl, hnodes, hnodes'⟩
      | fails hread' => exact .fails (no_next_second hread hread')
  | fails hread => exact .fails (no_next_first hread)

/-- A part between two others that are marks, or behind one. -/
theorem inRow_mark {Means : α → List Node → Prop} {ab : Unit × α} {nodes : List Node} :
    InRow NoNode Means ab nodes ↔ Means ab.2 nodes := by
  constructor
  · rintro ⟨front, back, rfl, rfl, hback⟩
    exact hback
  · exact fun h => ⟨[], nodes, rfl, rfl, h⟩

theorem inRow_markBehind {Means : α → List Node → Prop} {ab : α × Unit} {nodes : List Node} :
    InRow Means NoNode ab nodes ↔ Means ab.1 nodes := by
  constructor
  · rintro ⟨front, back, rfl, hfront, rfl⟩
    rwa [List.append_nil]
  · exact fun h => ⟨nodes, [], (List.append_nil nodes).symm, h, rfl⟩

/-- Turns behind a part: a gap in front of a turn that is not there is taken, but has no lexeme. -/
theorem reads_behind {first turn : Peg} {mid rest : List Char} {nodes more : List Node}
    (h : Reads source .loose first cs (some (nodes, mid)))
    (h' : Reads source .loose turn.further mid (some (more, rest))) :
    ∃ rest', Reads source .loose (first.next turn.many) cs (some (nodes ++ more, rest')) ∧
      tokens rest' = tokens rest := by
  rcases reads_turns h h' with hread | ⟨rfl, rfl, hread⟩
  · exact ⟨rest, hread, rfl⟩
  · rw [List.append_nil]
    exact ⟨_, hread, tokens_skipLayout _⟩

/-! ### Rules of the reader as they are put together -/

section Rules

variable (nested : Rule Phrase)

theorem followed_here (c : Char) (glued : Bool) (rule : Rule α) (rest : List Lexeme) :
    followed (markOf c) rule (.mark c glued :: rest) =
      (rule rest).map fun (a, behind) => (((), a), behind) := by
  rw [followed, markOf_here]

theorem followed_other {c : Char} {s : List Lexeme} (h : ∀ glued rest, s ≠ .mark c glued :: rest)
    (rule : Rule α) : followed (markOf c) rule s = none := by
  rw [followed, markOf_other h]

/-- What a rule does that wants a mark at the end. -/
theorem closing_eq (close : Char) (a : α) (s : List Lexeme) :
    (match s with
      | .mark c _ :: rest => if c = close then some (a, rest) else none
      | _ => none) = (markOf close s).map fun (_, rest) => (a, rest) := by
  unfold markOf
  split
  · split <;> rfl
  · rfl

theorem furtherItems_succ (turns : Nat) (s : List Lexeme) :
    furtherItems nested (turns + 1) s =
      match followed (markOf ',') nested s with
      | some ((_, item), rest) =>
          (item :: (furtherItems nested turns rest).1, (furtherItems nested turns rest).2)
      | none => ([], s) := by
  rw [furtherItems.eq_def]
  dsimp only
  split
  · next glued rest =>
      rw [followed_here]
      cases nested rest <;> rfl
  · next hno => rw [followed_other hno]

/-- Items between commas, possibly none, without what closes them. -/
def listed (turns : Nat) (s : List Lexeme) : List Phrase × List Lexeme :=
  match nested s with
  | some (item, rest) =>
      (item :: (furtherItems nested turns rest).1, (furtherItems nested turns rest).2)
  | none => ([], s)

theorem itemsUpTo_eq (close : Char) (turns : Nat) (s : List Lexeme) :
    itemsUpTo nested close turns s =
      (markOf close (listed nested turns s).2).map fun (_, rest) =>
        ((listed nested turns s).1, rest) := by
  rw [← closing_eq]
  unfold itemsUpTo listed
  cases nested s <;> rfl

/-- A mark stands behind what a rule reads, or it does not. -/
theorem closed_or_not (rule : Rule α) (c : Char) (s : List Lexeme) :
    (∃ a glued rest, rule s = some (a, .mark c glued :: rest) ∧
      followed rule (markOf c) s = some ((a, ()), rest)) ∨
      (∀ a glued rest, rule s ≠ some (a, .mark c glued :: rest)) ∧
        followed rule (markOf c) s = none := by
  unfold followed
  cases rule s with
  | none => exact .inr ⟨fun _ _ _ h => (nomatch h), rfl⟩
  | some found =>
      obtain ⟨a, behind⟩ := found
      by_cases hmark : ∃ glued rest, behind = .mark c glued :: rest
      · obtain ⟨glued, rest, rfl⟩ := hmark
        refine .inl ⟨a, glued, rest, rfl, ?_⟩
        dsimp only
        rw [markOf_here]
        rfl
      · have hother : ∀ glued rest, behind ≠ .mark c glued :: rest :=
          fun glued rest h => hmark ⟨glued, rest, h⟩
        refine .inr ⟨fun _ glued rest h => ?_, ?_⟩
        · exact hother glued rest (Prod.mk.inj (Option.some.inj h)).2
        · dsimp only
          rw [markOf_other hother]
          rfl

theorem primary_eq (turns : Nat) (s : List Lexeme) :
    primary nested turns s =
      (literal s <|>
        ((followed (markOf '[') (itemsUpTo nested ']' turns) s).map
            fun (items, rest) => (.list items.2, rest)) <|>
          ((identifier s).map fun (name, rest) => (.name name, rest)) <|>
            (followed (markOf '(') (followed nested (markOf ')')) s).map
              fun (inner, rest) => (.group inner.2.1, rest)) := by
  unfold primary
  cases literal s with
  | some found => rfl
  | none =>
      dsimp only
      split
      · next glued rest =>
          rw [followed_here]
          cases itemsUpTo nested ']' turns rest <;> rfl
      · next glued rest =>
          rw [followed_here]
          rcases closed_or_not nested ')' rest with
            ⟨inner, _, behind, hread, hclosed⟩ | ⟨hno, hopen⟩
          · rw [hread, hclosed]
            rfl
          · rw [hopen]
            split
            · next hread => exact absurd hread (hno _ _ _)
            · rfl
      · next hlist hgroup =>
          rw [followed_other hlist, followed_other hgroup]
          cases identifier s <;> rfl

theorem suffix_eq (base : Phrase) (turns : Nat) (s : List Lexeme) :
    suffix nested base turns s =
      (((followed (markOf '.') identifier s).map
          fun (property, rest) => (.member base property.2, rest)) <|>
        ((followed (markOf '[') (followed nested (markOf ']')) s).map
            fun (key, rest) => (.index base key.2.1, rest)) <|>
          (followed (markOf '(') (itemsUpTo nested ')' turns) s).map
            fun (args, rest) => (.call base args.2, rest)) := by
  unfold suffix
  split
  · next glued rest =>
      rw [followed_here]
      cases identifier rest <;> rfl
  · next glued rest =>
      rw [followed_here]
      rcases closed_or_not nested ']' rest with ⟨inner, _, behind, hread, hclosed⟩ | ⟨hno, hopen⟩
      · rw [hread, hclosed]
        rfl
      · rw [hopen]
        split
        · next hread => exact absurd hread (hno _ _ _)
        · rfl
  · next glued rest =>
      rw [followed_here]
      cases itemsUpTo nested ')' turns rest <;> rfl
  · next hmember hindex hcall =>
      rw [followed_other hmember, followed_other hindex, followed_other hcall]
      rfl

/-- The two branches of a conditional behind its test. -/
def branches : Rule (Unit × Phrase × Unit × Phrase) :=
  followed (markOf '?') (followed nested (followed (markOf ':') nested))

theorem conditional_eq (turns : Nat) (s : List Lexeme) :
    conditional nested turns s =
      (binary nested turns Level.all s).map fun (test, rest) =>
        match branches nested rest with
        | some (found, behind) => (.conditional test found.2.1 found.2.2.2, behind)
        | none => (test, rest) := by
  unfold conditional
  cases binary nested turns Level.all s with
  | none => rfl
  | some found =>
      obtain ⟨test, rest⟩ := found
      rw [Option.map_some]
      dsimp only
      unfold branches
      split
      · next glued afterMark =>
          rw [followed_here, followed]
          split
          · next thenP glued afterColon hthen =>
              rw [hthen]
              dsimp only
              rw [followed_here]
              cases nested afterColon <;> rfl
          · next hno =>
              cases hthen : nested afterMark with
              | none => rfl
              | some found =>
                  obtain ⟨thenP, behind⟩ := found
                  dsimp only
                  rw [followed_other fun glued rest h => hno thenP glued rest (h ▸ hthen)]
                  rfl
      · next hno =>
          rw [followed_other hno]

end Rules

end Scriptlet.Grammar
