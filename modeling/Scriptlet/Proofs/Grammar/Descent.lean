import Scriptlet.Proofs.Grammar.Matching

/-!
Where the moments of a matching stand. What a rule takes is balanced: it closes the brackets that it
opens. What lies between the beginning of a matching and one of its moments is balanced too but for
what is open there, an opening bracket or a question mark for each. One question mark is an
exception, the first of a `??` that lacks its right operand: it is tried as the mark of a branch,
and in vain, as no expression begins at the second.
-/

namespace Scriptlet.Grammar

def isOpening (c : Char) : Bool :=
  c == '(' || c == '['

def isClosing (c : Char) : Bool :=
  c == ')' || c == ']'

/-- Neither a bracket nor a question mark, nor a quote that opens no string. -/
def isPlain : Lexeme → Bool
  | .mark c _ => !(isOpening c || isClosing c || c == '?' || c == '"')
  | _ => true

/-- Lexemes that close every bracket they open. A question mark is one by itself or in a pair. -/
inductive Balanced : List Lexeme → Prop
  | nil : Balanced []
  | plain {l : Lexeme} : isPlain l = true → Balanced [l]
  | question : Balanced [.mark '?' false]
  | pair (glued : Bool) : Balanced [.mark '?' true, .mark '?' glued]
  | enclosed {c d : Char} (glued glued' : Bool) {s : List Lexeme} :
      isOpening c = true → isClosing d = true → Balanced s →
        Balanced (.mark c glued :: (s ++ [.mark d glued']))
  | append {s t : List Lexeme} : Balanced s → Balanced t → Balanced (s ++ t)

/-- Lexemes that lead from an entry into the rule for an expression to one inside of it, and what
they open. The flag says that the last of them is the first half of a `??`, tried as the mark of a
branch. -/
inductive Descent : Bool → List Opener → List Lexeme → Prop
  | here : Descent false [] []
  | past {tried : Bool} {openers : List Opener} {before mid : List Lexeme} :
      Balanced before → Descent tried openers mid → Descent tried openers (before ++ mid)
  | bracket {tried : Bool} {opener : Opener} {c : Char} (glued : Bool) {openers : List Opener}
      {mid : List Lexeme} : isOpening c = true → Descent tried openers mid →
        Descent tried (opener :: openers) (.mark c glued :: mid)
  | branch {tried : Bool} {openers : List Opener} {mid : List Lexeme} :
      Descent tried openers mid → Descent tried (.branch :: openers) (.mark '?' false :: mid)
  | half : Descent true [.branch] [.mark '?' true]

/-- A glued question mark has its partner behind it, as it does in every source. -/
def Paired (s : List Lexeme) : Prop :=
  ∀ after, .mark '?' true :: after <:+ s → ∃ glued more, after = .mark '?' glued :: more

theorem Paired.suffix {s t : List Lexeme} (h : Paired s) (hsuffix : t <:+ s) : Paired t :=
  fun after hafter => h after (hafter.trans hsuffix)

theorem Paired.tail {l : Lexeme} {s : List Lexeme} (h : Paired (l :: s)) : Paired s :=
  h.suffix (List.suffix_cons l s)

/-! ### Walks -/

/-- What a matching from `s` on does: all its moments are inside of it, and if it succeeds and
leaves `rest`, what it takes is balanced. -/
structure Walk (s : List Lexeme) (moments : List Moment) (rest : Option (List Lexeme)) : Prop where
  placed : Paired s → ∀ m ∈ moments, ∃ tried mid, s = mid ++ m.ahead ∧ Descent tried m.openers mid
  taken : Paired s → ∀ t ∈ rest, ∃ before, s = before ++ t ∧ Balanced before

namespace Walk

variable {s t : List Lexeme} {ms ms' : List Moment} {rest rest' : Option (List Lexeme)}

theorem stay (s : List Lexeme) : Walk s [] (some s) where
  placed _ m hm := by cases hm
  taken _ t ht := by
    obtain rfl := Option.some.inj ht
    exact ⟨[], rfl, .nil⟩

theorem fail (s : List Lexeme) : Walk s [] none where
  placed _ m hm := by cases hm
  taken _ t ht := by cases ht

theorem enter (s : List Lexeme) : Walk s [⟨[], s⟩] (some s) where
  placed _ m hm := by
    obtain rfl := List.mem_singleton.mp hm
    exact ⟨false, [], rfl, .here⟩
  taken := (stay s).taken

theorem plain {l : Lexeme} (h : isPlain l = true) (t : List Lexeme) :
    Walk (l :: t) [] (some t) where
  placed _ m hm := by cases hm
  taken _ u hu := by
    obtain rfl := Option.some.inj hu
    exact ⟨[l], rfl, .plain h⟩

theorem pair (glued : Bool) (t : List Lexeme) :
    Walk (.mark '?' true :: .mark '?' glued :: t) [] (some t) where
  placed _ m hm := by cases hm
  taken _ u hu := by
    obtain rfl := Option.some.inj hu
    exact ⟨[_, _], rfl, .pair glued⟩

/-- One matching after the other. -/
theorem trans (h : Walk s ms (some t)) (h' : Walk t ms' rest) : Walk s (ms ++ ms') rest where
  placed hs m hm := by
    rcases List.mem_append.mp hm with hm | hm
    · exact h.placed hs m hm
    · obtain ⟨before, rfl, hbefore⟩ := h.taken hs t rfl
      obtain ⟨tried, mid, hmid, hdescent⟩ := h'.placed (hs.suffix (List.suffix_append _ _)) m hm
      exact ⟨tried, before ++ mid, by rw [List.append_assoc, ← hmid], .past hbefore hdescent⟩
  taken hs u hu := by
    obtain ⟨before, rfl, hbefore⟩ := h.taken hs t rfl
    obtain ⟨more, rfl, hmore⟩ := h'.taken (hs.suffix (List.suffix_append _ _)) u hu
    exact ⟨before ++ more, (List.append_assoc _ _ _).symm, .append hbefore hmore⟩

/-- One matching and then another that begins at the same place. -/
theorem retry (h : Walk s ms rest) (h' : Walk s ms' rest') : Walk s (ms ++ ms') rest' where
  placed hs m hm := (List.mem_append.mp hm).elim (h.placed hs m) (h'.placed hs m)
  taken := h'.taken

/-- A matching behind an opening bracket that gets no further than to the closing one. -/
theorem opened (h : Walk t ms rest) {c : Char} (hc : isOpening c = true) (glued : Bool)
    (opener : Opener) :
    Walk (.mark c glued :: t) (ms.map (·.within opener)) none where
  placed hs m hm := by
    obtain ⟨inner, hinner, rfl⟩ := List.mem_map.mp hm
    obtain ⟨tried, mid, rfl, hdescent⟩ := h.placed hs.tail inner hinner
    exact ⟨tried, _ :: mid, rfl, .bracket glued hc hdescent⟩
  taken _ u hu := by cases hu

/-- A matching between brackets. -/
theorem enclosed {d : Char} {glued' : Bool} (h : Walk t ms (some (.mark d glued' :: s)))
    (hd : isClosing d = true) {c : Char} (hc : isOpening c = true) (glued : Bool)
    (opener : Opener) :
    Walk (.mark c glued :: t) (ms.map (·.within opener))
      (some s) where
  placed := (h.opened hc glued opener).placed
  taken hs u hu := by
    obtain rfl := Option.some.inj hu
    obtain ⟨before, rfl, hbefore⟩ := h.taken hs.tail _ rfl
    exact ⟨.mark c glued :: (before ++ [.mark d glued']), by simp,
      .enclosed glued glued' hc hd hbefore⟩

/-- A matching of branches. -/
theorem branch (h : Walk t ms rest) :
    Walk (.mark '?' false :: t) (ms.map (·.within .branch))
      rest where
  placed hs m hm := by
    obtain ⟨inner, hinner, rfl⟩ := List.mem_map.mp hm
    obtain ⟨tried, mid, rfl, hdescent⟩ := h.placed hs.tail inner hinner
    exact ⟨tried, _ :: mid, rfl, .branch hdescent⟩
  taken hs u hu := by
    obtain ⟨before, rfl, hbefore⟩ := h.taken hs.tail u hu
    exact ⟨[.mark '?' false] ++ before, rfl, .append .question hbefore⟩

/-- A matching of branches at the first half of `??` that fails at the second. -/
theorem half (t : List Lexeme) : Walk (.mark '?' true :: t) [⟨[.branch], t⟩] none where
  placed _ m hm := by
    obtain rfl := List.mem_singleton.mp hm
    exact ⟨true, [_], rfl, .half⟩
  taken _ u hu := by cases hu

theorem of_paired (h : Paired s → Walk s ms rest) : Walk s ms rest where
  placed hs := (h hs).placed hs
  taken hs := (h hs).taken hs

end Walk

/-- A recorded rule that walks, wherever it begins. -/
def Watched.Walks {α : Type} (rule : Watched α) : Prop :=
  ∀ s, Walk s (rule s).moments ((rule s).result.map (·.2))

/-! ### Rules that enter no expression -/

theorem walk_identifier {s t : List Lexeme} {name : String} (h : identifier s = some (name, t)) :
    Walk s [] (some t) := by
  unfold identifier at h
  split at h
  · split at h
    · cases h
    · cases h
      exact .plain rfl _
  · cases h

theorem walk_literal {s t : List Lexeme} {p : Phrase} (h : literal s = some (p, t)) :
    Walk s [] (some t) := by
  unfold literal at h
  split at h
  case h_4 =>
    split at h
    · cases h
      exact .plain rfl _
    · split at h
      · cases h
        exact .plain rfl _
      · split at h
        · cases h
          exact .plain rfl _
        · cases h
  case h_5 => cases h
  all_goals
    cases h
    exact .plain rfl _

theorem walk_operator {level : Level} {s t : List Lexeme} {op : BinaryOp}
    (h : operator level s = some (op, t)) : Walk s [] (some t) := by
  unfold operator at h
  split at h
  case h_1 =>
    cases h
    exact .pair _ _
  all_goals
    cases h
  all_goals first
    | exact .plain rfl _
    | exact (Walk.plain rfl _).trans (.plain rfl _)

theorem walk_signs (s : List Lexeme) : Walk s [] (some (signs s).2) := by
  fun_induction signs s with
  | case1 glued rest ops rest' heq ih =>
      rw [heq] at ih
      exact (Walk.plain rfl rest).trans ih
  | case2 glued rest ops rest' heq ih =>
      rw [heq] at ih
      exact (Walk.plain rfl rest).trans ih
  | case3 s => exact .stay s

/-! ### Rules -/

namespace Watched

variable {nested : Watched Phrase}

theorem furtherItems_walk (h : nested.Walks) (turns : Nat) (s : List Lexeme) :
    Walk s (furtherItems nested turns s).moments (some (furtherItems nested turns s).result.2) := by
  induction turns generalizing s with
  | zero => exact .stay s
  | succ turns ih =>
      unfold furtherItems
      split
      · next glued rest =>
          have hcomma : Walk (.mark ',' glued :: rest) [] (some rest) := .plain rfl rest
          have hitem := hcomma.trans (h rest)
          simp only [Matched.moments_bind, Matched.result_bind]
          cases hfound : (nested rest).result with
          | none => exact hitem.retry (.stay _)
          | some found =>
              rw [hfound] at hitem
              exact hitem.trans (by simpa using ih found.2)
      · exact .stay s

theorem items_walk (h : nested.Walks) (turns : Nat) (s : List Lexeme) :
    Walk s (items nested turns s).moments (some (items nested turns s).result.2) := by
  have hitem := h s
  unfold items
  simp only [Matched.moments_bind, Matched.result_bind]
  cases hfound : (nested s).result with
  | none => exact hitem.retry (.stay _)
  | some found =>
      rw [hfound] at hitem
      exact hitem.trans (by simpa using furtherItems_walk h turns found.2)

theorem itemsUpTo_walk (h : nested.Walks) {c d : Char} (hc : isOpening c = true)
    (hd : isClosing d = true) (glued : Bool) (opener : Opener) (turns : Nat) (s : List Lexeme) :
    Walk (.mark c glued :: s) ((itemsUpTo nested d turns s).under opener).moments
      ((itemsUpTo nested d turns s).result.map (·.2)) := by
  have hitems := items_walk h turns s
  unfold itemsUpTo
  simp only [Matched.moments_under, Matched.moments_map, Matched.result_map]
  generalize (items nested turns s).result = found at hitems ⊢
  unfold closedBy
  split
  · next found e glued' rest =>
      split
      · next hclose =>
          subst hclose
          exact hitems.enclosed hd hc glued opener
      · exact hitems.opened hc glued opener
  · exact hitems.opened hc glued opener

theorem primary_walk (h : nested.Walks) (turns : Nat) : (primary nested turns).Walks := by
  intro s
  unfold primary
  split
  · next hliteral => exact walk_literal hliteral
  · split
    · next glued rest _ =>
        have hitems := itemsUpTo_walk h (c := '[') (d := ']') rfl rfl glued .list turns rest
        simp only [Matched.moments_bind, Matched.result_bind, Matched.result_under]
        cases hfound : (itemsUpTo nested ']' turns rest).result <;> rw [hfound] at hitems <;>
          simpa using hitems
    · next glued rest _ =>
        have hinner := h rest
        simp only [Matched.moments_bind, Matched.result_bind, Matched.result_under]
        split
        · next inner glued' rest' hfound =>
            rw [hfound] at hinner
            simpa using hinner.enclosed (c := '(') rfl rfl glued .group
        · simpa using hinner.opened (c := '(') rfl glued .group
    · split
      · next hname => exact walk_identifier hname
      · exact .fail s

theorem suffix_walk (h : nested.Walks) (base : Phrase) (turns : Nat) :
    (suffix nested base turns).Walks := by
  intro s
  unfold suffix
  split
  · next glued rest =>
      split
      · next hname => exact (Walk.plain rfl rest).trans (walk_identifier hname)
      · exact .fail _
  · next glued rest =>
      have hkey := h rest
      simp only [Matched.moments_bind, Matched.result_bind, Matched.result_under]
      split
      · next key glued' rest' hfound =>
          rw [hfound] at hkey
          simpa using hkey.enclosed (c := '[') rfl rfl glued .index
      · simpa using hkey.opened (c := '[') rfl glued .index
  · next glued rest =>
      have hargs := itemsUpTo_walk h (c := '(') (d := ')') rfl rfl glued .call turns rest
      simp only [Matched.moments_bind, Matched.result_bind, Matched.result_under]
      cases hfound : (itemsUpTo nested ')' turns rest).result <;> rw [hfound] at hargs <;>
        simpa using hargs
  · exact .fail s

theorem suffixes_walk (h : nested.Walks) (turns : Nat) (base : Phrase) (s : List Lexeme) :
    Walk s (suffixes nested turns base s).moments
      (some (suffixes nested turns base s).result.2) := by
  induction turns generalizing base s with
  | zero => exact .stay s
  | succ turns ih =>
      have hsuffix := suffix_walk h base turns s
      unfold suffixes
      simp only [Matched.moments_bind, Matched.result_bind]
      cases hfound : (suffix nested base turns s).result with
      | none => exact hsuffix.retry (.stay s)
      | some found =>
          rw [hfound] at hsuffix
          exact hsuffix.trans (ih _ _)

theorem suffixed_walk (h : nested.Walks) (turns : Nat) : (suffixed nested turns).Walks := by
  intro s
  have hbase := primary_walk h turns s
  unfold suffixed
  simp only [Matched.moments_bind, Matched.result_bind]
  cases hfound : (primary nested turns s).result with
  | none => exact hbase.retry (.fail s)
  | some found =>
      rw [hfound] at hbase
      exact hbase.trans (by simpa using suffixes_walk h turns found.1 found.2)

theorem unary_walk (h : nested.Walks) (turns : Nat) : (unary nested turns).Walks := by
  intro s
  have hoperand := (walk_signs s).trans (suffixed_walk h turns (signs s).2)
  unfold unary
  simp only [Matched.moments_bind, Matched.result_bind]
  cases hfound : (suffixed nested turns (signs s).2).result with
  | none => exact hoperand.retry (.fail s)
  | some found =>
      rw [hfound] at hoperand
      simpa using hoperand

theorem chainFrom_walk {operand : Watched Phrase} (h : operand.Walks) (level : Level)
    (turns : Nat) (left : Phrase) (s : List Lexeme) :
    Walk s (chainFrom (operator level) operand turns left s).moments
      (some (chainFrom (operator level) operand turns left s).result.2) := by
  induction turns generalizing left s with
  | zero => exact .stay s
  | succ turns ih =>
      unfold chainFrom
      cases hop : operator level s with
      | none => exact .stay s
      | some op =>
          have hright := (walk_operator hop).trans (h op.2)
          simp only [Matched.moments_bind, Matched.result_bind]
          cases hfound : (operand op.2).result with
          | none => exact hright.retry (.stay s)
          | some found =>
              rw [hfound] at hright
              exact hright.trans (ih _ _)

theorem binary_walk (h : nested.Walks) (turns : Nat) (levels : List Level) :
    (binary nested turns levels).Walks := by
  induction levels with
  | nil => exact unary_walk h turns
  | cons level tighter ih =>
      intro s
      have hleft := ih s
      unfold binary
      simp only [Matched.moments_bind, Matched.result_bind]
      cases hfound : (binary nested turns tighter s).result with
      | none => exact hleft.retry (.fail s)
      | some found =>
          rw [hfound] at hleft
          exact hleft.trans (by simpa using chainFrom_walk ih level turns found.1 found.2)

/-- A rule that fails at a question mark at once. -/
def FailsAtQuestion (rule : Watched Phrase) : Prop :=
  ∀ glued s, rule (.mark '?' glued :: s) = ⟨[⟨[], .mark '?' glued :: s⟩], none⟩

theorem branches_walk (h : nested.Walks) (hquestion : FailsAtQuestion nested) (test : Phrase)
    (s : List Lexeme) :
    Walk s (branches nested test s).moments (some (branches nested test s).result.2) := by
  unfold branches
  split
  · next glued afterMark =>
      cases glued with
      | true =>
          refine .of_paired fun hs => ?_
          obtain ⟨glued, more, rfl⟩ := hs afterMark List.suffix_rfl
          simp only [Matched.moments_bind, Matched.result_bind, Matched.result_under,
            Matched.moments_under, hquestion glued more]
          exact (Walk.half _).retry (.stay _)
      | false =>
          have hthen := h afterMark
          simp only [Matched.moments_bind, Matched.result_bind, Matched.result_under,
            Matched.moments_under]
          split
          · next thenP glued afterColon hfound =>
              rw [hfound] at hthen
              have helse := (hthen.trans (.plain rfl afterColon)).trans (h afterColon)
              simp only [Matched.moments_bind, Matched.result_bind, Matched.result_under,
                Matched.moments_under]
              cases hfound' : (nested afterColon).result with
              | none => simpa using helse.branch.retry (.stay _)
              | some found =>
                  rw [hfound'] at helse
                  simpa using helse.branch
          · exact hthen.branch.retry (.stay _)
  · exact .stay s

theorem conditional_walk (h : nested.Walks) (hquestion : FailsAtQuestion nested) (turns : Nat) :
    (conditional nested turns).Walks := by
  intro s
  have htest := binary_walk h turns Level.all s
  unfold conditional
  simp only [Matched.moments_bind, Matched.result_bind]
  cases hfound : (binary nested turns Level.all s).result with
  | none => exact htest.retry (.fail s)
  | some found =>
      rw [hfound] at htest
      exact htest.trans (by simpa using branches_walk h hquestion found.1 found.2)

theorem expression_question (depth : Nat) : FailsAtQuestion (expression depth) := by
  intro glued s
  cases depth with
  | zero => rfl
  | succ depth =>
      have hbinary : ∀ levels, binary (expression depth) (depth + 1) levels
          (.mark '?' glued :: s) = pure none := by
        intro levels
        induction levels with
        | nil => rfl
        | cons level tighter ih =>
            unfold binary
            rw [ih]
            rfl
      simp only [expression, conditional, hbinary]
      rfl

/-- The walk of an expression. Each of its moments is inside of it, at the end of a descent. -/
theorem expression_walk (depth : Nat) : (expression depth).Walks := by
  induction depth with
  | zero => exact fun s => (Walk.enter s).retry (.fail s)
  | succ depth ih =>
      intro s
      exact (Walk.enter s).trans (conditional_walk ih (expression_question depth) (depth + 1) s)

end Watched

end Scriptlet.Grammar
