import Scriptlet.Grammar.Nesting
import Scriptlet.Proofs.Grammar.Descent

/-!
What the guard counts, said of lexemes: brackets that are open and question marks that are no part
of `??`. Balanced lexemes leave the brackets as they were and never go below; a descent raises the
count by one for whatever it opens. The guard itself, run over lexemes, exceeds its limit exactly
where the count does.
-/

namespace Scriptlet.Grammar

/-- The brackets that are open and the question marks of conditionals so far. `half` says that the
last lexeme was the first half of a `??`. -/
structure Tally where
  brackets : Int
  questions : Nat
  half : Bool
  deriving Repr, DecidableEq

namespace Tally

def next (t : Tally) : Lexeme → Tally
  | .mark c glued =>
      if c = '?' then
        if t.half then { t with half := false }
        else if glued then { t with half := true }
        else { t with questions := t.questions + 1 }
      else if isOpening c then { t with brackets := t.brackets + 1 }
      else if isClosing c then { t with brackets := t.brackets - 1 }
      else t
  | _ => t

def after (t : Tally) (s : List Lexeme) : Tally :=
  s.foldl next t

def total (t : Tally) : Int :=
  t.brackets + t.questions

@[simp] theorem after_nil (t : Tally) : t.after [] = t := rfl

@[simp] theorem after_cons (t : Tally) (l : Lexeme) (s : List Lexeme) :
    t.after (l :: s) = (t.next l).after s := rfl

@[simp] theorem after_append (t : Tally) (s s' : List Lexeme) :
    t.after (s ++ s') = (t.after s).after s' :=
  List.foldl_append

theorem next_other (t : Tally) {c : Char} (hquestion : c ≠ '?') (hopen : ¬ isOpening c = true)
    (hclose : ¬ isClosing c = true) (glued : Bool) : t.next (.mark c glued) = t := by
  simp only [next, if_neg hquestion, if_neg hopen, if_neg hclose]

theorem next_plain (t : Tally) {l : Lexeme} (h : isPlain l = true) : t.next l = t := by
  cases l with
  | mark c glued =>
      simp only [isPlain, Bool.not_eq_true', Bool.or_eq_false_iff, beq_eq_false_iff_ne] at h
      obtain ⟨⟨⟨hopen, hclose⟩, hquestion⟩, _⟩ := h
      exact t.next_other hquestion (by simp [hopen]) (by simp [hclose]) glued
  | _ => rfl

theorem next_of_not_mark (t : Tally) {l : Lexeme} (h : ∀ c glued, l ≠ .mark c glued) :
    t.next l = t := by
  cases l with
  | mark c glued => exact absurd rfl (h c glued)
  | _ => rfl

theorem next_opening (t : Tally) {c : Char} (h : isOpening c = true) (glued : Bool) :
    t.next (.mark c glued) = { t with brackets := t.brackets + 1 } := by
  have hquestion : c ≠ '?' := by
    rintro rfl
    cases h
  simp only [next, if_neg hquestion, h, if_true]

theorem next_closing (t : Tally) {c : Char} (h : isClosing c = true) (glued : Bool) :
    t.next (.mark c glued) = { t with brackets := t.brackets - 1 } := by
  have hother : c ≠ '?' ∧ isOpening c = false := by
    simp only [isClosing, Bool.or_eq_true, beq_iff_eq] at h
    rcases h with rfl | rfl <;> decide
  simp only [next, if_neg hother.1, hother.2, h, Bool.false_eq_true, if_false, if_true]

theorem next_question {t : Tally} (ht : t.half = false) :
    t.next (.mark '?' false) = { t with questions := t.questions + 1 } := by
  simp [next, ht]

theorem after_pair {t : Tally} (ht : t.half = false) (glued : Bool) :
    t.after [.mark '?' true, .mark '?' glued] = t := by
  obtain ⟨brackets, questions, half⟩ := t
  obtain rfl : half = false := ht
  rfl

end Tally

/-- What has been counted behind the lexemes of a source. -/
def tally (s : List Lexeme) : Tally :=
  Tally.after ⟨0, 0, false⟩ s

/-! ### Balanced lexemes -/

/-- Balanced lexemes count question marks and nothing else. -/
theorem Balanced.after {s : List Lexeme} (h : Balanced s) {t : Tally} (ht : t.half = false) :
    ∃ q, t.questions ≤ q ∧ t.after s = { t with questions := q } := by
  induction h generalizing t with
  | nil => exact ⟨t.questions, Nat.le_refl _, rfl⟩
  | plain hl => exact ⟨t.questions, Nat.le_refl _, by simp [Tally.next_plain t hl]⟩
  | question => exact ⟨t.questions + 1, Nat.le_succ _, Tally.next_question ht⟩
  | pair glued => exact ⟨t.questions, Nat.le_refl _, Tally.after_pair ht glued⟩
  | enclosed glued glued' hc hd _ ih =>
      obtain ⟨q, hq, hafter⟩ := ih (t := { t with brackets := t.brackets + 1 }) ht
      refine ⟨q, hq, ?_⟩
      simp [Tally.next_opening t hc, hafter, Tally.next_closing _ hd]
  | append _ _ ih ih' =>
      obtain ⟨q, hq, hafter⟩ := ih ht
      obtain ⟨q', hq', hafter'⟩ := ih' (t := { t with questions := q }) ht
      exact ⟨q', Nat.le_trans hq hq', by rw [Tally.after_append, hafter, hafter']⟩

/-- No part of balanced lexemes from their beginning closes more than it opens. -/
theorem Balanced.le_brackets {s : List Lexeme} (h : Balanced s) {t : Tally} (ht : t.half = false)
    {before : List Lexeme} (hbefore : before <+: s) :
    t.brackets ≤ (t.after before).brackets := by
  have hwhole : ∀ {s : List Lexeme} {t : Tally}, Balanced s → t.half = false →
      t.brackets ≤ (t.after s).brackets := by
    intro s t hs ht
    obtain ⟨q, _, hafter⟩ := hs.after ht
    simp only [hafter, Int.le_refl]
  induction h generalizing t before with
  | nil =>
      rw [List.prefix_nil.mp hbefore]
      exact Int.le_refl _
  | plain hl =>
      rcases List.prefix_cons_iff.mp hbefore with rfl | ⟨more, rfl, hmore⟩
      · exact Int.le_refl _
      · rw [List.prefix_nil.mp hmore]
        exact hwhole (.plain hl) ht
  | question =>
      rcases List.prefix_cons_iff.mp hbefore with rfl | ⟨more, rfl, hmore⟩
      · exact Int.le_refl _
      · rw [List.prefix_nil.mp hmore]
        exact hwhole .question ht
  | pair glued =>
      rcases List.prefix_cons_iff.mp hbefore with rfl | ⟨more, rfl, hmore⟩
      · exact Int.le_refl _
      · rcases List.prefix_cons_iff.mp hmore with rfl | ⟨last, rfl, hlast⟩
        · simp [Tally.next, ht]
        · rw [List.prefix_nil.mp hlast]
          exact hwhole (.pair glued) ht
  | enclosed glued glued' hc hd hs ih =>
      rcases List.prefix_cons_iff.mp hbefore with rfl | ⟨inner, rfl, hinner⟩
      · exact Int.le_refl _
      · rcases List.prefix_concat_iff.mp hinner with rfl | hinner
        · exact hwhole (.enclosed glued glued' hc hd hs) ht
        · have hle := ih (t := { t with brackets := t.brackets + 1 }) ht hinner
          rw [Tally.after_cons, Tally.next_opening t hc]
          exact Int.le_trans (Int.le_add_one (Int.le_refl _)) hle
  | append hs _ ih ih' =>
      obtain ⟨rest, hrest⟩ := hbefore
      rcases List.append_eq_append_iff.mp hrest with ⟨more, rfl, _⟩ | ⟨inner, rfl, hinner⟩
      · exact ih ht (List.prefix_append _ _)
      · obtain ⟨q, _, hafter⟩ := hs.after ht
        rw [Tally.after_append, hafter]
        exact ih' (t := { t with questions := q }) ht ⟨rest, hinner.symm⟩

/-- There is no quote that opens no string. -/
def Clean (s : List Lexeme) : Prop :=
  ∀ glued, .mark '"' glued ∉ s

theorem Clean.tail {l : Lexeme} {s : List Lexeme} (h : Clean (l :: s)) : Clean s :=
  fun glued hmem => h glued (List.mem_cons_of_mem l hmem)

theorem Balanced.clean {s : List Lexeme} (h : Balanced s) : Clean s := by
  intro glued
  induction h with
  | nil => exact List.not_mem_nil
  | plain hl =>
      rw [List.mem_singleton]
      rintro rfl
      cases hl
  | question | pair => simp
  | enclosed _ _ hc hd _ ih =>
      rw [List.mem_cons, List.mem_append, List.mem_singleton]
      rintro (hquote | hmem | hquote)
      · cases hquote
        cases hc
      · exact ih hmem
      · cases hquote
        cases hd
  | append _ _ ih ih' =>
      rw [List.mem_append]
      exact fun hmem => hmem.elim ih ih'

/-! ### Descents -/

variable {tried : Bool} {openers : List Opener} {mid : List Lexeme}

theorem Descent.clean (h : Descent tried openers mid) : Clean mid := by
  intro glued
  induction h with
  | here => exact List.not_mem_nil
  | past hbefore _ ih =>
      rw [List.mem_append]
      exact fun hmem => hmem.elim (hbefore.clean glued) ih
  | bracket _ hc _ ih =>
      rw [List.mem_cons]
      rintro (hquote | hmem)
      · cases hquote
        cases hc
      · exact ih hmem
  | branch _ ih =>
      rw [List.mem_cons]
      rintro (hquote | hmem)
      · cases hquote
      · exact ih hmem
  | half => simp

/-- Every opener of a descent raises the count, except one that is tried at a `??`. -/
theorem Descent.le_total (h : Descent tried openers mid) {t : Tally} (ht : t.half = false) :
    t.total + openers.length ≤ (t.after mid).total + tried.toNat := by
  induction h generalizing t with
  | here => simp
  | past hbefore _ ih =>
      obtain ⟨q, hq, hafter⟩ := hbefore.after ht
      have hle := ih (t := { t with questions := q }) ht
      rw [Tally.after_append, hafter]
      simp only [Tally.total] at hle ⊢
      omega
  | bracket glued hc _ ih =>
      have hle := ih (t := { t with brackets := t.brackets + 1 }) ht
      rw [Tally.after_cons, Tally.next_opening t hc]
      simp only [Tally.total, List.length_cons] at hle ⊢
      omega
  | branch _ ih =>
      have hle := ih (t := { t with questions := t.questions + 1 }) ht
      rw [Tally.after_cons, Tally.next_question ht]
      simp only [Tally.total, List.length_cons] at hle ⊢
      omega
  | half => simp [Tally.next, Tally.total, ht]

/-- What is tried at a `??` is a branch, and it is the innermost. -/
theorem Descent.innermost (h : Descent true openers mid) :
    ∃ outer before, openers = outer ++ [.branch] ∧ mid = before ++ [.mark '?' true] := by
  generalize htried : true = tried at h
  induction h with
  | here => cases htried
  | past _ _ ih =>
      obtain ⟨outer, before, rfl, rfl⟩ := ih htried
      exact ⟨outer, _, rfl, (List.append_assoc _ _ _).symm⟩
  | bracket _ _ _ ih | branch _ ih =>
      obtain ⟨outer, before, rfl, rfl⟩ := ih htried
      exact ⟨_ :: outer, _ :: before, rfl, rfl⟩
  | half => exact ⟨[], [], rfl, rfl⟩

/-! ### The guard over lexemes -/

/-- The guard, run over lexemes. They do not tell what is behind a quote that opens no string, so
`stray` says what comes of it. -/
def exceedsAt (limit : Nat) (stray : Bool) : Nat → Nat → List Lexeme → Bool
  | _, _, [] => false
  | o, q, .mark '?' true :: .mark '?' _ :: rest => exceedsAt limit stray o q rest
  | o, q, .mark c _ :: rest =>
      if c = '?' then limit < o + (q + 1) || exceedsAt limit stray o (q + 1) rest
      else if isOpening c then limit < (o + 1) + q || exceedsAt limit stray (o + 1) q rest
      else if isClosing c then exceedsAt limit stray (o - 1) q rest
      else if c = '"' then stray
      else exceedsAt limit stray o q rest
  | o, q, _ :: rest => exceedsAt limit stray o q rest

/-- The count is within the limit at each lexeme, up to a quote that opens no string. -/
def Within (limit : Nat) (t : Tally) (s : List Lexeme) : Prop :=
  ∀ before, before <+: s → Clean before → (t.after before).total ≤ limit

theorem Paired.glued {glued : Bool} {rest : List Lexeme} (h : Paired (.mark '?' glued :: rest))
    (hsingle : ∀ glued' more, rest = .mark '?' glued' :: more → '?' = '?' → glued = true → False) :
    glued = false := by
  cases glued with
  | false => rfl
  | true =>
      obtain ⟨glued', more, hrest⟩ := h rest List.suffix_rfl
      exact (hsingle glued' more hrest rfl rfl).elim

section Within

variable {limit : Nat} {t : Tally} {l : Lexeme} {s : List Lexeme}

theorem Within.here (h : Within limit t s) : t.total ≤ limit :=
  h [] List.nil_prefix fun _ => List.not_mem_nil

theorem within_nil (h : t.total ≤ limit) : Within limit t [] := by
  intro before hbefore _
  rw [List.prefix_nil.mp hbefore]
  exact h

theorem within_stray (h : t.total ≤ limit) (glued : Bool) :
    Within limit t (.mark '"' glued :: s) := by
  intro before hbefore hclean
  rcases List.prefix_cons_iff.mp hbefore with rfl | ⟨more, rfl, _⟩
  · exact h
  · exact absurd List.mem_cons_self (hclean glued)

theorem within_cons (h : t.total ≤ limit) (hnext : Within limit (t.next l) s) :
    Within limit t (l :: s) := by
  intro before hbefore hclean
  rcases List.prefix_cons_iff.mp hbefore with rfl | ⟨more, rfl, hmore⟩
  · exact h
  · exact hnext more hmore hclean.tail

theorem Within.next (h : Within limit t (l :: s)) (hclean : Clean (l :: s)) :
    Within limit (t.next l) s := by
  intro before hbefore _
  have hwhole : l :: before <+: l :: s := List.cons_prefix_cons.mpr ⟨rfl, hbefore⟩
  exact h (l :: before) hwhole fun glued hmem => hclean glued (hwhole.subset hmem)

end Within

/-- Where the guard lets lexemes through, the count is within the limit. A closing bracket without
its opening one is counted here and forgiven by the guard, so the count may be the lower. -/
theorem within_of_not_exceedsAt {limit : Nat} {stray : Bool} {o q : Nat} {s : List Lexeme}
    (h : exceedsAt limit stray o q s = false) (hpaired : Paired s) {t : Tally}
    (ht : t.half = false) (ho : t.brackets ≤ o) (hq : t.questions ≤ q) (hle : o + q ≤ limit) :
    Within limit t s := by
  have hnow : t.total ≤ limit := by
    simp only [Tally.total]
    omega
  fun_induction exceedsAt limit stray o q s generalizing t with
  | case1 => exact within_nil hnow
  | case2 o q glued rest ih =>
      have hpair := Tally.after_pair ht glued
      refine within_cons hnow (within_cons ?_ ?_)
      · simpa [Tally.next, ht, Tally.total] using hnow
      · change Within limit (t.after [.mark '?' true, .mark '?' glued]) rest
        rw [hpair]
        exact ih h hpaired.tail.tail ht ho hq hle hnow
  | case3 o q glued rest hsingle ih =>
      obtain rfl : glued = false := hpaired.glued hsingle
      simp only [Bool.or_eq_false_iff, decide_eq_false_iff_not] at h
      refine within_cons hnow ?_
      rw [Tally.next_question ht]
      refine ih h.2 hpaired.tail ht ho (Nat.succ_le_succ hq) (by omega) ?_
      simp only [Tally.total]
      omega
  | case4 o q c glued rest _ _ hopen ih =>
      simp only [Bool.or_eq_false_iff, decide_eq_false_iff_not] at h
      refine within_cons hnow ?_
      rw [Tally.next_opening t hopen]
      refine ih h.2 hpaired.tail ht (by simpa using ho) hq (by omega) ?_
      simp only [Tally.total]
      omega
  | case5 o q c glued rest _ _ _ hclose ih =>
      refine within_cons hnow ?_
      rw [Tally.next_closing t hclose]
      refine ih h hpaired.tail ht ?_ hq (by omega) ?_
      · simp only
        omega
      · simp only [Tally.total] at hnow ⊢
        omega
  | case6 => exact within_stray hnow _
  | case7 o q c glued rest _ hquestion hopen hclose _ ih =>
      refine within_cons hnow ?_
      rw [t.next_other hquestion hopen hclose]
      exact ih h hpaired.tail ht ho hq hle hnow
  | case8 o q l rest _ hmark ih =>
      refine within_cons hnow ?_
      rw [t.next_of_not_mark hmark]
      exact ih h hpaired.tail ht ho hq hle hnow

/-- No part from the beginning closes a bracket that is not open. -/
def Grounded (t : Tally) (s : List Lexeme) : Prop :=
  ∀ before, before <+: s → 0 ≤ (t.after before).brackets

theorem Grounded.next {t : Tally} {l : Lexeme} {s : List Lexeme} (h : Grounded t (l :: s)) :
    Grounded (t.next l) s :=
  fun before hbefore => h (l :: before) (List.cons_prefix_cons.mpr ⟨rfl, hbefore⟩)

/-- Where the count is within the limit and no bracket is closed that is not open, the guard lets
lexemes through. -/
theorem not_exceedsAt_of_within {limit : Nat} {stray : Bool} {o q : Nat} {s : List Lexeme}
    (h : Within limit ⟨o, q, false⟩ s) (hclean : Clean s) (hpaired : Paired s)
    (hgrounded : Grounded ⟨o, q, false⟩ s) : exceedsAt limit stray o q s = false := by
  fun_induction exceedsAt limit stray o q s with
  | case1 => rfl
  | case2 o q glued rest ih =>
      exact ih ((h.next hclean).next hclean.tail) hclean.tail.tail hpaired.tail.tail
        hgrounded.next.next
  | case3 o q glued rest hsingle ih =>
      obtain rfl : glued = false := hpaired.glued hsingle
      have hnext : Within limit ⟨o, q + 1, false⟩ rest := h.next hclean
      have hle := hnext.here
      simp only [Tally.total] at hle
      rw [Bool.or_eq_false_iff, decide_eq_false_iff_not]
      exact ⟨by omega, ih hnext hclean.tail hpaired.tail hgrounded.next⟩
  | case4 o q c glued rest _ _ hopen ih =>
      have hnext := h.next hclean
      have hground := hgrounded.next
      rw [Tally.next_opening _ hopen] at hnext hground
      have hle := hnext.here
      simp only [Tally.total] at hle
      rw [Bool.or_eq_false_iff, decide_eq_false_iff_not]
      exact ⟨by omega, ih hnext hclean.tail hpaired.tail hground⟩
  | case5 o q c glued rest _ _ _ hclose ih =>
      have hnext := h.next hclean
      have hground := hgrounded.next
      rw [Tally.next_closing _ hclose] at hnext hground
      have hopened : 0 ≤ (o : Int) - 1 := hground [] List.nil_prefix
      have hcast : (o : Int) - 1 = (o - 1 : Nat) := by omega
      simp only [hcast] at hnext hground
      exact ih hnext hclean.tail hpaired.tail hground
  | case6 => exact absurd List.mem_cons_self (hclean _)
  | case7 o q c glued rest _ hquestion hopen hclose _ ih =>
      have hnext := h.next hclean
      have hground := hgrounded.next
      rw [Tally.next_other _ hquestion hopen hclose] at hnext hground
      exact ih hnext hclean.tail hpaired.tail hground
  | case8 o q l rest _ hmark ih =>
      have hnext := h.next hclean
      have hground := hgrounded.next
      rw [Tally.next_of_not_mark _ hmark] at hnext hground
      exact ih hnext hclean.tail hpaired.tail hground

end Scriptlet.Grammar
