import Scriptlet.Builtin.Call
import Scriptlet.Proofs.Language.Ranking

/-!
The smaller and the greater of two numbers, against the order of the language. The functions look
at the arguments as floats; the language compares two integers by themselves. Widening keeps the
order, so the two agree except on integers that differ but are widened to one float: there the
functions take the first argument, whichever it is.
-/

namespace Scriptlet

namespace Builtin

open Value

variable {a b : Value}

theorem numberArgument_of_some {args : List Value} {position : Nat} {f : Builtin} {v : Value}
    {x : Float} (hv : args[position]? = some v) (hx : v.number? = some x) :
    numberArgument args position f = .ok x := by
  simp only [numberArgument, argument, hv, bind, Except.bind, hx]

theorem pick_eq (ha : a.Comparable) (hb : b.Comparable) (f : Builtin)
    (keepFirst : Float → Float → Bool) :
    ∃ x y, pick [a, b] f keepFirst = .ok (if keepFirst x y then a else b) ∧
      x.isNaN = false ∧ y.isNaN = false ∧ a.place = Number.position x ∧
      b.place = Number.position y := by
  obtain ⟨x, hx, hnumber, hplace⟩ := number?_of_comparable ha
  obtain ⟨y, hy, hnumber', hplace'⟩ := number?_of_comparable hb
  refine ⟨x, y, ?_, hnumber, hnumber', hplace, hplace'⟩
  have hfirst : numberArgument [a, b] 0 f = .ok x := numberArgument_of_some rfl hx
  have hsecond : numberArgument [a, b] 1 f = .ok y := numberArgument_of_some rfl hy
  rw [pick, hfirst, hsecond]
  change (if keepFirst x y then argument [a, b] 0 f else argument [a, b] 1 f) = _
  split <;> rfl

theorem min_eq (ha : a.Comparable) (hb : b.Comparable) :
    Builtin.min [a, b] = .ok (if a.place ≤ b.place then a else b) := by
  obtain ⟨x, y, hpick, hx, hy, hplace, hplace'⟩ := pick_eq ha hb .mathMin fun x y => x ≤ y
  rw [Builtin.min, hpick, hplace, hplace']
  simp only [decide_eq_true_eq, Number.le_iff_position hx hy]

theorem max_eq (ha : a.Comparable) (hb : b.Comparable) :
    Builtin.max [a, b] = .ok (if b.place ≤ a.place then a else b) := by
  obtain ⟨x, y, hpick, hx, hy, hplace, hplace'⟩ := pick_eq ha hb .mathMax fun x y => y ≤ x
  rw [Builtin.max, hpick, hplace, hplace']
  simp only [decide_eq_true_eq, Number.le_iff_position hy hx]

theorem min_holds_iff (ha : a.Comparable) (hb : b.Comparable) :
    ∃ r, Builtin.min [a, b] = .ok r ∧ (r = a ∨ r = b) ∧
      (Holds .le r a ∧ Holds .le r b ↔ ¬ Blurred b a) := by
  refine ⟨_, min_eq ha hb, ?_⟩
  by_cases hplace : a.place ≤ b.place
  · rw [if_pos hplace, holds_le_iff ha ha, holds_le_iff ha hb]
    simp [hplace, not_blurred_self]
  · have hclear : ¬ Blurred a b := fun h => hplace (Int.le_of_eq (place_eq_of_blurred h))
    have hclear' : ¬ Blurred b a := fun h => hplace (Int.le_of_eq (place_eq_of_blurred h).symm)
    rw [if_neg hplace, holds_le_iff hb ha, holds_le_iff hb hb]
    simp [Int.le_of_lt (Int.not_le.mp hplace), hclear, hclear', not_blurred_self]

theorem max_holds_iff (ha : a.Comparable) (hb : b.Comparable) :
    ∃ r, Builtin.max [a, b] = .ok r ∧ (r = a ∨ r = b) ∧
      (Holds .ge r a ∧ Holds .ge r b ↔ ¬ Blurred a b) := by
  refine ⟨_, max_eq ha hb, ?_⟩
  by_cases hplace : b.place ≤ a.place
  · rw [if_pos hplace, holds_ge_iff ha ha, holds_ge_iff ha hb]
    simp [hplace, not_blurred_self]
  · have hclear : ¬ Blurred a b := fun h => hplace (Int.le_of_eq (place_eq_of_blurred h).symm)
    have hclear' : ¬ Blurred b a := fun h => hplace (Int.le_of_eq (place_eq_of_blurred h))
    rw [if_neg hplace, holds_ge_iff hb ha, holds_ge_iff hb hb]
    simp [Int.le_of_lt (Int.not_le.mp hplace), hclear, hclear', not_blurred_self]

/-- Each of the two functions returns one of its arguments, and the one that the language ranks
first or last, unless the arguments are blurred the wrong way round. Blurred arguments give the
first. Integers of up to 53 bits are never blurred. -/
theorem extremes_rank_unless_blurred (around : Surroundings) (site : Site) {a b : Value}
    (ha : a.Comparable) (hb : b.Comparable) :
    (∃ r, call around site .mathMin [a, b] = .ok r ∧ (r = a ∨ r = b) ∧
      (Holds .le r a ∧ Holds .le r b ↔ ¬ Blurred b a)) ∧
    (∃ r, call around site .mathMax [a, b] = .ok r ∧ (r = a ∨ r = b) ∧
      (Holds .ge r a ∧ Holds .ge r b ↔ ¬ Blurred a b)) ∧
    (Blurred a b ∨ Blurred b a →
      call around site .mathMin [a, b] = .ok a ∧ call around site .mathMax [a, b] = .ok a) ∧
    ∀ m n, a = .int m → b = .int n →
      m.toInt.natAbs ≤ 0x20000000000000 → n.toInt.natAbs ≤ 0x20000000000000 →
      ¬ Blurred a b ∧ ¬ Blurred b a := by
  refine ⟨min_holds_iff ha hb, max_holds_iff ha hb, ?_, ?_⟩
  · intro hblurred
    have hplace : a.place = b.place :=
      hblurred.elim place_eq_of_blurred fun h => (place_eq_of_blurred h).symm
    exact ⟨(min_eq ha hb).trans (by rw [if_pos (Int.le_of_eq hplace)]),
      (max_eq ha hb).trans (by rw [if_pos (Int.le_of_eq hplace.symm)])⟩
  · rintro m n rfl rfl hm hn
    exact ⟨not_blurred_of_small hm hn, not_blurred_of_small hn hm⟩

/-- The greatest integer up to which floats leave no gap, and the one before it. -/
theorem extremes_rank_unless_blurred_of_neighbours :
    let around : Surroundings := ⟨fun _ => "", fun _ => "", fun _ => 0⟩
    ∃ r, call around [] .mathMin [.int 0x20000000000000, .int 0x1fffffffffffff] = .ok r ∧
      Holds .le r (.int 0x20000000000000) ∧ Holds .le r (.int 0x1fffffffffffff) := by
  intro around
  obtain ⟨⟨r, hr, _, hranks⟩, _, _, hclear⟩ := extremes_rank_unless_blurred around []
    (a := .int 0x20000000000000) (b := .int 0x1fffffffffffff) trivial trivial
  exact ⟨r, hr, hranks.mpr (hclear _ _ rfl rfl (by decide) (by decide)).2⟩

/-- One further the smaller of two integers is the greater. -/
theorem min_of_blurred_is_the_greater :
    let around : Surroundings := ⟨fun _ => "", fun _ => "", fun _ => 0⟩
    call around [] .mathMin [.int 0x20000000000001, .int 0x20000000000000] =
        .ok (.int 0x20000000000001) ∧
      ¬ Holds .le (.int 0x20000000000001) (.int 0x20000000000000) ∧
      Blurred (.int 0x20000000000000) (.int 0x20000000000001) := by
  intro around
  have hblurred : Blurred (.int 0x20000000000000) (.int 0x20000000000001) :=
    ⟨_, _, rfl, rfl, by decide, by decide +kernel⟩
  have hgreater : Comparable (.int 0x20000000000001) := trivial
  have hsmaller : Comparable (.int 0x20000000000000) := trivial
  have hplace := Int.le_of_eq (place_eq_of_blurred hblurred).symm
  refine ⟨(min_eq hgreater hsmaller).trans (by rw [if_pos hplace]), ?_, hblurred⟩
  intro hle
  exact ((holds_le_iff hgreater hsmaller).mp hle).2 hblurred

end Builtin

end Scriptlet
