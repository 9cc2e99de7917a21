import Mathlib.Algebra.BigOperators.Group.List.Basic
import Mathlib.Algebra.Ring.Int.Defs
import Mathlib.Data.List.Induction
import Mathlib.Data.List.Infix
import Mathlib.Data.List.Perm.Basic
import Scriptlet.Builtin.Call

/-!
The sum of a list. It is added up from the left, and as long as there were only integers every
running total must have 64 bits. So the order of the integers decides whether they have a sum,
even where the total itself has 64 bits. It does not matter if the positive ones have a sum and
the negative ones have.
-/

namespace Scriptlet.Builtin

open Number (Fits int64? int64?_of_fits int64?_of_not_fits)

def total (ns : List Int64) : Int :=
  (ns.map Int64.toInt).sum

/-- Every running total from the left has 64 bits. -/
def RunsInRange (ns : List Int64) : Prop :=
  ∀ first, first <+: ns → Fits (total first)

/-- The integers in front of the first item that is none. -/
def leading : List Value → List Int64
  | .int n :: rest => n :: leading rest
  | _ => []

def gains (ns : List Int64) : List Int64 :=
  ns.filter fun n => 0 < n.toInt

def losses (ns : List Int64) : List Int64 :=
  ns.filter fun n => n.toInt < 0

instance (ns : List Int64) : Decidable (RunsInRange ns) :=
  decidable_of_iff (∀ first ∈ ns.inits, Fits (total first)) (by
    simp only [List.mem_inits, RunsInRange])

/-! ### Totals -/

theorem total_concat (ns : List Int64) (n : Int64) : total (ns ++ [n]) = total ns + n.toInt := by
  simp [total]

theorem total_perm {ns ms : List Int64} (h : ns.Perm ms) : total ns = total ms :=
  (h.map Int64.toInt).sum_eq

theorem runsInRange_nil : RunsInRange [] := by
  intro first hfirst
  rw [List.prefix_nil.mp hfirst]
  simp [Fits, total]

theorem runsInRange_concat (ns : List Int64) (n : Int64) :
    RunsInRange (ns ++ [n]) ↔ RunsInRange ns ∧ Fits (total (ns ++ [n])) := by
  constructor
  · intro h
    exact ⟨fun first hfirst => h first (hfirst.trans (List.prefix_append _ _)),
      h _ (List.prefix_refl _)⟩
  · rintro ⟨hruns, hlast⟩ first hfirst
    rcases List.prefix_concat_iff.mp hfirst with rfl | hshorter
    · exact hlast
    · exact hruns first hshorter

/-- Whatever is left out, a total lies between that of the losses and that of the gains. -/
theorem total_bounds {some all : List Int64} (h : some.Sublist all) :
    total (losses all) ≤ total some ∧ total some ≤ total (gains all) := by
  induction h with
  | slnil => simp [losses, gains, total]
  | cons n _ ih =>
      simp only [losses, gains, total, List.filter_cons] at ih ⊢
      split <;> split <;> simp_all <;> omega
  | cons_cons n _ ih =>
      simp only [losses, gains, total, List.filter_cons] at ih ⊢
      split <;> split <;> simp_all <;> omega

theorem runsInRange_of_parts {ns : List Int64} (hgains : Fits (total (gains ns)))
    (hlosses : Fits (total (losses ns))) : RunsInRange ns := by
  intro first hfirst
  obtain ⟨hlow, hhigh⟩ := total_bounds hfirst.sublist
  exact ⟨Int.le_trans hlosses.1 hlow, Int.lt_of_le_of_lt hhigh hgains.2⟩

/-! ### Adding up -/

/-- The items added up from the left. -/
def addUp (items : List Value) (start : Value) : Except Fault Value :=
  items.foldlM addItem start

theorem sum_eq (items : List Value) : sum [.list items] = addUp items (.int 0) := rfl

theorem addUp_append (items more : List Value) (start : Value) :
    addUp (items ++ more) start = addUp items start >>= addUp more :=
  List.foldlM_append

theorem addItem_ints (a b : Int64) :
    addItem (.int a) (.int b) =
      match int64? (a.toInt + b.toInt) with
      | some n => .ok (.int n)
      | none => .error .sumOverflow := rfl

/-- Integers whose running totals fit add up to their total. -/
theorem addUp_of_runsInRange {ns : List Int64} (h : RunsInRange ns) :
    ∃ m, addUp (ns.map .int) (.int 0) = .ok (.int m) ∧ m.toInt = total ns := by
  induction ns using List.reverseRecOn with
  | nil => exact ⟨0, rfl, rfl⟩
  | append_singleton ns n ih =>
      obtain ⟨hruns, hlast⟩ := (runsInRange_concat ns n).mp h
      obtain ⟨m, hm, htotal⟩ := ih hruns
      rw [total_concat, ← htotal] at hlast
      obtain ⟨k, hk, hkTotal⟩ := int64?_of_fits hlast
      refine ⟨k, ?_, by rw [hkTotal, total_concat, htotal]⟩
      rw [List.map_append, addUp_append, hm]
      change addItem (.int m) (.int n) >>= pure = _
      rw [addItem_ints, hk]
      rfl

/-- The first running total that does not fit is a fault. -/
theorem addUp_of_not_runsInRange {ns : List Int64} (h : ¬ RunsInRange ns) :
    addUp (ns.map .int) (.int 0) = .error .sumOverflow := by
  induction ns using List.reverseRecOn with
  | nil => exact absurd runsInRange_nil h
  | append_singleton ns n ih =>
      rw [List.map_append, addUp_append]
      by_cases hruns : RunsInRange ns
      · obtain ⟨m, hm, htotal⟩ := addUp_of_runsInRange hruns
        have hlast : ¬ Fits (m.toInt + n.toInt) := by
          rw [htotal, ← total_concat]
          exact fun hlast => h ((runsInRange_concat ns n).mpr ⟨hruns, hlast⟩)
        rw [hm]
        change addItem (.int m) (.int n) >>= pure = _
        rw [addItem_ints, int64?_of_not_fits hlast]
        rfl
      · rw [ih hruns]
        rfl

/-- From the first float on everything is a float. -/
theorem addUp_float {items : List Value} (hitems : ∀ v ∈ items, v.number?.isSome = true)
    (x : Float) : ∃ y, addUp items (.float x) = .ok (.float y) := by
  induction items generalizing x with
  | nil => exact ⟨x, rfl⟩
  | cons v rest ih =>
      obtain ⟨y, hy⟩ := Option.isSome_iff_exists.mp (hitems v (by simp))
      obtain ⟨z, hz⟩ := ih (fun w hw => hitems w (by simp [hw])) (x + y)
      refine ⟨z, ?_⟩
      have hadd : addItem (.float x) v = .ok (.float (x + y)) := by
        have hx : (Value.float x).number? = some x := rfl
        simp only [addItem, hx, hy]
      change addItem (.float x) v >>= addUp rest = _
      rw [hadd]
      exact hz

/-- Numbers are integers only, or some integers and then a float. -/
theorem numbers_cases {items : List Value} (hitems : ∀ v ∈ items, v.number?.isSome = true) :
    items = (leading items).map .int ∨
      ∃ x rest, items = (leading items).map .int ++ .float x :: rest ∧
        ∀ v ∈ rest, v.number?.isSome = true := by
  induction items with
  | nil => exact Or.inl rfl
  | cons v rest ih =>
      have hrest : ∀ w ∈ rest, w.number?.isSome = true := fun w hw => hitems w (by simp [hw])
      have hv := hitems v (by simp)
      cases v with
      | int n =>
          rcases ih hrest with hints | ⟨x, after, hfloat, hafter⟩
          · exact Or.inl (congrArg (Value.int n :: ·) hints)
          · exact Or.inr ⟨x, after, congrArg (Value.int n :: ·) hfloat, hafter⟩
      | float x => exact Or.inr ⟨x, rest, rfl, hrest⟩
      | null | bool b | string s | list l | object o => cases hv

theorem leading_map (ns : List Int64) : leading (ns.map .int) = ns := by
  induction ns with
  | nil => rfl
  | cons n rest ih => exact congrArg (n :: ·) ih

/-- A float after integers whose running totals fit makes the sum a float. -/
theorem addUp_of_float {items : List Value} (hitems : ∀ v ∈ items, v.number?.isSome = true)
    {x : Float} (hx : .float x ∈ items) (hruns : RunsInRange (leading items)) :
    ∃ y, addUp items (.int 0) = .ok (.float y) := by
  rcases numbers_cases hitems with hints | ⟨z, rest, hfloat, hrest⟩
  · rw [hints] at hx
    simp at hx
  · obtain ⟨m, hm, _⟩ := addUp_of_runsInRange hruns
    obtain ⟨y, hy⟩ := addUp_float hrest (Number.ofInt64 m + z)
    refine ⟨y, ?_⟩
    rw [hfloat, addUp_append, hm]
    exact hy

/-- Items in another order that are integers are integers in another order. -/
theorem exists_ints_of_perm {ns : List Int64} {other : List Value}
    (h : other.Perm (ns.map .int)) : ∃ ms : List Int64, other = ms.map .int ∧ ms.Perm ns := by
  have hitems : ∀ v ∈ other, v.number?.isSome = true := by
    intro v hv
    obtain ⟨n, _, rfl⟩ := List.mem_map.mp (h.mem_iff.mp hv)
    rfl
  rcases numbers_cases hitems with hints | ⟨x, rest, hfloat, _⟩
  · refine ⟨_, hints, ?_⟩
    rw [hints] at h
    exact (List.map_perm_map_iff fun a b hab => Value.int.inj hab).mp h
  · have hx : Value.float x ∈ ns.map .int := h.mem_iff.mp (hfloat ▸ by simp)
    simp at hx

/-- Where the running totals fit in two orders, the sums are of one kind. -/
theorem addUp_of_perm {items other : List Value} (hitems : ∀ v ∈ items, v.number?.isSome = true)
    (hother : other.Perm items) (hruns : RunsInRange (leading items))
    (hruns' : RunsInRange (leading other)) :
    (∃ m, addUp items (.int 0) = .ok (.int m) ∧ addUp other (.int 0) = .ok (.int m)) ∨
      ∃ x y, addUp items (.int 0) = .ok (.float x) ∧ addUp other (.int 0) = .ok (.float y) := by
  rcases numbers_cases hitems with hints | ⟨x, rest, hfloat, _⟩
  · left
    obtain ⟨ms, rfl, hms⟩ := exists_ints_of_perm (hints ▸ hother)
    obtain ⟨m, hm, htotal⟩ := addUp_of_runsInRange hruns
    obtain ⟨k, hk, htotal'⟩ := addUp_of_runsInRange (leading_map ms ▸ hruns')
    have hsame : k = m := by
      rw [← Int64.toInt_inj, htotal, htotal', total_perm hms]
    refine ⟨m, ?_, hsame ▸ hk⟩
    rw [hints]
    exact hm
  · right
    have hx : Value.float x ∈ items := by
      rw [hfloat]
      simp
    have hother' : ∀ v ∈ other, v.number?.isSome = true :=
      fun v hv => hitems v (hother.mem_iff.mp hv)
    obtain ⟨y, hy⟩ := addUp_of_float hitems hx hruns
    obtain ⟨z, hz⟩ := addUp_of_float hother' (hother.mem_iff.mpr hx) hruns'
    exact ⟨y, z, hy, hz⟩

/-- The integers have a sum in every order if and only if their gains have one and their losses. -/
theorem addUp_every_order_iff (ns : List Int64) :
    (∀ other, other.Perm (ns.map .int) → ∃ m, addUp other (.int 0) = .ok (.int m)) ↔
      Fits (total (gains ns)) ∧ Fits (total (losses ns)) := by
  -- The order that puts one part in front of everything else has its total as a running total.
  have hpart (part : Int64 → Bool)
      (hsums : ∀ other, other.Perm (ns.map .int) → ∃ m, addUp other (.int 0) = .ok (.int m)) :
      Fits (total (ns.filter part)) := by
    have hperm := List.filter_append_perm part ns
    obtain ⟨m, hm⟩ := hsums _ (hperm.map Value.int)
    by_contra hnot
    have hruns : ¬ RunsInRange (ns.filter part ++ ns.filter fun n => !part n) :=
      fun hruns => hnot (hruns _ (List.prefix_append _ _))
    rw [addUp_of_not_runsInRange hruns] at hm
    cases hm
  constructor
  · intro hsums
    exact ⟨hpart _ hsums, hpart _ hsums⟩
  · rintro ⟨hgains, hlosses⟩ other hother
    obtain ⟨ms, rfl, hms⟩ := exists_ints_of_perm hother
    have hgains' : Fits (total (gains ms)) := total_perm (hms.filter _) ▸ hgains
    have hlosses' : Fits (total (losses ms)) := total_perm (hms.filter _) ▸ hlosses
    obtain ⟨m, hm, _⟩ := addUp_of_runsInRange (runsInRange_of_parts hgains' hlosses')
    exact ⟨m, hm⟩

/-- The sum of a list of numbers. Integers have their total as their sum if every running total
fits, and none otherwise. If there is a float among the numbers and the running totals of the
integers in front of it fit, the sum is a float. So the order does not matter to the kind of the
sum, nor to the sum of integers, as long as the running totals fit in both orders. Integers have a
sum in every order if and only if their gains have one and their losses have one. -/
theorem sum_by_running_totals (around : Surroundings) (site : Site) (items : List Value)
    (hitems : ∀ v ∈ items, v.number?.isSome = true) :
    let sumOf (items : List Value) := call around site .listSum [.list items]
    (∀ ns, items = ns.map .int →
      (RunsInRange ns → ∃ m, sumOf items = .ok (.int m) ∧ m.toInt = total ns) ∧
      (¬ RunsInRange ns → sumOf items = .error .sumOverflow)) ∧
    ((∃ x, .float x ∈ items) → RunsInRange (leading items) → ∃ y, sumOf items = .ok (.float y)) ∧
    (∀ other, other.Perm items → RunsInRange (leading items) → RunsInRange (leading other) →
      (∃ m, sumOf items = .ok (.int m) ∧ sumOf other = .ok (.int m)) ∨
        ∃ x y, sumOf items = .ok (.float x) ∧ sumOf other = .ok (.float y)) ∧
    ∀ ns, items = ns.map .int →
      ((∀ other, other.Perm items → ∃ m, sumOf other = .ok (.int m)) ↔
        Fits (total (gains ns)) ∧ Fits (total (losses ns))) := by
  intro sumOf
  refine ⟨?_, ?_, ?_, ?_⟩
  · rintro ns rfl
    exact ⟨addUp_of_runsInRange, addUp_of_not_runsInRange⟩
  · rintro ⟨x, hx⟩ hruns
    exact addUp_of_float hitems hx hruns
  · intro other hother hruns hruns'
    exact addUp_of_perm hitems hother hruns hruns'
  · rintro ns rfl
    exact addUp_every_order_iff ns

/-- The greatest integer, minus one and one: no running total is too great. -/
theorem sum_by_running_totals_of_greatest_first :
    let around : Surroundings := ⟨fun _ => "", fun _ => "", fun _ => 0⟩
    ∃ m, call around [] .listSum [.list [.int 0x7fffffffffffffff, .int (-1), .int 1]] =
        .ok (.int m) ∧ m.toInt = 0x7fffffffffffffff := by
  intro around
  have hints := (sum_by_running_totals around [] [.int 0x7fffffffffffffff, .int (-1), .int 1]
    (by decide)).1 [0x7fffffffffffffff, -1, 1] rfl
  exact hints.1 (by decide)

/-- The same in another order: the first running total is too great, although the total is not. With
a float behind the integers it is too great as well, and with the float in front of them it is not. -/
theorem sum_depends_on_order :
    let around : Surroundings := ⟨fun _ => "", fun _ => "", fun _ => 0⟩
    (call around [] .listSum [.list [.int 0x7fffffffffffffff, .int 1, .int (-1)]] =
        .error .sumOverflow ∧
      call around [] .listSum [.list [.int 0x7fffffffffffffff, .int (-1), .int 1]] =
        .ok (.int 0x7fffffffffffffff) ∧
      Fits (total [0x7fffffffffffffff, 1, -1])) ∧
    call around [] .listSum [.list [.int 0x7fffffffffffffff, .int 1, .float 0.5]] =
        .error .sumOverflow ∧
      ∃ x, call around [] .listSum [.list [.float 0.5, .int 0x7fffffffffffffff, .int 1]] =
        .ok (.float x) :=
  ⟨⟨rfl, rfl, by decide⟩, rfl, _, rfl⟩

end Scriptlet.Builtin
