import Scriptlet.Evaluation
import Scriptlet.Proofs.Values.WideningOrder

/-!
The order that the language has on numbers and strings. Two integers are ranked exactly; where a
float takes part both numbers are ranked as floats. Widening keeps the order, so the two rankings
agree except on integers that differ but are widened to one float.

Equality is decided elsewhere than order, and by other cases. The main statement is that the six
operators nevertheless speak of one ranking, and that where there is none the order operators fault.
-/

namespace Scriptlet

namespace Value

/-- An integer or a float that is not NaN. -/
def Comparable : Value → Prop
  | .int _ => True
  | .float x => x.isNaN = false
  | _ => False

/-- The place of a number that is taken as a float. -/
def place : Value → Int
  | .int n => Number.position (Number.ofInt64 n)
  | .float x => Number.position x
  | _ => 0

/-- The first is the smaller integer, but as floats the two are the same. -/
def Blurred (a b : Value) : Prop :=
  ∃ m n, a = .int m ∧ b = .int n ∧ m.toInt < n.toInt ∧
    (Number.ofInt64 m == Number.ofInt64 n) = true

/-- What the language says to a comparison. -/
def Holds (op : BinaryOp) (a b : Value) : Prop :=
  applyStrict op a b = .ok (.bool true)

variable {a b : Value}

theorem number?_of_comparable (ha : a.Comparable) :
    ∃ x, a.number? = some x ∧ x.isNaN = false ∧ a.place = Number.position x := by
  cases a with
  | int n => exact ⟨_, rfl, Number.isNaN_ofInt64 n, rfl⟩
  | float x => exact ⟨x, rfl, ha, rfl⟩
  | null | bool _ | string _ | list _ | object _ => exact ha.elim

theorem beq_widened_iff (m n : Int64) :
    (Number.ofInt64 m == Number.ofInt64 n) = true ↔ (int m).place = (int n).place :=
  Number.beq_iff_position (Number.isNaN_ofInt64 m) (Number.isNaN_ofInt64 n)

theorem place_eq_of_blurred (h : Blurred a b) : a.place = b.place := by
  obtain ⟨m, n, rfl, rfl, _, hsame⟩ := h
  exact (beq_widened_iff m n).mp hsame

theorem not_blurred_self (a : Value) : ¬ Blurred a a := by
  rintro ⟨m, n, rfl, hn, hlt, _⟩
  obtain rfl := Value.int.inj hn
  exact Int.lt_irrefl _ hlt

/-- Integers that a float holds exactly stay apart. -/
theorem not_blurred_of_small {m n : Int64} (hm : m.toInt.natAbs ≤ 0x20000000000000)
    (hn : n.toInt.natAbs ≤ 0x20000000000000) : ¬ Blurred (.int m) (.int n) := by
  rintro ⟨m', n', hm', hn', hlt, hsame⟩
  obtain rfl := Value.int.inj hm'
  obtain rfl := Value.int.inj hn'
  have hplace := (beq_widened_iff m n).mp hsame
  rw [place, place, Number.position_ofInt64, Number.position_ofInt64] at hplace
  exact Int.ne_of_lt (Number.integerPlace_lt hlt hm hn) hplace

/-! ### The order of the language -/

/-- How two numbers rank. -/
def ranking : Value → Value → Ordering
  | .int m, .int n => compare m.toInt n.toInt
  | a, b => compare a.place b.place

theorem order_eq (op : BinaryOp) (ha : a.Comparable) (hb : b.Comparable) :
    order op a b = .ok (ranking a b) := by
  obtain ⟨x, hx, hnumber, hplace⟩ := number?_of_comparable ha
  obtain ⟨y, hy, hnumber', hplace'⟩ := number?_of_comparable hb
  have hcompare : Number.compare? x y = some (compare a.place b.place) := by
    rw [Number.compare?_eq hnumber hnumber', hplace, hplace']
  cases a <;> cases b <;> first | exact ha.elim | exact hb.elim | skip
  · rfl
  all_goals simp only [order, hx, hy, hcompare, ranking]

theorem ranking_swap (a b : Value) : (ranking a b).swap = ranking b a := by
  cases a <;> cases b <;> exact (Int.compare_swap _ _)

/-- The language refines the order of floats where two integers are blurred. -/
theorem isLE_ranking_iff (ha : a.Comparable) (hb : b.Comparable) :
    (ranking a b).isLE = true ↔ a.place ≤ b.place ∧ ¬ Blurred b a := by
  by_cases hints : ∃ m n, a = .int m ∧ b = .int n
  · obtain ⟨m, n, rfl, rfl⟩ := hints
    change (compare m.toInt n.toInt).isLE = true ↔ _
    rw [Int.isLE_compare]
    constructor
    · intro hle
      refine ⟨Number.position_ofInt64_mono hle, ?_⟩
      rintro ⟨n', m', hn, hm, hlt, _⟩
      obtain rfl := Value.int.inj hn
      obtain rfl := Value.int.inj hm
      exact Int.not_le.mpr hlt hle
    · rintro ⟨hplace, hclear⟩
      by_contra hnot
      have hlt : n.toInt < m.toInt := Int.not_le.mp hnot
      have hplace' : (int n).place ≤ (int m).place :=
        Number.position_ofInt64_mono (Int.le_of_lt hlt)
      have hsame := (beq_widened_iff n m).mpr (Int.le_antisymm hplace' hplace)
      exact hclear ⟨n, m, rfl, rfl, hlt, hsame⟩
  · have hclear : ¬ Blurred b a := by
      rintro ⟨n, m, rfl, rfl, _⟩
      exact hints ⟨m, n, rfl, rfl⟩
    have hranking : ranking a b = compare a.place b.place := by
      cases a <;> cases b <;> first | rfl | exact absurd ⟨_, _, rfl, rfl⟩ hints
    rw [hranking, Int.isLE_compare, and_iff_left hclear]

theorem holds_le_iff (ha : a.Comparable) (hb : b.Comparable) :
    Holds .le a b ↔ a.place ≤ b.place ∧ ¬ Blurred b a := by
  rw [← isLE_ranking_iff ha hb, Holds, applyStrict, order_eq .le ha hb]
  cases ranking a b <;> simp [bind, Except.bind]

theorem holds_le_int_iff (m n : Int64) : Holds .le (.int m) (.int n) ↔ m.toInt ≤ n.toInt := by
  have hm : Comparable (.int m) := trivial
  have hn : Comparable (.int n) := trivial
  rw [holds_le_iff hm hn, ← isLE_ranking_iff hm hn, ranking, Int.isLE_compare]

theorem holds_ge_iff (ha : a.Comparable) (hb : b.Comparable) :
    Holds .ge a b ↔ b.place ≤ a.place ∧ ¬ Blurred a b := by
  rw [← isLE_ranking_iff hb ha, ← ranking_swap a b, Holds, applyStrict, order_eq .ge ha hb]
  cases ranking a b <;> simp [bind, Except.bind]

/-! ### Equality of numbers -/

theorem ranking_eq_iff :
    ranking a b = .eq ↔ a.place = b.place ∧ ∀ m n, a = .int m → b = .int n → m = n := by
  by_cases hints : ∃ m n, a = .int m ∧ b = .int n
  · obtain ⟨m, n, rfl, rfl⟩ := hints
    change compare m.toInt n.toInt = .eq ↔ _
    rw [Int.compare_eq_eq, Int64.toInt_inj]
    constructor
    · rintro rfl
      refine ⟨rfl, ?_⟩
      rintro m' n' hm hn
      exact Value.int.inj (hm.symm.trans hn)
    · rintro ⟨_, hsame⟩
      exact hsame m n rfl rfl
  · have hranking : ranking a b = compare a.place b.place := by
      cases a <;> cases b <;> first | rfl | exact absurd ⟨_, _, rfl, rfl⟩ hints
    rw [hranking, Int.compare_eq_eq]
    constructor
    · intro hplace
      refine ⟨hplace, ?_⟩
      intro m n hm hn
      exact absurd ⟨m, n, hm, hn⟩ hints
    · rintro ⟨hplace, _⟩
      exact hplace

/-- Two numbers are equal when they rank alike. NaN equals nothing. -/
theorem looselyEquals_iff_ranking (ha : a.number?.isSome = true) (hb : b.number?.isSome = true) :
    a.looselyEquals b = true ↔ a.Comparable ∧ b.Comparable ∧ ranking a b = .eq := by
  cases a with
  | int m =>
      cases b with
      | int n =>
          change (m == n) = true ↔ True ∧ True ∧ compare m.toInt n.toInt = .eq
          rw [beq_iff_eq, Int.compare_eq_eq, Int64.toInt_inj, true_and, true_and]
      | float y =>
          change (Number.ofInt64 m == y) = true ↔ True ∧ y.isNaN = false ∧
            compare (Number.position (Number.ofInt64 m)) (Number.position y) = .eq
          rw [Number.beq_iff, Int.compare_eq_eq, true_and, Number.isNaN_ofInt64,
            eq_self_iff_true, true_and]
      | _ => cases hb
  | float x =>
      cases b with
      | int n =>
          change (Number.ofInt64 n == x) = true ↔ x.isNaN = false ∧ True ∧
            compare (Number.position x) (Number.position (Number.ofInt64 n)) = .eq
          rw [Number.beq_iff, Int.compare_eq_eq, true_and, Number.isNaN_ofInt64,
            eq_self_iff_true, true_and, @eq_comm _ (Number.position x)]
      | float y =>
          change (x == y) = true ↔ x.isNaN = false ∧ y.isNaN = false ∧
            compare (Number.position x) (Number.position y) = .eq
          rw [Number.beq_iff, Int.compare_eq_eq]
      | _ => cases hb
  | _ => cases ha

theorem isSome_number?_of_comparable (ha : a.Comparable) : a.number?.isSome = true := by
  obtain ⟨x, hx, _⟩ := number?_of_comparable ha
  rw [hx]
  rfl

/-! ### The six operators -/

/-- The two values have an order: both are strings, or both are numbers and none of them NaN. -/
def Ordered (a b : Value) : Prop :=
  (∃ s t, a = .string s ∧ b = .string t) ∨ (a.Comparable ∧ b.Comparable)

/-- What an order operator says to values that have no order. -/
def orderFault (op : BinaryOp) (a b : Value) : Fault :=
  if a.number?.isSome && b.number?.isSome then .compareNaN
  else .cannotCompare op a.kind b.kind

/-- Where there is an order, order and equality speak of one ranking, from both sides. -/
theorem exists_ranking (h : Ordered a b) :
    ∃ o : Ordering, (∀ op, order op a b = .ok o) ∧ (∀ op, order op b a = .ok o.swap) ∧
      a.looselyEquals b = (o == .eq) := by
  rcases h with ⟨s, t, rfl, rfl⟩ | ⟨ha, hb⟩
  · refine ⟨compare s t, fun op => rfl, fun op => ?_, ?_⟩
    · exact congrArg Except.ok Std.OrientedOrd.eq_swap
    · change (s == t) = (compare s t == .eq)
      rw [Bool.eq_iff_iff, beq_iff_eq, beq_iff_eq, Std.compare_eq_iff_eq]
  · refine ⟨ranking a b, fun op => order_eq op ha hb, fun op => ?_, ?_⟩
    · rw [order_eq op hb ha, ranking_swap]
    · rw [Bool.eq_iff_iff, beq_iff_eq, looselyEquals_iff_ranking
        (isSome_number?_of_comparable ha) (isSome_number?_of_comparable hb)]
      simp only [ha, hb, true_and]

theorem holds_le_of_looselyEquals (ha : a.Comparable) (hb : b.Comparable)
    (h : a.looselyEquals b = true) : Holds .le a b := by
  obtain ⟨o, horder, _, hequal⟩ := exists_ranking (.inr ⟨ha, hb⟩)
  obtain rfl : o = .eq := beq_iff_eq.mp (hequal.symm.trans h)
  rw [Holds, applyStrict, horder]
  rfl

theorem ordered_comm : Ordered a b ↔ Ordered b a := by
  constructor
  · rintro (⟨s, t, rfl, rfl⟩ | ⟨ha, hb⟩)
    · exact .inl ⟨t, s, rfl, rfl⟩
    · exact .inr ⟨hb, ha⟩
  · rintro (⟨s, t, rfl, rfl⟩ | ⟨ha, hb⟩)
    · exact .inl ⟨t, s, rfl, rfl⟩
    · exact .inr ⟨hb, ha⟩

/-- Where there is none, an order operator faults, and for the same reason on both sides. -/
theorem order_of_not_ordered (op : BinaryOp) (h : ¬ Ordered a b) :
    order op a b = .error (orderFault op a b) := by
  cases a <;> cases b
  case string.string s t => exact absurd (.inl ⟨s, t, rfl, rfl⟩) h
  case int.int m n => exact absurd (.inr ⟨trivial, trivial⟩) h
  case int.float n y =>
    have hnan : y.isNaN = true := eq_true_of_ne_false fun hy => h (.inr ⟨trivial, hy⟩)
    simp only [order, number?, Number.compare?_of_isNaN (.inr hnan)]
    rfl
  case float.int x n =>
    have hnan : x.isNaN = true := eq_true_of_ne_false fun hx => h (.inr ⟨hx, trivial⟩)
    simp only [order, number?, Number.compare?_of_isNaN (.inl hnan)]
    rfl
  case float.float x y =>
    have hnan : x.isNaN = true ∨ y.isNaN = true := by
      by_contra hnumbers
      obtain ⟨hx, hy⟩ := not_or.mp hnumbers
      exact h (.inr ⟨Bool.eq_false_iff.mpr hx, Bool.eq_false_iff.mpr hy⟩)
    simp only [order, number?, Number.compare?_of_isNaN hnan]
    rfl
  -- the other pairs of kinds have no numbers to compare
  all_goals rfl

/-- The operators that rank two values. -/
def orderOperators : List BinaryOp :=
  [.lt, .le, .gt, .ge]

theorem applyStrict_of_order_error {op : BinaryOp} {fault : Fault} (hop : op ∈ orderOperators)
    (h : order op a b = .error fault) : applyStrict op a b = .error fault := by
  simp only [orderOperators, List.mem_cons, List.not_mem_nil, or_false] at hop
  rcases hop with rfl | rfl | rfl | rfl <;> simp only [applyStrict, h, bind, Except.bind]

/-- The six comparison operators are consistent. On two strings, or on two numbers that are not NaN,
exactly one of less, equal and greater holds, the other three operators follow from these, and the
sides may be exchanged along with the operator. On any other two values the order operators fault,
whichever value comes first. -/
theorem comparisons_consistent (a b : Value) :
    (Ordered a b →
      ∃ less equal greater : Bool,
        [less, equal, greater].count true = 1 ∧
          applyStrict .lt a b = .ok (.bool less) ∧
          applyStrict .eq a b = .ok (.bool equal) ∧
          applyStrict .gt a b = .ok (.bool greater) ∧
          applyStrict .le a b = .ok (.bool (less || equal)) ∧
          applyStrict .ge a b = .ok (.bool (equal || greater)) ∧
          applyStrict .ne a b = .ok (.bool !equal) ∧
          applyStrict .gt b a = applyStrict .lt a b ∧
          applyStrict .ge b a = applyStrict .le a b) ∧
      (¬ Ordered a b → ∀ op ∈ orderOperators,
        applyStrict op a b = .error (orderFault op a b) ∧
          applyStrict op b a = .error (orderFault op b a)) := by
  constructor
  · intro h
    obtain ⟨o, horder, hswapped, hequal⟩ := exists_ranking h
    have hone : [o == .lt, o == .eq, o == .gt].count true = 1 := by cases o <;> rfl
    have hle : (o != .gt) = (o == .lt || o == .eq) := by cases o <;> rfl
    have hge : (o != .lt) = (o == .eq || o == .gt) := by cases o <;> rfl
    have hgreater : (o.swap == .gt) = (o == .lt) := by cases o <;> rfl
    have hnotLess : (o.swap != .lt) = (o != .gt) := by cases o <;> rfl
    refine ⟨o == .lt, o == .eq, o == .gt, hone, ?_⟩
    simp only [applyStrict, horder, hswapped, hequal, bind, Except.bind, hgreater, hnotLess, hle,
      hge, and_self]
  · intro h op hop
    constructor
    · exact applyStrict_of_order_error hop (order_of_not_ordered op h)
    · exact applyStrict_of_order_error hop (order_of_not_ordered op (mt ordered_comm.mp h))

/-- An integer against a float that it is only widened to, and a string against a number. -/
theorem comparisons_consistent_of_neighbours :
    let a : Value := .int 0x20000000000001
    let b : Value := .float 9007199254740992.0
    Ordered a b ∧ applyStrict .eq a b = .ok (.bool true) ∧
      applyStrict .lt a b = .ok (.bool false) ∧ applyStrict .gt a b = .ok (.bool false) ∧
        ¬ Ordered (.string "1") a ∧
          applyStrict .lt (.string "1") a = .error (.cannotCompare .lt .string .int) ∧
            applyStrict .ge a (.string "1") = .error (.cannotCompare .ge .int .string) := by
  intro a b
  have hordered : Ordered a b := .inr ⟨trivial, show Float.isNaN _ = false by decide +kernel⟩
  have hequal : a.looselyEquals b = true := by decide +kernel
  have hnot : ¬ Ordered (.string "1") a := by
    rintro (⟨s, t, _, ht⟩ | ⟨hstring, _⟩)
    · exact Value.noConfusion ht
    · exact hstring
  have hfault := (comparisons_consistent (.string "1") a).2 hnot
  obtain ⟨less, equal, greater, hone, hlt, heq, hgt, _⟩ :=
    (comparisons_consistent a b).1 hordered
  have htrue : applyStrict .eq a b = .ok (.bool true) := by rw [applyStrict, hequal]
  obtain rfl : equal = true := Value.bool.inj (Except.ok.inj (heq.symm.trans htrue))
  have hothers : less = false ∧ greater = false := by
    revert hone
    cases less <;> cases greater <;> decide
  obtain ⟨rfl, rfl⟩ := hothers
  exact ⟨hordered, htrue, hlt, hgt, hnot, (hfault .lt (by decide)).1, (hfault .ge (by decide)).2⟩

end Value

end Scriptlet
