import Scriptlet.Evaluation
import Scriptlet.Proofs.Grammar.Building
import Scriptlet.Proofs.Language.Totals

/-!
Arithmetic on integer literals, against the same arithmetic on integers without bounds. The two
agree as long as nothing is divided by zero and every exact value in between has 64 bits, and
otherwise the language has a fault and no value. A remainder counts its quotient among the values in
between, although that does not show in the result; so it faults exactly where the division does.
-/

namespace Scriptlet

open Number (Fits fits_toInt int64?_of_fits int64?_of_not_fits)

def BinaryOp.isArithmetic : BinaryOp → Bool
  | .add | .sub | .mul | .div | .rem => true
  | _ => false

/-- Integer literals under a minus and the five operators of arithmetic. -/
inductive Arithmetic : Expr → Prop where
  | literal (n : Int64) : Arithmetic (.int n)
  | negation {e : Expr} (he : Arithmetic e) : Arithmetic (.unary .neg e)
  | operation {op : BinaryOp} {l r : Expr} (hop : op.isArithmetic = true) (hl : Arithmetic l)
      (hr : Arithmetic r) : Arithmetic (.binary op l r)

/-- The result on integers without bounds. A quotient is truncated toward zero, a remainder has the
sign of the dividend, and a zero divisor has no result. -/
def unboundedResult? (op : BinaryOp) (a b : Int) : Option Int :=
  match op with
  | .add => some (a + b)
  | .sub => some (a - b)
  | .mul => some (a * b)
  | .div => if b = 0 then none else some (a.tdiv b)
  | .rem => if b = 0 then none else some (a.tmod b)
  | _ => none

namespace Expr

/-- The value over the integers without bounds; there is none if anything is divided by zero. -/
def unbounded? : Expr → Option Int
  | .int n => some n.toInt
  | .unary .neg e => e.unbounded?.map fun a => -a
  | .binary op l r => do
      let a ← l.unbounded?
      let b ← r.unbounded?
      unboundedResult? op a b
  | _ => none

/-- The exact value has 64 bits, and so has the exact quotient if the expression is a remainder. -/
def InBounds (e : Expr) : Prop :=
  (∀ n, e.unbounded? = some n → Fits n) ∧
    ∀ l r n, e = .binary .rem l r → (Expr.binary .div l r).unbounded? = some n → Fits n

/-- Nothing is divided by zero, and every exact value on the way has 64 bits. -/
def Feasible (e : Expr) : Prop :=
  e.unbounded?.isSome = true ∧ e.Each InBounds

end Expr

/-- The operation has a result of 64 bits, and a quotient of 64 bits if it is a remainder. -/
def Admitted (op : BinaryOp) (a b : Int) : Prop :=
  ∃ n, unboundedResult? op a b = some n ∧ Fits n ∧ (op = .rem → Fits (a.tdiv b))

/-! ### One operation -/

/-- A remainder is no greater than the dividend. -/
theorem fits_tmod {a : Int} (ha : Fits a) (b : Int) : Fits (a.tmod b) := by
  have hle : (a.tmod b).natAbs ≤ a.natAbs := by
    rw [Int.natAbs_tmod]
    exact Nat.mod_le _ _
  have hpositive : 0 ≤ a → 0 ≤ a.tmod b := Int.tmod_nonneg b
  have hnegative : a ≤ 0 → a.tmod b ≤ 0 := by
    intro hsign
    have hflipped := Int.tmod_nonneg b (Int.neg_nonneg_of_nonpos hsign)
    rw [Int.neg_tmod] at hflipped
    omega
  unfold Fits at ha ⊢
  omega

theorem natAbs_tmod_lt (a : Int) {b : Int} (hb : b ≠ 0) : (a.tmod b).natAbs < b.natAbs := by
  rw [Int.natAbs_tmod]
  exact Nat.mod_lt _ (Int.natAbs_pos.mpr hb)

theorem unboundedResult?_eq {op : BinaryOp} (hop : op.isArithmetic = true) (a b : Int) :
    unboundedResult? op a b =
      if (op = .div ∨ op = .rem) ∧ b = 0 then none else some (Value.exactly op a b) := by
  cases op <;> cases hop <;> simp [unboundedResult?, Value.exactly]

theorem admitted_iff {op : BinaryOp} (hop : op.isArithmetic = true) (a b : Int) :
    Admitted op a b ↔ ¬ ((op = .div ∨ op = .rem) ∧ b = 0) ∧ (op = .rem → Fits (a.tdiv b)) ∧
      Fits (Value.exactly op a b) := by
  rw [Admitted, unboundedResult?_eq hop]
  split
  · next hzero => simp [hzero]
  · next hdivisor => simp [hdivisor, and_comm]

theorem integerArithmetic_of_admitted {op : BinaryOp} {a b : Int64} (hop : op.isArithmetic = true)
    (h : Admitted op a.toInt b.toInt) :
    ∃ v, Value.integerArithmetic op a b = .ok (.int v) ∧
      unboundedResult? op a.toInt b.toInt = some v.toInt := by
  obtain ⟨hdivisor, hquotient, hfits⟩ := (admitted_iff hop _ _).mp h
  obtain ⟨v, hv, hexact⟩ := int64?_of_fits hfits
  have hsome : op = .rem → ¬ Number.int64? (a.toInt.tdiv b.toInt) = none := by
    intro hrem
    obtain ⟨q, hq, _⟩ := int64?_of_fits (hquotient hrem)
    rw [hq]
    exact Option.some_ne_none q
  refine ⟨v, ?_, ?_⟩
  · unfold Value.integerArithmetic
    dsimp only
    rw [if_neg (by simpa using hdivisor), if_neg (by simpa using hsome), hv]
  · rw [unboundedResult?_eq hop, if_neg hdivisor, hexact]

theorem integerArithmetic_of_not_admitted {op : BinaryOp} {a b : Int64}
    (hop : op.isArithmetic = true) (h : ¬ Admitted op a.toInt b.toInt) :
    ∃ fault, Value.integerArithmetic op a b = .error fault := by
  unfold Value.integerArithmetic
  dsimp only
  split
  · exact ⟨_, rfl⟩
  · next hdivisor =>
      split
      · exact ⟨_, rfl⟩
      · next hquotient =>
          have hnot : ¬ Fits (Value.exactly op a.toInt b.toInt) := by
            intro hfits
            refine h ((admitted_iff hop _ _).mpr ⟨by simpa using hdivisor, ?_, hfits⟩)
            intro hrem
            by_contra hwide
            exact hquotient (by simp [hrem, int64?_of_not_fits hwide])
          rw [int64?_of_not_fits hnot]
          exact ⟨_, rfl⟩

/-- A remainder exists exactly where the quotient does. -/
theorem admitted_rem_iff {a : Int} (ha : Fits a) (b : Int) :
    Admitted .rem a b ↔ Admitted .div a b := by
  rw [admitted_iff rfl, admitted_iff rfl]
  simp [fits_tmod ha b, Value.exactly]

theorem applyStrict_eq {op : BinaryOp} (hop : op.isArithmetic = true) (a b : Int64) :
    Value.applyStrict op (.int a) (.int b) = Value.integerArithmetic op a b := by
  cases op <;> cases hop <;> rfl

/-! ### Expressions -/

namespace Expr

variable {e l r : Expr} {op : BinaryOp} {a b : Int}

theorem unbounded?_operation (hl : l.unbounded? = some a) (hr : r.unbounded? = some b) :
    (Expr.binary op l r).unbounded? = unboundedResult? op a b := by
  rw [unbounded?, hl, hr]
  rfl

theorem exists_unbounded?_of_operation {n : Int} (h : (Expr.binary op l r).unbounded? = some n) :
    ∃ a b, l.unbounded? = some a ∧ r.unbounded? = some b ∧ unboundedResult? op a b = some n := by
  obtain ⟨a, hl, h⟩ := Option.bind_eq_some_iff.mp h
  obtain ⟨b, hr, h⟩ := Option.bind_eq_some_iff.mp h
  exact ⟨a, b, hl, hr, h⟩

theorem tdiv_of_tmod {n : Int} (h : unboundedResult? .rem a b = some n) :
    unboundedResult? .div a b = some (a.tdiv b) := by
  have hb : b ≠ 0 := by
    rintro rfl
    cases h
  exact if_neg hb

theorem feasible_literal (n : Int64) : (Expr.int n).Feasible := by
  refine ⟨rfl, each_iff.mpr ⟨⟨?_, ?_⟩, by simp [children]⟩⟩
  · intro m hm
    obtain rfl := Option.some.inj hm
    exact fits_toInt n
  · intro l r m hrem
    cases hrem

theorem feasible_negation_iff :
    (Expr.unary .neg e).Feasible ↔ e.Feasible ∧ ∃ a, e.unbounded? = some a ∧ Fits (-a) := by
  constructor
  · rintro ⟨hsome, heach⟩
    obtain ⟨⟨hfits, _⟩, hparts⟩ := each_iff.mp heach
    obtain ⟨n, hn⟩ := Option.isSome_iff_exists.mp hsome
    obtain ⟨a, ha, rfl⟩ := Option.map_eq_some_iff.mp hn
    have he : e.unbounded?.isSome = true := by rw [ha]; rfl
    exact ⟨⟨he, hparts e (by simp [children])⟩, a, ha, hfits _ hn⟩
  · rintro ⟨⟨_, heach⟩, a, ha, hfits⟩
    have hvalue : (Expr.unary .neg e).unbounded? = some (-a) := by rw [unbounded?, ha]; rfl
    refine ⟨by rw [hvalue]; rfl, each_iff.mpr ⟨⟨?_, ?_⟩, by simpa [children] using heach⟩⟩
    · intro n hn
      obtain rfl := Option.some.inj (hvalue.symm.trans hn)
      exact hfits
    · intro l r n hrem
      cases hrem

theorem feasible_operation_iff : (Expr.binary op l r).Feasible ↔
    (l.Feasible ∧ r.Feasible) ∧
      ∃ a b, l.unbounded? = some a ∧ r.unbounded? = some b ∧ Admitted op a b := by
  constructor
  · rintro ⟨hsome, heach⟩
    obtain ⟨⟨hfits, hquotient⟩, hparts⟩ := each_iff.mp heach
    obtain ⟨n, hn⟩ := Option.isSome_iff_exists.mp hsome
    obtain ⟨a, b, hl, hr, hresult⟩ := exists_unbounded?_of_operation hn
    refine ⟨⟨⟨by rw [hl]; rfl, hparts l (by simp [children])⟩,
      ⟨by rw [hr]; rfl, hparts r (by simp [children])⟩⟩, a, b, hl, hr, n, hresult, hfits n hn, ?_⟩
    rintro rfl
    exact hquotient l r _ rfl ((unbounded?_operation hl hr).trans (tdiv_of_tmod hresult))
  · rintro ⟨⟨hl', hr'⟩, a, b, hl, hr, n, hresult, hfits, hquotient⟩
    have hn := (unbounded?_operation hl hr).trans hresult
    refine ⟨by rw [hn]; rfl, each_iff.mpr ⟨⟨?_, ?_⟩, ?_⟩⟩
    · intro m hm
      obtain rfl := Option.some.inj (hn.symm.trans hm)
      exact hfits
    · rintro l' r' q hrem hq
      cases hrem
      rw [unbounded?_operation hl hr, tdiv_of_tmod hresult] at hq
      obtain rfl := Option.some.inj hq
      exact hquotient rfl
    · simpa [children] using ⟨hl'.2, hr'.2⟩

end Expr

/-! ### Evaluation -/

variable {around : Surroundings} {context : Value} {site : Site}

theorem eval_negation (e : Expr) :
    (Expr.unary .neg e).eval around context site =
      e.eval around context (0 :: site) >>= Value.applyUnary .neg := by
  rw [Expr.eval]

theorem eval_operation {op : BinaryOp} (hop : op.isArithmetic = true) (l r : Expr) :
    (Expr.binary op l r).eval around context site = (do
      let a ← l.eval around context (0 :: site)
      let b ← r.eval around context (1 :: site)
      Value.applyStrict op a b) := by
  cases op <;> cases hop <;> simp only [Expr.eval]

theorem applyNegation_of_fits {a : Int64} (h : Fits (-a.toInt)) :
    ∃ v, Value.applyUnary .neg (.int a) = .ok (.int v) ∧ v.toInt = -a.toInt := by
  obtain ⟨v, hv, hexact⟩ := int64?_of_fits h
  refine ⟨v, ?_, hexact⟩
  rw [Value.applyUnary, hv]

theorem applyNegation_of_not_fits {a : Int64} (h : ¬ Fits (-a.toInt)) :
    Value.applyUnary .neg (.int a) = .error .negationOverflow := by
  rw [Value.applyUnary, int64?_of_not_fits h]

/-- The expression has its exact value if that is feasible, and faults if it is not. -/
def Settled (around : Surroundings) (context : Value) (site : Site) (e : Expr) : Prop :=
  (∃ v, e.eval around context site = .ok (.int v) ∧ e.unbounded? = some v.toInt ∧ e.Feasible) ∨
    ((∃ fault, e.eval around context site = .error fault) ∧ ¬ e.Feasible)

theorem settled_literal (n : Int64) : Settled around context site (.int n) :=
  .inl ⟨n, rfl, rfl, Expr.feasible_literal n⟩

theorem settled_negation {e : Expr} (h : Settled around context (0 :: site) e) :
    Settled around context site (.unary .neg e) := by
  rw [Settled, eval_negation, Expr.feasible_negation_iff]
  rcases h with ⟨a, heval, hvalue, hfeasible⟩ | ⟨⟨fault, heval⟩, hnot⟩
  · rw [heval]
    by_cases hfits : Fits (-a.toInt)
    · obtain ⟨v, hv, hexact⟩ := applyNegation_of_fits hfits
      have hnegated : (Expr.unary .neg e).unbounded? = some v.toInt := by
        rw [Expr.unbounded?, hvalue, hexact]
        rfl
      exact .inl ⟨v, hv, hnegated, hfeasible, a.toInt, hvalue, hfits⟩
    · refine .inr ⟨⟨_, applyNegation_of_not_fits hfits⟩, ?_⟩
      rintro ⟨_, a', hvalue', hfits'⟩
      obtain rfl := Option.some.inj (hvalue.symm.trans hvalue')
      exact hfits hfits'
  · rw [heval]
    exact .inr ⟨⟨fault, rfl⟩, fun hfeasible => hnot hfeasible.1⟩

/-- The left operand faults first, then the right one, then the operation on their values. -/
theorem settled_operation {op : BinaryOp} {l r : Expr} (hop : op.isArithmetic = true)
    (hl : Settled around context (0 :: site) l) (hr : Settled around context (1 :: site) r) :
    Settled around context site (.binary op l r) := by
  rw [Settled, eval_operation hop, Expr.feasible_operation_iff]
  rcases hl with ⟨a, hl, hvalue, hfeasible⟩ | ⟨⟨fault, hl⟩, hnot⟩
  · rcases hr with ⟨b, hr, hvalue', hfeasible'⟩ | ⟨⟨fault, hr⟩, hnot⟩
    · have happly : (do
          let a ← l.eval around context (0 :: site)
          let b ← r.eval around context (1 :: site)
          Value.applyStrict op a b) = Value.integerArithmetic op a b := by
        rw [hl, hr]
        exact applyStrict_eq hop a b
      rw [happly]
      by_cases hadmitted : Admitted op a.toInt b.toInt
      · obtain ⟨v, hv, hexact⟩ := integerArithmetic_of_admitted hop hadmitted
        have hresult := (Expr.unbounded?_operation hvalue hvalue').trans hexact
        exact .inl ⟨v, hv, hresult, ⟨hfeasible, hfeasible'⟩, _, _, hvalue, hvalue', hadmitted⟩
      · refine .inr ⟨integerArithmetic_of_not_admitted hop hadmitted, ?_⟩
        rintro ⟨_, a', b', ha, hb, hadmitted'⟩
        obtain rfl := Option.some.inj (hvalue.symm.trans ha)
        obtain rfl := Option.some.inj (hvalue'.symm.trans hb)
        exact hadmitted hadmitted'
    · rw [hl, hr]
      exact .inr ⟨⟨fault, rfl⟩, fun hfeasible => hnot hfeasible.1.2⟩
  · rw [hl]
    exact .inr ⟨⟨fault, rfl⟩, fun hfeasible => hnot hfeasible.1.1⟩

theorem settled (around : Surroundings) (context : Value) {e : Expr} (he : Arithmetic e) :
    ∀ site, Settled around context site e := by
  induction he with
  | literal n =>
      intro site
      exact settled_literal n
  | negation _ ih =>
      intro site
      exact settled_negation (ih (0 :: site))
  | operation hop _ _ ihl ihr =>
      intro site
      exact settled_operation hop (ihl (0 :: site)) (ihr (1 :: site))

theorem eval_eq_ok_iff {e : Expr} (he : Arithmetic e) (v : Int64) :
    e.eval around context site = .ok (.int v) ↔ e.unbounded? = some v.toInt ∧ e.Feasible := by
  rcases settled around context he site with
    ⟨v', heval, hvalue, hfeasible⟩ | ⟨⟨fault, heval⟩, hnot⟩
  · rw [heval, hvalue]
    simp [hfeasible, Int64.toInt_inj]
  · rw [heval]
    simp [hnot]

theorem eval_error_iff {e : Expr} (he : Arithmetic e) :
    (∃ fault, e.eval around context site = .error fault) ↔ ¬ e.Feasible := by
  rcases settled around context he site with
    ⟨v', heval, hvalue, hfeasible⟩ | ⟨⟨fault, heval⟩, hnot⟩
  · rw [heval]
    simp [hfeasible]
  · rw [heval]
    simp [hnot]

/-! ### Quotients and remainders -/

theorem Expr.Feasible.fits {e : Expr} {n : Int} (h : e.Feasible) (hn : e.unbounded? = some n) :
    Fits n :=
  h.2.here.1 n hn

theorem feasible_rem_iff (l r : Expr) :
    (Expr.binary .rem l r).Feasible ↔ (Expr.binary .div l r).Feasible := by
  rw [Expr.feasible_operation_iff, Expr.feasible_operation_iff]
  refine and_congr_right fun hparts => exists_congr fun a => exists_congr fun b =>
    and_congr_right fun ha => and_congr_right fun _ => ?_
  exact admitted_rem_iff (hparts.1.fits ha) b

theorem exists_eval_of_feasible {e : Expr} (he : Arithmetic e) (h : e.Feasible) (site : Site) :
    ∃ v, e.eval around context site = .ok (.int v) ∧ e.unbounded? = some v.toInt := by
  rcases settled around context he site with
    ⟨v, heval, hvalue, _⟩ | ⟨_, hnot⟩
  · exact ⟨v, heval, hvalue⟩
  · exact absurd h hnot

/-- The quotient times the divisor and the remainder make the dividend. -/
theorem division_identity {l r : Expr} (hl : Arithmetic l) (hr : Arithmetic r) {q s : Int64}
    (hq : (Expr.binary .div l r).eval around context site = .ok (.int q))
    (hs : (Expr.binary .rem l r).eval around context site = .ok (.int s)) :
    ∃ a b, l.eval around context (0 :: site) = .ok (.int a) ∧
      r.eval around context (1 :: site) = .ok (.int b) ∧
        a.toInt = b.toInt * q.toInt + s.toInt ∧ s.toInt.natAbs < b.toInt.natAbs := by
  obtain ⟨hq, hfeasible⟩ := (eval_eq_ok_iff (.operation rfl hl hr) q).mp hq
  obtain ⟨hs, _⟩ := (eval_eq_ok_iff (.operation rfl hl hr) s).mp hs
  obtain ⟨⟨hl', hr'⟩, _⟩ := Expr.feasible_operation_iff.mp hfeasible
  obtain ⟨a, ha, hvalue⟩ := exists_eval_of_feasible hl hl' (0 :: site)
  obtain ⟨b, hb, hvalue'⟩ := exists_eval_of_feasible hr hr' (1 :: site)
  rw [Expr.unbounded?_operation hvalue hvalue', unboundedResult?_eq rfl] at hq hs
  by_cases hzero : b.toInt = 0
  · simp [hzero] at hq
  · simp only [hzero, and_false, if_false, Option.some.injEq, Value.exactly] at hq hs
    refine ⟨a, b, ha, hb, ?_, ?_⟩
    · rw [← hq, ← hs, Int.mul_tdiv_add_tmod]
    · rw [← hs]
      exact natAbs_tmod_lt _ hzero

/-- Integer arithmetic is exact and never wraps. An expression of integer literals, minus signs and
the five operators has a value exactly when over the integers without bounds nothing in it is
divided by zero and every value on the way, the quotient behind a remainder included, has 64 bits.
Then it has the same value; otherwise it faults. So a remainder faults exactly where the division
does, and together the two give back the dividend. -/
theorem arithmetic_exact_or_fault (around : Surroundings) (context : Value) (site : Site) {e : Expr}
    (he : Arithmetic e) :
    (∀ v, e.eval around context site = .ok (.int v) ↔
      e.unbounded? = some v.toInt ∧ e.Each Expr.InBounds) ∧
    ((∃ fault, e.eval around context site = .error fault) ↔
      ¬ ((∃ n, e.unbounded? = some n) ∧ e.Each Expr.InBounds)) ∧
    ∀ l r, e = .binary .rem l r →
      ((∃ fault, e.eval around context site = .error fault) ↔
        ∃ fault, (Expr.binary .div l r).eval around context site = .error fault) ∧
      ∀ q s, (Expr.binary .div l r).eval around context site = .ok (.int q) →
        e.eval around context site = .ok (.int s) →
          ∃ a b, l.eval around context (0 :: site) = .ok (.int a) ∧
            r.eval around context (1 :: site) = .ok (.int b) ∧
              a.toInt = b.toInt * q.toInt + s.toInt ∧ s.toInt.natAbs < b.toInt.natAbs := by
  refine ⟨?_, ?_, ?_⟩
  · intro v
    rw [eval_eq_ok_iff he, Expr.Feasible]
    refine and_congr_right fun hvalue => and_iff_right ?_
    rw [hvalue]
    rfl
  · rw [eval_error_iff he, Expr.Feasible, Option.isSome_iff_exists]
  · rintro l r rfl
    cases he with
    | operation hop hl hr =>
        constructor
        · rw [eval_error_iff (.operation hop hl hr), eval_error_iff (.operation rfl hl hr),
            feasible_rem_iff]
        · intro q s hq hs
          exact division_identity hl hr hq hs

/-- The least integer, written as a difference, by minus one: the remainder would be zero, but its
quotient is too great. -/
theorem arithmetic_exact_or_fault_of_least :
    let around : Surroundings := ⟨fun _ => "", fun _ => "", fun _ => 0⟩
    let least : Expr := .binary .sub (.unary .neg (.int 0x7fffffffffffffff)) (.int 1)
    let e : Expr := .binary .rem least (.int (-1))
    Arithmetic least ∧ Arithmetic e ∧ least.Each Expr.InBounds ∧
      e.unbounded? = some 0 ∧ ¬ e.Each Expr.InBounds ∧
        ∃ fault, (Expr.binary .div least (.int (-1))).eval around .null [] = .error fault := by
  intro around least e
  have hleast : Arithmetic least := .operation rfl (.negation (.literal _)) (.literal _)
  have he : Arithmetic e := .operation rfl hleast (.literal _)
  have hvalue : least.eval around .null [] = .ok (.int Int64.minValue) := rfl
  have hfault : ∃ fault, e.eval around .null [] = .error fault := ⟨_, rfl⟩
  have hexact : e.unbounded? = some 0 := rfl
  obtain ⟨hvalues, _⟩ := arithmetic_exact_or_fault around .null [] hleast
  obtain ⟨_, hfaults, hdivision⟩ := arithmetic_exact_or_fault around .null [] he
  refine ⟨hleast, he, ((hvalues _).mp hvalue).2, hexact, ?_,
    (hdivision least (.int (-1)) rfl).1.mp hfault⟩
  intro heach
  exact hfaults.mp hfault ⟨⟨0, hexact⟩, heach⟩

end Scriptlet
