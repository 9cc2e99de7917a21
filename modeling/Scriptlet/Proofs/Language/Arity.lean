import Scriptlet.Evaluation

/-!
Which faults are faults of linking, and which parts of the evaluator cannot raise them. Operators
and member access never do. A function may find an argument missing, but not when it is called
with a count of arguments that it accepts: the least count covers every position that its body
reads on the way, whatever it has read before.
-/

namespace Scriptlet

/-- The faults that validation is there to rule out. -/
def Fault.isLinkage : Fault → Bool
  | .invalidCallTarget | .unknownFunction _ _ | .missingArgument _ _ => true
  | _ => false

/-- Does not end with a fault of linking. -/
def Links {α : Type} (r : Except Fault α) : Prop :=
  ∀ fault, r = .error fault → fault.isLinkage = false

variable {α β : Type}

@[simp] theorem links_ok (a : α) : Links (.ok a : Except Fault α) := by
  intro fault h
  cases h

@[simp] theorem links_error_iff {fault : Fault} :
    Links (.error fault : Except Fault α) ↔ fault.isLinkage = false := by
  constructor
  · intro h
    exact h fault rfl
  · intro h other heq
    obtain rfl := Except.error.inj heq
    exact h

theorem Links.bind {r : Except Fault α} {f : α → Except Fault β} (hr : Links r)
    (hf : ∀ a, r = .ok a → Links (f a)) : Links (r >>= f) := by
  cases r with
  | error fault => exact links_error_iff.mpr (links_error_iff.mp hr)
  | ok a => exact hf a rfl

/-- A choice by whether a value is an integer. It is a lemma of its own because in the branch for
integers the check of an overflow must not be computed. -/
theorem links_ofInt (v : Value) {f : Int64 → Except Fault α} {r : Except Fault α}
    (hf : ∀ n, Links (f n)) (hr : Links r) :
    Links (match v with | .int n => f n | _ => r) := by
  cases v with
  | int n => exact hf n
  | _ => exact hr

/-! ### Operators -/

theorem resolve_links (context : Value) (name : String) : Links (resolve context name) := by
  unfold resolve
  repeat' split
  all_goals simp [Fault.isLinkage]

namespace Value

theorem member_links (object : Value) (property : String) : Links (object.member property) := by
  unfold Value.member
  repeat' split
  all_goals simp [Fault.isLinkage]

theorem index_links (object key : Value) : Links (object.index key) := by
  unfold Value.index
  repeat' split
  all_goals simp [Fault.isLinkage]

theorem applyUnary_links (op : UnaryOp) (v : Value) : Links (applyUnary op v) := by
  unfold applyUnary
  repeat' split
  all_goals simp [Fault.isLinkage]

theorem asBool_links (op : BinaryOp) (v : Value) : Links (v.asBool op) := by
  unfold asBool
  split <;> simp [Fault.isLinkage]

theorem integerArithmetic_links (op : BinaryOp) (a b : Int64) :
    Links (integerArithmetic op a b) := by
  simp only [integerArithmetic]
  repeat' split
  all_goals simp [Fault.isLinkage]

theorem arithmetic_links (op : BinaryOp) (left right : Value) :
    Links (arithmetic op left right) := by
  unfold arithmetic
  split
  · exact integerArithmetic_links _ _ _
  · unfold floatArithmetic
    repeat' split
    all_goals simp [Fault.isLinkage]

theorem order_links (op : BinaryOp) (left right : Value) : Links (order op left right) := by
  unfold order
  repeat' split
  all_goals simp [Fault.isLinkage]

theorem applyStrict_links (op : BinaryOp) (left right : Value) :
    Links (applyStrict op left right) := by
  have hcompare (p : Ordering → Bool) :
      Links (do .ok (.bool (p (← order op left right))) : Except Fault Value) :=
    (order_links op left right).bind fun _ _ => links_ok _
  cases op with
  | eq | ne => exact links_ok _
  | lt => exact hcompare (· == .lt)
  | le => exact hcompare (· != .gt)
  | gt => exact hcompare (· == .gt)
  | ge => exact hcompare (· != .lt)
  | add =>
      simp only [applyStrict]
      split
      · exact links_ok _
      · exact links_ok _
      · exact arithmetic_links _ _ _
  | sub | mul | div | rem | and | or | coalesce => exact arithmetic_links _ _ _

end Value

/-! ### Functions -/

namespace Builtin

variable {args : List Value} {position : Nat}

theorem accepts_iff {f : Builtin} {count : Nat} :
    f.accepts count = true ↔ f.arity.1 ≤ count ∧ ∀ most, f.arity.2 = some most → count ≤ most := by
  simp only [accepts, Bool.and_eq_true, decide_eq_true_eq]
  cases f.arity.2 <;> simp

theorem argument_links (h : position < args.length) (f : Builtin) :
    Links (argument args position f) := by
  simp [argument, h]

theorem numberArgument_links (h : position < args.length) (f : Builtin) :
    Links (numberArgument args position f) := by
  refine (argument_links h f).bind ?_
  intro v _
  split <;> simp [Fault.isLinkage]

theorem stringArgument_links (h : position < args.length) (f : Builtin) :
    Links (stringArgument args position f) := by
  refine (argument_links h f).bind ?_
  intro v _
  split <;> simp [Fault.isLinkage]

theorem listArgument_links (h : position < args.length) (f : Builtin) :
    Links (listArgument args position f) := by
  refine (argument_links h f).bind ?_
  intro v _
  split <;> simp [Fault.isLinkage]

theorem abs_links (h : 1 ≤ args.length) : Links (abs args) := by
  refine (argument_links h _).bind ?_
  intro v _
  refine links_ofInt v ?_ ?_
  · intro n
    cases Number.int64? n.toInt.natAbs <;> simp [Fault.isLinkage]
  · exact (numberArgument_links h _).bind fun _ _ => links_ok _

theorem integral_links (h : 1 ≤ args.length) (f : Builtin) (rounding : Float → Float) :
    Links (integral args f rounding) := by
  refine (argument_links h f).bind ?_
  intro v _
  refine links_ofInt v ?_ ?_
  · intro n
    exact links_ok _
  · exact (numberArgument_links h f).bind fun _ _ => links_ok _

/-- The second argument is read only where there is one. -/
theorem round_links (h : 1 ≤ args.length) : Links (round args) := by
  refine (numberArgument_links h _).bind ?_
  intro x _
  split
  · exact integral_links h _ _
  · next hlength =>
      refine (argument_links (Nat.not_lt.mp hlength) _).bind ?_
      intro digits _
      refine links_ofInt digits ?_ ?_
      · intro n
        split <;> simp [Fault.isLinkage]
      · simp [Fault.isLinkage]

theorem pick_links (h : 2 ≤ args.length) (f : Builtin) (keepFirst : Float → Float → Bool) :
    Links (pick args f keepFirst) := by
  have hfirst : 0 < args.length := Nat.lt_of_lt_of_le Nat.zero_lt_two h
  refine (numberArgument_links hfirst f).bind ?_
  intro a _
  refine (numberArgument_links h f).bind ?_
  intro b _
  split
  · exact argument_links hfirst f
  · exact argument_links h f

theorem pow_links (h : 2 ≤ args.length) : Links (pow args) := by
  refine (numberArgument_links (Nat.lt_of_lt_of_le Nat.zero_lt_two h) _).bind ?_
  intro base _
  exact (numberArgument_links h _).bind fun _ _ => links_ok _

theorem sqrt_links (h : 1 ≤ args.length) : Links (sqrt args) := by
  refine (numberArgument_links h _).bind ?_
  intro x _
  split <;> simp [Fault.isLinkage]

theorem relate_links (h : 2 ≤ args.length) (f : Builtin) (holds : String → String → Bool) :
    Links (relate args f holds) := by
  refine (stringArgument_links (Nat.lt_of_lt_of_le Nat.zero_lt_two h) f).bind ?_
  intro text _
  exact (stringArgument_links h f).bind fun _ _ => links_ok _

theorem isNullOrEmpty_links (h : 1 ≤ args.length) : Links (isNullOrEmpty args) := by
  refine (argument_links h _).bind ?_
  intro v _
  split
  · exact links_ok _
  · exact (stringArgument_links h _).bind fun _ _ => links_ok _

theorem join_links (h : 2 ≤ args.length) : Links (join args) := by
  refine (stringArgument_links (Nat.lt_of_lt_of_le Nat.zero_lt_two h) _).bind ?_
  intro separator _
  exact (listArgument_links h _).bind fun _ _ => links_ok _

theorem addItem_links (total item : Value) : Links (addItem total item) := by
  unfold addItem
  repeat' split
  all_goals simp [Fault.isLinkage]

theorem sum_links (h : 1 ≤ args.length) : Links (sum args) := by
  have hitems (items : List Value) (total : Value) : Links (items.foldlM addItem total) := by
    induction items generalizing total with
    | nil => exact links_ok total
    | cons item more ih =>
        rw [List.foldlM_cons]
        exact (addItem_links total item).bind fun next _ => ih next
  exact (listArgument_links h _).bind fun items _ => hitems items _

theorem contains_links (h : 2 ≤ args.length) : Links (contains args) := by
  refine (listArgument_links (Nat.lt_of_lt_of_le Nat.zero_lt_two h) _).bind ?_
  intro items _
  exact (argument_links h _).bind fun _ _ => links_ok _

/-- A function that is called with a count of arguments that it accepts finds every argument that
it reads. -/
theorem call_links (around : Surroundings) (site : Site) {f : Builtin}
    (h : f.accepts args.length = true) : Links (f.call around site args) := by
  have hleast := (accepts_iff.mp h).1
  cases f with
  | mathAbs => exact abs_links hleast
  | mathFloor | mathCeiling => exact integral_links hleast _ _
  | mathRound => exact round_links hleast
  | mathMin | mathMax => exact pick_links hleast _ _
  | mathPow => exact pow_links hleast
  | mathSqrt => exact sqrt_links hleast
  | stringToUpper | stringToLower | stringTrim =>
      exact (stringArgument_links hleast _).bind fun _ _ => links_ok _
  | stringContains | stringStartsWith | stringEndsWith => exact relate_links hleast _ _
  | stringIsNullOrEmpty => exact isNullOrEmpty_links hleast
  | stringJoin => exact join_links hleast
  | listCount => exact (listArgument_links hleast _).bind fun _ _ => links_ok _
  | listSum => exact sum_links hleast
  | listContains => exact contains_links hleast
  | stringConcat | guidNewGuid | dateTimeUtcNow | dateTimeUnixMillis => exact links_ok _

end Builtin

end Scriptlet
