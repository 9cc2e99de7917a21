import Scriptlet.Proofs.Language.Equality
import Scriptlet.Proofs.Outcome

/-!
A snippet makes lists but no objects. An operator and a function of the language answer with a value
without parts, whatever they are given; a member, an item and a name lead to a part of a value that
was there before. So every object in the value of an expression is one that the context holds.

The induction is about any kind of value that is kept where values are taken apart and where lists
are made of them.
-/

namespace Scriptlet

/-- Whatever the computation ends with is of a kind, if it ends with a value. -/
structure Yields {α : Type} (P : α → Prop) (r : Except Fault α) : Prop where
  of_ok : ∀ {a}, r = .ok a → P a

section

variable {α β : Type} {P Q : α → Prop} {R : β → Prop} {r : Except Fault α} {f : α → Except Fault β}

theorem yields_ok {a : α} (h : P a) : Yields P (.ok a) where
  of_ok ha := Except.ok.inj ha ▸ h

theorem yields_error (fault : Fault) : Yields P (.error fault) where
  of_ok ha := by cases ha

theorem Yields.mono (h : Yields P r) (hPQ : ∀ a, P a → Q a) : Yields Q r where
  of_ok ha := hPQ _ (h.of_ok ha)

theorem Yields.bind (h : Yields P r) (hf : ∀ a, P a → Yields R (f a)) : Yields R (r >>= f) where
  of_ok hb := by
    obtain ⟨a, ha, hb⟩ := bind_eq_ok.mp hb
    exact (hf a (h.of_ok ha)).of_ok hb

theorem yields_bind (hf : ∀ a, Yields R (f a)) : Yields R (r >>= f) where
  of_ok hb := by
    obtain ⟨a, -, hb⟩ := bind_eq_ok.mp hb
    exact (hf a).of_ok hb

/-- A choice by whether a value is an integer; the branch for integers is not computed. -/
theorem yields_ofInt (v : Value) {g : Int64 → Except Fault α} (hg : ∀ n, Yields P (g n))
    (hr : Yields P r) : Yields P (match v with | .int n => g n | _ => r) := by
  cases v with
  | int n => exact hg n
  | _ => exact hr

end

namespace Value

/-- The first value is the second or stands somewhere inside it. -/
inductive Within : Value → Value → Prop where
  | whole (v : Value) : Within v v
  | inside {u v part : Value} (hpart : part ∈ v.parts) (h : Within u part) : Within u v

/-- What is inside of a value of a kind is of that kind. -/
theorem Each.within {P : Value → Prop} {u v : Value} (hv : v.Each P) (h : u.Within v) :
    u.Each P := by
  induction h with
  | whole => exact hv
  | inside hpart _ ih => exact ih ((each_iff.mp hv).2 _ hpart)

/-- A kind of value that is kept in taking values apart and in making lists. -/
structure Hereditary (P : Value → Prop) : Prop where
  leaf : ∀ v, v.isCollection = false → P v
  part : ∀ v, P v → ∀ part ∈ v.parts, P part
  list : ∀ items, (∀ item ∈ items, P item) → P (.list items)

/-- Every object in the value stands in the context. -/
def Borrows (context v : Value) : Prop :=
  ∀ fields, (object fields).Within v → (object fields).Within context

theorem borrows_hereditary (context : Value) : Hereditary (Borrows context) where
  leaf v hleaf fields h := by
    cases h with
    | whole => cases hleaf
    | inside hpart _ =>
        rw [parts_of_leaf hleaf] at hpart
        cases hpart
  part v hv part hpart fields h := hv fields (.inside hpart h)
  list items hitems fields h := by
    cases h with
    | inside hpart h => exact hitems _ hpart fields h

/-! ### Operators -/

/-- Neither a list nor an object. -/
def IsLeaf (v : Value) : Prop :=
  v.isCollection = false

theorem applyUnary_leaf (op : UnaryOp) (v : Value) : Yields IsLeaf (applyUnary op v) := by
  unfold applyUnary
  repeat' split
  all_goals first | exact yields_error _ | exact yields_ok rfl

theorem integerArithmetic_leaf (op : BinaryOp) (a b : Int64) :
    Yields IsLeaf (integerArithmetic op a b) := by
  simp only [integerArithmetic]
  repeat' split
  all_goals first | exact yields_error _ | exact yields_ok rfl

theorem arithmetic_leaf (op : BinaryOp) (left right : Value) :
    Yields IsLeaf (arithmetic op left right) := by
  unfold arithmetic
  split
  · exact integerArithmetic_leaf _ _ _
  · unfold floatArithmetic
    repeat' split
    all_goals first | exact yields_error _ | exact yields_ok rfl

theorem applyStrict_leaf (op : BinaryOp) (left right : Value) :
    Yields IsLeaf (applyStrict op left right) := by
  have hbool (b : Bool) : Yields IsLeaf (.ok (.bool b)) := yields_ok rfl
  cases op with
  | eq | ne => exact hbool _
  | lt | le | gt | ge => exact yields_bind fun _ => hbool _
  | add =>
      simp only [applyStrict]
      split
      · exact yields_ok rfl
      · exact yields_ok rfl
      · exact arithmetic_leaf _ _ _
  | sub | mul | div | rem | and | or | coalesce => exact arithmetic_leaf _ _ _

end Value

/-! ### Functions -/

namespace Builtin

open Value (IsLeaf)

theorem argument_number {args : List Value} {position : Nat} {f : Builtin} {x : Float}
    (h : numberArgument args position f = .ok x) : Yields IsLeaf (argument args position f) := by
  obtain ⟨v, hv, hx⟩ := bind_eq_ok.mp h
  rw [hv]
  cases v with
  | list items => cases hx
  | object fields => cases hx
  | _ => exact yields_ok rfl

theorem integral_leaf (args : List Value) (f : Builtin) (rounding : Float → Float) :
    Yields IsLeaf (integral args f rounding) := by
  apply yields_bind
  intro v
  apply yields_ofInt v
  · intro n
    exact yields_ok rfl
  · exact yields_bind fun _ => yields_ok rfl

theorem abs_leaf (args : List Value) : Yields IsLeaf (abs args) := by
  apply yields_bind
  intro v
  apply yields_ofInt v
  · intro n
    split
    · exact yields_ok rfl
    · exact yields_error _
  · exact yields_bind fun _ => yields_ok rfl

theorem round_leaf (args : List Value) : Yields IsLeaf (round args) := by
  apply yields_bind
  intro x
  split
  · exact integral_leaf _ _ _
  · apply yields_bind
    intro digits
    repeat' split
    all_goals first | exact yields_error _ | exact yields_ok rfl

/-- What is compared as a number is one. -/
theorem pick_leaf (args : List Value) (f : Builtin) (keepFirst : Float → Float → Bool) :
    Yields IsLeaf (pick args f keepFirst) where
  of_ok hv := by
    obtain ⟨a, ha, hv⟩ := bind_eq_ok.mp hv
    obtain ⟨b, hb, hv⟩ := bind_eq_ok.mp hv
    split at hv
    · exact (argument_number ha).of_ok hv
    · exact (argument_number hb).of_ok hv

theorem sqrt_leaf (args : List Value) : Yields IsLeaf (sqrt args) := by
  apply yields_bind
  intro x
  split
  · exact yields_error _
  · exact yields_ok rfl

theorem isNullOrEmpty_leaf (args : List Value) : Yields IsLeaf (isNullOrEmpty args) := by
  apply yields_bind
  intro v
  split
  · exact yields_ok rfl
  · exact yields_bind fun _ => yields_ok rfl

theorem addItem_leaf (total item : Value) : Yields IsLeaf (addItem total item) := by
  unfold addItem
  repeat' split
  all_goals first | exact yields_error _ | exact yields_ok rfl

theorem sum_leaf (args : List Value) : Yields IsLeaf (sum args) := by
  have hitems (items : List Value) (total : Value) (htotal : total.IsLeaf) :
      Yields IsLeaf (items.foldlM addItem total) := by
    induction items generalizing total with
    | nil => exact yields_ok htotal
    | cons item more ih =>
        rw [List.foldlM_cons]
        exact (addItem_leaf total item).bind ih
  exact yields_bind fun items => hitems items _ rfl

/-- No function answers with a list or an object. -/
theorem call_leaf (around : Surroundings) (site : Site) (f : Builtin) (args : List Value) :
    Yields IsLeaf (f.call around site args) := by
  cases f with
  | mathAbs => exact abs_leaf args
  | mathFloor | mathCeiling => exact integral_leaf args _ _
  | mathRound => exact round_leaf args
  | mathMin | mathMax => exact pick_leaf args _ _
  | mathPow => exact yields_bind fun _ => yields_bind fun _ => yields_ok rfl
  | mathSqrt => exact sqrt_leaf args
  | stringToUpper | stringToLower | stringTrim | listCount =>
      exact yields_bind fun _ => yields_ok rfl
  | stringContains | stringStartsWith | stringEndsWith | stringJoin | listContains =>
      exact yields_bind fun _ => yields_bind fun _ => yields_ok rfl
  | stringIsNullOrEmpty => exact isNullOrEmpty_leaf args
  | listSum => exact sum_leaf args
  | stringConcat | guidNewGuid | dateTimeUtcNow | dateTimeUnixMillis =>
      exact yields_ok rfl

end Builtin

/-! ### Expressions -/

namespace Value.Hereditary

variable {P : Value → Prop}

theorem yields_of_leaf (hP : Hereditary P) {r : Except Fault Value} (h : Yields IsLeaf r) :
    Yields P r :=
  h.mono hP.leaf

theorem yields_part? (hP : Hereditary P) {v : Value} (hv : P v) (step : Step) (fault : Fault) :
    Yields P (match v.part? step with | some part => .ok part | none => .error fault) := by
  cases hpart : v.part? step with
  | some part => exact yields_ok (hP.part v hv part (mem_parts_of_part? hpart))
  | none => exact yields_error _

theorem member (hP : Hereditary P) {object : Value} (h : P object) (property : String) :
    Yields P (object.member property) := by
  cases object with
  | object fields => exact hP.yields_part? h (.field property) _
  | string s =>
      rw [Value.member]
      split
      · exact yields_ok (hP.leaf _ rfl)
      · exact yields_error _
  | list items =>
      rw [Value.member]
      split
      · exact yields_ok (hP.leaf _ rfl)
      · exact yields_error _
  | _ => exact yields_error _

theorem index (hP : Hereditary P) {object : Value} (h : P object) (key : Value) :
    Yields P (object.index key) := by
  unfold Value.index
  split
  · next items i =>
      rw [nth?]
      by_cases hi : 0 ≤ i.toInt
      · rw [if_pos hi]
        exact hP.yields_part? h (.item i.toInt.toNat) _
      · rw [if_neg hi]
        exact yields_error _
  · next s i =>
      cases nth? s.toList i with
      | some c => exact yields_ok (hP.leaf _ rfl)
      | none => exact yields_error _
  · next fields key => exact hP.yields_part? h (.field key) _
  · exact yields_error _
  · exact yields_error _

theorem resolve (hP : Hereditary P) {context : Value} (h : P context) (name : String) :
    Yields P (resolve context name) := by
  unfold Scriptlet.resolve
  split
  · exact yields_ok h
  · cases context with
    | object fields => exact hP.yields_part? h (.field name) _
    | _ => exact yields_error _

end Value.Hereditary

open Value (Hereditary Borrows)

variable {P : Value → Prop} {context : Value}

mutual

/-- The value of an expression is of any hereditary kind that the context is of. -/
theorem Expr.eval_yields (hP : Hereditary P) (hcontext : P context) (around : Surroundings)
    (site : Site) : ∀ e : Expr, Yields P (e.eval around context site)
  | .null | .bool _ | .int _ | .float _ | .string _ => yields_ok (hP.leaf _ rfl)
  | .ident name => hP.resolve hcontext name
  | .list items => by
      apply (evalItems_yields hP hcontext around site 0 items).bind
      intro vs hvs
      exact yields_ok (hP.list vs hvs)
  | .member object property => by
      apply (object.eval_yields hP hcontext around (0 :: site)).bind
      intro v hv
      exact hP.member hv property
  | .index object key => by
      apply (object.eval_yields hP hcontext around (0 :: site)).bind
      intro v hv
      -- the key is not taken apart, so it may be anything
      exact yields_bind fun k => hP.index hv k
  | .call callee args => by
      apply yields_bind
      intro f
      exact yields_bind fun vs => hP.yields_of_leaf (f.call_leaf around site vs)
  | .unary op operand => yields_bind fun v => hP.yields_of_leaf (v.applyUnary_leaf op)
  | .binary op left right => by
      have hbool (b : Bool) : Yields P (.ok (.bool b)) := yields_ok (hP.leaf _ rfl)
      cases op with
      | and =>
          refine yields_bind fun v => yields_bind fun b => ?_
          cases b with
          | false => exact hbool false
          | true => exact yields_bind fun w => yields_bind hbool
      | or =>
          refine yields_bind fun v => yields_bind fun b => ?_
          cases b with
          | false => exact yields_bind fun w => yields_bind hbool
          | true => exact hbool true
      | coalesce =>
          apply (left.eval_yields hP hcontext around (0 :: site)).bind
          intro v hv
          cases v with
          | null => exact right.eval_yields hP hcontext around (1 :: site)
          | _ => exact yields_ok hv
      | _ =>
          refine yields_bind fun v => yields_bind fun w => ?_
          exact hP.yields_of_leaf (Value.applyStrict_leaf _ v w)
  | .conditional test thenE elseE => by
      apply yields_bind
      intro v
      cases v with
      | bool b =>
          cases b with
          | true => exact thenE.eval_yields hP hcontext around (1 :: site)
          | false => exact elseE.eval_yields hP hcontext around (2 :: site)
      | _ => exact yields_error _

theorem evalItems_yields (hP : Hereditary P) (hcontext : P context) (around : Surroundings)
    (site : Site) (i : Nat) : ∀ es : List Expr,
      Yields (fun vs => ∀ v ∈ vs, P v) (evalItems around context site i es)
  | [] => yields_ok (by simp)
  | e :: es => by
      apply (e.eval_yields hP hcontext around (i :: site)).bind
      intro v hv
      apply (evalItems_yields hP hcontext around site (i + 1) es).bind
      intro vs hvs
      exact yields_ok (List.forall_mem_cons.mpr ⟨hv, hvs⟩)

end

/-- A snippet makes no object: each one that its value holds stands in the context. -/
theorem Expr.eval_borrows (around : Surroundings) (context : Value) (site : Site) (e : Expr) :
    Yields (Borrows context) (e.eval around context site) :=
  e.eval_yields (Value.borrows_hereditary context) (fun _ h => h) around site

end Scriptlet
