import Scriptlet.Proofs.Grammar.Writing
import Scriptlet.Proofs.Language.Depth

/-!
What is built of the phrase of an expression: the expression again. Parentheses leave no trace, and
the minus in front of a numeral goes back into it. So no other minus may stand there: a minus node
directly on a number would be taken for the sign of the number. The least integer is the exception,
because its negation has no numeral.

A node is checked against the limit when it is made, and no part of a tree is deeper than the tree.
-/

namespace Scriptlet

open Grammar

namespace Expr

/-! ### Depth -/

theorem foldl_max_depth (es : List Expr) (start : Nat) :
    (es.map depth).foldl max start = max start (greatestHeight es) := by
  induction es generalizing start with
  | nil => rw [greatestHeight, Nat.max_zero]; rfl
  | cons e es ih =>
      rw [List.map_cons, List.foldl_cons, ih, depth_height, greatestHeight, Nat.max_assoc]

end Expr

/-! ### What can be written -/

/-- Every node of a tree is of a kind. -/
inductive Expr.Each (P : Expr → Prop) : Expr → Prop where
  | node {e : Expr} (here : P e) (parts : ∀ part ∈ e.children, Expr.Each P part) : Expr.Each P e

/-- A float literal of the grammar that reads back as the number, after a minus if the number is
negative. -/
def Number.Spells (n : Number.Numeral) (x : Float) : Prop :=
  IsFloat n ∧ Number.signed (Number.isNegative x) n.nearest = x

/-- Names are identifiers, numbers are spelled, and no minus stands directly on a number other than
the least integer. -/
def Writable (spell : Float → Number.Numeral) : Expr → Prop
  | .float x => Number.Spells (spell x) x
  | .ident name => IsIdentifier name
  | .member _ property => IsIdentifier property
  | .unary .neg (.int n) => n = Int64.minValue
  | .unary .neg (.float _) => False
  | _ => True

theorem Expr.each_iff {P : Expr → Prop} {e : Expr} :
    e.Each P ↔ P e ∧ ∀ part ∈ e.children, part.Each P := by
  constructor
  · rintro ⟨here, parts⟩
    exact ⟨here, parts⟩
  · rintro ⟨here, parts⟩
    exact .node here parts

theorem Expr.Each.here {P : Expr → Prop} {e : Expr} (h : e.Each P) : P e := by
  cases h with
  | node here _ => exact here

theorem Expr.Each.part {P : Expr → Prop} {e part : Expr} (h : e.Each P)
    (hpart : part ∈ e.children) :
    part.Each P := by
  cases h with
  | node _ parts => exact parts part hpart

namespace Grammar

/-! ### Digits -/

theorem isDigits_decimalDigits (n : Nat) : IsDigits (Number.decimalDigits n) := by
  refine ⟨List.ne_nil_of_length_pos Nat.length_toDigits_pos, fun c hc => ?_⟩
  have hdigit := Nat.isDigit_of_mem_toDigits (by decide) (by decide) hc
  simpa only [Char.isDigit, Text.isDigit, Char.le_def, ge_iff_le] using hdigit

theorem natOfDigits_decimalDigits (n : Nat) :
    Number.natOfDigits (Number.decimalDigits n) = n := by
  have hread : Nat.ofDigitChars 10 (Nat.toDigits 10 n) 0 = n :=
    Nat.ofDigitChars_toDigits (by decide) (by decide)
  rw [Nat.ofDigitChars_eq_foldl] at hread
  simpa only [Number.natOfDigits, Number.decimalDigits, Number.digitValue, Nat.mul_comm] using hread

/-! ### The phrase of an expression is proper -/

theorem Phrase.fit_rank (p : Phrase) {needed : Nat} (hneeded : needed ≤ 9) :
    needed ≤ (p.fit needed).rank := by
  unfold Phrase.fit
  split
  · exact hneeded
  · next h => exact Nat.le_of_not_lt h

theorem Phrase.fit_proper {p : Phrase} (hp : p.Proper) (needed : Nat) :
    (p.fit needed).Proper := by
  unfold Phrase.fit
  split <;> exact hp

theorem Phrase.addSign_proper {p : Phrase} (hp : p.Proper) (hrank : 8 ≤ p.rank) (op : UnaryOp) :
    (p.addSign op).Proper := by
  cases p with
  | signed signs operand => exact ⟨by simp, hp.2⟩
  | binary op left right =>
      have hlevel : op.level.rank ≤ 7 := by cases op <;> decide
      simp only [Phrase.rank] at hrank
      omega
  | conditional test thenP elseP => exact absurd hrank (by simp [Phrase.rank])
  | _ => exact ⟨by simp, hp, Nat.le_refl _⟩

variable {spell : Float → Number.Numeral}

mutual

theorem phrase_proper (e : Expr) (he : e.Each (Writable spell)) : (e.phrase spell).Proper := by
  match e with
  | .null | .bool _ | .string _ => exact trivial
  | .int n =>
      have hdigits := isDigits_decimalDigits n.toInt.natAbs
      simp only [Expr.phrase]
      split
      · exact ⟨by simp, hdigits, Nat.le_refl _⟩
      · exact hdigits
  | .float x =>
      obtain ⟨hfloat, _⟩ := he.here
      simp only [Expr.phrase]
      split
      · exact ⟨by simp, hfloat, Nat.le_refl _⟩
      · exact hfloat
  | .list items => exact phrases_proper items fun item hitem => he.part hitem
  | .ident name => exact he.here
  | .member object property =>
      have hobject := phrase_proper object (he.part (by simp [Expr.children]))
      exact ⟨Phrase.fit_proper hobject 9, Phrase.fit_rank _ (Nat.le_refl _), he.here⟩
  | .index object key =>
      have hobject := phrase_proper object (he.part (by simp [Expr.children]))
      have hkey := phrase_proper key (he.part (by simp [Expr.children]))
      exact ⟨Phrase.fit_proper hobject 9, Phrase.fit_rank _ (Nat.le_refl _), hkey⟩
  | .call callee args =>
      have hcallee := phrase_proper callee (he.part (by simp [Expr.children]))
      have hargs := phrases_proper args fun arg harg => he.part (by simp [Expr.children, harg])
      exact ⟨Phrase.fit_proper hcallee 9, Phrase.fit_rank _ (Nat.le_refl _), hargs⟩
  | .unary op operand =>
      have hoperand := phrase_proper operand (he.part (by simp [Expr.children]))
      exact Phrase.addSign_proper (Phrase.fit_proper hoperand 8) (Phrase.fit_rank _ (by decide)) op
  | .binary op left right =>
      have hleft := phrase_proper left (he.part (by simp [Expr.children]))
      have hright := phrase_proper right (he.part (by simp [Expr.children]))
      have hlevel : op.level.rank ≤ 7 := by cases op <;> decide
      exact ⟨Phrase.fit_proper hleft _, Phrase.fit_rank _ (by omega), Phrase.fit_proper hright _,
        Phrase.fit_rank _ (by omega)⟩
  | .conditional test thenE elseE =>
      have htest := phrase_proper test (he.part (by simp [Expr.children]))
      have hthen := phrase_proper thenE (he.part (by simp [Expr.children]))
      have helse := phrase_proper elseE (he.part (by simp [Expr.children]))
      exact ⟨Phrase.fit_proper htest 1, Phrase.fit_rank _ (by decide), hthen, helse⟩

theorem phrases_proper (es : List Expr) (hes : ∀ e ∈ es, e.Each (Writable spell)) :
    Phrase.ProperItems (phrases spell es) := by
  match es with
  | [] => exact trivial
  | e :: more =>
      have he := phrase_proper e (hes e (by simp))
      exact ⟨he, phrases_proper more fun other hother => hes other (by simp [hother])⟩

end

/-! ### Building it -/

variable {limit : Nat}

theorem Phrase.fit_build (p : Phrase) (needed : Nat) (limit : Option Nat) :
    (p.fit needed).build limit = p.build limit := by
  unfold Phrase.fit
  split
  · rw [Phrase.build]
  · rfl

theorem checkDepth_ok {depth : Nat} (h : depth ≤ limit) :
    checkDepth (some limit) depth = .ok depth := by
  simp only [checkDepth, Nat.not_lt.mpr h, if_false]

/-- The sign that is put in front is the last one to be applied. -/
theorem bind_applySigns_cons {limit : Option Nat} {ops : List UnaryOp} {e : Expr}
    {made : Except BuildError Expr} (h : made.bind (applySigns limit ops) = .ok e) (op : UnaryOp) :
    made.bind (applySigns limit (op :: ops)) = applySigns limit [op] e := by
  cases made with
  | error error => cases h
  | ok inner =>
      have hinner : applySigns limit ops inner = .ok e := h
      change (applySigns limit ops inner).bind (applySigns limit [op]) = _
      rw [hinner]
      rfl

/-- A sign makes a node of its own unless it is a minus on a number. -/
theorem applySigns_one {op : UnaryOp} {e : Expr} (hwritable : Writable spell (.unary op e))
    (hdepth : e.height + 1 ≤ limit) : applySigns (some limit) [op] e = .ok (.unary op e) := by
  have hcheck : checkDepth (some limit) (e.depth + 1) = .ok (e.depth + 1) :=
    checkDepth_ok (by rwa [Expr.depth_height])
  cases op with
  | not =>
      simp only [applySigns, bind, Except.bind, hcheck]
  | neg =>
      cases e with
      | float x => exact absurd hwritable (by simp [Writable])
      | int n =>
          obtain rfl : n = Int64.minValue := hwritable
          simp only [applySigns, bind, Except.bind, hcheck, if_true]
      | _ => simp only [applySigns, bind, Except.bind, hcheck]

theorem integer?_of_nonneg {n : Int64} (h : ¬ n.toInt < 0) :
    integer? false (Number.decimalDigits n.toInt.natAbs) = some n := by
  have hlt := n.toInt_lt
  have habs : (n.toInt.natAbs : Int) = n.toInt := by omega
  have hbound : n.toInt.natAbs < 0x8000000000000000 := by omega
  simp only [integer?, natOfDigits_decimalDigits, Bool.false_eq_true, if_false, hbound, if_true,
    habs, Int64.ofInt_toInt]

theorem integer?_of_neg {n : Int64} (h : n.toInt < 0) :
    integer? true (Number.decimalDigits n.toInt.natAbs) = some n := by
  have hle := n.le_toInt
  have habs : -(n.toInt.natAbs : Int) = n.toInt := by omega
  have hbound : n.toInt.natAbs ≤ 0x8000000000000000 := by omega
  simp only [integer?, natOfDigits_decimalDigits, if_true, hbound, habs, Int64.ofInt_toInt]

/-- A minus in front of digits is read with them. -/
theorem build_signed_integer {limit : Option Nat} {signs : List UnaryOp}
    (hlast : signs.getLast? = some .neg) (digits : List Char) :
    (Phrase.signed signs (.integer digits)).build limit =
      (buildInteger true digits).bind (applySigns limit signs.dropLast) := by
  rw [Phrase.build]
  · rfl
  · exact hlast

theorem build_signed {limit : Option Nat} {signs : List UnaryOp} {operand : Phrase}
    (hbare : ∀ digits, signs.getLast? = some .neg → operand ≠ .integer digits) :
    (Phrase.signed signs operand).build limit =
      (operand.build limit).bind (applySigns limit signs) := by
  rw [Phrase.build]
  · rfl
  · exact hbare

theorem build_int (n : Int64) (limit : Option Nat) :
    ((Expr.int n).phrase spell).build limit = .ok (.int n) := by
  simp only [Expr.phrase]
  split
  · next h =>
      rw [build_signed_integer rfl, buildInteger, integer?_of_neg h]
      rfl
  · next h => simp only [Phrase.build, buildInteger, integer?_of_nonneg h]

theorem build_float {x : Float} (h : Number.Spells (spell x) x) (limit : Option Nat) :
    ((Expr.float x).phrase spell).build limit = .ok (.float x) := by
  obtain ⟨_, hread⟩ := h
  simp only [Expr.phrase]
  cases hsign : Number.isNegative x with
  | true =>
      have hminus : -(spell x).nearest = x := by
        simpa only [hsign, Number.signed, if_true] using hread
      rw [if_pos rfl, build_signed (fun _ _ h => by cases h), Phrase.build]
      exact congrArg (fun y => Except.ok (Expr.float y)) hminus
  | false =>
      have hplain : (spell x).nearest = x := by
        simpa only [hsign, Number.signed, Bool.false_eq_true, if_false] using hread
      rw [if_neg Bool.false_ne_true, Phrase.build, hplain]

/-- A sign in front of a phrase is applied to what the phrase builds. -/
theorem Phrase.addSign_build {p : Phrase} {op : UnaryOp} {limit : Option Nat} {e : Expr}
    (hp : p.Proper) (hbuild : p.build limit = .ok e)
    (hbare : ∀ digits, op = .neg → p ≠ .integer digits) :
    (p.addSign op).build limit = applySigns limit [op] e := by
  have hsingle : p.addSign op = .signed [op] p → (p.addSign op).build limit =
      applySigns limit [op] e := by
    intro h
    rw [h, build_signed (fun digits hlast => hbare digits (by simpa using hlast)), hbuild]
    rfl
  cases p with
  | signed signs operand =>
      obtain ⟨hne, _⟩ := hp
      obtain ⟨last, hlast⟩ := Option.isSome_iff_exists.mp (List.getLast?_isSome.mpr hne)
      have hcons : (op :: signs).getLast? = some last := by
        rw [List.getLast?_cons, hlast]
        rfl
      by_cases hminus : last = .neg ∧ ∃ digits, operand = .integer digits
      · obtain ⟨rfl, digits, rfl⟩ := hminus
        rw [build_signed_integer hlast] at hbuild
        rw [Phrase.addSign, build_signed_integer hcons, List.dropLast_cons_of_ne_nil hne]
        exact bind_applySigns_cons hbuild op
      · have hother : ∀ digits, some last = some .neg → operand ≠ .integer digits := by
          intro digits hneg hinteger
          exact hminus ⟨Option.some.inj hneg, digits, hinteger⟩
        rw [build_signed (fun digits h => hother digits (hlast ▸ h))] at hbuild
        rw [Phrase.addSign, build_signed (fun digits h => hother digits (hcons ▸ h))]
        exact bind_applySigns_cons hbuild op
  | _ => exact hsingle rfl

/-- Bare digits are the phrase of an integer that is not negative, and of nothing else. -/
theorem eq_int_of_phrase {e : Expr} {digits : List Char} (h : e.phrase spell = .integer digits) :
    ∃ n, e = .int n ∧ ¬ n.toInt < 0 := by
  cases e with
  | int n =>
      simp only [Expr.phrase] at h
      split at h
      · cases h
      · next hnonneg => exact ⟨n, rfl, hnonneg⟩
  | float x =>
      simp only [Expr.phrase] at h
      split at h <;> cases h
  | unary op operand =>
      simp only [Expr.phrase] at h
      revert h
      unfold Phrase.addSign
      split <;> exact fun h => by cases h
  | _ => simp only [Expr.phrase] at h; cases h

theorem Phrase.fit_eq_integer {p : Phrase} {needed : Nat} {digits : List Char}
    (h : p.fit needed = .integer digits) : p = .integer digits := by
  unfold Phrase.fit at h
  split at h
  · cases h
  · exact h

mutual

/-- What is built of the phrase of an expression is the expression, if it is not too deep. -/
theorem build_phrase (e : Expr) (he : e.Each (Writable spell)) (hheight : e.height ≤ limit) :
    (e.phrase spell).build (some limit) = .ok e := by
  match e with
  | .null | .bool _ | .string _ | .ident _ => simp only [Expr.phrase, Phrase.build]
  | .int n => exact build_int n _
  | .float x => exact build_float he.here _
  | .list items =>
      simp only [Expr.height] at hheight
      have hitems := buildItems_phrases items (fun item hitem => he.part hitem) (by omega)
      have hcheck : checkDepth (some limit) (Expr.list items).depth = .ok _ :=
        checkDepth_ok (by rw [Expr.depth_height, Expr.height]; omega)
      simp only [Expr.phrase, Phrase.build, hitems, hcheck, bind, Except.bind]
  | .member object property =>
      simp only [Expr.height] at hheight
      have hobject := build_phrase object (he.part (by simp [Expr.children])) (by omega)
      have hcheck : checkDepth (some limit) (object.depth + 1) = .ok _ :=
        checkDepth_ok (by rw [Expr.depth_height]; omega)
      simp only [Expr.phrase, Phrase.build, Phrase.fit_build, hobject, hcheck, bind, Except.bind]
  | .index object key =>
      simp only [Expr.height] at hheight
      have hobject := build_phrase object (he.part (by simp [Expr.children])) (by omega)
      have hkey := build_phrase key (he.part (by simp [Expr.children])) (by omega)
      have hcheck : checkDepth (some limit) (max object.depth key.depth + 1) = .ok _ :=
        checkDepth_ok (by rw [Expr.depth_height, Expr.depth_height]; omega)
      simp only [Expr.phrase, Phrase.build, Phrase.fit_build, hobject, hkey, hcheck, bind,
        Except.bind]
  | .call callee args =>
      simp only [Expr.height] at hheight
      have hcallee := build_phrase callee (he.part (by simp [Expr.children])) (by omega)
      have hargs := buildItems_phrases args
        (fun arg harg => he.part (by simp [Expr.children, harg])) (by omega)
      have hcheck : checkDepth (some limit)
          (max callee.depth ((args.map Expr.depth).foldl max 0) + 1) = .ok _ :=
        checkDepth_ok (by rw [Expr.depth_height, Expr.foldl_max_depth]; omega)
      simp only [Expr.phrase, Phrase.build, Phrase.fit_build, hcallee, hargs, hcheck, bind,
        Except.bind]
  | .unary op operand =>
      simp only [Expr.height] at hheight
      have hpart : operand.Each (Writable spell) := he.part (by simp [Expr.children])
      have hoperand := build_phrase operand hpart (by omega)
      have hbare : ∀ digits, op = .neg → (operand.phrase spell).fit 8 ≠ .integer digits := by
        rintro digits rfl hdigits
        obtain ⟨n, rfl, hnonneg⟩ := eq_int_of_phrase (Phrase.fit_eq_integer hdigits)
        obtain rfl : n = Int64.minValue := he.here
        exact hnonneg (by decide)
      rw [Expr.phrase, Phrase.addSign_build (Phrase.fit_proper (phrase_proper operand hpart) 8)
        (by rw [Phrase.fit_build, hoperand]) hbare]
      exact applySigns_one he.here (by omega)
  | .binary op left right =>
      simp only [Expr.height] at hheight
      have hleft := build_phrase left (he.part (by simp [Expr.children])) (by omega)
      have hright := build_phrase right (he.part (by simp [Expr.children])) (by omega)
      have hcheck : checkDepth (some limit) (max left.depth right.depth + 1) = .ok _ :=
        checkDepth_ok (by rw [Expr.depth_height, Expr.depth_height]; omega)
      simp only [Expr.phrase, Phrase.build, Phrase.fit_build, hleft, hright, hcheck, bind,
        Except.bind]
  | .conditional test thenE elseE =>
      simp only [Expr.height] at hheight
      have htest := build_phrase test (he.part (by simp [Expr.children])) (by omega)
      have hthen := build_phrase thenE (he.part (by simp [Expr.children])) (by omega)
      have helse := build_phrase elseE (he.part (by simp [Expr.children])) (by omega)
      have hcheck : checkDepth (some limit) (Expr.conditional test thenE elseE).depth = .ok _ :=
        checkDepth_ok (by rw [Expr.depth_height, Expr.height]; omega)
      simp only [Expr.phrase, Phrase.build, Phrase.fit_build, htest, hthen, helse, hcheck, bind,
        Except.bind]

theorem buildItems_phrases (es : List Expr) (hes : ∀ e ∈ es, e.Each (Writable spell))
    (hheight : Expr.greatestHeight es ≤ limit) :
    buildItems (some limit) (phrases spell es) = .ok es := by
  match es with
  | [] => rfl
  | e :: more =>
      simp only [Expr.greatestHeight] at hheight
      have he := build_phrase e (hes e (by simp)) (by omega)
      have hmore := buildItems_phrases more (fun other hother => hes other (by simp [hother]))
        (by omega)
      simp only [phrases, buildItems, he, hmore, bind, Except.bind]

end

end Grammar

end Scriptlet
