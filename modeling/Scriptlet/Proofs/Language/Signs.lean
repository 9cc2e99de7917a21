import Scriptlet.Proofs.Grammar.Integers
import Scriptlet.Proofs.Language.Arithmetic

/-!
Signs in front of an operand mean what they say. The builder takes a minus up into a number where it
can, so the tree of a row of signs is often smaller than the row; still it has the value, or the
fault, of the tree with a node for each sign. Two things come of it. The least integer can be
written although its digits alone are out of range, and no tree has a minus on a number that could
have taken it up.
-/

namespace Scriptlet

open Grammar

/-- A node for each sign, the first of them outermost. -/
def Expr.underSigns (signs : List UnaryOp) (e : Expr) : Expr :=
  signs.foldr .unary e

/-- The tree with a node for each sign over whatever the operand is. Only the digits of `2^63` are
nothing by themselves: they and the minus right in front of them are the least integer. -/
def Grammar.Phrase.plainlySigned (limit : Option Nat) (signs : List UnaryOp) :
    Phrase → Except BuildError Expr
  | .integer digits =>
      if signs.getLast? = some .neg ∧ Number.natOfDigits digits = 0x8000000000000000 then
        .ok (.underSigns signs.dropLast (.int Int64.minValue))
      else do
        let n ← buildInteger false digits
        .ok (.underSigns signs n)
  | operand => do
      let e ← operand.build limit
      .ok (.underSigns signs e)

/-- The same value or the same fault, wherever the expression stands and whatever the context is. -/
def SameMeaning (e e' : Expr) : Prop :=
  ∀ around context site, e.eval around context site = e'.eval around context site

/-- No minus stands on a number, unless the number is the least integer. -/
def MinusTakenUp : Expr → Prop
  | .unary .neg (.int n) => n = Int64.minValue
  | .unary .neg (.float _) => False
  | _ => True

/-! ### What signs mean -/

theorem SameMeaning.refl (e : Expr) : SameMeaning e e :=
  fun _ _ _ => rfl

theorem SameMeaning.trans {e e' e'' : Expr} (h : SameMeaning e e') (h' : SameMeaning e' e'') :
    SameMeaning e e'' :=
  fun around context site => (h around context site).trans (h' around context site)

theorem SameMeaning.unary {e e' : Expr} (h : SameMeaning e e') (op : UnaryOp) :
    SameMeaning (.unary op e) (.unary op e') := by
  intro around context site
  rw [Expr.eval, Expr.eval, h]

/-- The negation of an integer other than the least is an integer. -/
theorem sameMeaning_neg_int {n : Int64} (h : n ≠ Int64.minValue) :
    SameMeaning (.int (-n)) (.unary .neg (.int n)) := by
  have hfits : Number.Fits (-n.toInt) := by
    have hlow := n.le_toInt
    have hhigh := n.toInt_lt
    have hne : n.toInt ≠ -2 ^ 63 := by
      rw [← Int64.toInt_minValue]
      exact fun heq => h (Int64.toInt_inj.mp heq)
    unfold Number.Fits
    omega
  have hneg : Number.int64? (-n.toInt) = some (-n) := by
    apply (if_pos hfits).trans
    rw [Int64.ofInt_neg, Int64.ofInt_toInt]
  intro around context site
  simp only [Expr.eval, bind, Except.bind, Value.applyUnary, hneg]

theorem sameMeaning_neg_float (x : Float) :
    SameMeaning (.float (-x)) (.unary .neg (.float x)) :=
  fun _ _ _ => rfl

/-- A sign that is applied means what a node for it means. -/
theorem sameMeaning_applySign {limit : Option Nat} {op : UnaryOp} {e signed : Expr}
    (h : applySigns limit [op] e = .ok signed) : SameMeaning signed (.unary op e) := by
  have hnode : (checkDepth limit (e.depth + 1) >>= fun _ => .ok (.unary op e)) = .ok signed →
      SameMeaning signed (.unary op e) := by
    intro hmade
    obtain ⟨_, _, hmade⟩ := bind_eq_ok.mp hmade
    obtain rfl := Except.ok.inj hmade
    exact .refl _
  cases op with
  | not => exact hnode h
  | neg =>
      cases e with
      | int n =>
          by_cases hleast : n = Int64.minValue
          · subst hleast
            exact hnode h
          · simp only [applySigns, bind, Except.bind, if_neg hleast] at h
            obtain rfl := Except.ok.inj h
            exact sameMeaning_neg_int hleast
      | float x =>
          obtain rfl : Expr.float (-x) = signed := Except.ok.inj h
          exact sameMeaning_neg_float x
      | _ => exact hnode h

theorem sameMeaning_applySigns {limit : Option Nat} {signs : List UnaryOp} {e signed : Expr}
    (h : applySigns limit signs e = .ok signed) : SameMeaning signed (.underSigns signs e) := by
  induction signs generalizing signed with
  | nil =>
      obtain rfl := Except.ok.inj h
      exact .refl _
  | cons op signs ih =>
      rw [applySigns_cons] at h
      obtain ⟨inner, hinner, hsigned⟩ := bind_eq_ok.mp h
      exact (sameMeaning_applySign hsigned).trans ((ih hinner).unary op)

/-! ### What the builder makes of them -/

/-- How a tree with signs taken up stands to the plain one. It means the same, and where there is no
plain one there is none at all. Only the limit on depth, which knows the tree that is made and not
the plain one, may refuse more. -/
def SameBuild (limit : Option Nat) (made plain : Except BuildError Expr) : Prop :=
  match plain with
  | .error _ => ∃ error, made = .error error
  | .ok e' =>
      (∃ e, made = .ok e ∧ SameMeaning e e') ∨ ∃ n, limit = some n ∧ made = .error (.tooDeep n)

theorem checkDepth_ok_or_tooDeep (limit : Option Nat) (depth : Nat) :
    checkDepth limit depth = .ok depth ∨
      ∃ n, limit = some n ∧ checkDepth limit depth = .error (.tooDeep n) := by
  cases limit with
  | none => exact .inl rfl
  | some n =>
      by_cases hdeep : n < depth
      · exact .inr ⟨n, rfl, if_pos hdeep⟩
      · exact .inl (if_neg hdeep)

theorem applySigns_ok_or_tooDeep (limit : Option Nat) (signs : List UnaryOp) (e : Expr) :
    (∃ signed, applySigns limit signs e = .ok signed) ∨
      ∃ n, limit = some n ∧ applySigns limit signs e = .error (.tooDeep n) := by
  induction signs with
  | nil => exact .inl ⟨e, rfl⟩
  | cons op signs ih =>
      rw [applySigns_cons]
      rcases ih with ⟨inner, hinner⟩ | ⟨n, hlimit, hdeep⟩
      · have hnext :
            (Except.ok inner >>= applySigns limit [op]) = applySigns limit [op] inner := rfl
        rw [hinner, hnext]
        rcases applySigns_single op inner with hnode | ⟨number, _, _, hnumber⟩
        · rw [hnode]
          rcases checkDepth_ok_or_tooDeep limit (inner.depth + 1) with hcheck | ⟨n, hlimit, hcheck⟩
          · exact .inl ⟨.unary op inner, by rw [hcheck]; rfl⟩
          · exact .inr ⟨n, hlimit, by rw [hcheck]; rfl⟩
        · exact .inl ⟨number, hnumber limit⟩
      · exact .inr ⟨n, hlimit, by rw [hdeep]; rfl⟩

theorem sameBuild_applySigns (limit : Option Nat) (signs : List UnaryOp)
    (operand : Except BuildError Expr) :
    SameBuild limit (operand >>= applySigns limit signs)
      (operand >>= fun e => .ok (.underSigns signs e)) := by
  cases operand with
  | error error => exact ⟨error, rfl⟩
  | ok e =>
      rcases applySigns_ok_or_tooDeep limit signs e with ⟨signed, hsigned⟩ | hdeep
      · exact .inl ⟨signed, hsigned, sameMeaning_applySigns hsigned⟩
      · exact .inr hdeep

/-- A tree may be replaced by one of the same meaning. -/
theorem SameBuild.of_sameMeaning {limit : Option Nat} {made : Except BuildError Expr} {e e' : Expr}
    (h : SameBuild limit made (.ok e)) (hsame : SameMeaning e e') :
    SameBuild limit made (.ok e') := by
  rcases h with ⟨signed, hsigned, hmeaning⟩ | hdeep
  · exact .inl ⟨signed, hsigned, hmeaning.trans hsame⟩
  · exact .inr hdeep

theorem SameMeaning.underSigns {e e' : Expr} (h : SameMeaning e e') (signs : List UnaryOp) :
    SameMeaning (.underSigns signs e) (.underSigns signs e') := by
  induction signs with
  | nil => exact h
  | cons op signs ih => exact ih.unary op

theorem underSigns_concat (signs : List UnaryOp) (op : UnaryOp) (e : Expr) :
    Expr.underSigns (signs ++ [op]) e = .underSigns signs (.unary op e) := by
  rw [Expr.underSigns, List.foldr_append]
  rfl

/-- The digits behind a minus that belongs to them. -/
theorem sameBuild_negated (limit : Option Nat) (signs : List UnaryOp) (digits : List Char) :
    SameBuild limit ((buildInteger true digits).bind (applySigns limit signs))
      ((Phrase.integer digits).plainlySigned limit (signs ++ [.neg])) := by
  have hlast : (signs ++ [UnaryOp.neg]).getLast? = some .neg := List.getLast?_concat
  simp only [Phrase.plainlySigned, hlast, true_and, List.dropLast_concat]
  rcases Nat.lt_trichotomy (Number.natOfDigits digits) 0x8000000000000000 with hlt | heq | hgt
  · have hne : Int64.ofInt (Number.natOfDigits digits) ≠ Int64.minValue := by
      intro hleast
      have hvalue := congrArg Int64.toInt hleast
      rw [Int64.toInt_ofInt_of_le (by omega) (by omega), Int64.toInt_minValue] at hvalue
      omega
    have hplain : buildInteger false digits =
        .ok (.int (Int64.ofInt (Number.natOfDigits digits))) := by
      simp [buildInteger, integer?, hlt]
    have hminus : buildInteger true digits =
        .ok (.int (-Int64.ofInt (Number.natOfDigits digits))) := by
      simp [buildInteger, integer?, Nat.le_of_lt hlt, Int64.ofInt_neg]
    rw [if_neg (Nat.ne_of_lt hlt), hplain, hminus]
    have hmeaning := (sameMeaning_neg_int hne).underSigns signs
    rw [← underSigns_concat] at hmeaning
    exact (sameBuild_applySigns limit signs (.ok _)).of_sameMeaning hmeaning
  · have hleast : buildInteger true digits = .ok (.int Int64.minValue) := by
      simp [buildInteger, integer?, heq]
      rfl
    rw [if_pos heq, hleast]
    exact sameBuild_applySigns limit signs (.ok _)
  · have hplain : ∀ negative, buildInteger negative digits =
        .error (.integerOutOfRange negative digits) := by
      intro negative
      have hnone : integer? negative digits = none := by
        rw [integer?_eq_none_iff]
        cases negative <;> simp only [Written.outOfRange, decide_eq_true_eq] <;> omega
      rw [buildInteger, hnone]
    rw [if_neg (Nat.ne_of_gt hgt), hplain, hplain]
    exact ⟨_, rfl⟩

theorem sameBuild_signed (limit : Option Nat) (signs : List UnaryOp) (operand : Phrase) :
    SameBuild limit ((Phrase.signed signs operand).build limit)
      (operand.plainlySigned limit signs) := by
  by_cases hbare : ∃ digits, signs.getLast? = some .neg ∧ operand = .integer digits
  · obtain ⟨digits, hlast, rfl⟩ := hbare
    obtain ⟨outer, rfl⟩ := List.getLast?_eq_some_iff.mp hlast
    rw [build_signed_integer hlast, List.dropLast_concat]
    exact sameBuild_negated limit outer digits
  · have hother : ∀ digits, signs.getLast? = some .neg → operand ≠ .integer digits :=
      fun digits hlast hinteger => hbare ⟨digits, hlast, hinteger⟩
    have hplain : operand.plainlySigned limit signs =
        (operand.build limit >>= fun e => .ok (.underSigns signs e)) := by
      cases operand with
      | integer digits =>
          rw [Phrase.plainlySigned, if_neg fun h => hother digits h.1 rfl, Phrase.build]
      | _ => rfl
    rw [build_signed hother, hplain]
    exact sameBuild_applySigns limit signs _

/-! ### Where a minus is left -/

theorem each_leaf {e : Expr} (hleaf : e.children = []) (here : MinusTakenUp e) :
    e.Each MinusTakenUp :=
  .node here fun part hpart => absurd hpart (by rw [hleaf]; exact List.not_mem_nil)

theorem minusTakenUp_applySign {limit : Option Nat} {op : UnaryOp} {e signed : Expr}
    (he : e.Each MinusTakenUp) (h : applySigns limit [op] e = .ok signed) :
    signed.Each MinusTakenUp := by
  have hnode : MinusTakenUp (.unary op e) →
      (checkDepth limit (e.depth + 1) >>= fun _ => .ok (.unary op e)) = .ok signed →
        signed.Each MinusTakenUp := by
    intro here hmade
    obtain ⟨_, _, hmade⟩ := bind_eq_ok.mp hmade
    obtain rfl := Except.ok.inj hmade
    apply Expr.Each.node here
    intro part hpart
    obtain rfl := List.mem_singleton.mp hpart
    exact he
  cases op with
  | not => exact hnode trivial h
  | neg =>
      cases e with
      | int n =>
          by_cases hleast : n = Int64.minValue
          · subst hleast
            exact hnode rfl h
          · simp only [applySigns, bind, Except.bind, if_neg hleast] at h
            obtain rfl := Except.ok.inj h
            exact each_leaf rfl trivial
      | float x =>
          obtain rfl : Expr.float (-x) = signed := Except.ok.inj h
          exact each_leaf rfl trivial
      | _ => exact hnode trivial h

theorem minusTakenUp_applySigns {limit : Option Nat} {signs : List UnaryOp} {e signed : Expr}
    (he : e.Each MinusTakenUp) (h : applySigns limit signs e = .ok signed) :
    signed.Each MinusTakenUp := by
  induction signs generalizing signed with
  | nil =>
      obtain rfl := Except.ok.inj h
      exact he
  | cons op signs ih =>
      rw [applySigns_cons] at h
      obtain ⟨inner, hinner, hsigned⟩ := bind_eq_ok.mp h
      exact minusTakenUp_applySign (ih hinner) hsigned

theorem minusTakenUp_integer {negative : Bool} {digits : List Char} {e : Expr}
    (h : buildInteger negative digits = .ok e) : e.Each MinusTakenUp := by
  unfold buildInteger at h
  split at h
  · obtain rfl := Except.ok.inj h
    exact each_leaf rfl trivial
  · cases h

theorem minusTakenUp_signed {limit : Option Nat} {signs : List UnaryOp} {operand : Phrase}
    {e : Expr} (hoperand : ∀ inner, operand.build limit = .ok inner → inner.Each MinusTakenUp)
    (h : (Phrase.signed signs operand).build limit = .ok e) : e.Each MinusTakenUp := by
  by_cases hbare : ∃ digits, signs.getLast? = some .neg ∧ operand = .integer digits
  · obtain ⟨digits, hlast, rfl⟩ := hbare
    rw [build_signed_integer hlast] at h
    obtain ⟨n, hn, hsigned⟩ := bind_eq_ok.mp h
    exact minusTakenUp_applySigns (minusTakenUp_integer hn) hsigned
  · rw [build_signed fun digits hlast hinteger => hbare ⟨digits, hlast, hinteger⟩] at h
    obtain ⟨inner, hinner, hsigned⟩ := bind_eq_ok.mp h
    exact minusTakenUp_applySigns (hoperand inner hinner) hsigned

mutual

/-- The builder leaves a minus on no number but the least integer. -/
theorem minusTakenUp_build {limit : Option Nat} (p : Phrase) {e : Expr}
    (h : p.build limit = .ok e) : e.Each MinusTakenUp := by
  match p with
  | .null | .bool _ | .float _ | .string _ | .name _ =>
      rw [Phrase.build] at h
      obtain rfl := Except.ok.inj h
      exact each_leaf rfl trivial
  | .integer digits => exact minusTakenUp_integer h
  | .group inner =>
      rw [Phrase.build] at h
      exact minusTakenUp_build inner h
  | .list items =>
      rw [Phrase.build] at h
      obtain ⟨built, hbuilt, h⟩ := bind_eq_ok.mp h
      obtain ⟨_, _, h⟩ := bind_eq_ok.mp h
      obtain rfl := Except.ok.inj h
      exact .node trivial (minusTakenUp_buildItems items hbuilt)
  | .member object property =>
      rw [Phrase.build] at h
      obtain ⟨built, hbuilt, h⟩ := bind_eq_ok.mp h
      obtain ⟨_, _, h⟩ := bind_eq_ok.mp h
      obtain rfl := Except.ok.inj h
      apply Expr.Each.node trivial
      simpa [Expr.children] using minusTakenUp_build object hbuilt
  | .index object key =>
      rw [Phrase.build] at h
      obtain ⟨builtObject, hobject, h⟩ := bind_eq_ok.mp h
      obtain ⟨builtKey, hkey, h⟩ := bind_eq_ok.mp h
      obtain ⟨_, _, h⟩ := bind_eq_ok.mp h
      obtain rfl := Except.ok.inj h
      apply Expr.Each.node trivial
      simpa [Expr.children] using
        And.intro (minusTakenUp_build object hobject) (minusTakenUp_build key hkey)
  | .call callee args =>
      rw [Phrase.build] at h
      obtain ⟨builtCallee, hcallee, h⟩ := bind_eq_ok.mp h
      obtain ⟨builtArgs, hargs, h⟩ := bind_eq_ok.mp h
      obtain ⟨_, _, h⟩ := bind_eq_ok.mp h
      obtain rfl := Except.ok.inj h
      apply Expr.Each.node trivial
      simpa [Expr.children] using
        And.intro (minusTakenUp_build callee hcallee) (minusTakenUp_buildItems args hargs)
  | .signed signs operand =>
      exact minusTakenUp_signed (fun inner hinner => minusTakenUp_build operand hinner) h
  | .binary op left right =>
      rw [Phrase.build] at h
      obtain ⟨builtLeft, hleft, h⟩ := bind_eq_ok.mp h
      obtain ⟨builtRight, hright, h⟩ := bind_eq_ok.mp h
      obtain ⟨_, _, h⟩ := bind_eq_ok.mp h
      obtain rfl := Except.ok.inj h
      apply Expr.Each.node trivial
      simpa [Expr.children] using
        And.intro (minusTakenUp_build left hleft) (minusTakenUp_build right hright)
  | .conditional test thenP elseP =>
      rw [Phrase.build] at h
      obtain ⟨builtTest, htest, h⟩ := bind_eq_ok.mp h
      obtain ⟨builtThen, hthen, h⟩ := bind_eq_ok.mp h
      obtain ⟨builtElse, helse, h⟩ := bind_eq_ok.mp h
      obtain ⟨_, _, h⟩ := bind_eq_ok.mp h
      obtain rfl := Except.ok.inj h
      apply Expr.Each.node trivial
      simpa [Expr.children] using And.intro (minusTakenUp_build test htest)
        (And.intro (minusTakenUp_build thenP hthen) (minusTakenUp_build elseP helse))

theorem minusTakenUp_buildItems {limit : Option Nat} (ps : List Phrase) {es : List Expr}
    (h : buildItems limit ps = .ok es) : ∀ e ∈ es, e.Each MinusTakenUp := by
  match ps with
  | [] =>
      obtain rfl := Except.ok.inj h
      exact fun e he => absurd he List.not_mem_nil
  | p :: more =>
      rw [buildItems] at h
      obtain ⟨first, hfirst, h⟩ := bind_eq_ok.mp h
      obtain ⟨rest, hrest, h⟩ := bind_eq_ok.mp h
      obtain rfl := Except.ok.inj h
      exact List.forall_mem_cons.mpr
        ⟨minusTakenUp_build p hfirst, minusTakenUp_buildItems more hrest⟩

end

/-! ### Sources -/

/-- A row of signs has the meaning of a node for each. Whatever the operand is, the tree that is
built of it with its signs means the same as the plain one, if it is not too deep; digits that are
`2^63` right behind a minus count as the least integer there. Everywhere else in a source such
digits are out of range, in parentheses behind a minus too: the first integer out of range is
reported, unless the source is too deep. And in what is parsed no minus is left on a number other
than the least integer. -/
theorem signs_keep_meaning :
    (∀ limit signs operand, SameBuild limit ((Phrase.signed signs operand).build limit)
        (operand.plainlySigned limit signs)) ∧
      (∀ source phrase digits, phrase? source = some phrase → (false, digits) ∈ phrase.integers →
        Number.natOfDigits digits = 0x8000000000000000 →
          ∃ negative first, phrase.integers.find? Written.outOfRange = some (negative, first) ∧
            phrase.build none = .error (.integerOutOfRange negative first) ∧
              (parse source = .error (.build (.integerOutOfRange negative first)) ∨
                ∃ n, parse source = .error (.build (.tooDeep n)))) ∧
        ∀ source e, parse source = .ok e → e.Each MinusTakenUp := by
  refine ⟨sameBuild_signed, ?_, ?_⟩
  · intro source phrase digits hphrase hmem hvalue
    have hout : Written.outOfRange (false, digits) = true :=
      decide_eq_true (Nat.le_of_eq hvalue.symm)
    obtain ⟨negative, first, hfirst, hfree⟩ := (reports_build phrase).eq_error hmem hout
    refine ⟨negative, first, hfirst, hfree, ?_⟩
    cases hnesting : tooNested source with
    | true => exact .inr ⟨_, parse_of_tooNested hnesting⟩
    | false =>
        have hlimit : 1 ≤ depthLimit := by decide
        rw [parse_of_phrase? hnesting hphrase]
        rcases (capped_build hlimit phrase).error _ hfree with hbuild | hbuild
        · exact .inl (by rw [hbuild]; rfl)
        · exact .inr ⟨_, by rw [hbuild]; rfl⟩
  · intro source e he
    obtain ⟨_, phrase, _, hbuild⟩ := parse_eq_ok_iff.mp he
    exact minusTakenUp_build phrase hbuild

/-- The digits of `2^63` behind two minus signs, and in parentheses behind one. -/
theorem signs_keep_meaning_of_least :
    let digits := "9223372036854775808".toList
    let twice := Phrase.signed [.neg, .neg] (.integer digits)
    let inside := Phrase.signed [.neg] (.group (.integer digits))
    let tree := Expr.unary .neg (.int Int64.minValue)
    (∃ e, twice.build none = .ok e ∧ SameMeaning e tree) ∧
      (∃ negative first, inside.build none = .error (.integerOutOfRange negative first)) ∧
        parse (String.ofList twice.text) = .ok tree ∧ tree.Each MinusTakenUp := by
  intro digits twice inside tree
  obtain ⟨hagree, hrange, htaken⟩ := signs_keep_meaning
  have hdigits : IsDigits digits := ⟨by decide, List.all_eq_true.mp rfl⟩
  have hphrase : ∀ p : Phrase, p.Proper → phrase? (String.ofList p.text) = some p := by
    intro p hproper
    rw [phrase?, Phrase.lexemes_text _ hproper, Phrase.program_lexemes _ hproper]
  refine ⟨?_, ?_, ?_⟩
  · rcases hagree none [.neg, .neg] (.integer digits) with hmade | ⟨n, hlimit, _⟩
    · exact hmade
    · cases hlimit
  · obtain ⟨negative, first, _, hfree, _⟩ := hrange _ inside digits
      (hphrase inside ⟨by simp, hdigits, Nat.le_refl 9⟩) (by decide) (by decide)
    exact ⟨negative, first, hfree⟩
  · have hcheck : checkDepth (some depthLimit) ((Expr.int Int64.minValue).depth + 1) = .ok _ :=
      checkDepth_ok (by rw [Expr.depth_height]; decide)
    have hbuild : twice.build (some depthLimit) = .ok tree := by
      rw [build_signed_integer rfl]
      change (checkDepth (some depthLimit) ((Expr.int Int64.minValue).depth + 1) >>= fun _ =>
        .ok tree) = _
      rw [hcheck]
      rfl
    have hparse : parse (String.ofList twice.text) = .ok tree :=
      parse_eq_ok_iff.mpr ⟨by decide +kernel, twice,
        hphrase twice ⟨by simp, hdigits, Nat.le_refl 9⟩, hbuild⟩
    exact ⟨hparse, htaken _ _ hparse⟩

end Scriptlet
