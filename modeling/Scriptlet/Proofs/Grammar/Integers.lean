import Scriptlet.Proofs.Grammar.DepthLimit

/-!
The integers of a phrase decide whether a tree can be built. A minus right in front of an integer
that stands alone belongs to it, so that the least integer can be written; any other integer has to
be in range by itself. Without a limit on depth the first integer out of range is reported, and a
phrase without one is built. The limit can only add a refusal of its own.
-/

namespace Scriptlet.Grammar

/-- An integer as it is written, and whether a minus belongs to it. -/
abbrev Written := Bool × List Char

mutual

/-- The integers of a phrase in source order. -/
def Phrase.integers : Phrase → List Written
  | .null | .bool _ | .float _ | .string _ | .name _ => []
  | .integer digits => [(false, digits)]
  | .list items => integersOf items
  | .group inner => inner.integers
  | .member object _ => object.integers
  | .index object key => object.integers ++ key.integers
  | .call callee args => callee.integers ++ integersOf args
  | .signed signs (.integer digits) => [(signs.getLast? == some .neg, digits)]
  | .signed _ operand => operand.integers
  | .binary _ left right => left.integers ++ right.integers
  | .conditional test thenP elseP => test.integers ++ (thenP.integers ++ elseP.integers)

def integersOf : List Phrase → List Written
  | [] => []
  | item :: more => item.integers ++ integersOf more

end

/-- Too great for 64 bits with a sign; with a minus one more is in range. -/
def Written.outOfRange : Written → Bool
  | (true, digits) => 0x8000000000000000 < Number.natOfDigits digits
  | (false, digits) => 0x8000000000000000 ≤ Number.natOfDigits digits

variable {α β : Type}

/-- The first integer out of range is reported, and if there is none there is a result. -/
def Reports (is : List Written) (r : Except BuildError α) : Prop :=
  match is.find? Written.outOfRange with
  | some (negative, digits) => r = .error (.integerOutOfRange negative digits)
  | none => ∃ a, r = .ok a

theorem reports_ok (a : α) : Reports [] (.ok a) :=
  ⟨a, rfl⟩

theorem Reports.bind {is js : List Written} {r : Except BuildError α}
    {f : α → Except BuildError β} (h : Reports is r) (hf : ∀ a, Reports js (f a)) :
    Reports (is ++ js) (r >>= f) := by
  unfold Reports at h ⊢
  rw [List.find?_append]
  cases hfirst : is.find? Written.outOfRange with
  | some found =>
      rw [hfirst] at h
      obtain rfl := h
      rfl
  | none =>
      rw [hfirst] at h
      obtain ⟨a, rfl⟩ := h
      exact hf a

/-- A step that never fails adds nothing to report. -/
theorem Reports.then_ok {is : List Written} {r : Except BuildError α} {f : α → Except BuildError β}
    (h : Reports is r) (hf : ∀ a, ∃ b, f a = .ok b) : Reports is (r >>= f) := by
  rw [← List.append_nil is]
  exact h.bind hf

theorem Reports.eq_error {is : List Written} {r : Except BuildError α} (h : Reports is r)
    {written : Written} (hmem : written ∈ is) (hout : written.outOfRange = true) :
    ∃ negative digits, is.find? Written.outOfRange = some (negative, digits) ∧
      r = .error (.integerOutOfRange negative digits) := by
  unfold Reports at h
  cases hfirst : is.find? Written.outOfRange with
  | some found =>
      rw [hfirst] at h
      exact ⟨found.1, found.2, rfl, h⟩
  | none => exact absurd hout (List.find?_eq_none.mp hfirst written hmem)

theorem Reports.mem_of_error {is : List Written} {r : Except BuildError α} (h : Reports is r)
    {error : BuildError} (herror : r = .error error) :
    ∃ negative digits, error = .integerOutOfRange negative digits ∧
      is.find? Written.outOfRange = some (negative, digits) := by
  unfold Reports at h
  cases hfirst : is.find? Written.outOfRange with
  | some found =>
      rw [hfirst, herror] at h
      exact ⟨found.1, found.2, Except.error.inj h, rfl⟩
  | none =>
      rw [hfirst] at h
      obtain ⟨a, ha⟩ := h
      rw [herror] at ha
      cases ha

/-! ### The builder without a limit -/

theorem integer?_eq_none_iff (negative : Bool) (digits : List Char) :
    integer? negative digits = none ↔ Written.outOfRange (negative, digits) = true := by
  cases negative <;> simp [integer?, Written.outOfRange]

theorem reports_buildInteger (negative : Bool) (digits : List Char) :
    Reports [(negative, digits)] (buildInteger negative digits) := by
  unfold Reports buildInteger
  cases hinteger : integer? negative digits with
  | none => rw [List.find?_cons_of_pos ((integer?_eq_none_iff _ _).mp hinteger)]
  | some n =>
      have hin : ¬ Written.outOfRange (negative, digits) = true := by
        rw [← integer?_eq_none_iff, hinteger]
        exact Option.some_ne_none n
      rw [List.find?_cons_of_neg hin]
      exact ⟨.int n, rfl⟩

/-- Signs alone are never refused. -/
theorem applySigns_none (ops : List UnaryOp) (e : Expr) :
    ∃ signed, applySigns none ops e = .ok signed := by
  induction ops with
  | nil => exact ⟨e, rfl⟩
  | cons op ops ih =>
      obtain ⟨inner, hinner⟩ := ih
      rw [applySigns_cons, hinner]
      rcases applySigns_single op inner with hnode | ⟨number, _, _, hnumber⟩
      · exact ⟨.unary op inner, hnode none⟩
      · exact ⟨number, hnumber none⟩

theorem integers_signed {signs : List UnaryOp} {operand : Phrase}
    (hbare : ∀ digits, signs.getLast? = some .neg → operand ≠ .integer digits) :
    (Phrase.signed signs operand).integers = operand.integers := by
  cases operand with
  | integer digits =>
      have hlast : signs.getLast? ≠ some .neg := fun hlast => hbare digits hlast rfl
      simp [Phrase.integers, hlast]
  | _ => rfl

theorem reports_signed {signs : List UnaryOp} {operand : Phrase}
    (h : Reports operand.integers (operand.build none)) :
    Reports (Phrase.signed signs operand).integers ((Phrase.signed signs operand).build none) := by
  by_cases hbare : ∃ digits, signs.getLast? = some .neg ∧ operand = .integer digits
  · obtain ⟨digits, hlast, rfl⟩ := hbare
    have hinteger : (Phrase.signed signs (.integer digits)).integers = [(true, digits)] := by
      simp [Phrase.integers, hlast]
    rw [build_signed_integer hlast, hinteger]
    exact (reports_buildInteger true digits).then_ok (applySigns_none _)
  · have hother : ∀ digits, signs.getLast? = some .neg → operand ≠ .integer digits :=
      fun digits hlast hinteger => hbare ⟨digits, hlast, hinteger⟩
    rw [build_signed hother, integers_signed hother]
    exact h.then_ok (applySigns_none _)

mutual

theorem reports_build (p : Phrase) : Reports p.integers (p.build none) := by
  match p with
  | .null | .bool _ | .float _ | .string _ | .name _ =>
      rw [Phrase.build, Phrase.integers]
      exact reports_ok _
  | .integer digits => exact reports_buildInteger false digits
  | .group inner => exact reports_build inner
  | .list items =>
      rw [Phrase.build, Phrase.integers]
      exact (reports_buildItems items).then_ok fun _ => ⟨_, rfl⟩
  | .member object property =>
      rw [Phrase.build, Phrase.integers]
      exact (reports_build object).then_ok fun _ => ⟨_, rfl⟩
  | .index object key =>
      rw [Phrase.build, Phrase.integers]
      exact (reports_build object).bind fun _ => (reports_build key).then_ok fun _ => ⟨_, rfl⟩
  | .call callee args =>
      rw [Phrase.build, Phrase.integers]
      exact (reports_build callee).bind fun _ => (reports_buildItems args).then_ok fun _ => ⟨_, rfl⟩
  | .signed signs operand => exact reports_signed (reports_build operand)
  | .binary op left right =>
      rw [Phrase.build, Phrase.integers]
      exact (reports_build left).bind fun _ => (reports_build right).then_ok fun _ => ⟨_, rfl⟩
  | .conditional test thenP elseP =>
      rw [Phrase.build, Phrase.integers]
      exact (reports_build test).bind fun _ => (reports_build thenP).bind fun _ =>
        (reports_build elseP).then_ok fun _ => ⟨_, rfl⟩

theorem reports_buildItems (ps : List Phrase) : Reports (integersOf ps) (buildItems none ps) := by
  match ps with
  | [] => exact reports_ok []
  | p :: more =>
      rw [buildItems, integersOf]
      exact (reports_build p).bind fun _ => (reports_buildItems more).then_ok fun _ => ⟨_, rfl⟩

end

/-! ### Sources -/

variable {source : String} {phrase : Phrase}

theorem build_error_of_outOfRange {limit : Nat} (hlimit : 1 ≤ limit) {written : Written}
    (hmem : written ∈ phrase.integers) (hout : written.outOfRange = true) :
    ∃ negative digits, phrase.integers.find? Written.outOfRange = some (negative, digits) ∧
      (phrase.build (some limit) = .error (.integerOutOfRange negative digits) ∨
        phrase.build (some limit) = .error (.tooDeep limit)) := by
  obtain ⟨negative, digits, hfirst, hbuild⟩ := (reports_build phrase).eq_error hmem hout
  exact ⟨negative, digits, hfirst, (capped_build hlimit phrase).error _ hbuild⟩

theorem integer_of_build_error {limit : Nat} (hlimit : 1 ≤ limit) {error : BuildError}
    (h : phrase.build (some limit) = .error error) :
    error = .tooDeep limit ∨ ∃ negative digits, error = .integerOutOfRange negative digits ∧
      phrase.integers.find? Written.outOfRange = some (negative, digits) := by
  cases hfree : phrase.build none with
  | ok e =>
      have hbounded := (capped_build hlimit phrase).ok e hfree
      rw [h] at hbounded
      split at hbounded
      · cases hbounded
      · exact .inl (Except.error.inj hbounded)
  | error first =>
      rcases (capped_build hlimit phrase).error first hfree with hbounded | hbounded
      · obtain rfl : error = first := Except.error.inj (h.symm.trans hbounded)
        exact .inr ((reports_build phrase).mem_of_error hfree)
      · exact .inl (Except.error.inj (h.symm.trans hbounded))

/-- What is left to do when a source has a phrase and the guard lets it through. -/
theorem parse_of_phrase? (hnesting : tooNested source = false)
    (hphrase : phrase? source = some phrase) :
    parse source = (phrase.build (some depthLimit)).mapError .build := by
  simp only [parse, hnesting, hphrase, Bool.false_eq_true, if_false]
  cases phrase.build (some depthLimit) <;> rfl

theorem parse_eq_ok_iff {e : Expr} :
    parse source = .ok e ↔ tooNested source = false ∧
      ∃ phrase, phrase? source = some phrase ∧ phrase.build (some depthLimit) = .ok e := by
  unfold parse
  cases tooNested source with
  | true => simp
  | false =>
      cases phrase? source with
      | none => simp
      | some phrase => cases hbuild : phrase.build (some depthLimit) <;> simp [hbuild]

theorem parse_of_tooNested (hnesting : tooNested source = true) :
    parse source = .error (.build (.tooDeep nestingLimit)) := by
  rw [parse, if_pos hnesting]

end Scriptlet.Grammar
