import Scriptlet.Proofs.Grammar.Layout
import Scriptlet.Proofs.Grammar.Tree

/-!
What the builder reads at the leaves of a tree. Digits are an integer or out of range, a float as
the grammar has it is always readable, the spelling of a string has no unknown escape, and signs are
put in front of an expression as they are elsewhere. So of all the complaints there are, these
readers have but two.
-/

namespace Scriptlet.Grammar

open Text (isDigit)

/-! ### Complaints -/

/-- An integer with the minus that belongs to it. -/
def Written.literal (written : Written) : List Char :=
  (if written.1 then ['-'] else []) ++ written.2

/-- What is wrong with an integer out of range. -/
def Written.fault (written : Written) : IntegerFault :=
  if written.1 then .tooSmall else .tooLarge

/-- A refusal of the builder as a complaint. -/
def BuildError.complaint : BuildError → Complaint
  | .integerOutOfRange negative digits =>
      .outOfRange (String.ofList (Written.literal (negative, digits)))
        (Written.fault (negative, digits))
  | .tooDeep limit => .tooDeep limit

theorem complaint_message (error : BuildError) : error.complaint.message = error.message := by
  cases error with
  | integerOutOfRange negative digits =>
      cases negative with
      | true =>
          change "Invalid expression: Integer literal '" ++ String.ofList (['-'] ++ digits) ++
              "' out of range: " ++ "number too small to fit in target type" =
            "Invalid expression: Integer literal '" ++ "-" ++ String.ofList digits ++
              "' out of range: number too " ++ "small" ++ " to fit in target type"
          rw [String.ofList_append]
          simp only [String.append_assoc]
          rfl
      | false =>
          change "Invalid expression: Integer literal '" ++ String.ofList digits ++
              "' out of range: " ++ "number too large to fit in target type" =
            "Invalid expression: Integer literal '" ++ "" ++ String.ofList digits ++
              "' out of range: number too " ++ "large" ++ " to fit in target type"
          rw [String.append_empty]
          simp only [String.append_assoc]
          rfl
  | tooDeep limit => rfl

variable {α β : Type}

/-- The same result, with a refusal as a complaint. -/
def complaining (r : Except BuildError α) : Except Complaint α :=
  r.mapError BuildError.complaint

theorem complaining_ok (a : α) : complaining (.ok a) = .ok a := rfl

theorem complaining_bind (r : Except BuildError α) (f : α → Except BuildError β) :
    complaining (r >>= f) = complaining r >>= fun a => complaining (f a) := by
  cases r <;> rfl

theorem ensureDepth_eq (depth : Nat) :
    ensureDepth depth = complaining (checkDepth (some depthLimit) depth) := by
  unfold ensureDepth checkDepth
  by_cases h : depthLimit < depth
  · rw [if_pos h]
    dsimp only
    rw [if_pos h]
    rfl
  · rw [if_neg h]
    dsimp only
    rw [if_neg h]
    rfl

/-! ### Integers -/

theorem sign_digit {d : Char} (h : isDigit d = true) (cs : List Char) :
    Number.sign (d :: cs) = (false, d :: cs) := by
  rw [Number.sign]
  · rintro rest heq
    rw [(List.cons.inj heq).1] at h
    cases h
  · rintro rest heq
    rw [(List.cons.inj heq).1] at h
    cases h

/-- The value of digits behind a number. -/
def valueFrom (n : Nat) (digits : List Char) : Nat :=
  digits.foldl (fun n c => n * 10 + Number.digitValue c) n

theorem le_valueFrom (n : Nat) (digits : List Char) : n ≤ valueFrom n digits := by
  induction digits generalizing n with
  | nil => exact Nat.le_refl n
  | cons c digits ih =>
      have hle : n ≤ n * 10 + Number.digitValue c := by omega
      exact Nat.le_trans hle (ih _)

/-- Digits never become less, so a magnitude that is too great once stays so. -/
theorem magnitude_digits (negative : Bool) {digits : List Char}
    (h : ∀ c ∈ digits, isDigit c = true) {n : Nat} (hn : n ≤ greatest negative) :
    magnitude negative n digits =
      if valueFrom n digits ≤ greatest negative then .ok (valueFrom n digits)
      else .error (if negative then .tooSmall else .tooLarge) := by
  induction digits generalizing n with
  | nil =>
      rw [valueFrom, List.foldl_nil, if_pos hn]
      rfl
  | cons c digits ih =>
      have hmore := fun d hd => h d (List.mem_cons_of_mem c hd)
      have hvalue : valueFrom n (c :: digits) =
          valueFrom (n * 10 + Number.digitValue c) digits := rfl
      rw [magnitude, if_pos (h c List.mem_cons_self), hvalue]
      by_cases hnext : n * 10 + Number.digitValue c ≤ greatest negative
      · rw [← ih hmore hnext]
        exact if_pos hnext
      · have hle := le_valueFrom (n * 10 + Number.digitValue c) digits
        have hvalue : ¬ valueFrom (n * 10 + Number.digitValue c) digits ≤ greatest negative := by
          omega
        rw [if_neg hnext, if_neg hvalue]

theorem integer?_eq (negative : Bool) (digits : List Char) :
    integer? negative digits =
      if valueFrom 0 digits ≤ greatest negative then
        some (Int64.ofInt (if negative then -(valueFrom 0 digits : Int) else valueFrom 0 digits))
      else none := by
  cases negative with
  | true => rfl
  | false =>
      have hlt : valueFrom 0 digits ≤ greatest false ↔
          valueFrom 0 digits < 0x8000000000000000 := Nat.lt_succ_iff.symm
      simp only [hlt]
      rfl

/-- Digits, with the minus that belongs to them, are an integer or out of range. -/
theorem readInteger_digits (negative : Bool) {digits : List Char} (h : IsDigits digits) :
    readInteger ((if negative then ['-'] else []) ++ digits) =
      complaining (buildInteger negative digits) := by
  have hsign : Number.sign ((if negative then ['-'] else []) ++ digits) = (negative, digits) := by
    cases negative with
    | true => rfl
    | false =>
        cases digits with
        | nil => exact absurd rfl h.1
        | cons d ds => exact sign_digit (h.2 d List.mem_cons_self) ds
  have hzero : 0 ≤ greatest negative := Nat.zero_le _
  have hread : integerOfText ((if negative then ['-'] else []) ++ digits) =
      (magnitude negative 0 digits).map fun n =>
        Int64.ofInt (if negative then -(n : Int) else n) := by
    unfold integerOfText
    rw [hsign]
    cases digits with
    | nil => exact absurd rfl h.1
    | cons d ds => cases negative <;> rfl
  rw [readInteger, hread, magnitude_digits negative h.2 hzero, buildInteger, integer?_eq]
  by_cases hfits : valueFrom 0 digits ≤ greatest negative
  · rw [if_pos hfits, if_pos hfits]
    rfl
  · rw [if_neg hfits, if_neg hfits]
    rfl

/-! ### Floats -/

theorem toNat_of_isDigit {d : Char} (h : isDigit d = true) : d.toNat ≤ 0x39 := by
  simp only [isDigit, Bool.and_eq_true, decide_eq_true_eq, Char.le_def,
    UInt32.le_iff_toNat_le] at h
  exact h.2

/-- Every character that has a lower case comes after the digits. -/
theorem lowerRuns_beyond_digits :
    Text.lowerRuns.toList.all (fun run => decide (0x39 < run.first)) = true := by
  decide +kernel

theorem mapCase_digit {d : Char} (h : isDigit d = true) :
    Text.mapCase Text.lowerRuns Text.lowerExpansions d = [d] := by
  have hle := toNat_of_isDigit h
  unfold Text.mapCase
  split
  · next n image hfound =>
      have hmem := Array.mem_of_find?_eq_some hfound
      have hcode := Array.find?_some hfound
      simp only [beq_iff_eq] at hcode
      simp only [Text.lowerExpansions, List.mem_toArray, List.mem_singleton, Prod.mk.injEq] at hmem
      omega
  · split
    · next run hfound =>
        have hmem := Array.mem_toList_iff.mpr (Array.mem_of_find?_eq_some hfound)
        have hfirst := of_decide_eq_true (List.all_eq_true.mp lowerRuns_beyond_digits run hmem)
        have hholds := Array.find?_some hfound
        simp only [Text.CaseRun.holds, Bool.and_eq_true, decide_eq_true_eq] at hholds
        omega
    · rfl

/-- A text that begins with a digit is no name of a number. -/
theorem toLower_digit {d : Char} (h : isDigit d = true) (cs : List Char) :
    ∃ more, Text.toLower (String.ofList (d :: cs)) = String.ofList (d :: more) := by
  refine ⟨Text.lowerAfter [d] cs, ?_⟩
  have hsigma : d ≠ 'Σ' := by
    rintro rfl
    cases h
  rw [Text.toLower, String.toList_ofList, Text.lowerAfter, mapCase_digit h]
  · rfl
  · exact hsigma

/-- The digits behind a point, if there is one, and the text behind them. -/
def fractionOf : List Char → List Char × List Char
  | '.' :: rest => (rest.takeWhile isDigit, rest.dropWhile isDigit)
  | rest => ([], rest)

/-- The float of its digits and the exponent that is all that follows. -/
def floatFrom (whole fraction : List Char) : List Char → Option Float
  | [] => some (Number.Numeral.nearest { whole, fraction := some fraction })
  | c :: rest =>
      if (c == 'e' || c == 'E') && !(Number.sign rest).2.isEmpty &&
          (Number.sign rest).2.all isDigit then
        some (Number.Numeral.nearest
          { whole, fraction := some fraction, exponent := some (Number.sign rest) })
      else none

theorem floatOfText?_eq {whole rest : List Char} (hwhole : IsDigits whole)
    (hrest : ∀ c ∈ rest.head?, isDigit c = false) :
    Number.floatOfText? (String.ofList (whole ++ rest)) =
      floatFrom whole (fractionOf rest).1 (fractionOf rest).2 := by
  obtain ⟨htake, hdrop⟩ := span_append hwhole.2 hrest
  cases whole with
  | nil => exact absurd rfl hwhole.1
  | cons d ds =>
      have hd : isDigit d = true := hwhole.2 d List.mem_cons_self
      obtain ⟨more, hlower⟩ := toLower_digit hd (ds ++ rest)
      have hname : ∀ name : String, 'i' ∈ name.toList.head? ∨ 'n' ∈ name.toList.head? →
          String.ofList (d :: more) ≠ name := by
        rintro name hhead rfl
        rw [String.toList_ofList, List.head?_cons] at hhead
        rcases hhead with h | h <;> cases h <;> cases hd
      unfold Number.floatOfText?
      rw [String.toList_ofList, List.cons_append, sign_digit hd]
      dsimp only
      rw [hlower]
      split
      · next h => exact absurd h (hname _ (.inl rfl))
      · next h => exact absurd h (hname _ (.inl rfl))
      · next h => exact absurd h (hname _ (.inr rfl))
      · rw [List.cons_append] at htake hdrop
        rw [htake, hdrop]
        rfl

/-- What may stand behind the digits and the fraction of a float. -/
def Exponentiated (exponent : Option (Bool × List Char)) (written : List Char) : Prop :=
  match exponent with
  | none => written = []
  | some e => ExponentText e written

theorem Exponentiated.head {exponent : Option (Bool × List Char)} {written : List Char}
    (h : Exponentiated exponent written) :
    ∀ c ∈ written.head?, isDigit c = false ∧ c ≠ '.' := by
  cases exponent with
  | none =>
      obtain rfl := h
      exact fun _ hc => by cases hc
  | some e =>
      obtain ⟨hletter, _, _⟩ := h
      intro c hc
      obtain rfl := Option.some.inj hc
      rcases hletter with rfl | rfl <;> decide

theorem ExponentText.sign {e : Bool × List Char} {c : Char} {rest : List Char}
    (h : ExponentText e (c :: rest)) : (c == 'e' || c == 'E') = true ∧ Number.sign rest = e ∧
      IsDigits e.2 := by
  cases h with
  | @intro _ sign digits down hletter hsign hdigits =>
      refine ⟨?_, ?_, hdigits⟩
      · rw [Bool.or_eq_true, beq_iff_eq, beq_iff_eq]
        exact hletter
      · simp only [List.mem_cons, Prod.mk.injEq, List.not_mem_nil, or_false] at hsign
        rcases hsign with ⟨rfl, rfl⟩ | ⟨rfl, rfl⟩ | ⟨rfl, rfl⟩
        · cases digits with
          | nil => exact absurd rfl hdigits.1
          | cons d ds => exact sign_digit (hdigits.2 d List.mem_cons_self) ds
        · rfl
        · rfl

theorem Exponentiated.floatFrom {exponent : Option (Bool × List Char)} {written : List Char}
    (h : Exponentiated exponent written) (whole fraction : List Char) :
    Grammar.floatFrom whole fraction written =
      some (Number.Numeral.nearest { whole, fraction := some fraction, exponent }) := by
  cases exponent with
  | none =>
      obtain rfl := h
      rfl
  | some e =>
      cases written with
      | nil => cases h
      | cons c rest =>
          obtain ⟨hletter, hsign, hds⟩ := ExponentText.sign h
          have hall : e.2.all isDigit = true := List.all_eq_true.mpr hds.2
          have hsome : e.2.isEmpty = false := List.isEmpty_eq_false_iff.mpr hds.1
          simp [Grammar.floatFrom, hsign, hletter, hall, hsome]

/-- A float as the grammar has it is readable, and it is the numeral that the scanner finds. -/
theorem floatOfText?_written {whole written : List Char} {fraction : Option (List Char)}
    {exponent : Option (Bool × List Char)} (hwhole : IsDigits whole)
    (hfraction : ∀ digits ∈ fraction, IsDigits digits) (h : Exponentiated exponent written) :
    Number.floatOfText?
        (String.ofList (whole ++ (Number.fractionText fraction ++ written))) =
      some (Number.Numeral.nearest { whole, fraction, exponent }) := by
  cases fraction with
  | some digits =>
      obtain ⟨htake, hdrop⟩ := span_append (hfraction digits rfl).2 fun c hc => (h.head c hc).1
      have hpoint : fractionOf ('.' :: (digits ++ written)) = (digits, written) := by
        rw [fractionOf, htake, hdrop]
      rw [Number.fractionText, List.cons_append,
        floatOfText?_eq hwhole (not_isDigit_of_head rfl _), hpoint]
      exact h.floatFrom whole digits
  | none =>
      have hpoint : fractionOf written = ([], written) := by
        rw [fractionOf]
        rintro rest rfl
        exact (h.head '.' rfl).2 rfl
      rw [Number.fractionText, List.nil_append,
        floatOfText?_eq hwhole fun c hc => (h.head c hc).1, hpoint]
      exact h.floatFrom whole []

theorem readFloat_written {whole written : List Char} {fraction : Option (List Char)}
    {exponent : Option (Bool × List Char)} (hwhole : IsDigits whole)
    (hfraction : ∀ digits ∈ fraction, IsDigits digits) (h : Exponentiated exponent written) :
    readFloat (whole ++ (Number.fractionText fraction ++ written)) =
      .ok (.float (Number.Numeral.nearest { whole, fraction, exponent })) := by
  rw [readFloat, floatOfText?_written hwhole hfraction h]

/-! ### Strings -/

theorem Spelling.unescape {text written : List Char} (h : Spelling text written) :
    Grammar.unescape written = .ok text := by
  induction h with
  | nil => rfl
  | @raw c text written hquote hslash _ ih =>
      rw [Grammar.unescape]
      · rw [ih]
        rfl
      · exact fun h _ => hslash h
      · exact fun _ _ h _ => hslash h
  | escaped hescape _ ih =>
      rw [Grammar.unescape, unescape?_eq_some_iff.mpr hescape, ih]
      rfl

/-! ### Signs -/

theorem ensureDepth_bind (depth : Nat) (f : Nat → Except Complaint β) :
    ensureDepth depth >>= f =
      complaining (checkDepth (some depthLimit) depth) >>= fun _ => f depth := by
  rw [ensureDepth_eq, checkDepth]
  by_cases h : depthLimit < depth
  · rw [if_pos h]
    rfl
  · rw [if_neg h]
    rfl

theorem depth_unary (op : UnaryOp) (e : Expr) : (Expr.unary op e).depth = e.depth + 1 := by
  rw [Expr.depth_height, Expr.depth_height, Expr.height, Nat.add_comm]

theorem depth_member (object : Expr) (property : String) :
    (Expr.member object property).depth = object.depth + 1 := by
  rw [Expr.depth_height, Expr.depth_height, Expr.height, Nat.add_comm]

theorem depth_index (object key : Expr) :
    (Expr.index object key).depth = max object.depth key.depth + 1 := by
  simp only [Expr.depth_height, Expr.height, Nat.add_comm]

theorem depth_call (callee : Expr) (args : List Expr) :
    (Expr.call callee args).depth =
      max callee.depth ((args.map Expr.depth).foldl max 0) + 1 := by
  rw [Expr.foldl_max_depth, Nat.zero_max, Expr.depth_height, Expr.depth_height, Expr.height,
    Nat.add_comm]

theorem depth_binary (op : BinaryOp) (left right : Expr) :
    (Expr.binary op left right).depth = max left.depth right.depth + 1 := by
  simp only [Expr.depth_height, Expr.height, Nat.add_comm]

theorem depth_of_leaves {e e' : Expr} (h : e.height = 1) (h' : e'.height = 1) :
    e.depth = e'.depth := by
  rw [Expr.depth_height, Expr.depth_height, h, h']

/-- A sign that makes a node. -/
theorem ensureDepth_unary (op : UnaryOp) (e : Expr) :
    (ensureDepth (e.depth + 1) >>= fun depth =>
        (.ok (Expr.unary op e, depth) : Except Complaint (Expr × Nat))) =
      complaining (checkDepth (some depthLimit) (e.depth + 1) >>= fun _ => .ok (.unary op e)) >>=
        fun made => .ok (made, made.depth) := by
  rw [ensureDepth_bind, complaining_bind, ← depth_unary op e]
  cases complaining (checkDepth (some depthLimit) (Expr.unary op e).depth) <;> rfl

theorem putSign_eq (op : UnaryOp) (e : Expr) :
    putSign op (e, e.depth) =
      complaining (applySigns (some depthLimit) [op] e) >>= fun made => .ok (made, made.depth) := by
  cases op with
  | not => exact ensureDepth_unary .not e
  | neg =>
      cases e with
      | int n =>
          by_cases hleast : n = Int64.minValue
          · have hsigns : applySigns (some depthLimit) [.neg] (.int n) =
                checkDepth (some depthLimit) ((Expr.int n).depth + 1) >>=
                  fun _ => .ok (.unary .neg (.int n)) := if_pos hleast
            rw [hsigns, ← ensureDepth_unary, putSign, if_neg (not_not_intro hleast)]
          · have hsigns : applySigns (some depthLimit) [.neg] (.int n) = .ok (.int (-n)) :=
              if_neg hleast
            rw [hsigns, putSign, if_pos hleast, @depth_of_leaves (.int n) (.int (-n)) rfl rfl]
            rfl
      | float x =>
          rw [putSign, @depth_of_leaves (.float x) (.float (-x)) rfl rfl]
          rfl
      | _ => exact ensureDepth_unary .neg _

theorem putSigns_eq (ops : List UnaryOp) (e : Expr) :
    putSigns ops e = complaining (applySigns (some depthLimit) ops e) := by
  have hfold : ops.reverse.foldlM (fun made op => putSign op made) (e, e.depth) =
      complaining (applySigns (some depthLimit) ops e) >>= fun made => .ok (made, made.depth) := by
    rw [List.foldlM_reverse]
    induction ops with
    | nil => rfl
    | cons op ops ih =>
        rw [List.foldrM_cons, ih, applySigns_cons, complaining_bind]
        cases complaining (applySigns (some depthLimit) ops e) with
        | error complaint => rfl
        | ok made => exact putSign_eq op made
  rw [putSigns, hfold]
  cases complaining (applySigns (some depthLimit) ops e) <;> rfl

end Scriptlet.Grammar
