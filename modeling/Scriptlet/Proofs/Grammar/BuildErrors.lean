import Scriptlet.Proofs.Grammar.Deriving

/-!
What a source can be refused for once the grammar has accepted it: an integer out of range, or
depth. The builder that trusts nothing has complaints for whatever a tree could lack, but it is
given the trees that the grammar derives, and of those it has no other complaint. And an integer out
of range is never let through.
-/

namespace Scriptlet

namespace Grammar

/-! ### The integers of a source -/

/-- The digits of a lexeme that is an integer. -/
def Lexeme.digits? : Lexeme → Option (List Char)
  | .integer digits => some digits
  | _ => none

/-- The integers of a source that the grammar accepts, in order. -/
def writtenIntegers (source : String) : List Written :=
  match phrase? source with
  | some phrase => phrase.integers
  | none => []

theorem digits_mark (c : Char) (glued : Bool) (s : List Lexeme) :
    (Lexeme.mark c glued :: s).filterMap Lexeme.digits? = s.filterMap Lexeme.digits? := rfl

theorem digits_marks (cs : List Char) : (marks cs).filterMap Lexeme.digits? = [] := by
  fun_induction marks cs with
  | case1 => rfl
  | case2 c => rfl
  | case3 c d rest ih => rw [digits_mark, ih]

theorem digits_signs (signs : List UnaryOp) :
    (signs.flatMap (marks ·.symbol.toList)).filterMap Lexeme.digits? = [] := by
  induction signs with
  | nil => rfl
  | cons op signs ih => rw [List.flatMap_cons, List.filterMap_append, digits_marks, ih]; rfl

theorem integers_signed_digits (signs : List UnaryOp) (operand : Phrase) :
    (Phrase.signed signs operand).integers.map (·.2) = operand.integers.map (·.2) := by
  cases operand <;> rfl

mutual

/-- The digits of a phrase's integers are those of its lexemes. -/
theorem Phrase.digits_lexemes (p : Phrase) :
    p.lexemes.filterMap Lexeme.digits? = p.integers.map (·.2) := by
  match p with
  | .null | .bool _ | .float _ | .string _ | .name _ | .integer _ => rfl
  | .list items =>
      simp [lexemes, integers, digits_mark, digits_lexemesItems items]
  | .group inner =>
      simp [lexemes, integers, digits_mark, digits_lexemes inner]
  | .member object property =>
      simp [lexemes, integers, Lexeme.digits?, digits_lexemes object]
  | .index object key =>
      simp [lexemes, integers, digits_mark, digits_lexemes object, digits_lexemes key]
  | .call callee args =>
      simp [lexemes, integers, digits_mark, digits_lexemes callee, digits_lexemesItems args]
  | .signed signs operand =>
      rw [integers_signed_digits, lexemes, List.filterMap_append, digits_signs,
        digits_lexemes operand, List.nil_append]
  | .binary op left right =>
      simp [lexemes, integers, digits_marks, digits_lexemes left, digits_lexemes right]
  | .conditional test thenP elseP =>
      simp [lexemes, integers, digits_mark, digits_lexemes test, digits_lexemes thenP,
        digits_lexemes elseP]

theorem Phrase.digits_lexemesItems (items : List Phrase) :
    (lexemesItems items).filterMap Lexeme.digits? = (integersOf items).map (·.2) := by
  match items with
  | [] => rfl
  | item :: more =>
      simp [lexemesItems, integersOf, digits_lexemes item, digits_lexemesFurther more]

theorem Phrase.digits_lexemesFurther (items : List Phrase) :
    (lexemesFurther items).filterMap Lexeme.digits? = (integersOf items).map (·.2) := by
  match items with
  | [] => rfl
  | item :: more =>
      simp [lexemesFurther, integersOf, digits_mark, digits_lexemes item,
        digits_lexemesFurther more]

end

/-- All the integers among the lexemes of an accepted source are its integers, in order. -/
theorem digits_of_phrase? {source : String} {phrase : Phrase} (h : phrase? source = some phrase) :
    (lexemes source).filterMap Lexeme.digits? = (writtenIntegers source).map (·.2) := by
  rw [writtenIntegers, h, ← phrase.digits_lexemes]
  rcases lexemes_of_phrase? h with hlexemes | hlexemes
  · rw [hlexemes]
  · rw [hlexemes, List.filterMap_append]
    exact List.append_nil _

/-! ### The tree of a source -/

variable {source : String} {nodes : List Node}

/-- The grammar accepts a whole source and derives nodes for it. -/
def Derives (source : String) (nodes : List Node) : Prop :=
  ∃ rest, Reads source.toList .loose (.rule .program) source.toList (some (nodes, rest))

theorem derives_of_phrase? {phrase : Phrase} (h : phrase? source = some phrase) :
    ∃ nodes, Derives source nodes := by
  rcases reads_program source.toList with ⟨_, tree, _, hread, _⟩ | ⟨hnone, _⟩
  · exact ⟨[tree], [], hread⟩
  · cases hnone.symm.trans h

theorem phrase?_of_derives (h : Derives source nodes) :
    ∃ phrase, phrase? source = some phrase ∧ buildProgram nodes = phrase.complaining := by
  obtain ⟨rest, hread⟩ := h
  rcases reads_program source.toList with ⟨phrase, tree, hprogram, hread', hbuild⟩ | ⟨_, hnone⟩
  · cases hread.unique hread'
    exact ⟨phrase, hprogram, hbuild⟩
  · cases hread.unique hnone

/-! ### Refusals -/

theorem complaining_error {α : Type} {r : Except BuildError α} {complaint : Complaint}
    (h : complaining r = .error complaint) :
    ∃ error, r = .error error ∧ error.complaint = complaint := by
  cases r with
  | ok a => cases h
  | error error => exact ⟨error, rfl, Except.error.inj h⟩

theorem one_le_depthLimit : 1 ≤ depthLimit := by decide

theorem refused_of_error {phrase : Phrase} {error : BuildError}
    (hphrase : phrase? source = some phrase)
    (h : phrase.build (some depthLimit) = .error error) :
    error = .tooDeep depthLimit ∨ ∃ written ∈ writtenIntegers source,
      written.outOfRange = true ∧ error = .integerOutOfRange written.1 written.2 := by
  rcases integer_of_build_error one_le_depthLimit h with hdeep | ⟨negative, digits, rfl, hfirst⟩
  · exact .inl hdeep
  · refine .inr ⟨(negative, digits), ?_, List.find?_some hfirst, rfl⟩
    rw [writtenIntegers, hphrase]
    exact List.mem_of_find?_eq_some hfirst

/-- A refusal that is not about syntax comes from the guard or from building the phrase. -/
theorem built_of_parse_error {error : BuildError} (h : parse source = .error (.build error)) :
    error = .tooDeep nestingLimit ∨
      ∃ phrase, phrase? source = some phrase ∧ phrase.build (some depthLimit) = .error error := by
  cases hnesting : tooNested source with
  | true =>
      rw [parse_of_tooNested hnesting] at h
      cases h
      exact .inl rfl
  | false =>
      cases hphrase : phrase? source with
      | none =>
          rw [parse, hnesting, hphrase] at h
          cases h
      | some phrase =>
          rw [parse_of_phrase? hnesting hphrase] at h
          cases hbuild : phrase.build (some depthLimit) with
          | ok e =>
              rw [hbuild] at h
              cases h
          | error first =>
              rw [hbuild] at h
              cases h
              exact .inr ⟨phrase, rfl, hbuild⟩

theorem phrase?_of_mem {written : Written} (hmem : written ∈ writtenIntegers source) :
    ∃ phrase, phrase? source = some phrase ∧ written ∈ phrase.integers := by
  unfold writtenIntegers at hmem
  split at hmem
  · next phrase hphrase => exact ⟨phrase, hphrase, hmem⟩
  · cases hmem

theorem integer_mem_lexemes {written : Written} (hmem : written ∈ writtenIntegers source) :
    Lexeme.integer written.2 ∈ lexemes source := by
  obtain ⟨phrase, hphrase, _⟩ := phrase?_of_mem hmem
  have hdigits : written.2 ∈ (lexemes source).filterMap Lexeme.digits? := by
    rw [digits_of_phrase? hphrase]
    exact List.mem_map_of_mem hmem
  obtain ⟨l, hl, hsome⟩ := List.mem_filterMap.mp hdigits
  cases l with
  | integer digits =>
      obtain rfl := Option.some.inj hsome
      exact hl
  | _ => cases hsome

theorem parse_error_of_outOfRange {written : Written} (hmem : written ∈ writtenIntegers source)
    (hout : written.outOfRange = true) : ∃ error, parse source = .error (.build error) := by
  obtain ⟨phrase, hphrase, hmem⟩ := phrase?_of_mem hmem
  cases hnesting : tooNested source with
  | true => exact ⟨_, parse_of_tooNested hnesting⟩
  | false =>
      obtain ⟨negative, digits, _, hbuild | hbuild⟩ :=
        build_error_of_outOfRange one_le_depthLimit hmem hout <;>
      · rw [parse_of_phrase? hnesting hphrase, hbuild]
        exact ⟨_, rfl⟩

end Grammar

open Grammar

/-- Once the grammar accepts a source, depth and an integer out of range are all that it can be
refused for. A refusal of the builder that is not about depth names such an integer of the source,
and a source with one is refused. The tree that the grammar derives is read by a builder that checks
everything the grammar ought to have seen to; it comes to the same as parsing the source, so no tree
lacks an operand, has an unknown operator or escape, or a float that is none. -/
theorem only_integers_out_of_range (source : String) :
    (∀ error, parse source = .error (.build error) →
      (∃ limit, error = .tooDeep limit) ∨
        ∃ written ∈ writtenIntegers source, written.outOfRange = true ∧
          Lexeme.integer written.2 ∈ lexemes source ∧
            (ParseError.build error).message =
              "Invalid expression: Integer literal '" ++ String.ofList written.literal ++
                "' out of range: " ++ written.fault.message) ∧
      (∀ written ∈ writtenIntegers source, written.outOfRange = true →
        ∃ error, parse source = .error (.build error)) ∧
        ((∃ nodes, Derives source nodes) ↔ ∃ phrase, phrase? source = some phrase) ∧
          ∀ nodes, Derives source nodes →
            (lexemes source).filterMap Lexeme.digits? = (writtenIntegers source).map (·.2) ∧
              (∀ complaint, buildProgram nodes = .error complaint →
                complaint = .tooDeep depthLimit ∨
                  ∃ written ∈ writtenIntegers source, written.outOfRange = true ∧
                    complaint = .outOfRange (String.ofList written.literal) written.fault) ∧
                (tooNested source = false → ∃ result, buildProgram nodes = complaining result ∧
                  parse source = result.mapError .build) := by
  refine ⟨fun error herror => ?_, fun written hmem hout => ?_, ?_, fun nodes hnodes => ?_⟩
  · obtain rfl | ⟨phrase, hphrase, hbuild⟩ := built_of_parse_error herror
    · exact .inl ⟨nestingLimit, rfl⟩
    rcases refused_of_error hphrase hbuild with rfl | ⟨written, hmem, hout, rfl⟩
    · exact .inl ⟨depthLimit, rfl⟩
    · refine .inr ⟨written, hmem, hout, integer_mem_lexemes hmem, ?_⟩
      exact (complaint_message (.integerOutOfRange written.1 written.2)).symm
  · exact parse_error_of_outOfRange hmem hout
  · constructor
    · rintro ⟨nodes, hnodes⟩
      obtain ⟨phrase, hphrase, _⟩ := phrase?_of_derives hnodes
      exact ⟨phrase, hphrase⟩
    · rintro ⟨phrase, hphrase⟩
      exact derives_of_phrase? hphrase
  · obtain ⟨phrase, hphrase, hbuild⟩ := phrase?_of_derives hnodes
    refine ⟨digits_of_phrase? hphrase, fun complaint hcomplaint => ?_, fun hnesting => ?_⟩
    · obtain ⟨error, herror, rfl⟩ := complaining_error (hbuild.symm.trans hcomplaint)
      rcases refused_of_error hphrase herror with rfl | ⟨written, hmem, hout, rfl⟩
      · exact .inl rfl
      · exact .inr ⟨written, hmem, hout, rfl⟩
    · exact ⟨_, hbuild, parse_of_phrase? hnesting hphrase⟩

/-- The digits of the least integer are in range behind a minus and out of range without. -/
theorem only_integers_out_of_range_of_least :
    let digits := "9223372036854775808".toList
    let phrase := Phrase.list [.signed [.neg] (.integer digits), .integer digits]
    let source := String.ofList phrase.text
    (∃ error, parse source = .error (.build error)) ∧
      ∃ nodes, Derives source nodes ∧
        buildProgram nodes = .error (.outOfRange "9223372036854775808" .tooLarge) := by
  intro digits phrase source
  obtain ⟨_, hrefused, hderives, _⟩ := only_integers_out_of_range source
  have hdigits : IsDigits digits := ⟨by decide, List.all_eq_true.mp rfl⟩
  have hproper : phrase.Proper := ⟨⟨by simp, hdigits, Nat.le_refl 9⟩, hdigits, trivial⟩
  have hphrase : phrase? source = some phrase := by
    rw [phrase?, Phrase.lexemes_text _ hproper, Phrase.program_lexemes _ hproper]
  have hwritten : writtenIntegers source = [(true, digits), (false, digits)] := by
    rw [writtenIntegers, hphrase]
    rfl
  have hmem : (false, digits) ∈ writtenIntegers source := by
    rw [hwritten]
    exact List.mem_cons_of_mem _ List.mem_cons_self
  have hbuild : phrase.build (some depthLimit) = .error (.integerOutOfRange false digits) := rfl
  obtain ⟨nodes, hnodes⟩ := hderives.mpr ⟨phrase, hphrase⟩
  obtain ⟨same, hsame, hmade⟩ := phrase?_of_derives hnodes
  obtain rfl : phrase = same := Option.some.inj (hphrase.symm.trans hsame)
  refine ⟨hrefused _ hmem (by decide), nodes, hnodes, ?_⟩
  rw [hmade, Phrase.complaining, hbuild]
  rfl

end Scriptlet
