import Scriptlet.Grammar.Parse
import Scriptlet.Proofs.Grammar.Building
import Scriptlet.Proofs.Grammar.Reading
import Scriptlet.Proofs.Grammar.Scanning

/-!
What was written down is read back. The text of an expression goes through the scanner, the rules
and the builder, each of which undoes one step of the writing.
-/

namespace Scriptlet

open Grammar

theorem Grammar.phrase?_source {spell : Float → Number.Numeral} {e : Expr}
    (he : e.Each (Writable spell)) : phrase? (e.source spell) = some (e.phrase spell) := by
  have hproper := phrase_proper e he
  rw [phrase?, Expr.source, Phrase.lexemes_text _ hproper, Phrase.program_lexemes _ hproper]

/-- An expression that is written with the fewest parentheses is read back as it was, if its text
passes the guard and its depth the limit. This is so for every tree whose names are identifiers and
in which no minus stands directly on a number other than the least integer, and however the floats
are spelled, as long as each of them reads back. -/
theorem parse_source (spell : Float → Number.Numeral) (e : Expr) (he : e.Each (Writable spell))
    (hnesting : tooNested (e.source spell) = false) (hdepth : e.depth ≤ depthLimit) :
    parse (e.source spell) = .ok e := by
  have hheight : e.height ≤ depthLimit := by
    rw [← Expr.depth_height]
    exact hdepth
  simp only [parse, hnesting, phrase?_source he, build_phrase e he hheight, Bool.false_eq_true,
    if_false]

/-- Signs, a number with a member, an operator of two characters, branches and an escape in one
text. -/
theorem parse_source_of_signs :
    let spell : Float → Number.Numeral := fun _ => { whole := ['2'], fraction := some ['5'] }
    let e : Expr :=
      .conditional
        (.binary .le (.member (.int (-5)) "x") (.binary .sub (.float 2.5) (.float (-2.5))))
        (.unary .neg (.int Int64.minValue))
        (.call (.member (.ident "Text") "Trim") [.string "say \"hi\""])
    e.source spell =
        "(-5).x <= 2.5 - -2.5 ? --9223372036854775808 : Text.Trim(\"say \\\"hi\\\"\")" ∧
      tooNested (e.source spell) = false ∧ e.depth ≤ depthLimit ∧
      parse (e.source spell) = .ok e := by
  intro spell e
  have hfloat : IsFloat { whole := ['2'], fraction := some ['5'] } := by
    refine ⟨rfl, ⟨by simp, List.all_eq_true.mp rfl⟩, ?_, by simp, rfl⟩
    rintro digits ⟨⟩
    exact ⟨by simp, List.all_eq_true.mp rfl⟩
  have hleaf : ∀ {e : Expr}, e.children = [] → Writable spell e → e.Each (Writable spell) :=
    fun hnone here => .node here (by simp [hnone])
  have hminus : ((Expr.int (-5)).member "x").Each (Writable spell) := by
    refine .node ⟨⟨'x', [], rfl, by decide, by simp⟩, by decide⟩ ?_
    simp only [Expr.children, List.forall_mem_cons]
    exact ⟨hleaf rfl trivial, by simp⟩
  have hfloats : (Expr.binary .sub (.float 2.5) (.float (-2.5))).Each (Writable spell) := by
    refine .node trivial ?_
    simp only [Expr.children, List.forall_mem_cons]
    refine ⟨hleaf rfl ⟨hfloat, ?_⟩, hleaf rfl ⟨hfloat, ?_⟩, by simp⟩ <;> decide +kernel
  have hleast : (Expr.unary .neg (.int Int64.minValue)).Each (Writable spell) := by
    refine .node rfl ?_
    simp only [Expr.children, List.forall_mem_cons]
    exact ⟨hleaf rfl trivial, by simp⟩
  have hcall : (Expr.call (.member (.ident "Text") "Trim") [.string "say \"hi\""]).Each
      (Writable spell) := by
    refine .node trivial ?_
    simp only [Expr.children, List.forall_mem_cons]
    refine ⟨.node ⟨⟨'T', ['r', 'i', 'm'], rfl, by decide, List.all_eq_true.mp rfl⟩, by decide⟩ ?_,
      hleaf rfl trivial, by simp⟩
    simp only [Expr.children, List.forall_mem_cons]
    exact ⟨hleaf rfl ⟨⟨'T', ['e', 'x', 't'], rfl, by decide, List.all_eq_true.mp rfl⟩,
      by decide⟩, by simp⟩
  have he : e.Each (Writable spell) := by
    refine .node trivial ?_
    simp only [e, Expr.children, List.forall_mem_cons]
    refine ⟨.node trivial ?_, hleast, hcall, by simp⟩
    simp only [Expr.children, List.forall_mem_cons]
    exact ⟨hminus, hfloats, by simp⟩
  have hnesting : tooNested (e.source spell) = false := by decide +kernel
  have hdepth : e.depth ≤ depthLimit := by
    rw [Expr.depth_height]
    decide
  exact ⟨by decide +kernel, hnesting, hdepth, parse_source spell e he hnesting hdepth⟩

end Scriptlet
