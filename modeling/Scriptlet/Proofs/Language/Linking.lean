import Scriptlet.Compilation
import Scriptlet.Proofs.Language.Arity
import Scriptlet.Proofs.Language.Trace
import Scriptlet.Proofs.Outcome

/-!
What validation is for: a snippet that passes it never fails to link, whatever its context. The
validator and the evaluator are two recursions over the same tree. They agree at one node, the
call, where the one accepts a target and a count exactly when the other resolves the target to a
function that accepts the count; everywhere else the evaluation only has to stay inside the parts
that were validated.
-/

namespace Scriptlet

/-- The look-up is not of a namespace, or the call is one that its function accepts. -/
def Visit.Resolves : Visit → Prop
  | .name n => Builtin.isNamespace n = false
  | .call callee count => ∃ f, resolveCallee callee = .ok f ∧ f.accepts count = true

/-- Resolves at each visit and does not end with a fault of linking. -/
structure Traced.Linked {α : Type} (x : Traced α) : Prop where
  resolves : ∀ v ∈ x.visits, v.Resolves
  links : Links x.outcome

namespace Traced

variable {α β : Type}

theorem linked_quiet {r : Except Fault α} (h : Links r) : (quiet r).Linked where
  resolves := by simp [quiet]
  links := h

theorem linked_pure (a : α) : (pure a : Traced α).Linked :=
  linked_quiet (links_ok a)

theorem linked_name {n : String} (h : Builtin.isNamespace n = false) (context : Value) :
    (name context n).Linked where
  resolves := by simpa [name, Visit.Resolves] using h
  links := resolve_links context n

theorem linked_target {callee : Expr} {count : Nat} {f : Builtin}
    (hf : resolveCallee callee = .ok f) (hcount : f.accepts count = true) :
    (target callee count).Linked where
  resolves := by
    intro v hv
    obtain rfl := List.mem_singleton.mp hv
    exact ⟨f, hf, hcount⟩
  links := by
    change Links (resolveCallee callee)
    rw [hf]
    exact links_ok f

theorem Linked.bind {x : Traced α} {f : α → Traced β} (hx : x.Linked)
    (hf : ∀ a, x.outcome = .ok a → (f a).Linked) : (x >>= f).Linked where
  resolves := by
    intro v hv
    rcases mem_visits_bind.mp hv with hfirst | ⟨a, houtcome, hlater⟩
    · exact hx.resolves v hfirst
    · exact (hf a houtcome).resolves v hlater
  links := by
    rw [outcome_bind rfl fun _ => rfl]
    exact hx.links.bind fun a ha => (hf a ha).links

end Traced

/-! ### What validation checks -/

/-- The validator and the evaluator treat a call target alike. -/
theorem Expr.validateCall_ok_iff {callee : Expr} {count : Nat} :
    validateCall callee count = .ok () ↔
      ∃ f, resolveCallee callee = .ok f ∧ f.accepts count = true := by
  unfold validateCall
  split
  · next space name =>
      simp only [resolveCallee]
      cases Builtin.lookup? space name with
      | none => simp
      | some f => simp
  · next hshape =>
      have hfails : resolveCallee callee = .error .invalidCallTarget := by
        unfold resolveCallee
        split
        · exact absurd rfl (hshape _ _)
        · rfl
      simp [hfails]

theorem Expr.validate_of_check {source : String} {e : Expr} (h : check source = .ok e) :
    e.validate = .ok () := by
  unfold check at h
  cases hparse : parse source with
  | error err =>
      rw [hparse] at h
      cases h
  | ok parsed =>
      simp only [hparse] at h
      cases hvalid : parsed.validate with
      | error err =>
          simp only [hvalid] at h
          cases h
      | ok u =>
          simp only [hvalid] at h
          obtain rfl := Except.ok.inj h
          exact hvalid

/-- The values of a row are as many as its expressions. -/
theorem evalItems_length {around : Surroundings} {context : Value} {site : Site} {i : Nat}
    {es : List Expr} {vs : List Value} (h : evalItems around context site i es = .ok vs) :
    vs.length = es.length := by
  induction es generalizing i vs with
  | nil =>
      obtain rfl := Except.ok.inj h
      rfl
  | cons e es ih =>
      rw [evalItems] at h
      obtain ⟨v, _, hrest⟩ := bind_eq_ok.mp h
      obtain ⟨rest, htail, heq⟩ := bind_eq_ok.mp hrest
      obtain rfl := Except.ok.inj heq
      rw [List.length_cons, List.length_cons, ih htail]

/-! ### Validated snippets -/

open Traced

mutual

/-- The induction goes over the tree as validation does; the branches that are not evaluated are
validated too and not needed. -/
theorem Expr.trace_linked (around : Surroundings) (context : Value) (site : Site) :
    ∀ e : Expr, e.validate = .ok () → (e.trace around context site).Linked
  | .null, _ | .bool _, _ | .int _, _ | .float _, _ | .string _, _ => linked_pure _
  | .ident name, h => by
      refine linked_name ?_ context
      simpa [Expr.validate] using h
  | .list items, h => by
      refine (traceItems_linked around context site 0 items h).bind ?_
      intro vs _
      exact linked_pure _
  | .member object property, h => by
      refine (object.trace_linked around context _ h).bind ?_
      intro v _
      exact linked_quiet (v.member_links property)
  | .index object key, h => by
      obtain ⟨_, hobject, hkey⟩ := bind_eq_ok.mp h
      refine (object.trace_linked around context _ hobject).bind ?_
      intro v _
      refine (key.trace_linked around context _ hkey).bind ?_
      intro k _
      exact linked_quiet (v.index_links k)
  | .call callee args, h => by
      obtain ⟨_, hcall, hargs⟩ := bind_eq_ok.mp h
      obtain ⟨f, hf, hcount⟩ := Expr.validateCall_ok_iff.mp hcall
      refine (linked_target hf hcount).bind ?_
      intro g hg
      obtain rfl : f = g := Except.ok.inj (hf.symm.trans hg)
      refine (traceItems_linked around context site 1 args hargs).bind ?_
      intro vs hvs
      rw [traceItems_outcome] at hvs
      rw [← evalItems_length hvs] at hcount
      exact linked_quiet (Builtin.call_links around site hcount)
  | .unary op operand, h => by
      refine (operand.trace_linked around context _ h).bind ?_
      intro v _
      exact linked_quiet (v.applyUnary_links op)
  | .binary op left right, h => by
      obtain ⟨_, hvalid, hvalid'⟩ := bind_eq_ok.mp h
      have hleft := left.trace_linked around context (0 :: site) hvalid
      have hright := right.trace_linked around context (1 :: site) hvalid'
      have htruth (op : BinaryOp) (v : Value) : (quiet (v.asBool op)).Linked :=
        linked_quiet (v.asBool_links op)
      cases op with
      | and =>
          refine hleft.bind fun v _ => (htruth .and v).bind ?_
          intro b _
          cases b with
          | false => exact linked_pure _
          | true => exact hright.bind fun w _ => (htruth .and w).bind fun _ _ => linked_pure _
      | or =>
          refine hleft.bind fun v _ => (htruth .or v).bind ?_
          intro b _
          cases b with
          | false => exact hright.bind fun w _ => (htruth .or w).bind fun _ _ => linked_pure _
          | true => exact linked_pure _
      | coalesce =>
          refine hleft.bind ?_
          intro v _
          cases v with
          | null => exact hright
          | _ => exact linked_pure _
      | _ =>
          refine hleft.bind fun v _ => hright.bind fun w _ => ?_
          exact linked_quiet (Value.applyStrict_links _ v w)
  | .conditional test thenE elseE, h => by
      obtain ⟨_, htest, hbranches⟩ := bind_eq_ok.mp h
      obtain ⟨_, hthen, helse⟩ := bind_eq_ok.mp hbranches
      refine (test.trace_linked around context _ htest).bind ?_
      intro v _
      cases v with
      | bool b =>
          cases b with
          | true => exact thenE.trace_linked around context _ hthen
          | false => exact elseE.trace_linked around context _ helse
      | _ => exact linked_quiet (links_error_iff.mpr rfl)

theorem traceItems_linked (around : Surroundings) (context : Value) (site : Site) (i : Nat) :
    ∀ es : List Expr, Expr.validateAll es = .ok () →
      (traceItems around context site i es).Linked
  | [], _ => linked_pure _
  | e :: es, h => by
      obtain ⟨_, hhead, htail⟩ := bind_eq_ok.mp h
      refine (e.trace_linked around context _ hhead).bind ?_
      intro v _
      refine (traceItems_linked around context site (i + 1) es htail).bind ?_
      intro vs _
      exact linked_pure _

end

/-- A snippet that compiles never fails to link. In any context its evaluation ends without a fault
of linking, and at each name on its way, as the record of the evaluation has them, it looks up no
namespace and calls a function that accepts the arguments it is given. -/
theorem check_links {source : String} {e : Expr} (h : check source = .ok e)
    (around : Surroundings) (context : Value) :
    (∀ fault, e.evaluate around context = .error fault → fault.isLinkage = false) ∧
      (e.trace around context []).outcome = e.evaluate around context ∧
        ∀ v ∈ (e.trace around context []).visits, v.Resolves := by
  have hlinked := e.trace_linked around context [] (Expr.validate_of_check h)
  have houtcome : (e.trace around context []).outcome = e.evaluate around context :=
    e.trace_outcome around context []
  refine ⟨?_, houtcome, hlinked.resolves⟩
  rw [← houtcome]
  exact hlinked.links

/-- A call that is reached or not, as the context has it. -/
theorem check_links_of_lazy_call :
    ∃ e, check "Ready && String.IsNullOrEmpty(Name)" = .ok e ∧
      (∀ fault, e.evaluate ⟨fun _ => "", fun _ => "", fun _ => 0⟩
          (.object [("Ready", .bool true)]) = .error fault → fault.isLinkage = false) ∧
        (e.trace ⟨fun _ => "", fun _ => "", fun _ => 0⟩
            (.object [("Ready", .bool true)]) []).outcome =
          e.evaluate ⟨fun _ => "", fun _ => "", fun _ => 0⟩ (.object [("Ready", .bool true)]) ∧
        ∀ v ∈ (e.trace ⟨fun _ => "", fun _ => "", fun _ => 0⟩
          (.object [("Ready", .bool true)]) []).visits, v.Resolves := by
  have hlexemes : Grammar.lexemes "Ready && String.IsNullOrEmpty(Name)" =
      [.word "Ready", .mark '&' true, .mark '&' false, .word "String", .mark '.' false,
        .word "IsNullOrEmpty", .mark '(' false, .word "Name", .mark ')' false] := by
    decide +kernel
  have hnested : Grammar.tooNested "Ready && String.IsNullOrEmpty(Name)" = false := by
    decide +kernel
  have hphrase : Grammar.phrase? "Ready && String.IsNullOrEmpty(Name)" =
      some (.binary .and (.name "Ready")
        (.call (.member (.name "String") "IsNullOrEmpty") [.name "Name"])) := by
    rw [Grammar.phrase?, hlexemes]
    rfl
  have hbuild : Grammar.Phrase.build (some depthLimit) (.binary .and (.name "Ready")
        (.call (.member (.name "String") "IsNullOrEmpty") [.name "Name"])) =
      .ok (.binary .and (.ident "Ready")
        (.call (.member (.ident "String") "IsNullOrEmpty") [.ident "Name"])) := by
    cbv
  have hcheck : check "Ready && String.IsNullOrEmpty(Name)" =
      .ok (.binary .and (.ident "Ready")
        (.call (.member (.ident "String") "IsNullOrEmpty") [.ident "Name"])) := by
    simp only [check, parse, hnested, hphrase, hbuild]
    rfl
  exact ⟨_, hcheck, check_links hcheck _ _⟩

end Scriptlet
