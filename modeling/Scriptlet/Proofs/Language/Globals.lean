import Scriptlet.Proofs.Language.Dependence
import Scriptlet.Proofs.Outcome

/-!
A bare name is short for a field of the context. Where the context is an object, each name of a
value in an expression, other than that of the whole context, may as well be written as a member of
the context or as an index into it, and the expression keeps its value. Where it faults it still
faults, though in other words: a field that is missing is reported as each way of asking has it.

The target of a call is no name of a value. It is left alone if it has the form of one; a target of
another form never resolves, and does not after its names are written out.
-/

namespace Scriptlet

/-- How a field of the context is asked for. -/
inductive Access where
  | bare
  | member
  | index
  deriving Repr, DecidableEq

def Access.field (access : Access) (name : String) : Expr :=
  match access with
  | .bare => .ident name
  | .member => .member (.ident contextName) name
  | .index => .index (.ident contextName) (.string name)

/-- The form `Namespace.Function`. -/
def Expr.isTarget : Expr → Bool
  | .member (.ident _) _ => true
  | _ => false

mutual

/-- The expression with each name of a value, other than that of the whole context, asked for as
`access` says for its place. -/
def Expr.qualified (access : Site → Access) (site : Site) : Expr → Expr
  | .ident name => if name = contextName then .ident name else (access site).field name
  | .list items => .list (qualifiedItems access site 0 items)
  | .member object property => .member (object.qualified access (0 :: site)) property
  | .index object key =>
      .index (object.qualified access (0 :: site)) (key.qualified access (1 :: site))
  | .call callee args =>
      .call (if callee.isTarget then callee else callee.qualified access (0 :: site))
        (qualifiedItems access site 1 args)
  | .unary op operand => .unary op (operand.qualified access (0 :: site))
  | .binary op left right =>
      .binary op (left.qualified access (0 :: site)) (right.qualified access (1 :: site))
  | .conditional test thenE elseE =>
      .conditional (test.qualified access (0 :: site)) (thenE.qualified access (1 :: site))
        (elseE.qualified access (2 :: site))
  | e => e

def qualifiedItems (access : Site → Access) (site : Site) (i : Nat) : List Expr → List Expr
  | [] => []
  | e :: es => e.qualified access (i :: site) :: qualifiedItems access site (i + 1) es

end

/-- The same value, or a fault each. -/
def SameValue {α : Type} (r r' : Except Fault α) : Prop :=
  ∀ a, r = .ok a ↔ r' = .ok a

/-! ### Values up to faults -/

section

variable {α β : Type} {r r' : Except Fault α}

theorem SameValue.refl (r : Except Fault α) : SameValue r r :=
  fun _ => Iff.rfl

theorem sameValue_error (fault fault' : Fault) :
    SameValue (.error fault : Except Fault α) (.error fault') := by
  intro a
  simp

theorem SameValue.bind (h : SameValue r r') {f f' : α → Except Fault β}
    (hf : ∀ a, SameValue (f a) (f' a)) : SameValue (r >>= f) (r' >>= f') := by
  intro b
  rw [bind_eq_ok, bind_eq_ok]
  exact exists_congr fun a => and_congr (h a) (hf a b)

theorem SameValue.error_iff (h : SameValue r r') :
    (∃ fault, r = .error fault) ↔ ∃ fault, r' = .error fault := by
  cases r with
  | error fault =>
      cases r' with
      | error fault' => simp
      | ok a => cases (h a).mpr rfl
  | ok a => rw [(h a).mp rfl]

end

/-! ### Names -/

theorem lookup?_contextName (name : String) : Builtin.lookup? contextName name = none := by
  rw [Builtin.lookup?, List.find?_eq_none]
  intro f _
  cases f <;> simp [Builtin.path, contextName]

/-- A field of an object context has one value, however it is asked for. -/
theorem sameValue_field (around : Surroundings) (fields : List (String × Value)) (site : Site)
    (access : Access) {name : String} (h : name ≠ contextName) :
    SameValue ((access.field name).eval around (.object fields) site)
      (resolve (.object fields) name) := by
  have hcontext : resolve (.object fields) contextName = .ok (.object fields) := if_pos rfl
  have hfield : (Value.object fields).field? name = fields.lookup name := rfl
  rw [resolve_field h, hfield]
  cases access with
  | bare =>
      rw [Access.field, Expr.eval, resolve_field h, hfield]
      exact .refl _
  | member =>
      have hmember : (Access.member.field name).eval around (.object fields) site =
          (Value.object fields).member name := by
        rw [Access.field, Expr.eval, Expr.eval, hcontext]
        rfl
      rw [hmember, Value.member]
      cases fields.lookup name with
      | some v => exact .refl _
      | none => exact sameValue_error _ _
  | index =>
      have hindex : (Access.index.field name).eval around (.object fields) site =
          (Value.object fields).index (.string name) := by
        rw [Access.field, Expr.eval, Expr.eval, Expr.eval, hcontext]
        rfl
      rw [hindex, Value.index]
      cases fields.lookup name with
      | some v => exact .refl _
      | none => exact sameValue_error _ _

theorem qualified_ne_ident {e : Expr} (h : ∀ name, e ≠ .ident name) (access : Site → Access)
    (site : Site) (name : String) : e.qualified access site ≠ .ident name := by
  cases e with
  | ident name' => exact absurd rfl (h name')
  | _ => simp [Expr.qualified]

theorem resolveCallee_of_not_target {callee : Expr} (h : callee.isTarget = false) :
    resolveCallee callee = .error .invalidCallTarget := by
  unfold resolveCallee
  split
  · cases h
  · rfl

/-- What is no target does not become one that is known. -/
theorem resolveCallee_qualified {callee : Expr} (h : callee.isTarget = false)
    (access : Site → Access) (site : Site) :
    ∃ fault, resolveCallee (callee.qualified access site) = .error fault := by
  cases htarget : (callee.qualified access site).isTarget with
  | false => exact ⟨_, resolveCallee_of_not_target htarget⟩
  | true =>
      cases callee with
      | ident name =>
          rw [Expr.qualified] at htarget ⊢
          split at htarget
          · cases htarget
          · next hname =>
              rw [if_neg hname]
              cases hsite : access site with
              | member =>
                  -- the target takes the form of one, but no namespace is called `Context`
                  refine ⟨.unknownFunction contextName name, ?_⟩
                  rw [Access.field, resolveCallee, lookup?_contextName]
              | bare => simp [hsite, Access.field, Expr.isTarget] at htarget
              | index => simp [hsite, Access.field, Expr.isTarget] at htarget
      | member object property =>
          have hobject : ∀ name, object ≠ .ident name := by
            rintro name rfl
            cases h
          rw [Expr.qualified, Expr.isTarget.eq_def] at htarget
          split at htarget
          · next name _ heq =>
              injection heq with hident _
              exact absurd hident (qualified_ne_ident hobject access _ name)
          · cases htarget
      | _ => simp [Expr.qualified, Expr.isTarget] at htarget

theorem sameValue_target (callee : Expr) (access : Site → Access) (site : Site) :
    SameValue
      (resolveCallee (if callee.isTarget then callee else callee.qualified access site))
      (resolveCallee callee) := by
  cases h : callee.isTarget with
  | true => exact .refl _
  | false =>
      obtain ⟨fault, hfault⟩ := resolveCallee_qualified h access site
      rw [if_neg Bool.false_ne_true, hfault, resolveCallee_of_not_target h]
      exact sameValue_error _ _

mutual

theorem Expr.eval_qualified (access : Site → Access) (around : Surroundings)
    (fields : List (String × Value)) (site : Site) : ∀ e : Expr,
      SameValue ((e.qualified access site).eval around (.object fields) site)
        (e.eval around (.object fields) site)
  | .null | .bool _ | .int _ | .float _ | .string _ => .refl _
  | .ident name => by
      rw [Expr.qualified]
      split
      · exact .refl _
      · next hname => exact sameValue_field around fields site _ hname
  | .list items => by
      rw [Expr.qualified, Expr.eval, Expr.eval]
      exact (evalItems_qualified access around fields site 0 items).bind fun _ => .refl _
  | .member object property => by
      rw [Expr.qualified, Expr.eval, Expr.eval]
      exact (object.eval_qualified access around fields _).bind fun _ => .refl _
  | .index object key => by
      rw [Expr.qualified, Expr.eval, Expr.eval]
      apply (object.eval_qualified access around fields _).bind
      intro v
      exact (key.eval_qualified access around fields _).bind fun _ => .refl _
  | .call callee args => by
      rw [Expr.qualified, Expr.eval, Expr.eval]
      apply (sameValue_target callee access (0 :: site)).bind
      intro f
      exact (evalItems_qualified access around fields site 1 args).bind fun _ => .refl _
  | .unary op operand => by
      rw [Expr.qualified, Expr.eval, Expr.eval]
      exact (operand.eval_qualified access around fields _).bind fun _ => .refl _
  | .binary op left right => by
      have hleft := left.eval_qualified access around fields (0 :: site)
      have hright := right.eval_qualified access around fields (1 :: site)
      rw [Expr.qualified]
      cases op with
      | and =>
          rw [Expr.eval, Expr.eval]
          apply hleft.bind
          intro v
          apply (SameValue.refl (v.asBool .and)).bind
          intro b
          cases b with
          | false => exact .refl _
          | true => exact hright.bind fun _ => .refl _
      | or =>
          rw [Expr.eval, Expr.eval]
          apply hleft.bind
          intro v
          apply (SameValue.refl (v.asBool .or)).bind
          intro b
          cases b with
          | false => exact hright.bind fun _ => .refl _
          | true => exact .refl _
      | coalesce =>
          rw [Expr.eval, Expr.eval]
          apply hleft.bind
          intro v
          cases v with
          | null => exact hright
          | _ => exact .refl _
      | _ =>
          rw [Expr.eval, Expr.eval]
          · exact hleft.bind fun _ => hright.bind fun _ => .refl _
          all_goals simp
  | .conditional test thenE elseE => by
      rw [Expr.qualified, Expr.eval, Expr.eval]
      apply (test.eval_qualified access around fields _).bind
      intro v
      cases v with
      | bool b =>
          cases b with
          | true => exact thenE.eval_qualified access around fields _
          | false => exact elseE.eval_qualified access around fields _
      | _ => exact .refl _

theorem evalItems_qualified (access : Site → Access) (around : Surroundings)
    (fields : List (String × Value)) (site : Site) (i : Nat) : ∀ es : List Expr,
      SameValue (evalItems around (.object fields) site i (qualifiedItems access site i es))
        (evalItems around (.object fields) site i es)
  | [] => .refl _
  | e :: es => by
      rw [qualifiedItems, evalItems, evalItems]
      apply (e.eval_qualified access around fields _).bind
      intro v
      exact (evalItems_qualified access around fields site (i + 1) es).bind fun _ => .refl _

end

/-- The globals are the fields of the context. Where the context is an object, names may be written
as members of it and as indices into it, each in a way of its own. The expression has the same value
then, and it faults exactly if it did. -/
theorem globals_are_fields {e : Expr} (hambient : e.SelfContained) (access : Site → Access)
    (fields : List (String × Value)) (around elsewhere : Surroundings) :
    (∀ v, (e.qualified access []).evaluate around (.object fields) = .ok v ↔
        e.evaluate elsewhere (.object fields) = .ok v) ∧
      ((∃ fault, (e.qualified access []).evaluate around (.object fields) = .error fault) ↔
        ∃ fault, e.evaluate elsewhere (.object fields) = .error fault) := by
  have hsame := e.eval_qualified access around fields []
  have heval := hambient.eval_elsewhere around elsewhere (.object fields) []
  rw [heval] at hsame
  exact ⟨hsame, hsame.error_iff⟩

/-- Fields that are named as a namespace, as a member of lists and as the whole context, and a name
that no field has; the namespace of the call stays. -/
theorem globals_are_fields_of_namespace :
    let e : Expr := .conditional (.ident "Ready")
      (.call (.member (.ident "List") "Count") [.list [.ident "Length", .ident "Context"]])
      (.ident "Missing")
    let access : Site → Access := fun site => if site = [0] then .index else .member
    let fields (ready : Bool) : List (String × Value) :=
      [("Ready", .bool ready), ("List", .null), ("Length", .int 2), ("Context", .int 3)]
    let around : Surroundings := ⟨fun _ => "", fun _ => "", fun _ => 0⟩
    let qualified : Expr := .conditional (.index (.ident "Context") (.string "Ready"))
      (.call (.member (.ident "List") "Count")
        [.list [.member (.ident "Context") "Length", .ident "Context"]])
      (.member (.ident "Context") "Missing")
    e.SelfContained ∧ e.qualified access [] = qualified ∧
      qualified.evaluate around (.object (fields true)) = .ok (.int 2) ∧
        ∃ fault, qualified.evaluate around (.object (fields false)) = .error fault := by
  intro e access fields around qualified
  have hambient : e.SelfContained := by
    intro callee count f hmem hf
    have hcallee : callee = .member (.ident "List") "Count" := by
      have hmentions : e.mentions = [.name "Ready", .call (.member (.ident "List") "Count") 1,
          .name "Length", .name "Context", .name "Missing"] := rfl
      rw [hmentions] at hmem
      simp at hmem
      exact hmem.1
    rw [hcallee] at hf
    obtain rfl : Builtin.listCount = f := Except.ok.inj hf
    rfl
  have hqualified : e.qualified access [] = qualified := rfl
  obtain ⟨hready, -⟩ := globals_are_fields hambient access (fields true) around around
  obtain ⟨-, hmissing⟩ := globals_are_fields hambient access (fields false) around around
  rw [hqualified] at hready hmissing
  exact ⟨hambient, hqualified, (hready (.int 2)).mpr rfl, hmissing.mpr ⟨_, rfl⟩⟩

end Scriptlet
