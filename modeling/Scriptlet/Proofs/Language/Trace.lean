import Scriptlet.Evaluation

/-!
An evaluation that keeps a record of where it asks its surroundings to resolve a name: each bare
name that it looks up in the context, and each call whose target it resolves. The record follows
the evaluation, so a branch that is not taken leaves nothing in it.

The record is faithful in both directions: forgetting it gives the evaluation back, and the
evaluation learns nothing of the context but what it looked up.
-/

namespace Scriptlet

/-- A place where an evaluation resolves a name. -/
inductive Visit where
  | name (name : String)
  | call (callee : Expr) (count : Nat)

/-- A computation with the visits that it made until it ended, in order. -/
structure Traced (α : Type) where
  visits : List Visit
  outcome : Except Fault α

namespace Traced

variable {α β : Type}

/-- A computation that resolves no name. -/
def quiet (r : Except Fault α) : Traced α :=
  ⟨[], r⟩

/-- A fault ends the record. -/
instance : Monad Traced where
  pure a := quiet (.ok a)
  bind x f :=
    match x.outcome with
    | .ok a => ⟨x.visits ++ (f a).visits, (f a).outcome⟩
    | .error fault => ⟨x.visits, .error fault⟩

/-- Looks a bare name up. -/
def name (context : Value) (name : String) : Traced Value :=
  ⟨[.name name], resolve context name⟩

/-- Resolves the target of a call that has `count` arguments. -/
def target (callee : Expr) (count : Nat) : Traced Builtin :=
  ⟨[.call callee count], resolveCallee callee⟩

theorem bind_of_ok {x : Traced α} {f : α → Traced β} {a : α} (h : x.outcome = .ok a) :
    x >>= f = ⟨x.visits ++ (f a).visits, (f a).outcome⟩ := by
  simp only [bind, h]

theorem bind_of_error {x : Traced α} {f : α → Traced β} {fault : Fault}
    (h : x.outcome = .error fault) : x >>= f = ⟨x.visits, .error fault⟩ := by
  simp only [bind, h]

theorem mem_visits_bind {x : Traced α} {f : α → Traced β} {v : Visit} :
    v ∈ (x >>= f).visits ↔
      v ∈ x.visits ∨ ∃ a, x.outcome = .ok a ∧ v ∈ (f a).visits := by
  cases houtcome : x.outcome with
  | error fault =>
      rw [bind_of_error houtcome]
      simp
  | ok a =>
      rw [bind_of_ok houtcome]
      simp

theorem outcome_bind {x : Traced α} {r : Except Fault α} {f : α → Traced β}
    {g : α → Except Fault β} (hx : x.outcome = r) (hf : ∀ a, (f a).outcome = g a) :
    (x >>= f).outcome = r >>= g := by
  subst hx
  cases houtcome : x.outcome with
  | error fault =>
      rw [bind_of_error houtcome]
      rfl
  | ok a =>
      rw [bind_of_ok houtcome]
      exact hf a

/-- Learns nothing of the context but what it looks up: another context where those names stand for
the same values gives the same computation. -/
def ReadsByName (t : Value → Traced α) : Prop :=
  ∀ context other,
    (∀ name, .name name ∈ (t context).visits → resolve context name = resolve other name) →
      t context = t other

theorem readsByName_const (x : Traced α) : ReadsByName fun _ => x := by
  intro context other _
  rfl

theorem readsByName_name (n : String) : ReadsByName fun context => name context n := by
  intro context other hagree
  simp only [name, hagree n (by simp [name])]

theorem ReadsByName.bind {x : Value → Traced α} {f : Value → α → Traced β} (hx : ReadsByName x)
    (hf : ∀ a, ReadsByName fun context => f context a) :
    ReadsByName fun context => x context >>= f context := by
  intro context other hagree
  have hsame : x context = x other := by
    apply hx
    intro name hmem
    exact hagree name (mem_visits_bind.mpr (.inl hmem))
  change x context >>= f context = x other >>= f other
  cases houtcome : (x context).outcome with
  | error fault => rw [bind_of_error houtcome, bind_of_error (hsame ▸ houtcome), hsame]
  | ok a =>
      have hnext : f context a = f other a := by
        apply hf
        intro name hmem
        exact hagree name (mem_visits_bind.mpr (.inr ⟨a, houtcome, hmem⟩))
      rw [bind_of_ok houtcome, bind_of_ok (hsame ▸ houtcome), hsame, hnext]

end Traced

mutual

/-- The evaluation of an expression at a place of the snippet, with its record. -/
def Expr.trace (around : Surroundings) (context : Value) (site : Site) : Expr → Traced Value
  | .null => pure .null
  | .bool b => pure (.bool b)
  | .int n => pure (.int n)
  | .float x => pure (.float x)
  | .string s => pure (.string s)
  | .ident name => Traced.name context name
  | .list items => do pure (.list (← traceItems around context site 0 items))
  | .member object property => do
      Traced.quiet ((← object.trace around context (0 :: site)).member property)
  | .index object key => do
      let object ← object.trace around context (0 :: site)
      let key ← key.trace around context (1 :: site)
      Traced.quiet (object.index key)
  | .call callee args => do
      let f ← Traced.target callee args.length
      let args ← traceItems around context site 1 args
      Traced.quiet (f.call around site args)
  | .unary op operand => do
      Traced.quiet ((← operand.trace around context (0 :: site)).applyUnary op)
  | .binary .and left right => do
      if ← Traced.quiet ((← left.trace around context (0 :: site)).asBool .and) then
        pure (.bool (← Traced.quiet ((← right.trace around context (1 :: site)).asBool .and)))
      else pure (.bool false)
  | .binary .or left right => do
      if ← Traced.quiet ((← left.trace around context (0 :: site)).asBool .or) then
        pure (.bool true)
      else pure (.bool (← Traced.quiet ((← right.trace around context (1 :: site)).asBool .or)))
  | .binary .coalesce left right => do
      match ← left.trace around context (0 :: site) with
      | .null => right.trace around context (1 :: site)
      | v => pure v
  | .binary op left right => do
      let left ← left.trace around context (0 :: site)
      let right ← right.trace around context (1 :: site)
      Traced.quiet (Value.applyStrict op left right)
  | .conditional test thenE elseE => do
      match ← test.trace around context (0 :: site) with
      | .bool true => thenE.trace around context (1 :: site)
      | .bool false => elseE.trace around context (2 :: site)
      | v => Traced.quiet (.error (.conditionNotBool v.kind))

/-- The evaluations of a row of expressions, the first of them at place `i`. -/
def traceItems (around : Surroundings) (context : Value) (site : Site) (i : Nat) :
    List Expr → Traced (List Value)
  | [] => pure []
  | e :: es => do
      let v ← e.trace around context (i :: site)
      let vs ← traceItems around context site (i + 1) es
      pure (v :: vs)

end

open Traced

mutual

/-- Forgetting the record gives the evaluation back. -/
theorem Expr.trace_outcome (around : Surroundings) (context : Value) (site : Site) :
    ∀ e : Expr, (e.trace around context site).outcome = e.eval around context site
  | .null | .bool _ | .int _ | .float _ | .string _ | .ident _ => rfl
  | .list items => by
      refine outcome_bind (traceItems_outcome around context site 0 items) ?_
      intro vs
      rfl
  | .member object property => by
      refine outcome_bind (object.trace_outcome around context _) ?_
      intro v
      rfl
  | .index object key => by
      refine outcome_bind (object.trace_outcome around context _) ?_
      intro v
      exact outcome_bind (key.trace_outcome around context _) fun _ => rfl
  | .call callee args => by
      refine outcome_bind rfl ?_
      intro f
      exact outcome_bind (traceItems_outcome around context site 1 args) fun _ => rfl
  | .unary op operand => by
      refine outcome_bind (operand.trace_outcome around context _) ?_
      intro v
      rfl
  | .binary op left right => by
      have hleft := left.trace_outcome around context (0 :: site)
      have hright := right.trace_outcome around context (1 :: site)
      cases op with
      | and =>
          refine outcome_bind hleft fun v => outcome_bind rfl ?_
          intro b
          cases b with
          | false => rfl
          | true => exact outcome_bind hright fun _ => outcome_bind rfl fun _ => rfl
      | or =>
          refine outcome_bind hleft fun v => outcome_bind rfl ?_
          intro b
          cases b with
          | false => exact outcome_bind hright fun _ => outcome_bind rfl fun _ => rfl
          | true => rfl
      | coalesce =>
          refine outcome_bind hleft ?_
          intro v
          cases v with
          | null => exact hright
          | _ => rfl
      | _ => exact outcome_bind hleft fun _ => outcome_bind hright fun _ => rfl
  | .conditional test thenE elseE => by
      refine outcome_bind (test.trace_outcome around context _) ?_
      intro v
      cases v with
      | bool b =>
          cases b with
          | true => exact thenE.trace_outcome around context _
          | false => exact elseE.trace_outcome around context _
      | _ => rfl

theorem traceItems_outcome (around : Surroundings) (context : Value) (site : Site) (i : Nat) :
    ∀ es : List Expr,
      (traceItems around context site i es).outcome = evalItems around context site i es
  | [] => rfl
  | e :: es => by
      refine outcome_bind (e.trace_outcome around context _) ?_
      intro v
      exact outcome_bind (traceItems_outcome around context site (i + 1) es) fun _ => rfl

end

example (around : Surroundings) :
    ((Expr.binary .and (.ident "Ready")
        (.call (.member (.ident "Math") "Abs") [.ident "Total"])).trace around
      (.object [("Ready", .bool false)]) []).visits = [.name "Ready"] := by
  rfl

mutual

/-- The record leaves no look-up out: contexts that agree on every name in it evaluate alike. -/
theorem Expr.trace_readsByName (around : Surroundings) (site : Site) :
    ∀ e : Expr, ReadsByName fun context => e.trace around context site
  | .null | .bool _ | .int _ | .float _ | .string _ => readsByName_const _
  | .ident name => readsByName_name name
  | .list items => by
      refine (traceItems_readsByName around site 0 items).bind ?_
      intro vs
      exact readsByName_const _
  | .member object property => by
      refine (object.trace_readsByName around _).bind ?_
      intro v
      exact readsByName_const _
  | .index object key => by
      refine (object.trace_readsByName around _).bind ?_
      intro v
      exact (key.trace_readsByName around _).bind fun _ => readsByName_const _
  | .call callee args => by
      refine (readsByName_const _).bind ?_
      intro f
      exact (traceItems_readsByName around site 1 args).bind fun _ => readsByName_const _
  | .unary op operand => by
      refine (operand.trace_readsByName around _).bind ?_
      intro v
      exact readsByName_const _
  | .binary op left right => by
      have hleft := left.trace_readsByName around (0 :: site)
      have hright := right.trace_readsByName around (1 :: site)
      cases op with
      | and =>
          refine hleft.bind fun v => (readsByName_const _).bind ?_
          intro b
          cases b with
          | false => exact readsByName_const _
          | true => exact hright.bind fun _ => readsByName_const _
      | or =>
          refine hleft.bind fun v => (readsByName_const _).bind ?_
          intro b
          cases b with
          | false => exact hright.bind fun _ => readsByName_const _
          | true => exact readsByName_const _
      | coalesce =>
          refine hleft.bind ?_
          intro v
          cases v with
          | null => exact hright
          | _ => exact readsByName_const _
      | _ => exact hleft.bind fun _ => hright.bind fun _ => readsByName_const _
  | .conditional test thenE elseE => by
      refine (test.trace_readsByName around _).bind ?_
      intro v
      cases v with
      | bool b =>
          cases b with
          | true => exact thenE.trace_readsByName around _
          | false => exact elseE.trace_readsByName around _
      | _ => exact readsByName_const _

theorem traceItems_readsByName (around : Surroundings) (site : Site) (i : Nat) :
    ∀ es : List Expr, ReadsByName fun context => traceItems around context site i es
  | [] => readsByName_const _
  | e :: es => by
      refine (e.trace_readsByName around _).bind ?_
      intro v
      exact (traceItems_readsByName around site (i + 1) es).bind fun _ => readsByName_const _

end

end Scriptlet
