import Scriptlet.Proofs.Language.Trace

/-!
What the value of an expression depends on: the names that stand for values in its text, and
nothing else of the context. A context that is no object is an object without fields as far as
names go. The target of a call is no name of a value, and no part of it is looked up, whatever its
shape.

The statement compares two evaluations in two contexts, and in two surroundings, which the
functions that answer from them are excluded for.
-/

namespace Scriptlet

/-- The field of an object; no other value has any. -/
def Value.field? : Value → String → Option Value
  | .object fields, name => fields.lookup name
  | _, _ => none

/-- A name other than that of the whole context stands for a field. -/
theorem resolve_field {name : String} (h : name ≠ contextName) (context : Value) :
    resolve context name =
      match context.field? name with
      | some v => .ok v
      | none => .error (.unknownIdentifier name) := by
  unfold resolve
  rw [if_neg h]
  cases context <;> rfl

theorem resolve_congr {context other : Value} {name : String} (h : name ≠ contextName)
    (hfield : context.field? name = other.field? name) :
    resolve context name = resolve other name := by
  rw [resolve_field h, resolve_field h, hfield]

theorem Builtin.call_congr {f : Builtin} (h : f.isAmbient = false) (around elsewhere : Surroundings)
    (site : Site) (args : List Value) : f.call around site args = f.call elsewhere site args := by
  cases f with
  | guidNewGuid | dateTimeUtcNow | dateTimeUnixMillis => cases h
  | _ => rfl

mutual

/-- The names that stand for values in the text of an expression, and its calls. -/
def Expr.mentions : Expr → List Visit
  | .null | .bool _ | .int _ | .float _ | .string _ => []
  | .ident name => [.name name]
  | .list items => mentionsItems items
  | .member object _ => object.mentions
  | .index object key => object.mentions ++ key.mentions
  | .call callee args => .call callee args.length :: mentionsItems args
  | .unary _ operand => operand.mentions
  | .binary _ left right => left.mentions ++ right.mentions
  | .conditional test thenE elseE => test.mentions ++ (thenE.mentions ++ elseE.mentions)

def mentionsItems : List Expr → List Visit
  | [] => []
  | e :: es => e.mentions ++ mentionsItems es

end

/-- Two evaluations find the same behind each name and in each call that is mentioned. -/
structure Agree (around elsewhere : Surroundings) (context other : Value) (mentioned : List Visit) :
    Prop where
  name : ∀ n, .name n ∈ mentioned → resolve context n = resolve other n
  call : ∀ callee count f, .call callee count ∈ mentioned → resolveCallee callee = .ok f →
    ∀ site args, f.call around site args = f.call elsewhere site args

variable {around elsewhere : Surroundings} {context other : Value}

theorem Agree.mono {some all : List Visit} (h : Agree around elsewhere context other all)
    (hsubset : ∀ v ∈ some, v ∈ all) : Agree around elsewhere context other some where
  name n hn := h.name n (hsubset _ hn)
  call callee count f hf := h.call callee count f (hsubset _ hf)

theorem Agree.left {first second : List Visit}
    (h : Agree around elsewhere context other (first ++ second)) :
    Agree around elsewhere context other first :=
  h.mono fun _ => List.mem_append_left _

theorem Agree.right {first second : List Visit}
    (h : Agree around elsewhere context other (first ++ second)) :
    Agree around elsewhere context other second :=
  h.mono fun _ => List.mem_append_right _

mutual

/-- Evaluations that agree on what an expression mentions have the same outcome; it does not matter
which of its parts they reach. -/
theorem Expr.eval_congr (site : Site) : ∀ e : Expr,
    Agree around elsewhere context other e.mentions →
      e.eval around context site = e.eval elsewhere other site
  | .null, _ | .bool _, _ | .int _, _ | .float _, _ | .string _, _ => rfl
  | .ident name, h => h.name name (by simp [Expr.mentions])
  | .list items, h => by
      rw [Expr.eval, Expr.eval, evalItems_congr site 0 items h]
  | .member object property, h => by
      rw [Expr.eval, Expr.eval, object.eval_congr _ h]
  | .index object key, h => by
      rw [Expr.eval, Expr.eval, object.eval_congr _ h.left, key.eval_congr _ h.right]
  | .call callee args, h => by
      have hargs := evalItems_congr site 1 args (h.mono fun _ => List.mem_cons_of_mem _)
      rw [Expr.eval, Expr.eval, hargs]
      cases hf : resolveCallee callee with
      | error fault => rfl
      | ok f =>
          have hcall := h.call callee args.length f (by simp [Expr.mentions]) hf site
          exact congrArg (evalItems elsewhere other site 1 args >>= ·) (funext hcall)
  | .unary op operand, h => by
      rw [Expr.eval, Expr.eval, operand.eval_congr _ h]
  | .binary op left right, h => by
      have hleft := left.eval_congr (0 :: site) h.left
      have hright := right.eval_congr (1 :: site) h.right
      cases op <;> simp only [Expr.eval, hleft, hright]
  | .conditional test thenE elseE, h => by
      rw [Expr.eval, Expr.eval, test.eval_congr _ h.left, thenE.eval_congr _ h.right.left,
        elseE.eval_congr _ h.right.right]

theorem evalItems_congr (site : Site) (i : Nat) : ∀ es : List Expr,
    Agree around elsewhere context other (mentionsItems es) →
      evalItems around context site i es = evalItems elsewhere other site i es
  | [], _ => rfl
  | e :: es, h => by
      rw [evalItems, evalItems, e.eval_congr _ h.left, evalItems_congr site (i + 1) es h.right]

end

/-- No call in the text of an expression answers from the surroundings. -/
def Expr.SelfContained (e : Expr) : Prop :=
  ∀ callee count f, .call callee count ∈ e.mentions → resolveCallee callee = .ok f →
    f.isAmbient = false

theorem Expr.SelfContained.eval_elsewhere {e : Expr} (h : e.SelfContained)
    (around elsewhere : Surroundings) (context : Value) (site : Site) :
    e.eval around context site = e.eval elsewhere context site := by
  apply e.eval_congr site
  refine ⟨fun _ _ => rfl, ?_⟩
  intro callee count f hmem hf
  exact Builtin.call_congr (h callee count f hmem hf) around elsewhere

/-- The value of an expression depends on the names it mentions. Two contexts that have the same
field, or none, for each of these names give the same value or the same fault, if the whole context
is not among the names and no function is called that answers from the surroundings. The fields of
the two objects may come in any order and need not be the same otherwise. The objects inside of a
field are the same as lists: in a context that was read they stand in the order of their keys. -/
theorem evaluate_depends_on_mentions {e : Expr} {context other : Value}
    (hcontext : .name contextName ∉ e.mentions)
    (hambient : ∀ callee count f, .call callee count ∈ e.mentions → resolveCallee callee = .ok f →
      f.isAmbient = false)
    (hagree : ∀ name, .name name ∈ e.mentions → context.field? name = other.field? name)
    (around elsewhere : Surroundings) :
    e.evaluate around context = e.evaluate elsewhere other := by
  refine e.eval_congr [] ⟨?_, ?_⟩
  · intro name hname
    refine resolve_congr ?_ (hagree name hname)
    rintro rfl
    exact hcontext hname
  · intro callee count f hmem hf
    exact Builtin.call_congr (hambient callee count f hmem hf) around elsewhere

/-- The contexts hold their fields in different orders, and each has one that the other has not: a
field that is named as a namespace is, and one that nothing names. -/
theorem evaluate_depends_on_mentions_of_branches :
    let e : Expr := .conditional (.ident "Ready")
      (.call (.member (.ident "Math") "Abs") [.ident "Total"]) (.ident "Missing")
    let context : Value := .object [("Ready", .bool true), ("Total", .int (-3)), ("Math", .null)]
    let other : Value := .object [("Total", .int (-3)), ("Count", .int 1), ("Ready", .bool true)]
    let night : Surroundings := ⟨fun _ => "a", fun _ => "00:00", fun _ => 0⟩
    let noon : Surroundings := ⟨fun _ => "b", fun _ => "12:00", fun _ => 12⟩
    .name contextName ∉ e.mentions ∧
      (∀ callee count f, .call callee count ∈ e.mentions → resolveCallee callee = .ok f →
        f.isAmbient = false) ∧
        (∀ name, .name name ∈ e.mentions → context.field? name = other.field? name) ∧
          e.evaluate night context = e.evaluate noon other := by
  intro e context other night noon
  have hmentions : e.mentions = [.name "Ready", .call (.member (.ident "Math") "Abs") 1,
      .name "Total", .name "Missing"] := rfl
  have hcontext : .name contextName ∉ e.mentions := by
    simp [hmentions, contextName]
  have hambient : ∀ callee count f, .call callee count ∈ e.mentions →
      resolveCallee callee = .ok f → f.isAmbient = false := by
    intro callee count f hmem hf
    obtain ⟨rfl, -⟩ : callee = .member (.ident "Math") "Abs" ∧ count = 1 := by
      simpa [hmentions] using hmem
    obtain rfl : Builtin.mathAbs = f := Except.ok.inj hf
    rfl
  have hagree : ∀ name, .name name ∈ e.mentions → context.field? name = other.field? name := by
    intro name hmem
    have hname : name = "Ready" ∨ name = "Total" ∨ name = "Missing" := by
      simpa [hmentions] using hmem
    rcases hname with rfl | rfl | rfl <;> rfl
  exact ⟨hcontext, hambient, hagree,
    evaluate_depends_on_mentions hcontext hambient hagree night noon⟩

end Scriptlet
