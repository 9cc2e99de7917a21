import Scriptlet.Compilation
import Scriptlet.Proofs.Language.Dependence
import Scriptlet.Proofs.Language.Reordering

/-!
What a run gives does not depend on the order in which the fields of objects are gone through. The
context may hold them in any order, and it may be another one each time a value is looked at: the
evaluation that is compared with the plain one puts every value on its way into an order of its own.

The one place where the order could show is the end of a run, which reports the first float that is
not finite. It does not, because the objects in a result are those of the context, and in a context
that was read from a document there is no such float. What a list holds is in order.
-/

namespace Scriptlet

open Value (Reordered)

/-- A choice of orders for the fields of objects, at each place of a snippet. -/
structure Shuffle where
  order : Site → Value → Value
  reordered : ∀ (site : Site) {v : Value}, v.Keyed → v.Reordered (order site v)

namespace Shuffle

/-- Leaves the fields where they are. -/
def still : Shuffle where
  order _ v := v
  reordered _ := .refl

/-- The outcome of a computation in the order chosen for a place. -/
def after (shuffle : Shuffle) (site : Site) (r : Except Fault Value) : Except Fault Value := do
  .ok (shuffle.order site (← r))

theorem still_after (site : Site) (r : Except Fault Value) : still.after site r = r := by
  cases r <;> rfl

end Shuffle

mutual

/-- The evaluation of an expression in which each value on the way comes in an order of its own. -/
def Expr.evalShuffled (shuffle : Shuffle) (around : Surroundings) (context : Value) (site : Site)
    (e : Expr) : Except Fault Value :=
  shuffle.after site <|
    match e with
    | .null => .ok .null
    | .bool b => .ok (.bool b)
    | .int n => .ok (.int n)
    | .float x => .ok (.float x)
    | .string s => .ok (.string s)
    | .ident name => resolve context name
    | .list items => do .ok (.list (← evalItemsShuffled shuffle around context site 0 items))
    | .member object property => do
        (← object.evalShuffled shuffle around context (0 :: site)).member property
    | .index object key => do
        let object ← object.evalShuffled shuffle around context (0 :: site)
        let key ← key.evalShuffled shuffle around context (1 :: site)
        object.index key
    | .call callee args => do
        let f ← resolveCallee callee
        let args ← evalItemsShuffled shuffle around context site 1 args
        f.call around site args
    | .unary op operand => do
        (← operand.evalShuffled shuffle around context (0 :: site)).applyUnary op
    | .binary .and left right => do
        if ← (← left.evalShuffled shuffle around context (0 :: site)).asBool .and then
          .ok (.bool (← (← right.evalShuffled shuffle around context (1 :: site)).asBool .and))
        else .ok (.bool false)
    | .binary .or left right => do
        if ← (← left.evalShuffled shuffle around context (0 :: site)).asBool .or then
          .ok (.bool true)
        else
          .ok (.bool (← (← right.evalShuffled shuffle around context (1 :: site)).asBool .or))
    | .binary .coalesce left right => do
        match ← left.evalShuffled shuffle around context (0 :: site) with
        | .null => right.evalShuffled shuffle around context (1 :: site)
        | v => .ok v
    | .binary op left right => do
        let left ← left.evalShuffled shuffle around context (0 :: site)
        let right ← right.evalShuffled shuffle around context (1 :: site)
        Value.applyStrict op left right
    | .conditional test thenE elseE => do
        match ← test.evalShuffled shuffle around context (0 :: site) with
        | .bool true => thenE.evalShuffled shuffle around context (1 :: site)
        | .bool false => elseE.evalShuffled shuffle around context (2 :: site)
        | v => .error (.conditionNotBool v.kind)

/-- The values of a row of expressions, the first of them at place `i`. -/
def evalItemsShuffled (shuffle : Shuffle) (around : Surroundings) (context : Value) (site : Site)
    (i : Nat) : List Expr → Except Fault (List Value)
  | [] => .ok []
  | e :: es => do
      let v ← e.evalShuffled shuffle around context (i :: site)
      let vs ← evalItemsShuffled shuffle around context site (i + 1) es
      .ok (v :: vs)

end

variable {context other : Value}

theorem Parallel.shuffle {r r' : Except Fault Value} (h : Parallel Reordered r r')
    (shuffle : Shuffle) (site : Site) : Parallel Reordered (shuffle.after site r) r' := by
  cases h with
  | ok hvw => exact .ok ((shuffle.reordered site hvw.left).symm.trans hvw)
  | error fault => exact .error fault

theorem resolve_parallel (h : context.Reordered other) (name : String) :
    Parallel Reordered (resolve context name) (resolve other name) := by
  unfold resolve
  split
  · exact .ok h
  · cases h.same with
    | object keys each => exact Reordered.parallel_part _ (h.part? (.field name))
    | _ => exact .error _

mutual

/-- Whatever orders the values come in, the outcome is the same up to order. -/
theorem Expr.evalShuffled_parallel (shuffle : Shuffle) (around : Surroundings)
    (h : context.Reordered other) (site : Site) : ∀ e : Expr,
      Parallel Reordered (e.evalShuffled shuffle around context site) (e.eval around other site)
  | .null | .bool _ | .int _ | .float _ | .string _ => by
      rw [Expr.evalShuffled, Expr.eval]
      exact (Parallel.ok (.leaf rfl)).shuffle shuffle site
  | .ident name => by
      rw [Expr.evalShuffled, Expr.eval]
      exact (resolve_parallel h name).shuffle shuffle site
  | .list items => by
      rw [Expr.evalShuffled, Expr.eval]
      apply Parallel.shuffle
      apply (evalItemsShuffled_parallel shuffle around h site 0 items).bind
      intro vs ws hvs
      exact .ok (.list hvs)
  | .member object property => by
      rw [Expr.evalShuffled, Expr.eval]
      apply Parallel.shuffle
      apply (object.evalShuffled_parallel shuffle around h (0 :: site)).bind
      intro v w hvw
      exact hvw.member property
  | .index object key => by
      rw [Expr.evalShuffled, Expr.eval]
      apply Parallel.shuffle
      apply (object.evalShuffled_parallel shuffle around h (0 :: site)).bind
      intro v w hvw
      apply (key.evalShuffled_parallel shuffle around h (1 :: site)).bind
      intro k l hkl
      exact hvw.index hkl
  | .call callee args => by
      rw [Expr.evalShuffled, Expr.eval]
      apply Parallel.shuffle
      apply (parallel_refl (resolveCallee callee)).bind
      rintro f _ rfl
      apply (evalItemsShuffled_parallel shuffle around h site 1 args).bind
      intro vs ws hvs
      rw [f.call_reordered around site hvs]
      exact Reordered.parallel_of_leaf (f.call_leaf around site ws)
  | .unary op operand => by
      rw [Expr.evalShuffled, Expr.eval]
      apply Parallel.shuffle
      apply (operand.evalShuffled_parallel shuffle around h (0 :: site)).bind
      intro v w hvw
      rw [hvw.applyUnary_eq op]
      exact Reordered.parallel_of_leaf (w.applyUnary_leaf op)
  | .binary op left right => by
      have hleft := left.evalShuffled_parallel shuffle around h (0 :: site)
      have hright := right.evalShuffled_parallel shuffle around h (1 :: site)
      have hbool (b : Bool) : Parallel Reordered (.ok (.bool b)) (.ok (.bool b)) := .ok (.leaf rfl)
      have htruth (op : BinaryOp) : Parallel Reordered
          (do .ok (.bool (← (← right.evalShuffled shuffle around context (1 :: site)).asBool op)))
          (do .ok (.bool (← (← right.eval around other (1 :: site)).asBool op))) := by
        apply hright.bind
        intro w w' hw
        rw [hw.asBool_eq]
        exact (parallel_refl _).bind fun b _ hb => hb ▸ hbool b
      cases op with
      | and =>
          rw [Expr.evalShuffled, Expr.eval]
          apply Parallel.shuffle
          apply hleft.bind
          intro v v' hv
          rw [hv.asBool_eq]
          apply (parallel_refl _).bind
          rintro b _ rfl
          cases b with
          | false => exact hbool false
          | true => exact htruth .and
      | or =>
          rw [Expr.evalShuffled, Expr.eval]
          apply Parallel.shuffle
          apply hleft.bind
          intro v v' hv
          rw [hv.asBool_eq]
          apply (parallel_refl _).bind
          rintro b _ rfl
          cases b with
          | true => exact hbool true
          | false => exact htruth .or
      | coalesce =>
          rw [Expr.evalShuffled, Expr.eval]
          apply Parallel.shuffle
          apply hleft.bind
          intro v v' hv
          cases hv.same with
          | null => exact hright
          | _ => exact .ok hv
      | _ =>
          rw [Expr.evalShuffled, Expr.eval]
          · apply Parallel.shuffle
            apply hleft.bind
            intro v v' hv
            apply hright.bind
            intro w w' hw
            rw [hv.applyStrict_eq _ hw]
            exact Reordered.parallel_of_leaf (Value.applyStrict_leaf _ v' w')
          all_goals simp
  | .conditional test thenE elseE => by
      rw [Expr.evalShuffled, Expr.eval]
      apply Parallel.shuffle
      apply (test.evalShuffled_parallel shuffle around h (0 :: site)).bind
      intro v w hvw
      cases hvw.same with
      | bool b =>
          cases b with
          | true => exact thenE.evalShuffled_parallel shuffle around h (1 :: site)
          | false => exact elseE.evalShuffled_parallel shuffle around h (2 :: site)
      | _ => exact .error _

theorem evalItemsShuffled_parallel (shuffle : Shuffle) (around : Surroundings)
    (h : context.Reordered other) (site : Site) (i : Nat) : ∀ es : List Expr,
      Parallel (List.Forall₂ Reordered) (evalItemsShuffled shuffle around context site i es)
        (evalItems around other site i es)
  | [] => .ok .nil
  | e :: es => by
      rw [evalItemsShuffled, evalItems]
      apply (e.evalShuffled_parallel shuffle around h (i :: site)).bind
      intro v w hvw
      apply (evalItemsShuffled_parallel shuffle around h site (i + 1) es).bind
      intro vs ws hvs
      exact .ok (.cons hvw hvs)

end

mutual

/-- The fields stay where they are: this is the evaluation itself. -/
theorem Expr.evalShuffled_still (around : Surroundings) (context : Value) (site : Site) :
    ∀ e : Expr, e.evalShuffled .still around context site = e.eval around context site
  | .null | .bool _ | .int _ | .float _ | .string _ | .ident _ => by
      rw [Expr.evalShuffled, Shuffle.still_after, Expr.eval]
  | .list items => by
      rw [Expr.evalShuffled, Shuffle.still_after, Expr.eval,
        evalItemsShuffled_still around context site 0 items]
  | .member object property => by
      rw [Expr.evalShuffled, Shuffle.still_after, Expr.eval,
        object.evalShuffled_still around context (0 :: site)]
  | .index object key => by
      rw [Expr.evalShuffled, Shuffle.still_after, Expr.eval,
        object.evalShuffled_still around context (0 :: site),
        key.evalShuffled_still around context (1 :: site)]
  | .call callee args => by
      rw [Expr.evalShuffled, Shuffle.still_after, Expr.eval,
        evalItemsShuffled_still around context site 1 args]
  | .unary op operand => by
      rw [Expr.evalShuffled, Shuffle.still_after, Expr.eval,
        operand.evalShuffled_still around context (0 :: site)]
  | .binary op left right => by
      have hleft := left.evalShuffled_still around context (0 :: site)
      have hright := right.evalShuffled_still around context (1 :: site)
      cases op with
      | coalesce =>
          rw [Expr.evalShuffled, Shuffle.still_after, Expr.eval, hleft]
          apply bind_congr
          intro v
          cases v with
          | null => exact hright
          | _ => rfl
      | _ => simp only [Expr.evalShuffled, Shuffle.still_after, Expr.eval, hleft, hright]
  | .conditional test thenE elseE => by
      rw [Expr.evalShuffled, Shuffle.still_after, Expr.eval,
        test.evalShuffled_still around context (0 :: site)]
      apply bind_congr
      intro v
      cases v with
      | bool b =>
          cases b with
          | true => exact thenE.evalShuffled_still around context (1 :: site)
          | false => exact elseE.evalShuffled_still around context (2 :: site)
      | _ => rfl

theorem evalItemsShuffled_still (around : Surroundings) (context : Value) (site : Site) (i : Nat) :
    ∀ es : List Expr,
      evalItemsShuffled .still around context site i es = evalItems around context site i es
  | [] => rfl
  | e :: es => by
      rw [evalItemsShuffled, evalItems, e.evalShuffled_still around context (i :: site),
        evalItemsShuffled_still around context site (i + 1) es]

end

/-! ### Runs -/

namespace Value

theorem keyed_ofJson (j : Json) (h : j.WellFormed) : (ofJson j).Keyed := by
  induction j using Json.of_parts with
  | step j ih =>
      cases j with
      | integer n =>
          rw [ofJson]
          split
          · exact keyed_of_leaf rfl
          · exact keyed_of_leaf rfl
      | array items =>
          rw [ofJson, itemsOfJson_eq, keyed_list_iff]
          exact List.forall_mem_map.mpr fun item hitem => ih item hitem (h.part hitem)
      | object fields =>
          have hkeys : (fields.map (·.1)).Nodup := (show _ from h.here).imp ne_of_lt
          rw [ofJson, fieldsOfJson_eq, keyed_object_iff, List.map_map]
          refine ⟨hkeys, List.forall_mem_map.mpr ?_⟩
          intro f hf
          have hpart : f.2 ∈ (Json.object fields).parts := List.mem_map_of_mem hf
          exact ih f.2 hpart (h.part hpart)
      | _ => exact keyed_of_leaf rfl

theorem finite_ofJson {j : Json} (h : j.WellFormed) : (ofJson j).Finite :=
  (toJson_ok_iff_finite _).mp ⟨_, toJson_ofJson j h⟩

end Value

/-- The document that a run gives for the value of its snippet. -/
def Value.written (v : Value) : Except Fault Json :=
  match v.toJson with
  | .ok json => .ok json
  | .error x => .error (.notFinite x)

theorem Expr.run_eq (around : Surroundings) (json : Json) (e : Expr) :
    e.run around json = e.evaluate around (.ofJson json) >>= Value.written :=
  rfl

/-- Outcomes that are the same up to order are written alike if no object in them holds a float
that is not finite. -/
theorem written_of_parallel {r r' : Except Fault Value} (h : Parallel Reordered r r')
    (hfinite : ∀ v fields, r' = .ok v → (Value.object fields).Within v →
      (Value.object fields).Finite) : r >>= Value.written = r' >>= Value.written := by
  cases h with
  | @ok v w hvw =>
      have htoJson : w.toJson = v.toJson :=
        Reordered.toJson_eq w hvw.symm fun fields => hfinite w fields rfl
      change v.written = w.written
      rw [Value.written, Value.written, htoJson]
  | error fault => rfl

/-- A snippet makes no object, and the order of fields does not show. Each object in its value
stands in the context, so a float in it is finite. A run gives the same document or the same fault
in whatever order the context holds its fields, and in whatever order the fields of each value on
the way come. -/
theorem objects_come_from_context {e : Expr} (hambient : e.SelfContained) {json : Json}
    (hjson : json.WellFormed) (around elsewhere : Surroundings) :
    (∀ v fields, e.evaluate around (.ofJson json) = .ok v → (Value.object fields).Within v →
        (Value.object fields).Within (.ofJson json) ∧ (Value.object fields).Finite) ∧
      ∀ context, (Value.ofJson json).Reordered context →
        e.evaluate elsewhere context >>= Value.written = e.run around json ∧
          ∀ shuffle : Shuffle,
            e.evalShuffled shuffle elsewhere context [] >>= Value.written = e.run around json := by
  have hobjects : ∀ v fields, e.evaluate around (.ofJson json) = .ok v →
      (Value.object fields).Within v →
        (Value.object fields).Within (.ofJson json) ∧ (Value.object fields).Finite := by
    intro v fields hv hwithin
    have hborrowed := (e.eval_borrows around (.ofJson json) []).of_ok hv fields hwithin
    exact ⟨hborrowed, (Value.finite_ofJson hjson).within hborrowed⟩
  refine ⟨hobjects, ?_⟩
  intro context hcontext
  have hshuffled : ∀ shuffle : Shuffle,
      e.evalShuffled shuffle elsewhere context [] >>= Value.written = e.run around json := by
    intro shuffle
    have hparallel := e.evalShuffled_parallel shuffle elsewhere hcontext.symm []
    rw [hambient.eval_elsewhere elsewhere around] at hparallel
    rw [e.run_eq]
    -- it is the plain outcome that has its objects from the context, not the shuffled one
    apply written_of_parallel hparallel
    intro v fields hv hwithin
    exact (hobjects v fields hv hwithin).2
  refine ⟨?_, hshuffled⟩
  rw [Expr.evaluate, ← e.evalShuffled_still]
  exact hshuffled .still

/-- The fields of an object come backwards, wherever a value is an object. -/
def Shuffle.backwards : Shuffle where
  order _ v :=
    match v with
    | .object fields => .object fields.reverse
    | v => v
  reordered _ v hv := by
    cases v with
    | object fields => exact .of_perm hv fields.reverse_perm.symm
    | _ => exact .refl hv

/-- An object against itself with its fields backwards, then the object and a float in a list. -/
theorem objects_come_from_context_of_lists :
    let item : Json := .object [("a", .integer 1), ("b", .float 2.0)]
    let json : Json := .object [("Item", item), ("Total", .integer 3)]
    let context : Value := .object [("Total", .int 3), ("Item", .ofJson item)]
    let e (x : Float) : Expr := .list [
      .binary .eq (.ident "Item") (.index (.ident "Context") (.string "Item")),
      .ident "Item", .float x]
    let around : Surroundings := ⟨fun _ => "", fun _ => "", fun _ => 0⟩
    (∀ x, (e x).SelfContained) ∧ json.WellFormed ∧ (Value.ofJson json).Reordered context ∧
      (e 0.5).evalShuffled .backwards around context [] >>= Value.written =
        .ok (.array [.bool true, item, .float 0.5]) ∧
        (e (1.0 / 0.0)).evaluate around context >>= Value.written =
          .error (.notFinite (1.0 / 0.0)) ∧
          ∀ v fields, (e (1.0 / 0.0)).evaluate around (.ofJson json) = .ok v →
            (Value.object fields).Within v → (Value.object fields).Finite := by
  intro item json context e around
  have hambient : ∀ x, (e x).SelfContained := by
    intro x callee count f hmem _
    have hmentions : (e x).mentions = [.name "Item", .name "Context", .name "Item"] := rfl
    rw [hmentions] at hmem
    simp at hmem
  have leaf {P : Json → Prop} {j : Json} (hnone : j.parts = []) (here : P j) : j.Each P :=
    .whole here (by simp [hnone])
  have hitem : item.WellFormed := by
    apply Json.Each.whole (show ["a", "b"].Pairwise (· < ·) by decide)
    intro part hpart
    have hcases : part = .integer 1 ∨ part = .float 2.0 := by
      simpa [item, Json.parts] using hpart
    rcases hcases with rfl | rfl
    · exact leaf rfl (by decide)
    · exact leaf rfl (by decide)
  have hjson : json.WellFormed := by
    apply Json.Each.whole (show ["Item", "Total"].Pairwise (· < ·) by decide)
    intro part hpart
    have hcases : part = item ∨ part = .integer 3 := by
      simpa [json, Json.parts] using hpart
    rcases hcases with rfl | rfl
    · exact hitem
    · exact leaf rfl (by decide)
  have hcontext : (Value.ofJson json).Reordered context :=
    .of_perm (Value.keyed_ofJson json hjson) (List.Perm.swap _ _ _)
  obtain ⟨-, hhalf⟩ := objects_come_from_context (hambient 0.5) hjson around around
  obtain ⟨hobjects, hendless⟩ :=
    objects_come_from_context (hambient (1.0 / 0.0)) hjson around around
  refine ⟨hambient, hjson, hcontext, ?_, ?_, ?_⟩
  · rw [(hhalf context hcontext).2]
    rfl
  · rw [(hendless context hcontext).1]
    rfl
  · intro v fields hv hwithin
    exact (hobjects v fields hv hwithin).2

end Scriptlet
