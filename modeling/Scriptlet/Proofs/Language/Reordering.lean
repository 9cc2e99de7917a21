import Scriptlet.Proofs.Language.Objects

/-!
Values that are the same up to the order in which their objects hold their fields. No operator and
no function tells one from the other: a step leads to parts which are the same again up to order,
and whatever is not a part of an operand has no parts itself. Such values are also written alike, as
long as each object in them can be written; where one cannot, the order decides which of its floats
is reported.
-/

namespace Scriptlet

/-- The computations end with the same fault, or with values that are related. -/
inductive Parallel {α β : Type} (R : α → β → Prop) : Except Fault α → Except Fault β → Prop where
  | ok {a : α} {b : β} (h : R a b) : Parallel R (.ok a) (.ok b)
  | error (fault : Fault) : Parallel R (.error fault) (.error fault)

section

variable {α β γ δ : Type} {R : α → β → Prop} {S : γ → δ → Prop}
  {r : Except Fault α} {r' : Except Fault β}

theorem Parallel.bind {f : α → Except Fault γ} {f' : β → Except Fault δ} (h : Parallel R r r')
    (hf : ∀ a b, R a b → Parallel S (f a) (f' b)) : Parallel S (r >>= f) (r' >>= f') := by
  cases h with
  | ok hab => exact hf _ _ hab
  | error fault => exact .error fault

theorem Parallel.bind_eq {f : α → Except Fault γ} {f' : β → Except Fault γ} (h : Parallel R r r')
    (hf : ∀ a b, R a b → f a = f' b) : r >>= f = r' >>= f' := by
  cases h with
  | ok hab => exact hf _ _ hab
  | error fault => rfl

theorem parallel_refl (r : Except Fault α) : Parallel Eq r r := by
  cases r with
  | ok a => exact .ok rfl
  | error fault => exact .error fault

theorem isSome_rel {o : Option α} {o' : Option β} (h : Option.Rel R o o') :
    o.isSome = o'.isSome := by
  cases h <;> rfl

theorem exists_of_rel {o : Option α} {o' : Option β} (h : Option.Rel R o o') {a : α}
    (ha : o = some a) : ∃ b, o' = some b ∧ R a b := by
  cases h with
  | some hab =>
      obtain rfl := Option.some.inj ha
      exact ⟨_, rfl, hab⟩
  | none => cases ha

/-- Rows of related values have related values, or none, at each place. -/
theorem getElem?_rel {items : List α} {others : List β} (h : List.Forall₂ R items others)
    (i : Nat) : Option.Rel R items[i]? others[i]? := by
  induction h generalizing i with
  | nil => exact .none
  | cons hab _ ih =>
      cases i with
      | zero => exact .some hab
      | succ i => exact ih i

/-- What is related over a row between them. -/
theorem forall₂_trans {T : α → γ → Prop} {Q : β → γ → Prop} {xs : List α} {ys : List β}
    {zs : List γ} (h : List.Forall₂ R xs ys) (h' : List.Forall₂ Q ys zs)
    (hT : ∀ a b c, R a b → Q b c → T a c) : List.Forall₂ T xs zs := by
  induction h generalizing zs with
  | nil =>
      cases h'
      exact .nil
  | cons hab _ ih =>
      obtain _ | ⟨hbc, htail⟩ := h'
      exact .cons (hT _ _ _ hab hbc) (ih htail)

end

namespace Value

/-! ### Values with their fields in another order -/

theorem Keyed.same {v : Value} (hv : v.Keyed) : v.Same v := by
  induction v using of_parts with
  | step v ih =>
      cases v with
      | null => exact .null
      | bool b => exact .bool b
      | int n => exact .int n
      | float x => exact .float x
      | string s => exact .string s
      | list items =>
          have hitems := keyed_list_iff.mp hv
          exact .list (List.forall₂_same.mpr fun item hitem => ih item hitem (hitems item hitem))
      | object fields =>
          obtain ⟨hkeys, hfields⟩ := keyed_object_iff.mp hv
          apply Same.object (.refl _)
          intro key v w hv hw
          obtain rfl : v = w := congrArg Prod.snd (List.inj_on_of_nodup_map hkeys hv hw rfl)
          exact ih v (List.mem_map_of_mem hv) (hfields (key, v) hv)

theorem Same.symm {v w : Value} (h : v.Same w) : w.Same v := by
  induction v using of_parts generalizing w with
  | step v ih =>
      cases h with
      | null => exact .null
      | bool b => exact .bool b
      | int n => exact .int n
      | float x => exact .float x
      | string s => exact .string s
      | list each =>
          have hback := forall₂_of_mem each fun item hitem other h => ih item hitem h
          exact .list hback.flip
      | object keys each =>
          apply Same.object keys.symm
          intro key w v hw hv
          exact ih v (List.mem_map_of_mem hv) (each key v w hv hw)

theorem Same.trans {u v w : Value} (h : u.Same v) (h' : v.Same w) : u.Same w := by
  induction u using of_parts generalizing v w with
  | step u ih =>
      cases h with
      | list each =>
          cases h' with
          | list each' =>
              have hnext : List.Forall₂ (fun u v : Value => ∀ w, v.Same w → u.Same w) _ _ :=
                forall₂_of_mem each fun item hitem other h w h' => ih item hitem h h'
              exact .list (forall₂_trans hnext each' fun _ _ w h h' => h w h')
      | object keys each =>
          cases h' with
          | object keys' each' =>
              apply Same.object (keys.trans keys')
              intro key a c ha hc
              obtain ⟨⟨_, b⟩, hb, rfl⟩ := List.mem_map.mp (keys.mem_iff.mp (List.mem_map_of_mem ha))
              exact ih a (List.mem_map_of_mem ha) (each _ a b ha hb) (each' _ b c hb hc)
      | _ => exact h'

/-- The same value, in whatever order the objects of each hold their fields; no key is there
twice. -/
structure Reordered (v w : Value) : Prop where
  left : v.Keyed
  right : w.Keyed
  same : v.Same w

namespace Reordered

theorem refl {v : Value} (hv : v.Keyed) : v.Reordered v :=
  ⟨hv, hv, hv.same⟩

theorem symm {v w : Value} (h : v.Reordered w) : w.Reordered v :=
  ⟨h.right, h.left, h.same.symm⟩

theorem trans {u v w : Value} (h : u.Reordered v) (h' : v.Reordered w) : u.Reordered w :=
  ⟨h.left, h'.right, h.same.trans h'.same⟩

theorem list {items others : List Value} (h : List.Forall₂ Reordered items others) :
    (Value.list items).Reordered (.list others) where
  left := by
    apply keyed_list_iff.mpr
    intro item hitem
    obtain ⟨_, _, h⟩ := exists_of_mem_right h.flip hitem
    exact h.left
  right := by
    apply keyed_list_iff.mpr
    intro other hother
    obtain ⟨_, _, h⟩ := exists_of_mem_right h hother
    exact h.right
  same := .list (h.imp fun _ _ h => h.same)

theorem items {items others : List Value} (h : (Value.list items).Reordered (.list others)) :
    List.Forall₂ Reordered items others := by
  obtain ⟨hleft, hright, hsame⟩ := h
  rw [keyed_list_iff] at hleft hright
  cases hsame with
  | list each =>
      induction each with
      | nil => exact .nil
      | cons hsame _ ih =>
          obtain ⟨hitem, hitems⟩ := List.forall_mem_cons.mp hleft
          obtain ⟨hother, hothers⟩ := List.forall_mem_cons.mp hright
          exact .cons ⟨hitem, hother, hsame⟩ (ih hitems hothers)

theorem keys {fields others : List (String × Value)}
    (h : (Value.object fields).Reordered (.object others)) :
    (fields.map (·.1)).Perm (others.map (·.1)) := by
  cases h.same with
  | object keys each => exact keys

theorem of_perm {fields others : List (String × Value)} (h : (Value.object fields).Keyed)
    (hperm : fields.Perm others) : (Value.object fields).Reordered (.object others) := by
  obtain ⟨hkeys, hfields⟩ := keyed_object_iff.mp h
  refine ⟨h, keyed_object_iff.mpr ⟨(hperm.map _).nodup_iff.mp hkeys, ?_⟩, .object (hperm.map _) ?_⟩
  · intro f hf
    exact hfields f (hperm.mem_iff.mpr hf)
  · intro key v w hv hw
    have hw' : (key, w) ∈ fields := hperm.mem_iff.mpr hw
    obtain rfl : v = w := congrArg Prod.snd (List.inj_on_of_nodup_map hkeys hv hw' rfl)
    exact (hfields (key, v) hv).same

/-- A step leads to parts that are the same in another order, or in neither of the two to any. -/
theorem part? {v w : Value} (h : v.Reordered w) (step : Step) :
    Option.Rel Reordered (v.part? step) (w.part? step) := by
  obtain ⟨hv, hw, hsame⟩ := h
  cases hsame with
  | list each =>
      cases step with
      | item i => exact getElem?_rel (items ⟨hv, hw, .list each⟩) i
      | field key => exact .none
  | @object fields others keys each =>
      cases step with
      | item i => exact .none
      | field key =>
          have hpart : (Value.object fields).part? (.field key) = fields.lookup key := rfl
          have hpart' : (Value.object others).part? (.field key) = others.lookup key := rfl
          obtain ⟨hkeys, hfields⟩ := keyed_object_iff.mp hv
          obtain ⟨hkeys', hothers⟩ := keyed_object_iff.mp hw
          rw [hpart, hpart']
          cases hp : fields.lookup key with
          | none =>
              have hkey := keys.mem_iff.not.mp (lookup_eq_none_iff_not_mem.mp hp)
              rw [lookup_eq_none_iff_not_mem.mpr hkey]
              exact .none
          | some p =>
              have hmem := (lookup_eq_some_iff_mem hkeys).mp hp
              obtain ⟨⟨_, q⟩, hmem', rfl⟩ :=
                List.mem_map.mp (keys.mem_iff.mp (List.mem_map_of_mem hmem))
              rw [(lookup_eq_some_iff_mem hkeys').mpr hmem']
              exact .some ⟨hfields _ hmem, hothers _ hmem', each _ p q hmem hmem'⟩
  | _ => exact .none

theorem kind_eq {v w : Value} (h : v.Reordered w) : v.kind = w.kind := by
  cases h.same <;> rfl

theorem number?_eq {v w : Value} (h : v.Reordered w) : v.number? = w.number? := by
  cases h.same <;> rfl

theorem eq_of_leaf {v w : Value} (h : v.Reordered w) (hleaf : v.isCollection = false) : v = w := by
  cases h.same with
  | list each => cases hleaf
  | object keys each => cases hleaf
  | _ => rfl

theorem sameShape {v w : Value} (h : v.Reordered w) : SameShape v w where
  left := h.kind_eq
  right step := isSome_rel (h.part? step)

/-! ### Operators -/

theorem looselyEquals_of (a : Value) : ∀ {a' b b' : Value}, a.Reordered a' → b.Reordered b' →
    a.looselyEquals b = true → a'.looselyEquals b' = true := by
  induction a using of_parts with
  | step a ih =>
      intro a' b b' ha hb h
      cases hcollection : a.isCollection with
      | false =>
          obtain rfl := ha.eq_of_leaf hcollection
          cases hcollection' : b.isCollection with
          | false =>
              obtain rfl := hb.eq_of_leaf hcollection'
              exact h
          | true =>
              rw [looselyEquals_comm_of_leaf hcollection] at h
              obtain ⟨hshape, -⟩ := (looselyEquals_iff_parts hb.left ha.left hcollection').mp h
              rw [← hshape.isCollection, hcollection] at hcollection'
              cases hcollection'
      | true =>
          obtain ⟨hshape, hequal⟩ := (looselyEquals_iff_parts ha.left hb.left hcollection).mp h
          have hcollection' := ha.sameShape.isCollection.trans hcollection
          apply (looselyEquals_iff_parts ha.right hb.right hcollection').mpr
          refine ⟨ha.sameShape.symm.trans (hshape.trans hb.sameShape), ?_⟩
          intro step p' q' hp' hq'
          -- the step is one of the values in the first order too, where the parts are equal
          obtain ⟨p, hp, hsame⟩ := exists_of_rel (ha.symm.part? step) hp'
          obtain ⟨q, hq, hsame'⟩ := exists_of_rel (hb.symm.part? step) hq'
          exact ih p (mem_parts_of_part? hp) hsame.symm hsame'.symm (hequal step p q hp hq)

variable {v v' w w' : Value}

theorem looselyEquals_eq (hv : v.Reordered v') (hw : w.Reordered w') :
    v.looselyEquals w = v'.looselyEquals w' := by
  rw [Bool.eq_iff_iff]
  exact ⟨looselyEquals_of v hv hw, looselyEquals_of v' hv.symm hw.symm⟩

theorem displayItems_eq {items others : List Value}
    (h : List.Forall₂ (fun v w => v.display = w.display) items others) :
    displayItems items = displayItems others := by
  induction h with
  | nil => rfl
  | cons hhead htail ih =>
      cases htail with
      | nil => exact hhead
      | cons _ _ =>
          change _ ++ ", " ++ displayItems (_ :: _) = _ ++ ", " ++ displayItems (_ :: _)
          rw [hhead, ih]

theorem display_eq (v : Value) : ∀ {w : Value}, v.Reordered w → v.display = w.display := by
  induction v using of_parts with
  | step v ih =>
      intro w h
      cases h.same with
      | @list items others each =>
          have hitems := forall₂_of_mem h.items fun item hitem other h => ih item hitem h
          rw [display, display, displayItems_eq hitems]
      | object keys each => rfl
      | _ => rfl

theorem asBool_eq (op : BinaryOp) (h : v.Reordered w) : v.asBool op = w.asBool op := by
  cases h.same <;> rfl

theorem applyUnary_eq (op : UnaryOp) (h : v.Reordered w) : applyUnary op v = applyUnary op w := by
  cases h.same with
  | list each => cases op <;> rfl
  | object keys each => cases op <;> rfl
  | _ => rfl

theorem arithmetic_eq (op : BinaryOp) (hv : v.Reordered v') (hw : w.Reordered w') :
    arithmetic op v w = arithmetic op v' w' := by
  cases hv.same <;> cases hw.same <;> rfl

theorem order_eq (op : BinaryOp) (hv : v.Reordered v') (hw : w.Reordered w') :
    order op v w = order op v' w' := by
  cases hv.same <;> cases hw.same <;> rfl

theorem applyStrict_eq (op : BinaryOp) (hv : v.Reordered v') (hw : w.Reordered w') :
    applyStrict op v w = applyStrict op v' w' := by
  have hequal := hv.looselyEquals_eq hw
  have horder (op : BinaryOp) := hv.order_eq op hw
  have harithmetic (op : BinaryOp) := hv.arithmetic_eq op hw
  have hdisplay := display_eq v hv
  have hdisplay' := display_eq w hw
  cases op with
  | add =>
      cases hv.same with
      | string a => exact congrArg (fun text => Except.ok (Value.string (a ++ text))) hdisplay'
      | _ =>
          cases hw.same with
          | string b => exact congrArg (fun text => Except.ok (Value.string (text ++ b))) hdisplay
          | _ => exact harithmetic .add
  | eq | ne => simp only [applyStrict, hequal]
  | lt | le | gt | ge => simp only [applyStrict, horder]
  | _ => exact harithmetic _

theorem leaf (hleaf : v.isCollection = false) : v.Reordered v :=
  refl (keyed_of_leaf hleaf)

theorem parallel_of_leaf {r : Except Fault Value} (h : Yields IsLeaf r) :
    Parallel Reordered r r := by
  cases r with
  | ok v => exact .ok (leaf (h.of_ok rfl))
  | error fault => exact .error fault

theorem eq_of_parallel {r r' : Except Fault Value} (h : Parallel Reordered r r')
    (hleaf : Yields IsLeaf r) : r = r' := by
  cases h with
  | ok hvw => rw [hvw.eq_of_leaf (hleaf.of_ok rfl)]
  | error fault => rfl

theorem parallel_part (fault : Fault) : ∀ {o o' : Option Value}, Option.Rel Reordered o o' →
    Parallel Reordered (match o with | some part => .ok part | none => .error fault)
      (match o' with | some part => .ok part | none => .error fault)
  | _, _, .some h => .ok h
  | _, _, .none => .error fault

theorem member (h : v.Reordered w) (property : String) :
    Parallel Reordered (v.member property) (w.member property) := by
  cases h.same with
  | string s =>
      rw [Value.member]
      split
      · exact .ok (leaf rfl)
      · exact .error _
  | list each =>
      rw [Value.member, Value.member, each.length_eq]
      split
      · exact .ok (leaf rfl)
      · exact .error _
  | object keys each => exact parallel_part _ (h.part? (.field property))
  | _ => exact .error _

theorem index (hv : v.Reordered v') (hw : w.Reordered w') :
    Parallel Reordered (v.index w) (v'.index w') := by
  cases hv.same with
  | @list items others each =>
      cases hw.same with
      | int i =>
          rw [Value.index, Value.index, nth?, nth?, each.length_eq]
          by_cases hi : 0 ≤ i.toInt
          · rw [if_pos hi, if_pos hi]
            exact parallel_part _ (getElem?_rel hv.items _)
          · rw [if_neg hi, if_neg hi]
            exact .error _
      | _ => exact .error _
  | string s =>
      cases hw.same with
      | int i =>
          rw [Value.index]
          cases nth? s.toList i with
          | some c => exact .ok (leaf rfl)
          | none => exact .error _
      | _ => exact .error _
  | object keys each =>
      cases hw.same with
      | string key => exact parallel_part _ (hv.part? (.field key))
      | _ => exact .error _
  | _ => cases hw.same <;> exact .error _

end Reordered

end Value

/-! ### Functions -/

namespace Builtin

open Value (Reordered IsLeaf)

variable {args others : List Value}

theorem argument_parallel (h : List.Forall₂ Reordered args others) (position : Nat) (f : Builtin) :
    Parallel Reordered (argument args position f) (argument others position f) :=
  Reordered.parallel_part _ (getElem?_rel h position)

theorem numberArgument_reordered (h : List.Forall₂ Reordered args others) (position : Nat)
    (f : Builtin) :
    numberArgument args position f = numberArgument others position f := by
  apply (argument_parallel h position f).bind_eq
  intro v w hvw
  rw [hvw.number?_eq, hvw.kind_eq]

theorem stringArgument_reordered (h : List.Forall₂ Reordered args others) (position : Nat)
    (f : Builtin) :
    stringArgument args position f = stringArgument others position f := by
  apply (argument_parallel h position f).bind_eq
  intro v w hvw
  cases hvw.same <;> rfl

theorem listArgument_parallel (h : List.Forall₂ Reordered args others) (position : Nat)
    (f : Builtin) : Parallel (List.Forall₂ Reordered) (listArgument args position f)
      (listArgument others position f) := by
  apply (argument_parallel h position f).bind
  intro v w hvw
  cases hvw.same with
  | list each => exact .ok hvw.items
  | _ => exact .error _

theorem abs_reordered (h : List.Forall₂ Reordered args others) : abs args = abs others := by
  apply (argument_parallel h 0 .mathAbs).bind_eq
  intro v w hvw
  rw [numberArgument_reordered h]
  cases hvw.same <;> rfl

theorem integral_reordered (h : List.Forall₂ Reordered args others) (f : Builtin)
    (rounding : Float → Float) : integral args f rounding = integral others f rounding := by
  apply (argument_parallel h 0 f).bind_eq
  intro v w hvw
  rw [numberArgument_reordered h]
  cases hvw.same <;> rfl

theorem round_reordered (h : List.Forall₂ Reordered args others) : round args = round others := by
  rw [round, round, numberArgument_reordered h, integral_reordered h, h.length_eq]
  apply bind_congr
  intro x
  split
  · rfl
  · apply (argument_parallel h 1 _).bind_eq
    intro v w hvw
    cases hvw.same <;> rfl

theorem pick_parallel (h : List.Forall₂ Reordered args others) (f : Builtin)
    (keepFirst : Float → Float → Bool) :
    Parallel Reordered (pick args f keepFirst) (pick others f keepFirst) := by
  rw [pick, pick, numberArgument_reordered h, numberArgument_reordered h]
  apply (parallel_refl _).bind
  rintro a _ rfl
  apply (parallel_refl _).bind
  rintro b _ rfl
  split
  · exact argument_parallel h 0 f
  · exact argument_parallel h 1 f

theorem pick_reordered (h : List.Forall₂ Reordered args others) (f : Builtin)
    (keepFirst : Float → Float → Bool) : pick args f keepFirst = pick others f keepFirst :=
  Reordered.eq_of_parallel (pick_parallel h f keepFirst) (pick_leaf args f keepFirst)

theorem relate_reordered (h : List.Forall₂ Reordered args others) (f : Builtin)
    (holds : String → String → Bool) : relate args f holds = relate others f holds := by
  rw [relate, relate, stringArgument_reordered h, stringArgument_reordered h]

theorem isNullOrEmpty_reordered (h : List.Forall₂ Reordered args others) :
    isNullOrEmpty args = isNullOrEmpty others := by
  apply (argument_parallel h 0 _).bind_eq
  intro v w hvw
  rw [stringArgument_reordered h]
  cases hvw.same <;> rfl

theorem map_display_reordered (h : List.Forall₂ Reordered args others) :
    args.map Value.display = others.map Value.display := by
  induction h with
  | nil => rfl
  | cons hvw _ ih => rw [List.map_cons, List.map_cons, Reordered.display_eq _ hvw, ih]

theorem join_reordered (h : List.Forall₂ Reordered args others) : join args = join others := by
  rw [join, join, stringArgument_reordered h]
  apply bind_congr
  intro separator
  apply (listArgument_parallel h 1 _).bind_eq
  intro items items' hitems
  rw [map_display_reordered hitems]

theorem concat_reordered (h : List.Forall₂ Reordered args others) :
    concat args = concat others := by
  rw [concat, concat, map_display_reordered h]

theorem count_reordered (h : List.Forall₂ Reordered args others) : count args = count others := by
  apply (listArgument_parallel h 0 _).bind_eq
  intro items items' hitems
  rw [hitems.length_eq]

theorem addItem_reordered (total : Value) {v w : Value} (h : v.Reordered w) :
    addItem total v = addItem total w := by
  cases total <;> cases h.same <;> rfl

theorem addItems_reordered {items items' : List Value} (h : List.Forall₂ Reordered items items')
    (total : Value) : items.foldlM addItem total = items'.foldlM addItem total := by
  induction h generalizing total with
  | nil => rfl
  | cons hvw _ ih =>
      rw [List.foldlM_cons, List.foldlM_cons, addItem_reordered total hvw]
      exact bind_congr ih

theorem sum_reordered (h : List.Forall₂ Reordered args others) : sum args = sum others := by
  apply (listArgument_parallel h 0 _).bind_eq
  intro items items' hitems
  exact addItems_reordered hitems (.int 0)

theorem any_looselyEquals_reordered {items items' : List Value}
    (h : List.Forall₂ Reordered items items')
    {wanted wanted' : Value} (hwanted : wanted.Reordered wanted') :
    (items.any fun item => item.looselyEquals wanted) =
      items'.any fun item => item.looselyEquals wanted' := by
  induction h with
  | nil => rfl
  | cons hvw _ ih => rw [List.any_cons, List.any_cons, hvw.looselyEquals_eq hwanted, ih]

theorem contains_reordered (h : List.Forall₂ Reordered args others) :
    contains args = contains others := by
  apply (listArgument_parallel h 0 _).bind_eq
  intro items items' hitems
  apply (argument_parallel h 1 _).bind_eq
  intro wanted wanted' hwanted
  rw [any_looselyEquals_reordered hitems hwanted]

/-- A function does not tell arguments from the same in another order. -/
theorem call_reordered (around : Surroundings) (site : Site) (f : Builtin)
    (h : List.Forall₂ Reordered args others) :
    f.call around site args = f.call around site others := by
  cases f with
  | mathAbs => exact abs_reordered h
  | mathFloor | mathCeiling => exact integral_reordered h _ _
  | mathRound => exact round_reordered h
  | mathMin | mathMax => exact pick_reordered h _ _
  | mathPow => rw [call, call, pow, pow, numberArgument_reordered h, numberArgument_reordered h]
  | mathSqrt => rw [call, call, sqrt, sqrt, numberArgument_reordered h]
  | stringToUpper => rw [call, call, toUpper, toUpper, stringArgument_reordered h]
  | stringToLower => rw [call, call, toLower, toLower, stringArgument_reordered h]
  | stringTrim => rw [call, call, trim, trim, stringArgument_reordered h]
  | stringContains | stringStartsWith | stringEndsWith => exact relate_reordered h _ _
  | stringIsNullOrEmpty => exact isNullOrEmpty_reordered h
  | stringJoin => exact join_reordered h
  | stringConcat => exact concat_reordered h
  | listCount => exact count_reordered h
  | listSum => exact sum_reordered h
  | listContains => exact contains_reordered h
  | guidNewGuid | dateTimeUtcNow | dateTimeUnixMillis => rfl

end Builtin

namespace Value

/-! ### Writing -/

open Json (Ascending)

theorem itemsToJson_eq {items others : List Value}
    (h : List.Forall₂ (fun v w => v.toJson = w.toJson) items others) :
    itemsToJson items = itemsToJson others := by
  induction h with
  | nil => rfl
  | cons hhead _ ih => rw [itemsToJson, itemsToJson, hhead, ih]

section

variable {fields others : List (String × Value)}

theorem mem_sorted {sorted sorted' : List (String × Json)}
    (hkeys : (fields.map (·.1)).Perm (others.map (·.1)))
    (hsorted : (sorted'.map (·.1)).Perm (others.map (·.1)))
    (hwritten : ∀ g ∈ sorted, ∃ v, (g.1, v) ∈ fields ∧ v.toJson = .ok g.2)
    (hwritten' : ∀ g ∈ sorted', ∃ w, (g.1, w) ∈ others ∧ w.toJson = .ok g.2)
    (hsame : ∀ key v w, (key, v) ∈ fields → (key, w) ∈ others → v.toJson = w.toJson)
    {g : String × Json} (hg : g ∈ sorted) : g ∈ sorted' := by
  obtain ⟨v, hv, hj⟩ := hwritten g hg
  have hkey := hsorted.mem_iff.mpr (hkeys.mem_iff.mp (List.mem_map_of_mem hv))
  obtain ⟨g', hg', heq⟩ := List.mem_map.mp hkey
  obtain ⟨w, hw, hj'⟩ := hwritten' g' hg'
  have hboth := hsame g.1 v w hv (heq ▸ hw)
  rw [hj, hj'] at hboth
  have hgg' : g = g' := Prod.ext heq.symm (Except.ok.inj hboth)
  rwa [hgg']

/-- Where all fields are written, their order does not matter: the form is sorted again. -/
theorem object_toJson_eq (h : (object fields).Reordered (object others))
    (hfinite : (object fields).Finite)
    (hsame : ∀ key v w, (key, v) ∈ fields → (key, w) ∈ others → v.toJson = w.toJson) :
    (object fields).toJson = (object others).toJson := by
  have hkeys := h.keys
  have hfinite' : (object others).Finite := by
    refine each_iff.mpr ⟨trivial, List.forall_mem_map.mpr ?_⟩
    intro f hf
    obtain ⟨g, hg, heq⟩ := List.mem_map.mp (hkeys.mem_iff.mpr (List.mem_map_of_mem hf))
    have hpart := (each_iff.mp hfinite).2 g.2 (List.mem_map_of_mem hg)
    apply (toJson_ok_iff_finite f.2).mp
    rw [← hsame f.1 g.2 f.2 (heq ▸ hg) hf]
    exact (toJson_ok_iff_finite g.2).mpr hpart
  obtain ⟨j, hj⟩ := (toJson_ok_iff_finite _).mpr hfinite
  obtain ⟨j', hj'⟩ := (toJson_ok_iff_finite _).mpr hfinite'
  obtain ⟨sorted, rfl, hsorted, hascending, hwritten⟩ :=
    object_toJson (keyed_object_iff.mp h.left).1 hj
  obtain ⟨sorted', rfl, hsorted', hascending', hwritten'⟩ :=
    object_toJson (keyed_object_iff.mp h.right).1 hj'
  have hmem : ∀ g, g ∈ sorted ↔ g ∈ sorted' := by
    intro g
    constructor
    · exact mem_sorted hkeys hsorted' hwritten hwritten' hsame
    · apply mem_sorted hkeys.symm hsorted hwritten' hwritten
      intro key w v hw hv
      exact (hsame key v w hv hw).symm
  have hne : ∀ f g : String × Json, f.1 < g.1 → f ≠ g := fun f g hlt heq =>
    absurd (heq ▸ hlt) (lt_irrefl _)
  have hperm : sorted.Perm sorted' :=
    (List.perm_ext_iff_of_nodup (hascending.imp (hne _ _)) (hascending'.imp (hne _ _))).mpr hmem
  rw [hj, hj', hperm.eq_of_pairwise (fun f g _ _ hlt hgt => absurd hgt (lt_asymm hlt)) hascending
    hascending']

end

/-- A value in which no object holds a float that is not finite is written the same in any order.
Its lists may hold such floats; they are in order, so the first of them is the same. -/
theorem Reordered.toJson_eq (v : Value) : ∀ {w : Value}, v.Reordered w →
    (∀ fields, (object fields).Within v → (object fields).Finite) → v.toJson = w.toJson := by
  induction v using of_parts with
  | step v ih =>
      intro w h hobjects
      cases h.same with
      | @list items others each =>
          have hitems : itemsToJson items = itemsToJson others := by
            apply itemsToJson_eq
            apply forall₂_of_mem h.items
            intro item hitem other hsame
            apply ih item hitem hsame
            intro fields hfields
            exact hobjects fields (.inside hitem hfields)
          rw [toJson, toJson, hitems]
      | @object fields others keys each =>
          apply object_toJson_eq h (hobjects fields (.whole _))
          intro key p q hp hq
          have hpart : p ∈ (object fields).parts := List.mem_map_of_mem hp
          have hkeyed := (keyed_object_iff.mp h.left).2 (key, p) hp
          have hkeyed' := (keyed_object_iff.mp h.right).2 (key, q) hq
          apply ih p hpart ⟨hkeyed, hkeyed', each key p q hp hq⟩
          intro fields' hfields
          exact hobjects fields' (.inside hpart hfields)
      | _ => rfl

end Value

end Scriptlet
