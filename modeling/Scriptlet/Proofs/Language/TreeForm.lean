import Scriptlet.Expr.Json
import Scriptlet.Proofs.Grammar.Building
import Scriptlet.Proofs.Tables
import Scriptlet.Proofs.Values.Interchange

/-!
The JSON form of an expression and the expression are inverse to each other, except for floats that
are not finite: such a literal is written as null, which is no number, and then nothing is read back
of the whole tree, however deep the literal is in it.

A JSON value keeps the fields of its objects in some order that means nothing, and the one in which
the form is read need not be the one in which it was written. So two things are shown: that reading
does not depend on the order of fields, on any JSON value, and that what was just written reads
back.
-/

namespace Scriptlet

namespace Json

/-- No object in the JSON value has two fields of one key. -/
def Keyed (j : Json) : Prop :=
  j.Each fun
    | .object fields => (fields.map (·.1)).Nodup
    | _ => True

/-- The same JSON value, in whatever order its objects hold their fields. -/
inductive Same : Json → Json → Prop where
  | null : Same .null .null
  | bool (b : Bool) : Same (.bool b) (.bool b)
  | integer (n : Int) : Same (.integer n) (.integer n)
  | float (x : Float) : Same (.float x) (.float x)
  | string (s : String) : Same (.string s) (.string s)
  | array {items others : List Json} (each : List.Forall₂ Same items others) :
      Same (.array items) (.array others)
  | object {fields others : List (String × Json)}
      (keys : (fields.map (·.1)).Perm (others.map (·.1)))
      (each : ∀ key v w, (key, v) ∈ fields → (key, w) ∈ others → Same v w) :
      Same (.object fields) (.object others)

theorem Keyed.nodup {fields : List (String × Json)} (h : (Json.object fields).Keyed) :
    (fields.map (·.1)).Nodup :=
  h.here

theorem Keyed.field {fields : List (String × Json)} (h : (Json.object fields).Keyed) {key : String}
    {j : Json} (hj : (key, j) ∈ fields) : j.Keyed :=
  h.part (List.mem_map_of_mem hj)

theorem Same.refl {j : Json} (hj : j.Keyed) : j.Same j := by
  induction j using of_parts with
  | step j ih =>
      cases j with
      | null => exact .null
      | bool b => exact .bool b
      | integer n => exact .integer n
      | float x => exact .float x
      | string s => exact .string s
      | array items =>
          exact .array (List.forall₂_same.mpr fun item hitem => ih item hitem (hj.part hitem))
      | object fields =>
          apply Same.object (.refl _)
          intro key v w hv hw
          obtain rfl : v = w := congrArg Prod.snd (List.inj_on_of_nodup_map hj.nodup hv hw rfl)
          exact ih v (List.mem_map_of_mem hv) (hj.field hv)

theorem Same.symm {j k : Json} (h : j.Same k) : k.Same j := by
  induction j using of_parts generalizing k with
  | step j ih =>
      cases h with
      | null => exact .null
      | bool b => exact .bool b
      | integer n => exact .integer n
      | float x => exact .float x
      | string s => exact .string s
      | array each =>
          have hback := Value.forall₂_of_mem each fun item hitem other h => ih item hitem h
          exact .array hback.flip
      | object keys each =>
          apply Same.object keys.symm
          intro key w v hw hv
          exact ih v (List.mem_map_of_mem hv) (each key v w hv hw)

theorem Same.single {key : String} {v : Json} {others : List (String × Json)}
    (h : (Json.object [(key, v)]).Same (.object others)) : ∃ w, others = [(key, w)] ∧ v.Same w := by
  cases h with
  | object keys each =>
      obtain ⟨⟨_, w⟩, rfl, rfl⟩ := List.map_eq_singleton_iff.mp (List.singleton_perm.mp keys).symm
      exact ⟨w, rfl, each _ v w List.mem_cons_self List.mem_cons_self⟩

theorem Same.eq_of_empty {w : Json} (h : (Json.object []).Same w) : w = .object [] := by
  cases h with
  | object keys _ =>
      rw [List.map_eq_nil_iff.mp (List.nil_perm.mp keys)]

theorem keyed_object {fields : List (String × Json)} (hkeys : (fields.map (·.1)).Nodup)
    (hfields : ∀ f ∈ fields, f.2.Keyed) : (Json.object fields).Keyed :=
  .whole hkeys (List.forall_mem_map.mpr hfields)

@[simp] theorem keyed_null : Json.null.Keyed :=
  .whole trivial (by simp [parts])

@[simp] theorem keyed_bool (b : Bool) : (Json.bool b).Keyed :=
  .whole trivial (by simp [parts])

@[simp] theorem keyed_integer (n : Int) : (Json.integer n).Keyed :=
  .whole trivial (by simp [parts])

@[simp] theorem keyed_float (x : Float) : (Json.float x).Keyed :=
  .whole trivial (by simp [parts])

@[simp] theorem keyed_string (s : String) : (Json.string s).Keyed :=
  .whole trivial (by simp [parts])

theorem Same.of_perm {fields others : List (String × Json)} (h : (Json.object fields).Keyed)
    (hperm : fields.Perm others) : (Json.object fields).Same (.object others) := by
  apply Same.object (hperm.map _)
  intro key v w hv hw
  have hw' : (key, w) ∈ fields := hperm.mem_iff.mpr hw
  obtain rfl : v = w := congrArg Prod.snd (List.inj_on_of_nodup_map h.nodup hv hw' rfl)
  exact Same.refl (h.field hv)

/-- The fields of a key in the two objects, when there are any. -/
theorem Same.lookup {fields others : List (String × Json)}
    (h : (Json.object fields).Same (.object others))
    (hfields : (Json.object fields).Keyed) (hothers : (Json.object others).Keyed) (key : String) :
    (fields.lookup key = none ∧ others.lookup key = none) ∨
      ∃ v w, fields.lookup key = some v ∧ others.lookup key = some w ∧
        (key, v) ∈ fields ∧ (key, w) ∈ others ∧ v.Same w := by
  cases h with
  | object keys each =>
      by_cases hkey : key ∈ fields.map (·.1)
      · obtain ⟨⟨_, v⟩, hv, rfl⟩ := List.mem_map.mp hkey
        obtain ⟨⟨_, w⟩, hw, rfl⟩ := List.mem_map.mp (keys.mem_iff.mp hkey)
        exact .inr ⟨v, w, (lookup_eq_some_iff_mem hfields.nodup).mpr hv,
          (lookup_eq_some_iff_mem hothers.nodup).mpr hw, hv, hw, each _ v w hv hw⟩
      · have hkey' := keys.mem_iff.not.mp hkey
        exact .inl ⟨lookup_eq_none_iff_not_mem.mpr hkey, lookup_eq_none_iff_not_mem.mpr hkey'⟩

end Json

namespace Expr

/-- No float literal in the tree is infinite or NaN. -/
def Finite (e : Expr) : Prop :=
  e.Each fun
    | .float x => x.isFinite = true
    | _ => True

/-! ### Reading in another order -/

/-- The two are read as the same, whatever they are read as. -/
structure Part.Agree (p q : Part) : Prop where
  bool : p.bool? = q.bool?
  string : p.string? = q.string?
  int : p.int? = q.int?
  float : p.float? = q.float?
  opName : p.opName? = q.opName?
  expr : p.expr = q.expr
  items : p.items = q.items

theorem Part.Agree.refl (p : Part) : p.Agree p :=
  ⟨rfl, rfl, rfl, rfl, rfl, rfl, rfl⟩

theorem Part.Agree.symm {p q : Part} (h : p.Agree q) : q.Agree p :=
  ⟨h.bool.symm, h.string.symm, h.int.symm, h.float.symm, h.opName.symm, h.expr.symm, h.items.symm⟩

/-- A node is made of its parts as they are read. -/
theorem assemble_of_agree {ps qs : List Part} (h : List.Forall₂ Part.Agree ps qs) {kind : String}
    {e : Expr} (he : assemble kind ps = some e) : assemble kind qs = some e := by
  unfold assemble at he
  split at he
  · obtain _ | _ := h
    exact he
  · obtain _ | ⟨hv, _ | _⟩ := h
    rwa [hv.bool] at he
  · obtain _ | ⟨hv, _ | _⟩ := h
    rwa [hv.int] at he
  · obtain _ | ⟨hv, _ | _⟩ := h
    rwa [hv.float] at he
  · obtain _ | ⟨hv, _ | _⟩ := h
    rwa [hv.string] at he
  · obtain _ | ⟨hitems, _ | _⟩ := h
    rwa [hitems.items] at he
  · obtain _ | ⟨hname, _ | _⟩ := h
    rwa [hname.string] at he
  · obtain _ | ⟨hobject, _ | ⟨hproperty, _ | _⟩⟩ := h
    rwa [hobject.expr, hproperty.string] at he
  · obtain _ | ⟨hobject, _ | ⟨hkey, _ | _⟩⟩ := h
    rwa [hobject.expr, hkey.expr] at he
  · obtain _ | ⟨hcallee, _ | ⟨hargs, _ | _⟩⟩ := h
    rwa [hcallee.expr, hargs.items] at he
  · obtain _ | ⟨hop, _ | ⟨hoperand, _ | _⟩⟩ := h
    rwa [hop.opName, hoperand.expr] at he
  · obtain _ | ⟨hop, _ | ⟨hleft, _ | ⟨hright, _ | _⟩⟩⟩ := h
    rwa [hop.opName, hleft.expr, hright.expr] at he
  · obtain _ | ⟨htest, _ | ⟨hthen, _ | ⟨helse, _ | _⟩⟩⟩ := h
    rwa [htest.expr, hthen.expr, helse.expr] at he
  · cases he

theorem assemble_congr {ps qs : List Part} (h : List.Forall₂ Part.Agree ps qs) (kind : String) :
    assemble kind ps = assemble kind qs := by
  have hback : List.Forall₂ Part.Agree qs ps := (h.imp fun p q hpq => hpq.symm).flip
  apply Option.ext
  intro e
  exact ⟨assemble_of_agree h, assemble_of_agree hback⟩

theorem readItems_eq (items : List Json) : readItems items = items.map readPart := by
  induction items with
  | nil => rfl
  | cons item more ih => rw [readItems, ih, List.map_cons]

theorem readFields_lookup (fields : List (String × Json)) (key : String) :
    (readFields fields).lookup key = (fields.lookup key).map readPart := by
  induction fields with
  | nil => rfl
  | cons field more ih =>
      rw [readFields, List.lookup_cons, List.lookup_cons, ih]
      cases key == field.1 <;> rfl

theorem mapM_expr_congr {ps qs : List Part} (h : List.Forall₂ Part.Agree ps qs) :
    ps.mapM (·.expr) = qs.mapM (·.expr) := by
  induction h with
  | nil => rfl
  | cons hpq _ ih => rw [List.mapM_cons, List.mapM_cons, hpq.expr, ih]

/-- The two nodes have the same fields, and those of one key are read as the same. -/
def FieldsAgree (fields others : List (String × Part)) : Prop :=
  ∀ key, (fields.lookup key = none ∧ others.lookup key = none) ∨
    ∃ p q, fields.lookup key = some p ∧ others.lookup key = some q ∧ p.Agree q

theorem FieldsAgree.mapM_lookup {fields others : List (String × Part)}
    (h : FieldsAgree fields others) (names : List String) :
    (names.mapM (fields.lookup ·) = none ∧ names.mapM (others.lookup ·) = none) ∨
      ∃ ps qs, names.mapM (fields.lookup ·) = some ps ∧ names.mapM (others.lookup ·) = some qs ∧
        List.Forall₂ Part.Agree ps qs := by
  induction names with
  | nil => exact .inr ⟨[], [], rfl, rfl, .nil⟩
  | cons name names ih =>
      simp only [List.mapM_cons]
      rcases h name with ⟨hp, hq⟩ | ⟨p, q, hp, hq, hpq⟩
      · exact .inl ⟨by rw [hp]; rfl, by rw [hq]; rfl⟩
      · rcases ih with ⟨hps, hqs⟩ | ⟨ps, qs, hps, hqs, hall⟩
        · exact .inl ⟨by rw [hp, hps]; rfl, by rw [hq, hqs]; rfl⟩
        · exact .inr ⟨p :: ps, q :: qs, by rw [hp, hps]; rfl, by rw [hq, hqs]; rfl, .cons hpq hall⟩

theorem FieldsAgree.ofFields_eq {fields others : List (String × Part)}
    (h : FieldsAgree fields others) : ofFields fields = ofFields others := by
  have hkind : (fields.lookup "type" >>= Part.string?) =
      (others.lookup "type" >>= Part.string?) := by
    rcases h "type" with ⟨hp, hq⟩ | ⟨p, q, hp, hq, hpq⟩
    · rw [hp, hq]
    · rw [hp, hq]
      exact hpq.string
  have hparts (kind : String) (names : List String) :
      (do assemble kind (← names.mapM (fields.lookup ·))) =
        (do assemble kind (← names.mapM (others.lookup ·))) := by
    rcases h.mapM_lookup names with ⟨hps, hqs⟩ | ⟨ps, qs, hps, hqs, hall⟩
    · rw [hps, hqs]
    · rw [hps, hqs]
      exact assemble_congr hall kind
  simp only [ofFields, hkind, hparts]

/-- A row of parts is read as a node, the first of them as its kind. -/
theorem ofRow_congr {ps qs : List Part} (h : List.Forall₂ Part.Agree ps qs) :
    ofRow ps = ofRow qs := by
  cases h with
  | nil => rfl
  | cons hkind hparts =>
      rw [ofRow, ofRow, hkind.string]
      exact congrArg (_ >>= ·) (funext (assemble_congr hparts))

/-- An operator that is given as an object of one field. -/
theorem opName?_of_same {fields others : List (String × Json)} {p q : Part} {name : String}
    (h : (Json.object fields).Same (.object others)) (hp : p.json = .object fields)
    (hq : q.json = .object others) (hname : p.opName? = some name) : q.opName? = some name := by
  unfold Part.opName? at hname ⊢
  rw [hp] at hname
  rw [hq]
  split at hname
  · next heq => cases heq
  · next heq =>
      obtain rfl := Json.object.inj heq
      obtain ⟨w, rfl, hw⟩ := h.single
      cases hw
      exact hname
  · next heq =>
      obtain rfl := Json.object.inj heq
      obtain ⟨w, rfl, hw⟩ := h.single
      rw [hw.eq_of_empty]
      exact hname
  · cases hname

/-- What a JSON value is read as does not depend on the order of fields. -/
theorem readPart_agree {j k : Json} (hj : j.Keyed) (hk : k.Keyed) (h : j.Same k) :
    (readPart j).Agree (readPart k) := by
  induction j using Json.of_parts generalizing k with
  | step j ih =>
      have hall := h
      cases h with
      | null | bool b | integer n | float x | string s => exact .refl _
      | @array items others each =>
          have hitems : List.Forall₂ (fun j k => (readPart j).Agree (readPart k)) items others := by
            rw [List.forall₂_iff_get] at each ⊢
            refine ⟨each.1, ?_⟩
            intro i hi hi'
            exact ih _ (List.get_mem _ _) (hj.part (List.get_mem _ _)) (hk.part (List.get_mem _ _))
              (each.2 i hi hi')
          have hparts : List.Forall₂ Part.Agree (readItems items) (readItems others) := by
            rwa [readItems_eq, readItems_eq, List.forall₂_map_left_iff, List.forall₂_map_right_iff]
          exact ⟨rfl, rfl, rfl, rfl, rfl, ofRow_congr hparts, mapM_expr_congr hparts⟩
      | @object fields others keys each =>
          have hfields : FieldsAgree (readFields fields) (readFields others) := by
            intro key
            rw [readFields_lookup, readFields_lookup]
            rcases hall.lookup hj hk key with ⟨hv, hw⟩ | ⟨v, w, hv, hw, hmem, hmem', hsame⟩
            · exact .inl ⟨by rw [hv]; rfl, by rw [hw]; rfl⟩
            · have hagree := ih v (List.mem_map_of_mem hmem) (hj.field hmem) (hk.field hmem') hsame
              exact .inr ⟨_, _, by rw [hv]; rfl, by rw [hw]; rfl, hagree⟩
          refine ⟨rfl, rfl, rfl, rfl, ?_, hfields.ofFields_eq, rfl⟩
          apply Option.ext
          intro name
          exact ⟨opName?_of_same hall rfl rfl, opName?_of_same hall.symm rfl rfl⟩

/-! ### Reading what was written -/

theorem ofJson?_int (n : Int64) : ofJson? (Expr.int n).toJson = some (.int n) := by
  change (Number.int64? n.toInt).map Expr.int = _
  rw [Number.int64?_toInt]
  rfl

theorem ofJson?_float (x : Float) :
    ofJson? (Expr.float x).toJson = if x.isFinite then some (.float x) else none := by
  simp only [toJson]
  cases x.isFinite <;> rfl

theorem ofJson?_list (items : List Expr) : ofJson? (Expr.list items).toJson =
    ((readItems (itemsToJson items)).mapM Part.expr).map .list :=
  rfl

theorem ofJson?_member (object : Expr) (property : String) :
    ofJson? (Expr.member object property).toJson = (do
      some (.member (← ofJson? object.toJson) property)) :=
  rfl

theorem ofJson?_index (object key : Expr) : ofJson? (Expr.index object key).toJson = (do
    some (.index (← ofJson? object.toJson) (← ofJson? key.toJson))) :=
  rfl

theorem ofJson?_call (callee : Expr) (args : List Expr) :
    ofJson? (Expr.call callee args).toJson = (do
      some (.call (← ofJson? callee.toJson) (← (readItems (itemsToJson args)).mapM (·.expr)))) :=
  rfl

theorem ofJson?_unary (op : UnaryOp) (operand : Expr) :
    ofJson? (Expr.unary op operand).toJson = (do
      some (.unary op (← ofJson? operand.toJson))) := by
  cases op <;> rfl

theorem ofJson?_binary (op : BinaryOp) (left right : Expr) :
    ofJson? (Expr.binary op left right).toJson = (do
      some (.binary op (← ofJson? left.toJson) (← ofJson? right.toJson))) := by
  cases op <;> rfl

theorem ofJson?_conditional (test thenE elseE : Expr) :
    ofJson? (Expr.conditional test thenE elseE).toJson = (do
      some (.conditional (← ofJson? test.toJson) (← ofJson? thenE.toJson)
        (← ofJson? elseE.toJson))) :=
  rfl

theorem finite_of_parts {e : Expr} (hfloat : ∀ x, e = .float x → x.isFinite = true)
    (hparts : ∀ part ∈ e.children, part.Finite) : e.Finite := by
  refine .node ?_ hparts
  cases e with
  | float x => exact hfloat x rfl
  | _ => trivial

mutual

theorem ofJson?_toJson : ∀ {e : Expr}, e.Finite → ofJson? e.toJson = some e
  | .null, _ | .bool _, _ | .string _, _ | .ident _, _ => rfl
  | .int n, _ => ofJson?_int n
  | .float x, h => by
      have hfinite : x.isFinite = true := h.here
      rw [ofJson?_float, if_pos hfinite]
  | .list items, h => by
      have hitems : ∀ e ∈ items, e.Finite := fun e he => h.part he
      rw [ofJson?_list, itemsOfJson?_itemsToJson hitems]
      rfl
  | .member object property, h => by
      have hobject : object.Finite := h.part (by simp [children])
      rw [ofJson?_member, ofJson?_toJson hobject]
      rfl
  | .index object key, h => by
      have hobject : object.Finite := h.part (by simp [children])
      have hkey : key.Finite := h.part (by simp [children])
      rw [ofJson?_index, ofJson?_toJson hobject, ofJson?_toJson hkey]
      rfl
  | .call callee args, h => by
      have hcallee : callee.Finite := h.part (by simp [children])
      have hargs : ∀ e ∈ args, e.Finite := fun e he => h.part (List.mem_cons_of_mem _ he)
      rw [ofJson?_call, ofJson?_toJson hcallee, itemsOfJson?_itemsToJson hargs]
      rfl
  | .unary op operand, h => by
      have hoperand : operand.Finite := h.part (by simp [children])
      rw [ofJson?_unary, ofJson?_toJson hoperand]
      rfl
  | .binary op left right, h => by
      have hleft : left.Finite := h.part (by simp [children])
      have hright : right.Finite := h.part (by simp [children])
      rw [ofJson?_binary, ofJson?_toJson hleft, ofJson?_toJson hright]
      rfl
  | .conditional test thenE elseE, h => by
      have htest : test.Finite := h.part (by simp [children])
      have hthen : thenE.Finite := h.part (by simp [children])
      have helse : elseE.Finite := h.part (by simp [children])
      rw [ofJson?_conditional, ofJson?_toJson htest, ofJson?_toJson hthen, ofJson?_toJson helse]
      rfl

theorem itemsOfJson?_itemsToJson : ∀ {es : List Expr}, (∀ e ∈ es, e.Finite) →
    (readItems (itemsToJson es)).mapM Part.expr = some es
  | [], _ => rfl
  | e :: es, h => by
      obtain ⟨he, hes⟩ := List.forall_mem_cons.mp h
      have hread : (readPart e.toJson).expr = some e := ofJson?_toJson he
      rw [itemsToJson, readItems, List.mapM_cons, hread, itemsOfJson?_itemsToJson hes]
      rfl

end

mutual

/-- A literal that is not finite leaves nothing of any tree around it. -/
theorem finite_of_ofJson? : ∀ {e r : Expr}, ofJson? e.toJson = some r → e.Finite
  | .null, _, _ | .bool _, _, _ | .int _, _, _ | .string _, _, _ | .ident _, _, _ =>
      finite_of_parts (by simp) (by simp [children])
  | .float x, _, h => by
      apply finite_of_parts
      · rintro _ ⟨⟩
        by_contra hfinite
        rw [ofJson?_float, if_neg hfinite] at h
        cases h
      · simp [children]
  | .list items, _, h => by
      obtain ⟨_, hitems, _⟩ := Option.map_eq_some_iff.mp (ofJson?_list items ▸ h)
      exact finite_of_parts (by simp) (finite_of_itemsOfJson? hitems)
  | .member object property, _, h => by
      obtain ⟨_, hobject, _⟩ := Option.bind_eq_some_iff.mp (ofJson?_member object property ▸ h)
      apply finite_of_parts (by simp)
      simpa [children] using finite_of_ofJson? hobject
  | .index object key, _, h => by
      obtain ⟨_, hobject, h⟩ := Option.bind_eq_some_iff.mp (ofJson?_index object key ▸ h)
      obtain ⟨_, hkey, _⟩ := Option.bind_eq_some_iff.mp h
      apply finite_of_parts (by simp)
      simpa [children] using And.intro (finite_of_ofJson? hobject) (finite_of_ofJson? hkey)
  | .call callee args, _, h => by
      obtain ⟨_, hcallee, h⟩ := Option.bind_eq_some_iff.mp (ofJson?_call callee args ▸ h)
      obtain ⟨_, hargs, _⟩ := Option.bind_eq_some_iff.mp h
      apply finite_of_parts (by simp)
      exact List.forall_mem_cons.mpr ⟨finite_of_ofJson? hcallee, finite_of_itemsOfJson? hargs⟩
  | .unary op operand, _, h => by
      obtain ⟨_, hoperand, _⟩ := Option.bind_eq_some_iff.mp (ofJson?_unary op operand ▸ h)
      apply finite_of_parts (by simp)
      simpa [children] using finite_of_ofJson? hoperand
  | .binary op left right, _, h => by
      obtain ⟨_, hleft, h⟩ := Option.bind_eq_some_iff.mp (ofJson?_binary op left right ▸ h)
      obtain ⟨_, hright, _⟩ := Option.bind_eq_some_iff.mp h
      apply finite_of_parts (by simp)
      simpa [children] using And.intro (finite_of_ofJson? hleft) (finite_of_ofJson? hright)
  | .conditional test thenE elseE, _, h => by
      obtain ⟨_, htest, h⟩ :=
        Option.bind_eq_some_iff.mp (ofJson?_conditional test thenE elseE ▸ h)
      obtain ⟨_, hthen, h⟩ := Option.bind_eq_some_iff.mp h
      obtain ⟨_, helse, _⟩ := Option.bind_eq_some_iff.mp h
      apply finite_of_parts (by simp)
      simpa [children] using
        And.intro (finite_of_ofJson? htest)
          (And.intro (finite_of_ofJson? hthen) (finite_of_ofJson? helse))

theorem finite_of_itemsOfJson? : ∀ {es rs : List Expr},
    (readItems (itemsToJson es)).mapM Part.expr = some rs → ∀ e ∈ es, e.Finite
  | [], _, _ => by simp
  | e :: es, _, h => by
      rw [itemsToJson, readItems, List.mapM_cons] at h
      obtain ⟨_, he, h⟩ := Option.bind_eq_some_iff.mp h
      obtain ⟨_, hes, _⟩ := Option.bind_eq_some_iff.mp h
      exact List.forall_mem_cons.mpr ⟨finite_of_ofJson? he, finite_of_itemsOfJson? hes⟩

end

/-! ### What is written -/

mutual

theorem keyed_toJson : ∀ e : Expr, e.toJson.Keyed
  | .null | .bool _ | .int _ | .string _ | .ident _ => by
      apply Json.keyed_object (by simp)
      simp
  | .float x => by
      apply Json.keyed_object (by simp)
      cases x.isFinite <;> simp
  | .list items => by
      apply Json.keyed_object (by simp)
      simp [keyed_itemsToJson items]
  | .member object property => by
      apply Json.keyed_object (by simp)
      simp [keyed_toJson object]
  | .index object key => by
      apply Json.keyed_object (by simp)
      simp [keyed_toJson object, keyed_toJson key]
  | .call callee args => by
      apply Json.keyed_object (by simp)
      simp [keyed_toJson callee, keyed_itemsToJson args]
  | .unary op operand => by
      apply Json.keyed_object (by simp)
      simp [keyed_toJson operand]
  | .binary op left right => by
      apply Json.keyed_object (by simp)
      simp [keyed_toJson left, keyed_toJson right]
  | .conditional test thenE elseE => by
      apply Json.keyed_object (by simp)
      simp [keyed_toJson test, keyed_toJson thenE, keyed_toJson elseE]

theorem keyed_itemsToJson : ∀ es : List Expr, (Json.array (itemsToJson es)).Keyed
  | [] => .whole trivial (by simp [Json.parts, itemsToJson])
  | e :: es => by
      apply Json.Each.whole trivial
      rw [Json.parts, itemsToJson, List.forall_mem_cons]
      exact ⟨keyed_toJson e, fun j hj => (keyed_itemsToJson es).part hj⟩

end

/-- The JSON form of a tree reads back as the tree, in whatever order the fields of its objects
stand, if no literal in the tree is infinite or NaN; and if one is, it does not read back at all. So
two trees of finite literals never have one JSON form. -/
theorem json_form_inverse (e : Expr) :
    e.toJson.Keyed ∧
      (∀ json, json.Keyed → e.toJson.Same json →
        (ofJson? json = some e ↔ e.Finite) ∧ (ofJson? json = none ↔ ¬ e.Finite)) ∧
      ∀ (other : Expr) (json : Json), e.Finite → other.Finite → json.Keyed → e.toJson.Same json →
        other.toJson.Same json → e = other := by
  have hread (e : Expr) {json : Json} (hjson : json.Keyed) (hsame : e.toJson.Same json) :
      ofJson? json = ofJson? e.toJson :=
    (readPart_agree (keyed_toJson e) hjson hsame).expr.symm
  refine ⟨keyed_toJson e, ?_, ?_⟩
  · intro json hjson hsame
    rw [hread e hjson hsame]
    refine ⟨⟨finite_of_ofJson?, ofJson?_toJson⟩, ?_, ?_⟩
    · intro hnone hfinite
      rw [ofJson?_toJson hfinite] at hnone
      cases hnone
    · intro hnot
      rw [Option.eq_none_iff_forall_ne_some]
      exact fun r hr => hnot (finite_of_ofJson? hr)
  · intro other json he hother hjson hsame hsame'
    have hform := (hread e hjson hsame).symm.trans (hread other hjson hsame')
    rw [ofJson?_toJson he, ofJson?_toJson hother] at hform
    exact Option.some.inj hform

/-- A form in another order of fields, and infinity deep in a tree. -/
theorem json_form_inverse_of_floats :
    let half : Expr := .unary .neg (.float 0.5)
    let json : Json := .object [("operand", (Expr.float 0.5).toJson), ("op", .string "Neg"),
      ("type", .string "Unary")]
    let endless : Expr := .list [.ident "x", .call (.ident "f") [.float (1.0 / 0.0)]]
    json.Keyed ∧ half.toJson.Same json ∧ ofJson? json = some half ∧
      ofJson? endless.toJson = none := by
  intro half json endless
  obtain ⟨hkeyed, hhalf, -⟩ := json_form_inverse half
  obtain ⟨hkeyed', hendless, -⟩ := json_form_inverse endless
  have hsame : half.toJson.Same json := .of_perm hkeyed (List.reverse_perm _).symm
  have hjson : json.Keyed := by
    apply Json.keyed_object (by decide)
    simp [keyed_toJson]
  have hfinite : half.Finite := by
    apply finite_of_parts (by simp [half])
    have hliteral : (Expr.float 0.5).Finite :=
      finite_of_parts (by rintro _ ⟨⟩; decide) (by simp [children])
    simpa [half, children] using hliteral
  have hinfinite : ¬ endless.Finite := by
    intro h
    have hcall : (Expr.call (.ident "f") [.float (1.0 / 0.0)]).Finite :=
      h.part (by simp [endless, children])
    have hliteral : (Expr.float (1.0 / 0.0)).Finite := hcall.part (by simp [children])
    exact absurd hliteral.here (by decide +kernel)
  exact ⟨hjson, hsame, (hhalf json hjson hsame).1.mpr hfinite,
    (hendless _ hkeyed' (.refl hkeyed')).2.mpr hinfinite⟩

end Expr

end Scriptlet
