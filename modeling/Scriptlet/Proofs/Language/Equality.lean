import Scriptlet.Proofs.Language.Ranking
import Scriptlet.Proofs.Tables
import Scriptlet.Proofs.Values.Interchange

/-!
Equality of values. A list or an object is equal to another when each step into them leads to equal
parts, or in neither of them to any. So what equality is like on all values follows from what it is
like on those without parts: it is symmetric, and only NaN keeps a value from being equal to itself.

It is not transitive. A float is equal to every integer that is widened to it, and integers are
equal to each other only if they are the same. This is the one obstacle, at whatever place inside.
-/

namespace Scriptlet

namespace Value

/-- A step from a value to one of its parts. -/
inductive Step where
  | item (i : Nat)
  | field (key : String)
  deriving Repr, DecidableEq

/-- The part that a step leads to. -/
def part? : Value → Step → Option Value
  | .list items, .item i => items[i]?
  | .object fields, .field key => fields.lookup key
  | _, _ => none

/-- What stands at the end of a path into a value. -/
def at? : Value → List Step → Option Value
  | v, [] => some v
  | v, step :: path => (v.part? step).bind fun part => part.at? path

/-- Lists and objects; no other value has parts. -/
def isCollection (v : Value) : Bool :=
  v.kind == .list || v.kind == .object

/-- The two are of one kind, and the same steps lead to parts of them. -/
def SameShape (a b : Value) : Prop :=
  a.kind = b.kind ∧ ∀ step, (a.part? step).isSome = (b.part? step).isSome

/-- No float in the value is NaN. -/
def NaNFree (v : Value) : Prop :=
  v.Each fun
    | .float x => x.isNaN = false
    | _ => True

/-! ### Parts and steps -/

theorem parts_of_leaf {v : Value} (hleaf : v.isCollection = false) : v.parts = [] := by
  cases v <;> first | rfl | cases hleaf

theorem each_of_leaf {P : Value → Prop} {v : Value} (hleaf : v.isCollection = false) :
    v.Each P ↔ P v := by
  rw [each_iff, parts_of_leaf hleaf]
  simp

theorem keyed_of_leaf {v : Value} (hleaf : v.isCollection = false) : v.Keyed := by
  rw [Keyed, each_of_leaf hleaf]
  cases v with
  | object fields => cases hleaf
  | _ => trivial

theorem keyed_list_iff {items : List Value} :
    (Value.list items).Keyed ↔ ∀ item ∈ items, item.Keyed :=
  each_iff.trans (iff_of_eq (true_and _))

theorem keyed_object_iff {fields : List (String × Value)} :
    (Value.object fields).Keyed ↔ (fields.map (·.1)).Nodup ∧ ∀ f ∈ fields, f.2.Keyed := by
  rw [Keyed, each_iff]
  exact and_congr_right fun _ => List.forall_mem_map

theorem mem_parts_of_part? {v part : Value} {step : Step} (h : v.part? step = some part) :
    part ∈ v.parts := by
  cases v with
  | list items =>
      cases step with
      | item i => exact List.mem_of_getElem? h
      | field key => cases h
  | object fields =>
      cases step with
      | item i => cases h
      | field key =>
          obtain ⟨before, after, rfl, _⟩ := List.lookup_eq_some_iff.mp h
          simp [parts]
  | _ => cases h

theorem isCollection_of_part? {v part : Value} {step : Step} (h : v.part? step = some part) :
    v.isCollection = true := by
  cases v with
  | list items => rfl
  | object fields => rfl
  | _ => cases h

theorem exists_part?_of_mem {v part : Value} (hv : v.Keyed) (h : part ∈ v.parts) :
    ∃ step, v.part? step = some part := by
  cases v with
  | list items =>
      obtain ⟨i, hi⟩ := List.mem_iff_getElem?.mp h
      exact ⟨.item i, hi⟩
  | object fields =>
      obtain ⟨f, hf, rfl⟩ := List.mem_map.mp h
      exact ⟨.field f.1, (lookup_eq_some_iff_mem (keyed_object_iff.mp hv).1).mpr hf⟩
  | _ => cases h

theorem Keyed.part {v part : Value} {step : Step} (hv : v.Keyed) (h : v.part? step = some part) :
    part.Keyed :=
  (each_iff.mp hv).2 part (mem_parts_of_part? h)

/-! ### Collections -/

theorem SameShape.symm {a b : Value} (h : SameShape a b) : SameShape b a :=
  ⟨h.1.symm, fun step => (h.2 step).symm⟩

theorem SameShape.trans {a b c : Value} (h : SameShape a b) (h' : SameShape b c) :
    SameShape a c :=
  ⟨h.1.trans h'.1, fun step => (h.2 step).trans (h'.2 step)⟩

theorem SameShape.isCollection {a b : Value} (h : SameShape a b) :
    b.isCollection = a.isCollection := by
  rw [Value.isCollection, Value.isCollection, h.1]

theorem SameShape.exists_part {a b part : Value} {step : Step} (h : SameShape a b)
    (hpart : a.part? step = some part) : ∃ other, b.part? step = some other := by
  apply Option.isSome_iff_exists.mp
  rw [← h.2 step, hpart]
  rfl

theorem sameShape_list_iff (items others : List Value) :
    SameShape (.list items) (.list others) ↔ items.length = others.length := by
  constructor
  · rintro ⟨_, hsteps⟩
    have hbelow (i : Nat) : i < items.length ↔ i < others.length := by
      have hstep : items[i]?.isSome = others[i]?.isSome := hsteps (.item i)
      simpa using Bool.eq_iff_iff.mp hstep
    have hleast := hbelow items.length
    have hmost := hbelow others.length
    omega
  · intro hlength
    refine ⟨rfl, ?_⟩
    intro step
    cases step with
    | item i =>
        change items[i]?.isSome = others[i]?.isSome
        rw [Bool.eq_iff_iff]
        simp [hlength]
    | field key => rfl

theorem sameShape_object_iff (fields others : List (String × Value)) :
    SameShape (.object fields) (.object others) ↔
      ∀ key, key ∈ fields.map (·.1) ↔ key ∈ others.map (·.1) := by
  have hkey (key : String) : (key ∈ fields.map (·.1) ↔ key ∈ others.map (·.1)) ↔
      (fields.lookup key).isSome = (others.lookup key).isSome := by
    rw [Bool.eq_iff_iff, isSome_lookup_iff, isSome_lookup_iff]
  constructor
  · rintro ⟨_, hsteps⟩ key
    exact (hkey key).mpr (hsteps (.field key))
  · intro hkeys
    refine ⟨rfl, ?_⟩
    intro step
    cases step with
    | item i => rfl
    | field key => exact (hkey key).mp (hkeys key)

theorem itemsEqual_iff (items others : List Value) :
    itemsEqual items others = true ↔
      ∀ (i : Nat) v w, items[i]? = some v → others[i]? = some w → v.looselyEquals w = true := by
  induction items generalizing others with
  | nil => simp [itemsEqual]
  | cons v items ih =>
      cases others with
      | nil => simp [itemsEqual]
      | cons w others =>
          rw [itemsEqual, Bool.and_eq_true, ih]
          constructor
          · rintro ⟨hhead, htail⟩ i v' w' hv hw
            cases i with
            | zero =>
                obtain rfl := Option.some.inj hv
                obtain rfl := Option.some.inj hw
                exact hhead
            | succ i => exact htail i v' w' hv hw
          · intro h
            refine ⟨h 0 v w rfl rfl, ?_⟩
            intro i
            exact h (i + 1)

theorem fieldsEqual_iff (fields others : List (String × Value)) :
    fieldsEqual fields others = true ↔
      ∀ f ∈ fields, ∃ w, others.lookup f.1 = some w ∧ f.2.looselyEquals w = true := by
  induction fields with
  | nil => simp [fieldsEqual]
  | cons f fields ih =>
      rw [fieldsEqual, Bool.and_eq_true, ih, List.forall_mem_cons]
      cases others.lookup f.1 with
      | none => simp
      | some w => simp

/-- That every field of the one has its like in the other is enough, as they are equally many. -/
theorem object_looselyEquals_iff {fields others : List (String × Value)}
    (hkeys : (fields.map (·.1)).Nodup) (hkeys' : (others.map (·.1)).Nodup) :
    (object fields).looselyEquals (.object others) = true ↔
      SameShape (.object fields) (.object others) ∧ ∀ key v w, fields.lookup key = some v →
        others.lookup key = some w → v.looselyEquals w = true := by
  rw [looselyEquals, Bool.and_eq_true, beq_iff_eq, fieldsEqual_iff, sameShape_object_iff]
  constructor
  · rintro ⟨hlength, hall⟩
    constructor
    · have hthere : ∀ f ∈ fields, f.1 ∈ others.map (·.1) := by
        intro f hf
        obtain ⟨w, hw, _⟩ := hall f hf
        exact List.mem_map_of_mem (f := (·.1)) ((lookup_eq_some_iff_mem hkeys').mp hw)
      intro key
      exact (keys_perm hkeys hthere hlength).mem_iff
    · intro key v w hv hw
      obtain ⟨w', hw', hequal⟩ := hall (key, v) ((lookup_eq_some_iff_mem hkeys).mp hv)
      obtain rfl := Option.some.inj (hw.symm.trans hw')
      exact hequal
  · rintro ⟨hsame, hequal⟩
    have hperm := (List.perm_ext_iff_of_nodup hkeys hkeys').mpr hsame
    refine ⟨by simpa using hperm.length_eq, ?_⟩
    intro f hf
    obtain ⟨g, hg, hkey⟩ := List.mem_map.mp ((hsame f.1).mp (List.mem_map_of_mem hf))
    have hw : others.lookup f.1 = some g.2 := (lookup_eq_some_iff_mem hkeys').mpr (hkey ▸ hg)
    exact ⟨g.2, hw, hequal f.1 f.2 g.2 ((lookup_eq_some_iff_mem hkeys).mpr hf) hw⟩

/-- Equality of a collection, step by step. -/
theorem looselyEquals_iff_parts {a b : Value} (ha : a.Keyed) (hb : b.Keyed)
    (hcollection : a.isCollection = true) :
    a.looselyEquals b = true ↔ SameShape a b ∧ ∀ step v w, a.part? step = some v →
      b.part? step = some w → v.looselyEquals w = true := by
  cases a with
  | list items =>
      cases b with
      | list others =>
          rw [looselyEquals, Bool.and_eq_true, beq_iff_eq, itemsEqual_iff, sameShape_list_iff]
          constructor
          · rintro ⟨hlength, hequal⟩
            refine ⟨hlength, ?_⟩
            intro step v w hv hw
            cases step with
            | item i => exact hequal i v w hv hw
            | field key => cases hv
          · rintro ⟨hlength, hequal⟩
            refine ⟨hlength, ?_⟩
            intro i
            exact hequal (.item i)
      | _ => exact iff_of_false Bool.false_ne_true fun h => Kind.noConfusion h.1.1
  | object fields =>
      cases b with
      | object others =>
          rw [object_looselyEquals_iff (keyed_object_iff.mp ha).1 (keyed_object_iff.mp hb).1]
          constructor
          · rintro ⟨hshape, hequal⟩
            refine ⟨hshape, ?_⟩
            intro step v w hv hw
            cases step with
            | item i => cases hv
            | field key => exact hequal key v w hv hw
          · rintro ⟨hshape, hequal⟩
            refine ⟨hshape, ?_⟩
            intro key
            exact hequal (.field key)
      | _ => exact iff_of_false Bool.false_ne_true fun h => Kind.noConfusion h.1.1
  | _ => cases hcollection

/-! ### Symmetry and reflexivity -/

theorem looselyEquals_comm_of_leaf {a : Value} (hleaf : a.isCollection = false) (b : Value) :
    a.looselyEquals b = b.looselyEquals a := by
  cases a <;> cases b <;> cases hleaf
  case bool.bool x y => exact Bool.beq_comm
  case int.int m n => exact BEq.comm
  case float.float x y =>
    change (x == y) = (y == x)
    rw [Bool.eq_iff_iff, Number.beq_iff, Number.beq_iff]
    tauto
  case string.string s t => exact BEq.comm
  all_goals rfl

theorem looselyEquals_symm (a : Value) : ∀ b, a.Keyed → b.Keyed → a.looselyEquals b = true →
    b.looselyEquals a = true := by
  induction a using of_parts with
  | step a ih =>
      intro b ha hb h
      cases hcollection : a.isCollection with
      | false => rw [← looselyEquals_comm_of_leaf hcollection b, h]
      | true =>
          obtain ⟨hshape, hequal⟩ := (looselyEquals_iff_parts ha hb hcollection).mp h
          have hcollection' := hshape.isCollection.trans hcollection
          apply (looselyEquals_iff_parts hb ha hcollection').mpr
          refine ⟨hshape.symm, ?_⟩
          intro step w v hw hv
          exact ih v (mem_parts_of_part? hv) w (ha.part hv) (hb.part hw) (hequal step v w hv hw)

theorem looselyEquals_comm {a b : Value} (ha : a.Keyed) (hb : b.Keyed) :
    a.looselyEquals b = b.looselyEquals a := by
  rw [Bool.eq_iff_iff]
  constructor
  · exact looselyEquals_symm a b ha hb
  · exact looselyEquals_symm b a hb ha

theorem nanFree_iff_of_collection {v : Value} (hcollection : v.isCollection = true) :
    v.NaNFree ↔ ∀ part ∈ v.parts, part.NaNFree := by
  rw [NaNFree, each_iff]
  cases v with
  | float x => cases hcollection
  | _ => exact iff_of_eq (true_and _)

/-- Only NaN keeps a value from being equal to itself. -/
theorem looselyEquals_self_iff (a : Value) : a.Keyed →
    (a.looselyEquals a = true ↔ a.NaNFree) := by
  induction a using of_parts with
  | step a ih =>
      intro ha
      cases hcollection : a.isCollection with
      | false =>
          rw [NaNFree, each_of_leaf hcollection]
          cases a with
          | float x =>
              change (x == x) = true ↔ x.isNaN = false
              rw [Number.beq_iff]
              simp
          | list items => cases hcollection
          | object fields => cases hcollection
          | _ => simp [looselyEquals]
      | true =>
          rw [looselyEquals_iff_parts ha ha hcollection, nanFree_iff_of_collection hcollection]
          constructor
          · rintro ⟨_, hequal⟩ part hpart
            obtain ⟨step, hstep⟩ := exists_part?_of_mem ha hpart
            exact (ih part hpart (ha.part hstep)).mp (hequal step part part hstep hstep)
          · intro hparts
            refine ⟨⟨rfl, fun step => rfl⟩, ?_⟩
            intro step v w hv hw
            obtain rfl := Option.some.inj (hv.symm.trans hw)
            have hmem := mem_parts_of_part? hv
            exact (ih v hmem (ha.part hv)).mpr (hparts v hmem)

/-- Equality does not depend on the side a value stands on, neither in the operators nor in a search
through a list, and exactly the values without NaN are equal to themselves. -/
theorem equality_symmetric (around : Surroundings) (site : Site) {a b : Value} (ha : a.Keyed)
    (hb : b.Keyed) :
    a.looselyEquals b = b.looselyEquals a ∧
      (a.looselyEquals a = true ↔ a.NaNFree) ∧
      applyStrict .eq a b = applyStrict .eq b a ∧
      applyStrict .ne a b = applyStrict .ne b a ∧
      ∀ items, a = .list items →
        Builtin.call around site .listContains [a, b] =
          .ok (.bool (items.any fun item => b.looselyEquals item)) := by
  have hcomm := looselyEquals_comm ha hb
  refine ⟨hcomm, looselyEquals_self_iff a ha, ?_, ?_, ?_⟩
  · rw [applyStrict, applyStrict, hcomm]
  · rw [applyStrict, applyStrict, hcomm]
  · rintro items rfl
    have hitems : items.any (fun item => item.looselyEquals b) =
        items.any fun item => b.looselyEquals item := by
      rw [Bool.eq_iff_iff, List.any_eq_true, List.any_eq_true]
      refine exists_congr fun item => and_congr_right fun hitem => ?_
      rw [looselyEquals_comm (keyed_list_iff.mp ha item hitem) hb]
    exact congrArg (fun found => Except.ok (Value.bool found)) hitems

/-- Fields in another order and numbers of the other kind, on either side of a search. -/
theorem equality_symmetric_of_fields :
    let around : Surroundings := ⟨fun _ => "", fun _ => "", fun _ => 0⟩
    let item : Value := .object [("x", .int 1), ("y", .list [.float 2.0])]
    let wanted : Value := .object [("y", .list [.int 2]), ("x", .float 1.0)]
    (Value.list [item]).Keyed ∧ wanted.Keyed ∧ wanted.looselyEquals item = true ∧
      Builtin.call around [] .listContains [.list [item], wanted] = .ok (.bool true) := by
  intro around item wanted
  have hint (n : Int64) : (Value.int n).Keyed := keyed_of_leaf rfl
  have hfloat (x : Float) : (Value.float x).Keyed := keyed_of_leaf rfl
  have hitems : (Value.list [item]).Keyed := by
    simp [item, keyed_list_iff, keyed_object_iff, hint, hfloat]
  have hwanted : wanted.Keyed := by
    simp [wanted, keyed_list_iff, keyed_object_iff, hint, hfloat]
  have hequal : wanted.looselyEquals item = true := by decide +kernel
  obtain ⟨_, _, _, _, hcontains⟩ := equality_symmetric around [] hitems hwanted
  have hfound : ([item].any fun v => wanted.looselyEquals v) = true := by
    rw [List.any_cons, hequal, Bool.true_or]
  rw [hcontains [item] rfl, hfound]
  exact ⟨hitems, hwanted, hequal, rfl⟩

/-! ### Transitivity -/

/-- Wherever both hold an integer, it is the same one. -/
def SameIntegers (a b : Value) : Prop :=
  ∀ path m n, a.at? path = some (.int m) → b.at? path = some (.int n) → m = n

theorem at?_of_leaf {v w : Value} {path : List Step} (hleaf : v.isCollection = false)
    (h : v.at? path = some w) : path = [] ∧ v = w := by
  cases path with
  | nil => exact ⟨rfl, Option.some.inj h⟩
  | cons step path =>
      obtain ⟨part, hpart, _⟩ := Option.bind_eq_some_iff.mp h
      rw [isCollection_of_part? hpart] at hleaf
      cases hleaf

theorem sameIntegers_iff_of_leaf {a b : Value} (hleaf : a.isCollection = false) :
    SameIntegers a b ↔ ∀ m n, a = .int m → b = .int n → m = n := by
  constructor
  · rintro h m n rfl rfl
    exact h [] m n rfl rfl
  · intro h path m n hm hn
    obtain ⟨rfl, ha⟩ := at?_of_leaf hleaf hm
    exact h m n ha (Option.some.inj hn)

theorem sameIntegers_iff_of_collection {a b : Value} (hcollection : a.isCollection = true) :
    SameIntegers a b ↔ ∀ step v w, a.part? step = some v → b.part? step = some w →
      SameIntegers v w := by
  constructor
  · intro h step v w hv hw path m n hm hn
    refine h (step :: path) m n ?_ ?_
    · rw [at?, hv]
      exact hm
    · rw [at?, hw]
      exact hn
  · intro h path m n hm hn
    cases path with
    | nil =>
        obtain rfl := Option.some.inj hm
        cases hcollection
    | cons step path =>
        obtain ⟨v, hv, hm⟩ := Option.bind_eq_some_iff.mp hm
        obtain ⟨w, hw, hn⟩ := Option.bind_eq_some_iff.mp hn
        exact h step v w hv hw path m n hm hn

theorem isSome_number?_of_looselyEquals {a b : Value} (h : a.looselyEquals b = true) :
    a.number?.isSome = b.number?.isSome := by
  cases a <;> cases b <;> simp_all [looselyEquals, number?]

/-- What is neither a number nor a collection is equal to itself only. -/
theorem eq_of_looselyEquals {a b : Value} (hleaf : a.isCollection = false)
    (hnumber : a.number?.isSome = false) (h : a.looselyEquals b = true) : a = b := by
  cases a with
  | null => cases b <;> simp_all [looselyEquals]
  | bool x => cases b <;> simp_all [looselyEquals]
  | string s => cases b <;> simp_all [looselyEquals]
  | int n => cases hnumber
  | float x => cases hnumber
  | list items => cases hleaf
  | object fields => cases hleaf

theorem place_eq_of_looselyEquals {a b : Value} (hnumber : a.number?.isSome = true)
    (h : a.looselyEquals b = true) :
    b.number?.isSome = true ∧ a.Comparable ∧ b.Comparable ∧ a.place = b.place := by
  have hnumber' : b.number?.isSome = true := isSome_number?_of_looselyEquals h ▸ hnumber
  obtain ⟨ha, hb, hranking⟩ := (looselyEquals_iff_ranking hnumber hnumber').mp h
  exact ⟨hnumber', ha, hb, (ranking_eq_iff.mp hranking).1⟩

theorem number_trans_iff {a b c : Value} (hnumber : a.number?.isSome = true)
    (hab : a.looselyEquals b = true) (hbc : b.looselyEquals c = true) :
    a.looselyEquals c = true ↔ ∀ m n, a = .int m → c = .int n → m = n := by
  obtain ⟨hnumber', ha, _, hplace⟩ := place_eq_of_looselyEquals hnumber hab
  obtain ⟨hnumber'', _, hc, hplace'⟩ := place_eq_of_looselyEquals hnumber' hbc
  rw [looselyEquals_iff_ranking hnumber hnumber'', ranking_eq_iff]
  simp only [ha, hc, hplace.trans hplace', true_and]

/-- Two values that are equal to a third are equal to each other unless they hold different integers
at one place. -/
theorem looselyEquals_trans_iff (a : Value) : ∀ b c, a.Keyed → b.Keyed → c.Keyed →
    a.looselyEquals b = true → b.looselyEquals c = true →
      (a.looselyEquals c = true ↔ SameIntegers a c) := by
  induction a using of_parts with
  | step a ih =>
      intro b c ha hb hc hab hbc
      cases hcollection : a.isCollection with
      | false =>
          rw [sameIntegers_iff_of_leaf hcollection]
          cases hnumber : a.number?.isSome with
          | true => exact number_trans_iff hnumber hab hbc
          | false =>
              obtain rfl := eq_of_looselyEquals hcollection hnumber hab
              refine iff_of_true hbc ?_
              rintro m n rfl
              cases hnumber
      | true =>
          obtain ⟨hshape, hequal⟩ := (looselyEquals_iff_parts ha hb hcollection).mp hab
          have hcollection' := hshape.isCollection.trans hcollection
          obtain ⟨hshape', hequal'⟩ := (looselyEquals_iff_parts hb hc hcollection').mp hbc
          rw [looselyEquals_iff_parts ha hc hcollection, sameIntegers_iff_of_collection hcollection,
            and_iff_right (hshape.trans hshape')]
          have hpart : ∀ step v w, a.part? step = some v → c.part? step = some w →
              (v.looselyEquals w = true ↔ SameIntegers v w) := by
            intro step v w hv hw
            obtain ⟨u, hu⟩ := hshape.exists_part hv
            exact ih v (mem_parts_of_part? hv) u w (ha.part hv) (hb.part hu) (hc.part hw)
              (hequal step v u hv hu) (hequal' step u w hu hw)
          constructor
          · intro h step v w hv hw
            exact (hpart step v w hv hw).mp (h step v w hv hw)
          · intro h step v w hv hw
            exact (hpart step v w hv hw).mpr (h step v w hv hw)

/-- Equal values have equal values at each place inside. -/
theorem looselyEquals_at {path : List Step} : ∀ {a b v : Value}, a.Keyed → b.Keyed →
    a.looselyEquals b = true → a.at? path = some v →
      ∃ w, b.at? path = some w ∧ v.looselyEquals w = true := by
  induction path with
  | nil =>
      intro a b v _ _ hab hv
      obtain rfl := Option.some.inj hv
      exact ⟨b, rfl, hab⟩
  | cons step path ih =>
      intro a b v ha hb hab hv
      obtain ⟨part, hpart, hv⟩ := Option.bind_eq_some_iff.mp hv
      obtain ⟨hshape, hequal⟩ :=
        (looselyEquals_iff_parts ha hb (isCollection_of_part? hpart)).mp hab
      obtain ⟨other, hother⟩ := hshape.exists_part hpart
      obtain ⟨w, hw, hsame⟩ := ih (ha.part hpart) (hb.part hother)
        (hequal step part other hpart hother) hv
      refine ⟨w, ?_, hsame⟩
      rw [at?, hother]
      exact hw

/-- Between different integers only a float is equal to both, and both are widened to it. -/
theorem exists_float_between {a b c : Value} (ha : a.Keyed) (hb : b.Keyed) (hc : c.Keyed)
    (hab : a.looselyEquals b = true) (hbc : b.looselyEquals c = true) {path : List Step}
    {m n : Int64} (hm : a.at? path = some (.int m)) (hn : c.at? path = some (.int n))
    (hne : m ≠ n) :
    ∃ x, b.at? path = some (.float x) ∧ (Number.ofInt64 m == x) = true ∧
      (Number.ofInt64 n == x) = true := by
  obtain ⟨v, hv, hmv⟩ := looselyEquals_at ha hb hab hm
  obtain ⟨w, hw, hvn⟩ := looselyEquals_at hb hc hbc hv
  obtain rfl := Option.some.inj (hn.symm.trans hw)
  cases v with
  | int k =>
      have hmk : m = k := by simpa [looselyEquals] using hmv
      have hkn : k = n := by simpa [looselyEquals] using hvn
      exact absurd (hmk.trans hkn) hne
  | float x => exact ⟨x, hv, hmv, hvn⟩
  | _ => cases hmv

/-! ### Transitivity on numbers -/

theorem not_blurred_iff {a b : Value} (hplace : a.place = b.place) :
    ¬ Blurred a b ∧ ¬ Blurred b a ↔ ∀ m n, a = .int m → b = .int n → m = n := by
  constructor
  · rintro ⟨hclear, hclear'⟩ m n rfl rfl
    rcases Int.lt_trichotomy m.toInt n.toInt with hlt | heq | hgt
    · exact absurd ⟨m, n, rfl, rfl, hlt, (beq_widened_iff m n).mpr hplace⟩ hclear
    · exact Int64.toInt_inj.mp heq
    · exact absurd ⟨n, m, rfl, rfl, hgt, (beq_widened_iff n m).mpr hplace.symm⟩ hclear'
  · intro h
    constructor
    · rintro ⟨m, n, ha, hb, hlt, _⟩
      obtain rfl := h m n ha hb
      exact Int.lt_irrefl _ hlt
    · rintro ⟨n, m, hb, ha, hlt, _⟩
      obtain rfl := h m n ha hb
      exact Int.lt_irrefl _ hlt

theorem comparable_trans_iff {a b c : Value} (ha : a.Comparable)
    (hab : a.looselyEquals b = true) (hbc : b.looselyEquals c = true) :
    a.looselyEquals c = true ↔ ¬ Blurred a c ∧ ¬ Blurred c a := by
  have hnumber := isSome_number?_of_comparable ha
  obtain ⟨hnumber', _, _, hplace⟩ := place_eq_of_looselyEquals hnumber hab
  obtain ⟨_, _, _, hplace'⟩ := place_eq_of_looselyEquals hnumber' hbc
  rw [number_trans_iff hnumber hab hbc, not_blurred_iff (hplace.trans hplace')]

theorem holds_le_trans_iff {a b c : Value} (ha : a.Comparable) (hb : b.Comparable)
    (hc : c.Comparable) (hab : Holds .le a b) (hbc : Holds .le b c) :
    Holds .le a c ↔ ¬ Blurred c a := by
  have hplace := ((holds_le_iff ha hb).mp hab).1
  have hplace' := ((holds_le_iff hb hc).mp hbc).1
  rw [holds_le_iff ha hc, and_iff_right (Int.le_trans hplace hplace')]

/-- Integers in the wrong order can only have a float between them. -/
theorem exists_float_of_blurred {a b c : Value} (hb : b.Comparable) (hab : Holds .le a b)
    (hbc : Holds .le b c) (hblurred : Blurred c a) : ∃ x, b = .float x := by
  obtain ⟨n, m, rfl, rfl, hlt, _⟩ := hblurred
  cases b with
  | int k =>
      have hmk := (holds_le_int_iff m k).mp hab
      have hkn := (holds_le_int_iff k n).mp hbc
      exact absurd (Int.le_trans hmk hkn) (Int.not_le.mpr hlt)
  | float x => exact ⟨x, rfl⟩
  | _ => exact hb.elim

/-- Equality and order are transitive, except across a float that blurs two integers. On numbers
that are not NaN, what is equal to a third is equal unless both are integers that are widened to one
float, and what is at most a third that is at most another is at most the other unless these are
integers in the wrong order that are widened to one float; a float stands between them. On all
values, what is equal to a third is equal unless there are different integers at one place inside;
there the third holds a float that both are widened to. -/
theorem transitive_unless_blurred (a b c : Value) :
    (a.Comparable → b.Comparable → c.Comparable →
      (a.looselyEquals b = true → b.looselyEquals c = true →
        (a.looselyEquals c = true ↔ ¬ Blurred a c ∧ ¬ Blurred c a)) ∧
      (Holds .le a b → Holds .le b c →
        (Holds .le a c ↔ ¬ Blurred c a) ∧ (Blurred c a → ∃ x, b = .float x))) ∧
    (a.Keyed → b.Keyed → c.Keyed → a.looselyEquals b = true → b.looselyEquals c = true →
      (a.looselyEquals c = true ↔ SameIntegers a c) ∧
      ∀ path m n, a.at? path = some (.int m) → c.at? path = some (.int n) → m ≠ n →
        ∃ x, b.at? path = some (.float x) ∧ (Number.ofInt64 m == x) = true ∧
          (Number.ofInt64 n == x) = true) := by
  constructor
  · intro ha hb hc
    constructor
    · exact comparable_trans_iff ha
    · intro hab hbc
      exact ⟨holds_le_trans_iff ha hb hc hab hbc, exists_float_of_blurred hb hab hbc⟩
  · intro ha hb hc hab hbc
    refine ⟨looselyEquals_trans_iff a b c ha hb hc hab hbc, ?_⟩
    intro path m n hm hn hne
    exact exists_float_between ha hb hc hab hbc hm hn hne

/-- The zeros of three kinds, and lists that differ in integers of which one float is made. -/
theorem transitive_unless_blurred_of_items :
    let zero : Value := .int 0
    let negative : Value := .float (-0.0)
    let a : Value := .list [.int 0x20000000000001, .float 1.0]
    let b : Value := .list [.float 9007199254740992.0, .int 1]
    let c : Value := .list [.int 0x20000000000000, .float 1.0]
    (zero.Comparable ∧ negative.Comparable ∧ (Value.float 0.0).Comparable) ∧
      (zero.looselyEquals negative = true ∧ negative.looselyEquals (.float 0.0) = true) ∧
        (zero.looselyEquals (.float 0.0) = true ∧ Holds .le zero (.float 0.0)) ∧
          (a.Keyed ∧ b.Keyed ∧ c.Keyed) ∧
            (a.looselyEquals b = true ∧ b.looselyEquals c = true ∧ ¬ a.looselyEquals c = true) ∧
              ∃ x, b.at? [.item 0] = some (.float x) := by
  intro zero negative a b c
  have hzero : zero.Comparable := trivial
  have hnegative : negative.Comparable := show Float.isNaN _ = false by decide +kernel
  have hpositive : (Value.float 0.0).Comparable := show Float.isNaN _ = false by decide +kernel
  have hsame : zero.looselyEquals negative = true := by decide +kernel
  have hsame' : negative.looselyEquals (.float 0.0) = true := by decide +kernel
  have hclear : ¬ Blurred (.float 0.0) zero := by
    rintro ⟨m, n, hm, _⟩
    cases hm
  have hclear' : ¬ Blurred zero (.float 0.0) := by
    rintro ⟨m, n, _, hn, _⟩
    cases hn
  obtain ⟨hequality, horder⟩ :=
    (transitive_unless_blurred zero negative (.float 0.0)).1 hzero hnegative hpositive
  have hle := (horder (holds_le_of_looselyEquals hzero hnegative hsame)
    (holds_le_of_looselyEquals hnegative hpositive hsame')).1
  have hkeyed {v w : Value} (hv : v.isCollection = false) (hw : w.isCollection = false) :
      (Value.list [v, w]).Keyed := by
    simp [keyed_list_iff, keyed_of_leaf hv, keyed_of_leaf hw]
  have ha : a.Keyed := hkeyed rfl rfl
  have hb : b.Keyed := hkeyed rfl rfl
  have hc : c.Keyed := hkeyed rfl rfl
  have hab : a.looselyEquals b = true := by decide +kernel
  have hbc : b.looselyEquals c = true := by decide +kernel
  obtain ⟨hiff, hbetween⟩ := (transitive_unless_blurred a b c).2 ha hb hc hab hbc
  have hne : (0x20000000000001 : Int64) ≠ 0x20000000000000 := by decide
  obtain ⟨x, hx, _⟩ := hbetween [.item 0] _ _ rfl rfl hne
  refine ⟨⟨hzero, hnegative, hpositive⟩, ⟨hsame, hsame'⟩,
    ⟨(hequality hsame hsame').mpr ⟨hclear', hclear⟩, hle.mpr hclear⟩, ⟨ha, hb, hc⟩,
    ⟨hab, hbc, ?_⟩, x, hx⟩
  intro hac
  exact hne (hiff.mp hac [.item 0] _ _ rfl rfl)

/-- The least integer that no float holds, and the float that it is widened to. -/
theorem equality_through_float_not_transitive :
    let a : Value := .int 0x20000000000001
    let b : Value := .float 9007199254740992.0
    let c : Value := .int 0x20000000000000
    a.Comparable ∧ b.Comparable ∧ c.Comparable ∧
      a.looselyEquals b = true ∧ b.looselyEquals c = true ∧ ¬ a.looselyEquals c = true ∧
        Holds .le a b ∧ Holds .le b c ∧ ¬ Holds .le a c := by
  intro a b c
  have ha : a.Comparable := trivial
  have hb : b.Comparable := show Float.isNaN _ = false by decide +kernel
  have hc : c.Comparable := trivial
  have hab : a.looselyEquals b = true := by decide +kernel
  have hbc : b.looselyEquals c = true := by decide +kernel
  refine ⟨ha, hb, hc, hab, hbc, by decide, holds_le_of_looselyEquals ha hb hab,
    holds_le_of_looselyEquals hb hc hbc, ?_⟩
  rw [holds_le_int_iff]
  decide

end Value

end Scriptlet
