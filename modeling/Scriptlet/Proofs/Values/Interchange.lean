import Mathlib.Data.List.Forall2
import Mathlib.Data.List.Nodup
import Mathlib.Data.String.Basic
import Scriptlet.Proofs.Outcome
import Scriptlet.Proofs.Values.Widening
import Scriptlet.Value

/-!
Values and JSON values are inverse to each other, as far as either has what the other writes. A
value has a JSON form exactly when it holds no infinity and no NaN, and the form reads back as the
value, integers as integers and floats as floats. A JSON value is read and written again as it
was, except that an integer beyond 63 bits comes back as a float.

The fields of an object have no order. A value keeps them in any, a JSON value sorted by key; so a
value that is read back is the same up to the order of the fields, and a JSON value is the same
altogether.
-/

namespace Scriptlet

/-! ### Values and their parts -/

namespace Value

/-- The immediate parts of a value. -/
def parts : Value → List Value
  | .list items => items
  | .object fields => fields.map (·.2)
  | _ => []

/-- The value, and whatever is inside of it, is of a kind. -/
inductive Each (P : Value → Prop) : Value → Prop where
  | whole {v : Value} (here : P v) (parts : ∀ part ∈ v.parts, Each P part) : Each P v

theorem each_iff {P : Value → Prop} {v : Value} :
    v.Each P ↔ P v ∧ ∀ part ∈ v.parts, part.Each P := by
  constructor
  · rintro ⟨here, parts⟩
    exact ⟨here, parts⟩
  · rintro ⟨here, parts⟩
    exact .whole here parts

mutual

/-- What holds of a value as soon as it holds of its parts holds of every value. -/
theorem of_parts {motive : Value → Prop}
    (step : ∀ v, (∀ part ∈ v.parts, motive part) → motive v) : ∀ v : Value, motive v
  | .null | .bool _ | .int _ | .float _ | .string _ => step _ (by simp [parts])
  | .list items => step _ (of_parts_items step items)
  | .object fields => step _ (of_parts_fields step fields)

theorem of_parts_items {motive : Value → Prop}
    (step : ∀ v, (∀ part ∈ v.parts, motive part) → motive v) :
    ∀ items : List Value, ∀ part ∈ items, motive part
  | [] => by simp
  | item :: more => List.forall_mem_cons.mpr ⟨of_parts step item, of_parts_items step more⟩

theorem of_parts_fields {motive : Value → Prop}
    (step : ∀ v, (∀ part ∈ v.parts, motive part) → motive v) :
    ∀ fields : List (String × Value), ∀ part ∈ fields.map (·.2), motive part
  | [] => by simp
  | (_, value) :: more => List.forall_mem_cons.mpr ⟨of_parts step value, of_parts_fields step more⟩

end

/-- No float in the value is infinite or NaN. -/
def Finite (v : Value) : Prop :=
  v.Each fun
    | .float x => x.isFinite = true
    | _ => True

/-- No object in the value has two fields of one key. -/
def Keyed (v : Value) : Prop :=
  v.Each fun
    | .object fields => (fields.map (·.1)).Nodup
    | _ => True

/-- The same value, in whatever order its objects hold their fields. -/
inductive Same : Value → Value → Prop where
  | null : Same .null .null
  | bool (b : Bool) : Same (.bool b) (.bool b)
  | int (n : Int64) : Same (.int n) (.int n)
  | float (x : Float) : Same (.float x) (.float x)
  | string (s : String) : Same (.string s) (.string s)
  | list {items others : List Value} (each : List.Forall₂ Same items others) :
      Same (.list items) (.list others)
  | object {fields others : List (String × Value)}
      (keys : (fields.map (·.1)).Perm (others.map (·.1)))
      (each : ∀ key v w, (key, v) ∈ fields → (key, w) ∈ others → Same v w) :
      Same (.object fields) (.object others)

end Value

/-! ### JSON values and their parts -/

namespace Json

/-- The immediate parts of a JSON value. -/
def parts : Json → List Json
  | .array items => items
  | .object fields => fields.map (·.2)
  | _ => []

/-- The JSON value, and whatever is inside of it, is of a kind. -/
inductive Each (P : Json → Prop) : Json → Prop where
  | whole {j : Json} (here : P j) (parts : ∀ part ∈ j.parts, Each P part) : Each P j

theorem Each.here {P : Json → Prop} {j : Json} (h : j.Each P) : P j := by
  cases h with
  | whole here _ => exact here

theorem Each.part {P : Json → Prop} {j part : Json} (h : j.Each P) (hpart : part ∈ j.parts) :
    part.Each P := by
  cases h with
  | whole _ parts => exact parts part hpart

mutual

/-- What holds of a JSON value as soon as it holds of its parts holds of every JSON value. -/
theorem of_parts {motive : Json → Prop}
    (step : ∀ j, (∀ part ∈ j.parts, motive part) → motive j) : ∀ j : Json, motive j
  | .null | .bool _ | .integer _ | .float _ | .string _ => step _ (by simp [parts])
  | .array items => step _ (of_parts_items step items)
  | .object fields => step _ (of_parts_fields step fields)

theorem of_parts_items {motive : Json → Prop}
    (step : ∀ j, (∀ part ∈ j.parts, motive part) → motive j) :
    ∀ items : List Json, ∀ part ∈ items, motive part
  | [] => by simp
  | item :: more => List.forall_mem_cons.mpr ⟨of_parts step item, of_parts_items step more⟩

theorem of_parts_fields {motive : Json → Prop}
    (step : ∀ j, (∀ part ∈ j.parts, motive part) → motive j) :
    ∀ fields : List (String × Json), ∀ part ∈ fields.map (·.2), motive part
  | [] => by simp
  | (_, value) :: more => List.forall_mem_cons.mpr ⟨of_parts step value, of_parts_fields step more⟩

end

/-- What a document can hold: integers from the least of 64 bits with a sign to the greatest
without one, finite floats, and the fields of an object sorted by key, each key once. -/
def WellFormed (j : Json) : Prop :=
  j.Each fun
    | .integer n => -0x8000000000000000 ≤ n ∧ n < 0x10000000000000000
    | .float x => x.isFinite = true
    | .object fields => (fields.map (·.1)).Pairwise (· < ·)
    | _ => True

/-- Every integer in the JSON value has 64 bits with its sign. -/
def Narrow (j : Json) : Prop :=
  j.Each fun
    | .integer n => n < 0x8000000000000000
    | _ => True

mutual

/-- Every integer that 64 bits with a sign do not hold, and no other, becomes the nearest float. -/
def widened : Json → Json
  | .integer n =>
      if n < 0x8000000000000000 then .integer n else .float (Number.ofMagnitude false n.natAbs)
  | .array items => .array (widenedItems items)
  | .object fields => .object (widenedFields fields)
  | j => j

def widenedItems : List Json → List Json
  | [] => []
  | item :: more => item.widened :: widenedItems more

def widenedFields : List (String × Json) → List (String × Json)
  | [] => []
  | (key, value) :: more => (key, value.widened) :: widenedFields more

end

theorem widenedItems_eq (items : List Json) : widenedItems items = items.map widened := by
  induction items with
  | nil => rfl
  | cons item more ih => rw [widenedItems, ih, List.map_cons]

theorem widenedFields_eq (fields : List (String × Json)) :
    widenedFields fields = fields.map fun f => (f.1, f.2.widened) := by
  induction fields with
  | nil => rfl
  | cons field more ih => rw [widenedFields, ih, List.map_cons]

theorem widened_of_narrow (j : Json) : j.Narrow → j.widened = j := by
  induction j using of_parts with
  | step j ih =>
      intro h
      cases j with
      | integer n => exact if_pos h.here
      | array items =>
          have hitems : items.map widened = items.map id :=
            List.map_congr_left fun item hitem => ih item hitem (h.part hitem)
          rw [widened, widenedItems_eq, hitems, List.map_id]
      | object fields =>
          have hfields : fields.map (fun f => (f.1, f.2.widened)) = fields.map id := by
            refine List.map_congr_left fun f hf => ?_
            have hpart : f.2 ∈ (Json.object fields).parts := List.mem_map_of_mem hf
            exact Prod.ext rfl (ih f.2 hpart (h.part hpart))
          rw [widened, widenedFields_eq, hfields, List.map_id]
      | _ => rfl

/-! ### Sorting the fields of an object -/

variable {α : Type}

/-- The keys of a list of fields ascend. -/
def Ascending (fields : List (String × α)) : Prop :=
  fields.Pairwise fun f g => f.1 < g.1

theorem mem_insertField {key : String} {value : α} {fields : List (String × α)} {f : String × α}
    (h : f ∈ insertField key value fields) : f = (key, value) ∨ f ∈ fields := by
  induction fields with
  | nil => exact .inl (List.mem_singleton.mp h)
  | cons field more ih =>
      simp only [insertField] at h
      split at h
      · exact List.mem_cons.mp h
      · split at h
        · exact (List.mem_cons.mp h).imp_right (List.mem_cons_of_mem _)
        · rcases List.mem_cons.mp h with rfl | hmore
          · exact .inr List.mem_cons_self
          · exact (ih hmore).imp_right (List.mem_cons_of_mem _)

theorem Ascending.insertField {key : String} {value : α} {fields : List (String × α)}
    (h : Ascending fields) : Ascending (insertField key value fields) := by
  induction fields with
  | nil => exact List.pairwise_singleton _ _
  | cons field more ih =>
      obtain ⟨hfield, hmore⟩ := List.pairwise_cons.mp h
      simp only [Json.insertField]
      split
      · next hlt =>
          refine List.pairwise_cons.mpr ⟨List.forall_mem_cons.mpr ⟨hlt, ?_⟩, h⟩
          exact fun f hf => hlt.trans (hfield f hf)
      · next hnot =>
          split
          · next heq =>
              exact List.pairwise_cons.mpr ⟨fun f hf => heq ▸ hfield f hf, hmore⟩
          · next hne =>
              have hlt : field.1 < key := lt_of_le_of_ne (not_lt.mp hnot) (Ne.symm hne)
              refine List.pairwise_cons.mpr ⟨fun f hf => ?_, ih hmore⟩
              rcases mem_insertField hf with rfl | hf
              · exact hlt
              · exact hfield f hf

theorem insertField_perm {key : String} {value : α} {fields : List (String × α)}
    (hkey : key ∉ fields.map (·.1)) :
    (insertField key value fields).Perm ((key, value) :: fields) := by
  induction fields with
  | nil => exact .refl _
  | cons field more ih =>
      obtain ⟨hne, hmore⟩ := not_or.mp (List.mem_cons.not.mp hkey)
      simp only [insertField]
      split
      · exact .refl _
      · exact ((ih hmore).cons field).trans (.swap _ _ _)

/-- Sorting fields of different keys loses none of them. -/
theorem ofFields_eq {fields : List (String × Json)} (h : (fields.map (·.1)).Nodup) :
    ∃ sorted, ofFields fields = .object sorted ∧ sorted.Perm fields ∧ Ascending sorted := by
  have hfold : ∀ acc : List (String × Json), ((acc ++ fields).map (·.1)).Nodup → Ascending acc →
      (fields.foldl (fun acc f => insertField f.1 f.2 acc) acc).Perm (acc ++ fields) ∧
        Ascending (fields.foldl (fun acc f => insertField f.1 f.2 acc) acc) := by
    clear h
    induction fields with
    | nil =>
        intro acc _ hacc
        exact ⟨by rw [List.append_nil]; rfl, hacc⟩
    | cons field more ih =>
        intro acc hkeys hacc
        have hkey : field.1 ∉ acc.map (·.1) := by
          rw [List.map_append, List.map_cons, List.nodup_append] at hkeys
          exact fun hmem => hkeys.2.2 _ hmem _ List.mem_cons_self rfl
        have hperm : (insertField field.1 field.2 acc ++ more).Perm (acc ++ field :: more) :=
          ((insertField_perm hkey).append_right more).trans List.perm_middle.symm
        have hkeys' := (hperm.map (·.1)).nodup_iff.mpr hkeys
        obtain ⟨hall, hsorted⟩ := ih (insertField field.1 field.2 acc) hkeys' hacc.insertField
        exact ⟨hall.trans hperm, hsorted⟩
  obtain ⟨hperm, hsorted⟩ := hfold [] h .nil
  exact ⟨_, rfl, hperm, hsorted⟩

/-- Fields that are sorted stay as they are. -/
theorem ofFields_of_ascending {fields : List (String × Json)} (h : Ascending fields) :
    ofFields fields = .object fields := by
  have hkeys : (fields.map (·.1)).Nodup := (List.pairwise_map.mpr h).imp ne_of_lt
  obtain ⟨sorted, heq, hperm, hsorted⟩ := ofFields_eq hkeys
  rw [heq, hperm.eq_of_pairwise (fun f g _ _ hlt hgt => absurd hgt (lt_asymm hlt)) hsorted h]

end Json

namespace Value

open Json (Ascending)

/-! ### Reading and writing -/

theorem itemsOfJson_eq (items : List Json) : itemsOfJson items = items.map ofJson := by
  induction items with
  | nil => rfl
  | cons item more ih => rw [itemsOfJson, ih, List.map_cons]

theorem fieldsOfJson_eq (fields : List (String × Json)) :
    fieldsOfJson fields = fields.map fun f => (f.1, ofJson f.2) := by
  induction fields with
  | nil => rfl
  | cons field more ih => rw [fieldsOfJson, ih, List.map_cons]

theorem itemsToJson_ok_iff {items : List Value} {written : List Json} :
    itemsToJson items = .ok written ↔
      List.Forall₂ (fun v j => v.toJson = .ok j) items written := by
  induction items generalizing written with
  | nil => simp [itemsToJson, eq_comm]
  | cons item more ih =>
      simp only [itemsToJson, bind_eq_ok, ih, List.forall₂_cons_left_iff, Except.ok.injEq]
      constructor
      · rintro ⟨j, hj, js, hjs, rfl⟩
        exact ⟨j, js, hj, hjs, rfl⟩
      · rintro ⟨j, js, hj, hjs, rfl⟩
        exact ⟨j, hj, js, hjs, rfl⟩

theorem fieldsToJson_ok_iff {fields : List (String × Value)} {written : List (String × Json)} :
    fieldsToJson fields = .ok written ↔
      List.Forall₂ (fun f g => g.1 = f.1 ∧ f.2.toJson = .ok g.2) fields written := by
  induction fields generalizing written with
  | nil => simp [fieldsToJson, eq_comm]
  | cons field more ih =>
      simp only [fieldsToJson, bind_eq_ok, ih, List.forall₂_cons_left_iff, Except.ok.injEq]
      constructor
      · rintro ⟨j, hj, js, hjs, rfl⟩
        exact ⟨(field.1, j), js, ⟨rfl, hj⟩, hjs, rfl⟩
      · rintro ⟨⟨key, j⟩, js, ⟨rfl, hj⟩, hjs, rfl⟩
        exact ⟨j, hj, js, hjs, rfl⟩

/-- A row has an image under a relation when each of its members has. -/
theorem exists_forall₂_iff {α β : Type} {R : α → β → Prop} {xs : List α} :
    (∃ ys, List.Forall₂ R xs ys) ↔ ∀ x ∈ xs, ∃ y, R x y := by
  induction xs with
  | nil => simp
  | cons x xs ih =>
      rw [List.forall_mem_cons, ← ih]
      simp only [List.forall₂_cons_left_iff]
      constructor
      · rintro ⟨_, y, ys, hy, hys, rfl⟩
        exact ⟨⟨y, hy⟩, ys, hys⟩
      · rintro ⟨⟨y, hy⟩, ys, hys⟩
        exact ⟨y :: ys, y, ys, hy, hys, rfl⟩

theorem exists_of_mem_right {α β : Type} {R : α → β → Prop} {xs : List α} {ys : List β}
    (h : List.Forall₂ R xs ys) {y : β} (hy : y ∈ ys) : ∃ x ∈ xs, R x y := by
  induction h with
  | nil => cases hy
  | cons hhead _ ih =>
      rcases List.mem_cons.mp hy with rfl | hmore
      · exact ⟨_, List.mem_cons_self, hhead⟩
      · obtain ⟨x, hx, hR⟩ := ih hmore
        exact ⟨x, List.mem_cons_of_mem _ hx, hR⟩

/-- A relation between two rows need only be looked at where the first row has its members. -/
theorem forall₂_of_mem {α β : Type} {R S : α → β → Prop} {xs : List α} {ys : List β}
    (h : List.Forall₂ R xs ys) (hRS : ∀ x ∈ xs, ∀ y, R x y → S x y) : List.Forall₂ S xs ys := by
  have hboth := (List.forall₂_and_left _ _).mpr ⟨fun x hx => hx, h⟩
  exact hboth.imp fun x y hxy => hRS x hxy.1 y hxy.2

/-- A value is written exactly when all its floats are finite. -/
theorem toJson_ok_iff_finite (v : Value) : (∃ j, v.toJson = .ok j) ↔ v.Finite := by
  induction v using of_parts with
  | step v ih =>
      unfold Finite at ih ⊢
      rw [each_iff]
      cases v with
      | float x =>
          simp only [toJson, parts]
          cases x.isFinite <;> simp
      | list items =>
          have hitems : (∃ j, (Value.list items).toJson = .ok j) ↔
              ∃ js, itemsToJson items = .ok js := by
            simp only [toJson, bind_eq_ok]
            exact ⟨fun ⟨_, js, h, _⟩ => ⟨js, h⟩, fun ⟨js, h⟩ => ⟨_, js, h, rfl⟩⟩
          simp only [hitems, itemsToJson_ok_iff, exists_forall₂_iff, parts, true_and]
          exact forall₂_congr fun item hitem => ih item hitem
      | object fields =>
          have hfields : (∃ j, (Value.object fields).toJson = .ok j) ↔
              ∃ js, fieldsToJson fields = .ok js := by
            simp only [toJson, bind_eq_ok]
            exact ⟨fun ⟨_, js, h, _⟩ => ⟨js, h⟩, fun ⟨js, h⟩ => ⟨_, js, h, rfl⟩⟩
          simp only [hfields, fieldsToJson_ok_iff, exists_forall₂_iff, parts, true_and,
            List.forall_mem_map]
          refine forall₂_congr fun f hf => ?_
          rw [← ih f.2 (List.mem_map_of_mem hf)]
          exact ⟨fun ⟨g, _, h⟩ => ⟨g.2, h⟩, fun ⟨j, h⟩ => ⟨(f.1, j), rfl, h⟩⟩
      | _ => simp [toJson, parts]

theorem ofJson_toInt (n : Int64) : ofJson (.integer n.toInt) = .int n := by
  rw [ofJson, if_pos (Number.fits_toInt n), Int64.ofInt_toInt]

/-- The form of an object: the forms of its fields, sorted by key. -/
theorem object_toJson {fields : List (String × Value)} {j : Json}
    (hkeys : (fields.map (·.1)).Nodup) (h : (Value.object fields).toJson = .ok j) :
    ∃ sorted, j = .object sorted ∧ (sorted.map (·.1)).Perm (fields.map (·.1)) ∧
      Ascending sorted ∧ ∀ g ∈ sorted, ∃ v, (g.1, v) ∈ fields ∧ v.toJson = .ok g.2 := by
  obtain ⟨js, hfields, heq⟩ := bind_eq_ok.mp h
  obtain rfl := Except.ok.inj heq
  rw [fieldsToJson_ok_iff] at hfields
  have hsame : js.map (·.1) = fields.map (·.1) := by
    rw [← List.forall₂_eq_eq_eq, List.forall₂_map_left_iff, List.forall₂_map_right_iff]
    exact (hfields.imp fun f g hfg => hfg.1).flip
  obtain ⟨sorted, hsorted, hperm, hascending⟩ := Json.ofFields_eq (hsame ▸ hkeys)
  refine ⟨sorted, hsorted, hsame ▸ hperm.map _, hascending, fun g hg => ?_⟩
  obtain ⟨f, hf, hkey, hwritten⟩ := exists_of_mem_right hfields (hperm.mem_iff.mp hg)
  exact ⟨f.2, hkey ▸ hf, hwritten⟩

theorem list_toJson {items : List Value} {j : Json} (h : (Value.list items).toJson = .ok j) :
    ∃ js, j = .array js ∧ List.Forall₂ (fun v j => v.toJson = .ok j) items js := by
  obtain ⟨js, hitems, heq⟩ := bind_eq_ok.mp h
  exact ⟨js, (Except.ok.inj heq).symm, itemsToJson_ok_iff.mp hitems⟩

theorem float_toJson {x : Float} {j : Json} (h : (Value.float x).toJson = .ok j) :
    j = .float x ∧ x.isFinite = true := by
  simp only [toJson] at h
  split at h
  · next hfinite => exact ⟨(Except.ok.inj h).symm, hfinite⟩
  · cases h

/-- What is written is a document. -/
theorem wellFormed_of_toJson (v : Value) :
    ∀ j, v.Keyed → v.toJson = .ok j → j.WellFormed := by
  induction v using of_parts with
  | step v ih =>
      intro j hkeyed hwritten
      obtain ⟨hkeys, hparts⟩ := each_iff.mp hkeyed
      cases v with
      | null | bool b | string s =>
          obtain rfl := Except.ok.inj hwritten
          exact .whole trivial (by simp [Json.parts])
      | int n =>
          obtain rfl := Except.ok.inj hwritten
          have hle := n.le_toInt
          have hlt := n.toInt_lt
          exact .whole ⟨hle, by omega⟩ (by simp [Json.parts])
      | float x =>
          obtain ⟨rfl, hfinite⟩ := float_toJson hwritten
          exact .whole hfinite (by simp [Json.parts])
      | list items =>
          obtain ⟨js, rfl, hitems⟩ := list_toJson hwritten
          refine .whole trivial fun part hpart => ?_
          obtain ⟨item, hitem, hwritten⟩ := exists_of_mem_right hitems hpart
          exact ih item hitem part (hparts item hitem) hwritten
      | object fields =>
          obtain ⟨sorted, rfl, _, hascending, hfields⟩ := object_toJson hkeys hwritten
          refine .whole (List.pairwise_map.mpr hascending) fun part hpart => ?_
          obtain ⟨g, hg, rfl⟩ := List.mem_map.mp hpart
          obtain ⟨v, hv, hwritten⟩ := hfields g hg
          have hmem : v ∈ (Value.object fields).parts := List.mem_map_of_mem hv
          exact ih v hmem g.2 (hparts v hmem) hwritten

/-- What is written reads back as the same value. -/
theorem same_of_toJson (v : Value) : ∀ j, v.Keyed → v.toJson = .ok j → (ofJson j).Same v := by
  induction v using of_parts with
  | step v ih =>
      intro j hkeyed hwritten
      obtain ⟨hkeys, hparts⟩ := each_iff.mp hkeyed
      cases v with
      | null | bool b | string s =>
          obtain rfl := Except.ok.inj hwritten
          constructor
      | int n =>
          obtain rfl := Except.ok.inj hwritten
          rw [ofJson_toInt]
          exact .int n
      | float x =>
          obtain ⟨rfl, _⟩ := float_toJson hwritten
          exact .float x
      | list items =>
          obtain ⟨js, rfl, hitems⟩ := list_toJson hwritten
          have hsame : List.Forall₂ (fun item j => (ofJson j).Same item) items js :=
            forall₂_of_mem hitems fun item hitem j => ih item hitem j (hparts item hitem)
          rw [ofJson, itemsOfJson_eq]
          exact .list (List.forall₂_map_left_iff.mpr hsame.flip)
      | object fields =>
          obtain ⟨sorted, rfl, hperm, _, hfields⟩ := object_toJson hkeys hwritten
          rw [ofJson, fieldsOfJson_eq]
          refine .object (by rwa [List.map_map]) fun key v w hv hw => ?_
          obtain ⟨g, hg, heq⟩ := List.mem_map.mp hv
          obtain ⟨rfl, rfl⟩ := Prod.mk.inj heq
          obtain ⟨v, hv, hwritten⟩ := hfields g hg
          -- a key that occurs once has one value
          obtain rfl : v = w := congrArg Prod.snd (List.inj_on_of_nodup_map hkeys hv hw rfl)
          have hmem : v ∈ (Value.object fields).parts := List.mem_map_of_mem hv
          exact ih v hmem g.2 (hparts v hmem) hwritten

theorem toJson_ofJson_integer {n : Int} (hle : -0x8000000000000000 ≤ n)
    (hlt : n < 0x10000000000000000) :
    (ofJson (.integer n)).toJson = .ok (Json.integer n).widened := by
  rw [ofJson, Json.widened]
  split
  · next hrange =>
      rw [if_pos hrange.2, toJson, Int64.toInt_ofInt_of_le hrange.1 hrange.2]
  · next hrange =>
      have hwide : ¬ n < 0x8000000000000000 := fun hlt => hrange ⟨hle, hlt⟩
      have hsign : decide (n < 0) = false := by
        rw [decide_eq_false_iff_not]
        omega
      have hfinite : (Number.ofMagnitude false n.natAbs).isFinite = true :=
        Number.isFinite_toFloat _
      rw [if_neg hwide, hsign, toJson, if_pos hfinite]

/-- What is read is written again, with floats for the integers beyond those of a value. -/
theorem toJson_ofJson (j : Json) : j.WellFormed → (ofJson j).toJson = .ok j.widened := by
  induction j using Json.of_parts with
  | step j ih =>
      intro h
      cases j with
      | null | bool b | string s => rfl
      | integer n =>
          obtain ⟨hle, hlt⟩ := h.here
          exact toJson_ofJson_integer hle hlt
      | float x =>
          have hfinite : x.isFinite = true := h.here
          rw [ofJson, toJson, if_pos hfinite, Json.widened]
          all_goals simp
      | array items =>
          have hitems : itemsToJson (items.map ofJson) = .ok (items.map Json.widened) := by
            rw [itemsToJson_ok_iff, List.forall₂_map_left_iff, List.forall₂_map_right_iff,
              List.forall₂_same]
            exact fun item hitem => ih item hitem (h.part hitem)
          rw [ofJson, itemsOfJson_eq, toJson, hitems, Json.widened, Json.widenedItems_eq]
          rfl
      | object fields =>
          have hpart : ∀ f ∈ fields, f.2 ∈ (Json.object fields).parts := fun f hf =>
            List.mem_map_of_mem hf
          have hfields : fieldsToJson (fields.map fun f => (f.1, ofJson f.2)) =
              .ok (fields.map fun f => (f.1, f.2.widened)) := by
            rw [fieldsToJson_ok_iff, List.forall₂_map_left_iff, List.forall₂_map_right_iff,
              List.forall₂_same]
            exact fun f hf => ⟨rfl, ih f.2 (hpart f hf) (h.part (hpart f hf))⟩
          have hascending : Ascending (fields.map fun f => (f.1, f.2.widened)) :=
            List.pairwise_map.mpr (List.pairwise_map.mp h.here)
          rw [ofJson, fieldsOfJson_eq, toJson, hfields, Json.widened, Json.widenedFields_eq]
          exact congrArg Except.ok (Json.ofFields_of_ascending hascending)

/-- Values and JSON values are inverse to each other. A value is written exactly when its floats are
finite, and what is written is a document that reads back as the same value. A document is read and
written again as it was, except that an integer beyond those of a value comes back as its float. -/
theorem json_inverse {v : Value} (hv : v.Keyed) {j : Json} (hj : j.WellFormed) :
    ((∃ written, v.toJson = .ok written) ↔ v.Finite) ∧
      (∀ written, v.toJson = .ok written → written.WellFormed ∧ (ofJson written).Same v) ∧
        (ofJson j).toJson = .ok j.widened ∧
          (j.Narrow → (ofJson j).toJson = .ok j) := by
  refine ⟨toJson_ok_iff_finite v, ?_, toJson_ofJson j hj, ?_⟩
  · intro written h
    exact ⟨wellFormed_of_toJson v written hv h, same_of_toJson v written hv h⟩
  · intro hnarrow
    rw [toJson_ofJson j hj, Json.widened_of_narrow j hnarrow]

/-- Fields out of order, a float without a fraction, and the integers on both sides of the limit. -/
theorem json_inverse_of_numbers :
    let v : Value := .object [("b", .list [.int 1, .float 2.0]), ("a", .null)]
    let small : Json := .object [("a", .integer 9223372036854775807), ("b", .float 2.0)]
    let wide : Json := .array [.integer 9223372036854775808, .integer 3]
    v.Keyed ∧ v.Finite ∧ small.WellFormed ∧ small.Narrow ∧ wide.WellFormed ∧
      (∃ written, v.toJson = .ok written ∧ (ofJson written).Same v) ∧
        (ofJson small).toJson = .ok small ∧
          (ofJson wide).toJson = .ok (.array [.float 9223372036854775808.0, .integer 3]) := by
  intro v small wide
  have leaf {P : Value → Prop} {v : Value} (hnone : v.parts = []) (here : P v) : v.Each P :=
    .whole here (by simp [hnone])
  have leaf' {P : Json → Prop} {j : Json} (hnone : j.parts = []) (here : P j) : j.Each P :=
    .whole here (by simp [hnone])
  have both {α : Type} {P : α → Prop} {a b : α} (ha : P a) (hb : P b) : ∀ x ∈ [a, b], P x := by
    simp [ha, hb]
  have hkeyed : v.Keyed := by
    refine .whole (show ["b", "a"].Nodup by decide) ?_
    refine both (.whole trivial ?_) (leaf rfl trivial)
    exact both (leaf rfl trivial) (leaf rfl trivial)
  have hfinite : v.Finite := by
    refine .whole trivial ?_
    refine both (.whole trivial ?_) (leaf rfl trivial)
    exact both (leaf rfl trivial) (leaf rfl (by decide))
  have hsmall : small.WellFormed := by
    refine .whole (show ["a", "b"].Pairwise (· < ·) by decide) ?_
    exact both (leaf' rfl (by decide)) (leaf' rfl (by decide))
  have hnarrow : small.Narrow := by
    refine .whole trivial ?_
    exact both (leaf' rfl (by decide)) (leaf' rfl trivial)
  have hwide : wide.WellFormed := by
    refine .whole trivial ?_
    exact both (leaf' rfl (by decide)) (leaf' rfl (by decide))
  obtain ⟨hwritten, hsame, _, hsame'⟩ := json_inverse hkeyed hsmall
  obtain ⟨_, _, hwidened, _⟩ := json_inverse hkeyed hwide
  obtain ⟨written, h⟩ := hwritten.mpr hfinite
  exact ⟨hkeyed, hfinite, hsmall, hnarrow, hwide, ⟨written, h, (hsame written h).2⟩, hsame' hnarrow,
    hwidened⟩

end Value

end Scriptlet
