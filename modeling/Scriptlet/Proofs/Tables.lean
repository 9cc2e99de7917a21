import Mathlib.Data.List.Nodup
import Mathlib.Data.List.Perm.Subperm
import Scriptlet.Fields

/-!
Tables as lists of pairs in which no key is repeated: what a look-up finds, when two tables have
the same keys, and where a new field comes to stand.
-/

namespace Scriptlet

variable {κ β : Type}

section

variable [DecidableEq κ]

/-- In a map without repeated keys a look-up is membership. -/
theorem lookup_eq_some_iff_mem {map : List (κ × β)}
    (hnodup : (map.map (·.1)).Nodup) {key : κ} {v : β} :
    map.lookup key = some v ↔ (key, v) ∈ map := by
  induction map with
  | nil => simp
  | cons x rest ih =>
      obtain ⟨k, w⟩ := x
      simp only [List.map_cons, List.nodup_cons, List.mem_map] at hnodup
      by_cases hk : key = k
      · subst hk
        simp only [List.lookup_cons_self, Option.some.injEq, List.mem_cons, Prod.mk.injEq,
          true_and]
        constructor
        · intro h
          exact Or.inl h.symm
        · rintro (h | h)
          · exact h.symm
          · exact absurd ⟨(key, v), h, rfl⟩ hnodup.1
      · have hbeq : (key == k) = false := beq_false_of_ne hk
        simp only [List.lookup_cons, hbeq, List.mem_cons, Prod.mk.injEq, hk, false_and,
          false_or, ih hnodup.2]

theorem lookup_eq_none_iff_not_mem {map : List (κ × β)} {key : κ} :
    map.lookup key = none ↔ key ∉ map.map (·.1) := by
  rw [List.lookup_eq_none_iff]
  constructor
  · intro h hmem
    obtain ⟨x, hx, rfl⟩ := List.mem_map.mp hmem
    simpa using h x hx
  · intro h x hx
    have hne : key ≠ x.1 := fun heq => h (heq ▸ List.mem_map_of_mem hx)
    simpa using hne

theorem isSome_lookup_iff {map : List (κ × β)} {key : κ} :
    (map.lookup key).isSome = true ↔ key ∈ map.map (·.1) := by
  rw [← not_iff_not, ← lookup_eq_none_iff_not_mem, Option.not_isSome_iff_eq_none]

/-- A look-up in a table whose values have all been changed. -/
theorem lookup_map_snd {γ : Type} {f : β → γ} {map : List (κ × β)} {key : κ} :
    (map.map fun field => (field.1, f field.2)).lookup key = (map.lookup key).map f := by
  induction map with
  | nil => rfl
  | cons field more ih =>
      obtain ⟨k, v⟩ := field
      rw [List.map_cons, List.lookup_cons, List.lookup_cons, ih]
      cases key == k <;> rfl

end

/-- A table that has the keys of another, and no more of them, has no others. -/
theorem keys_perm {table other : List (κ × β)} (hnodup : (table.map (·.1)).Nodup)
    (hkeys : ∀ x ∈ table, x.1 ∈ other.map (·.1)) (hlength : table.length = other.length) :
    (table.map (·.1)).Perm (other.map (·.1)) := by
  have hsubset : table.map (·.1) ⊆ other.map (·.1) := by
    intro key hkey
    obtain ⟨x, hx, rfl⟩ := List.mem_map.mp hkey
    exact hkeys x hx
  apply (List.subperm_of_subset hnodup hsubset).perm_of_length_le
  simp only [List.length_map, hlength, Nat.le_refl]

/-- A field that is not there yet comes last. -/
theorem setField_of_not_mem {key : String} {value : β} {table : List (String × β)}
    (h : key ∉ table.map (·.1)) : setField key value table = table ++ [(key, value)] := by
  induction table with
  | nil => rfl
  | cons field more ih =>
      rw [List.map_cons, List.mem_cons, not_or] at h
      rw [setField, if_neg (Ne.symm h.1), ih h.2, List.cons_append]

end Scriptlet
