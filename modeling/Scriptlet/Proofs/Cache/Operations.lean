import Scriptlet.Cache.Landing
import Scriptlet.Proofs.Tables

/-!
What each operation of the cache does, said once. Serving and dropping entries leaves everything
alone that is not an entry: `Drops` is that frame, and every operation short of a start, a landing
or the passing of time is inside it. Starts and landings are described by what they add to it.
-/

namespace Scriptlet

/-- What never changes about an entry after it was made. -/
def Entry.birth {α : Type} (e : Entry α) : α × Nat :=
  (e.payload, e.createdAt)

namespace Cache

variable {κ α ε σ : Type}

/-- What was ever made, with its time, in order. -/
def births (c : Cache κ α ε σ) : List (α × Nat) :=
  c.made.map Entry.birth

/-- The flight was started for the key and has not landed. -/
def InAir (c : Cache κ α ε σ) (key : κ) (flight : FlightId) : Prop :=
  c.flights[flight]? = some { key, outcome := none }

/-- `d` is `c` after entries were served or dropped: nothing was put in, made, started or
landed, and no time went by. -/
structure Drops (c d : Cache κ α ε σ) : Prop where
  limits : d.limits = c.limits
  now : d.now = c.now
  births : d.births = c.births
  flights : d.flights = c.flights
  inFlight : d.inFlight = c.inFlight
  entries : d.entries.Sublist c.entries

theorem Drops.refl (c : Cache κ α ε σ) : Drops c c :=
  ⟨rfl, rfl, rfl, rfl, rfl, List.Sublist.refl _⟩

theorem Drops.trans {c d e : Cache κ α ε σ} (hcd : Drops c d) (hde : Drops d e) :
    Drops c e :=
  ⟨hde.limits.trans hcd.limits, hde.now.trans hcd.now, hde.births.trans hcd.births,
    hde.flights.trans hcd.flights, hde.inFlight.trans hcd.inFlight,
    hde.entries.trans hcd.entries⟩

theorem length_births (c : Cache κ α ε σ) : c.births.length = c.made.length := by
  simp [births]

/-! ### Serving -/

theorem births_recordHit (id : EntryId) (made : List (Entry α)) :
    (recordHit id made).map Entry.birth = made.map Entry.birth := by
  apply List.ext_getElem?
  intro i
  by_cases hi : id = i
  · subst hi
    simp only [recordHit, List.getElem?_map, List.getElem?_modify_eq]
    cases made[id]? <;> rfl
  · simp only [recordHit, List.getElem?_map, List.getElem?_modify_ne _ _ hi]

variable [DecidableEq κ]

theorem lookup_drops (p : Policy κ σ) (key : κ) (c : Cache κ α ε σ) :
    Drops c (c.lookup p key).2 := by
  unfold lookup
  split
  · exact Drops.refl c
  · exact ⟨rfl, rfl, births_recordHit _ _, rfl, rfl, List.Sublist.refl _⟩

theorem lookup_entries (p : Policy κ σ) (key : κ) (c : Cache κ α ε σ) :
    (c.lookup p key).2.entries = c.entries := by
  unfold lookup
  split <;> rfl

/-! ### Dropping -/

theorem mem_without {β : Type} {key : κ} {map : List (κ × β)} {x : κ × β} :
    x ∈ without key map ↔ x ∈ map ∧ x.1 ≠ key := by
  simp [without]

theorem without_of_lookup_none {β : Type} {key : κ} {map : List (κ × β)}
    (h : map.lookup key = none) : without key map = map := by
  rw [List.lookup_eq_none_iff] at h
  unfold without
  rw [List.filter_eq_self]
  intro x hx
  have hne : x.1 ≠ key := fun heq => by simpa [heq] using h x hx
  simpa using hne

theorem forget_drops (p : Policy κ σ) (key : κ) (c : Cache κ α ε σ) :
    Drops c (c.forget p key) :=
  ⟨rfl, rfl, rfl, rfl, rfl, List.filter_sublist⟩

/-- Forgetting the keys of a row of entries one after the other. -/
theorem foldl_forget_drops (p : Policy κ σ) (row : List (κ × EntryId)) (c : Cache κ α ε σ) :
    Drops c (row.foldl (fun acc x => acc.forget p x.1) c) := by
  induction row generalizing c with
  | nil => exact Drops.refl c
  | cons x rest ih => exact (forget_drops p x.1 c).trans (ih _)

theorem foldl_forget_entries (p : Policy κ σ) (row : List (κ × EntryId))
    (c : Cache κ α ε σ) :
    (row.foldl (fun acc x => acc.forget p x.1) c).entries =
      c.entries.filter fun x => x.1 ∉ row.map (·.1) := by
  induction row generalizing c with
  | nil => simp
  | cons x rest ih =>
      rw [List.foldl_cons, ih]
      simp only [forget, without, List.filter_filter]
      apply List.filter_congr
      intro y _
      by_cases hy : y.1 = x.1 <;> simp [hy]

theorem remove_drops (p : Policy κ σ) (key : κ) (c : Cache κ α ε σ) :
    Drops c (c.remove p key).2 := by
  unfold remove
  split
  · exact forget_drops p key c
  · exact Drops.refl c

theorem clear_drops (p : Policy κ σ) (c : Cache κ α ε σ) : Drops c (c.clear p) :=
  foldl_forget_drops p c.entries c

theorem clear_entries (p : Policy κ σ) (c : Cache κ α ε σ) : (c.clear p).entries = [] := by
  refine (foldl_forget_entries p c.entries c).trans ?_
  rw [List.filter_eq_nil_iff]
  intro x hx
  simpa using ⟨x.2, hx⟩

theorem purgeExpired_drops (p : Policy κ σ) (c : Cache κ α ε σ) :
    Drops c (c.purgeExpired p).2 := by
  have h := foldl_forget_drops p (c.entries.filter fun x => !c.isLive x.2) c
  exact ⟨h.limits, h.now, h.births, h.flights, h.inFlight, h.entries⟩

/-- In a map without repeated keys a purge keeps exactly the live entries. -/
theorem purgeExpired_entries (p : Policy κ σ) {c : Cache κ α ε σ}
    (hnodup : (c.entries.map (·.1)).Nodup) :
    (c.purgeExpired p).2.entries = c.entries.filter fun x => c.isLive x.2 := by
  refine (foldl_forget_entries p _ c).trans ?_
  apply List.filter_congr
  intro x hx
  have hiff : x.1 ∈ (c.entries.filter fun y => !c.isLive y.2).map (·.1) ↔
      c.isLive x.2 = false := by
    simp only [List.mem_map, List.mem_filter, Bool.not_eq_true']
    constructor
    · rintro ⟨y, ⟨hy, hdead⟩, hkey⟩
      have hsame : y = x := List.inj_on_of_nodup_map hnodup hy hx hkey
      exact hsame ▸ hdead
    · intro hdead
      exact ⟨x, ⟨hx, hdead⟩, rfl⟩
  cases hlive : c.isLive x.2 <;> simp [hiff, hlive]

theorem evict_drops (p : Policy κ σ) (victim : κ) (c : Cache κ α ε σ) :
    Drops c (c.evict p victim) :=
  ⟨rfl, rfl, rfl, rfl, rfl, List.filter_sublist⟩

theorem trim_of_fits (p : Policy κ σ) {rounds : Nat} {c : Cache κ α ε σ}
    (h : c.fits = true) : trim p rounds c = some c := by
  cases rounds <;> simp [trim, h]

theorem trim_drops (p : Policy κ σ) {rounds : Nat} {c d : Cache κ α ε σ}
    (h : trim p rounds c = some d) : Drops c d := by
  induction rounds generalizing c with
  | zero =>
      simp only [trim] at h
      split at h
      · exact Option.some.inj h ▸ Drops.refl c
      · cases h
  | succ rounds ih =>
      simp only [trim] at h
      split at h
      · exact Option.some.inj h ▸ Drops.refl c
      · split at h
        · cases h
          exact ⟨rfl, rfl, rfl, rfl, rfl, List.Sublist.refl _⟩
        · next victim tracking _ =>
            have hframe : Drops c { c with tracking } :=
              ⟨rfl, rfl, rfl, rfl, rfl, List.Sublist.refl _⟩
            exact (hframe.trans (evict_drops p victim _)).trans (ih h)

end Cache

end Scriptlet
