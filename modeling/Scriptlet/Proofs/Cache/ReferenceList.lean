import Scriptlet.Proofs.Cache.Effect
import Scriptlet.Proofs.Cache.EvictionOrder

/-!
The bounded cache as one list. `Lane` is the list that the two named policies are meant to keep:
keys with the time at which they landed, the next victim first. `Refines` ties a cache to it, and
each operation of the cache is shown to do to the list what it should.

An expired entry stays in the map until it is swept, and in the list as well. So the list holds
more than the cache serves, and a use of a key is nothing to it unless the key has not expired.
-/

namespace Scriptlet

/-- Whether what landed at a time is served now. -/
def Limits.admits (limits : Limits) (now landed : Nat) : Bool :=
  match limits.timeToLive with
  | none => true
  | some lifetime => now - landed < lifetime.nanoseconds

/-- By how much a number of entries is too many. -/
def Limits.excess (limits : Limits) (count : Nat) : Nat :=
  match limits.maxEntries with
  | none => 0
  | some most => count - most

/-- The list of the keys, with the number of uses and of victims so far. -/
structure Lane (κ : Type) where
  now : Nat := 0
  items : List (κ × Nat) := []
  hits : Nat := 0
  evictions : Nat := 0

namespace Lane

/-- What can happen to the list. -/
inductive Event (κ : Type) where
  | rest
  | look (key : κ)
  | land (key : κ)
  | remove (key : κ)
  | clear
  | purge
  | wait (time : Duration)

variable {κ : Type} [DecidableEq κ]

/-- The items that have not expired. -/
def live (limits : Limits) (l : Lane κ) : List (κ × Nat) :=
  l.items.filter fun x => limits.admits l.now x.2

/-- The key is there and has not expired. -/
def holds (limits : Limits) (key : κ) (l : Lane κ) : Bool :=
  (l.live limits).any (·.1 = key)

/-- The items after one of them was used. -/
def sendBack (e : Eviction) (key : κ) (items : List (κ × Nat)) : List (κ × Nat) :=
  match e with
  | .lru => items.filter (·.1 ≠ key) ++ items.filter (·.1 = key)
  | .fifo => items

/-- Lets go of the first items as long as there are too many. -/
def trim (limits : Limits) (l : Lane κ) : Lane κ :=
  { l with
    items := l.items.drop (limits.excess l.items.length)
    evictions := l.evictions + limits.excess l.items.length }

def step (limits : Limits) (e : Eviction) (l : Lane κ) : Event κ → Lane κ
  | .rest => l
  | .look key =>
      if l.holds limits key then
        { l with items := sendBack e key l.items, hits := l.hits + 1 }
      else l
  | .land key => trim limits { l with items := l.live limits ++ [(key, l.now)] }
  | .remove key => { l with items := l.items.filter (·.1 ≠ key) }
  | .clear => { l with items := [] }
  | .purge => { l with items := l.live limits }
  | .wait time => { l with now := l.now + time.nanoseconds }

omit [DecidableEq κ] in
theorem length_live_le (limits : Limits) (l : Lane κ) :
    (l.live limits).length ≤ l.items.length :=
  List.length_filter_le _ _

theorem holds_iff {limits : Limits} {key : κ} {l : Lane κ} :
    l.holds limits key = true ↔
      ∃ landed, (key, landed) ∈ l.items ∧ limits.admits l.now landed = true := by
  simp only [holds, live, List.any_eq_true, List.mem_filter, decide_eq_true_eq]
  constructor
  · rintro ⟨x, ⟨hx, hlive⟩, rfl⟩
    exact ⟨x.2, hx, hlive⟩
  · rintro ⟨landed, hx, hlive⟩
    exact ⟨(key, landed), ⟨hx, hlive⟩, rfl⟩

theorem not_mem_live {limits : Limits} {key : κ} {l : Lane κ} (hkey : l.holds limits key = false) :
    key ∉ (l.live limits).map (·.1) := by
  intro hmem
  obtain ⟨x, hx, rfl⟩ := List.mem_map.mp hmem
  obtain ⟨hitem, hadmits⟩ := List.mem_filter.mp hx
  have hheld : l.holds limits x.1 = true := holds_iff.mpr ⟨x.2, hitem, hadmits⟩
  rw [hkey] at hheld
  cases hheld

theorem sendBack_perm (e : Eviction) (key : κ) (items : List (κ × Nat)) :
    (sendBack e key items).Perm items := by
  cases e with
  | lru =>
      have hsplit := List.filter_append_perm (fun x : κ × Nat => decide (x.1 ≠ key)) items
      simpa [sendBack] using hsplit
  | fifo => exact List.Perm.refl _

/-- In a list without repeated keys the items of a key are one at most. -/
theorem map_fst_sendBack (e : Eviction) {key : κ} {items : List (κ × Nat)}
    (hnodup : (items.map (·.1)).Nodup) (hkey : key ∈ items.map (·.1)) :
    (sendBack e key items).map (·.1) = e.used key (items.map (·.1)) := by
  cases e with
  | lru =>
      have hself : (items.filter (·.1 = key)).map (·.1) = [key] := by
        have hcomm : (items.filter (·.1 = key)).map (·.1) =
            (items.map (·.1)).filter (· = key) := by
          rw [List.filter_map]
          rfl
        rw [hcomm, List.filter_eq, List.count_eq_one_of_mem hnodup hkey]
        rfl
      simp only [sendBack, List.map_append, Lru.map_fst_filter, hself]
      rfl
  | fifo => rfl

/-- No event leaves more items than there may be. -/
theorem length_step_le {limits : Limits} {most : Nat} (hmost : limits.maxEntries = some most)
    (e : Eviction) {l : Lane κ} (hl : l.items.length ≤ most) (event : Event κ) :
    (l.step limits e event).items.length ≤ most := by
  cases event with
  | rest => exact hl
  | look key =>
      simp only [step]
      split
      · rw [(sendBack_perm e key l.items).length_eq]
        exact hl
      · exact hl
  | land key =>
      simp only [step, trim, Limits.excess, hmost, List.length_drop]
      omega
  | remove key => exact Nat.le_trans (List.length_filter_le _ _) hl
  | clear => exact Nat.zero_le _
  | purge => exact Nat.le_trans (length_live_le limits l) hl
  | wait time => exact hl

omit [DecidableEq κ] in
/-- Letting go of the first items makes as many victims of them. -/
theorem length_trim (limits : Limits) (l : Lane κ) :
    (l.trim limits).items.length + (l.trim limits).evictions = l.items.length + l.evictions := by
  have hexcess : limits.excess l.items.length ≤ l.items.length := by
    unfold Limits.excess
    cases limits.maxEntries with
    | none => exact Nat.zero_le _
    | some most => exact Nat.sub_le _ _
  simp only [trim, List.length_drop]
  omega

omit [DecidableEq κ] in
/-- Where there was room before, a landing lets go of one item at most. -/
theorem excess_land_le {limits : Limits} {l : Lane κ}
    (hl : ∀ most, limits.maxEntries = some most → l.items.length ≤ most) :
    limits.excess ((l.live limits).length + 1) ≤ 1 := by
  have hlive := length_live_le limits l
  unfold Limits.excess
  cases hmost : limits.maxEntries with
  | none => exact Nat.zero_le _
  | some most =>
      have hroom := hl most hmost
      simp only
      omega

/-- Where there may be any item at all, a landing does not let go of its own. -/
theorem mem_step_land {limits : Limits} (hroom : limits.maxEntries ≠ some 0) (e : Eviction)
    (key : κ) (l : Lane κ) : (key, l.now) ∈ (l.step limits e (.land key)).items := by
  have hexcess : limits.excess ((l.live limits).length + 1) ≤ (l.live limits).length := by
    unfold Limits.excess
    cases hmost : limits.maxEntries with
    | none => exact Nat.zero_le _
    | some most =>
        have hpos : most ≠ 0 := fun hzero => hroom (hzero ▸ hmost)
        simp only
        omega
  simp only [step, trim, List.length_append, List.length_singleton]
  rw [List.drop_append_of_le_length hexcess]
  simp

end Lane

namespace Cache

variable {κ α ε : Type}

/-- The time at which an entry was made. -/
def born? {σ : Type} (c : Cache κ α ε σ) (id : EntryId) : Option Nat :=
  c.births[id]?.map (·.2)

/-- The keys of the map with the times at which their entries were made. -/
def stamps {σ : Type} (c : Cache κ α ε σ) : List (κ × Option Nat) :=
  c.entries.map fun x => (x.1, c.born? x.2)

theorem isLive_eq {σ : Type} (c : Cache κ α ε σ) (id : EntryId) :
    c.isLive id = (c.born? id).any (c.limits.admits c.now) := by
  unfold Cache.isLive born? births
  rw [List.getElem?_map]
  cases c.made[id]? with
  | none => rfl
  | some e =>
      simp only [Option.map_some, Option.any_some, Entry.birth, isExpired, Limits.admits]
      cases c.limits.timeToLive with
      | none => rfl
      | some lifetime =>
          rw [← decide_not]
          exact decide_eq_decide.mpr Nat.not_le

/-- The keys that the policy would let go, first to last, as many as there are entries. -/
def line [DecidableEq κ] (c : Cache κ α ε (NamedPolicy κ)) : List κ :=
  NamedPolicy.policy.order c.entries.length c.tracking

/-- The cache keeps the list: the policy has its keys in order, and the map has its items. -/
structure Refines (limits : Limits) (e : Eviction) (c : Cache κ α ε (NamedPolicy κ))
    (l : Lane κ) : Prop where
  limits : c.limits = limits
  now : c.now = l.now
  nodup : (l.items.map (·.1)).Nodup
  tracks : NamedPolicy.Tracks e c.tracking (l.items.map (·.1))
  stamps : c.stamps.Perm (l.items.map fun x => (x.1, some x.2))
  hits : c.counters.hits = l.hits
  evictions : c.counters.evictions = l.evictions

namespace Refines

variable {limits : Limits} {e : Eviction} {c d : Cache κ α ε (NamedPolicy κ)} {l : Lane κ}

/-! ### What can be seen of the list -/

theorem keys_perm (h : Refines limits e c l) :
    (c.entries.map (·.1)).Perm (l.items.map (·.1)) := by
  have hkeys := h.stamps.map (·.1)
  simpa only [Cache.stamps, List.map_map, Function.comp_def] using hkeys

theorem length_entries (h : Refines limits e c l) : c.entries.length = l.items.length := by
  simpa only [List.length_map] using h.keys_perm.length_eq

theorem nodup_entries (h : Refines limits e c l) : (c.entries.map (·.1)).Nodup :=
  h.keys_perm.nodup_iff.mpr h.nodup

theorem mem_items_iff (h : Refines limits e c l) {key : κ} {landed : Nat} :
    (key, landed) ∈ l.items ↔ ∃ id, (key, id) ∈ c.entries ∧ c.born? id = some landed := by
  have hmem : (key, some landed) ∈ c.stamps ↔
      (key, some landed) ∈ l.items.map fun x => (x.1, some x.2) := h.stamps.mem_iff
  simp only [Cache.stamps, List.mem_map, Prod.mk.injEq, Option.some.injEq] at hmem
  constructor
  · intro hitem
    obtain ⟨x, hx, rfl, hborn⟩ := hmem.mpr ⟨(key, landed), hitem, rfl, rfl⟩
    exact ⟨x.2, hx, hborn⟩
  · rintro ⟨id, hentry, hborn⟩
    obtain ⟨x, hx, rfl, rfl⟩ := hmem.mp ⟨(key, id), hentry, rfl, hborn⟩
    exact hx

/-- Every entry of the map was made at some time. -/
theorem born_of_mem (h : Refines limits e c l) {x : κ × EntryId} (hx : x ∈ c.entries) :
    ∃ landed, c.born? x.2 = some landed := by
  have hstamp : (x.1, c.born? x.2) ∈ c.stamps := List.mem_map_of_mem hx
  obtain ⟨y, _, hy⟩ := List.mem_map.mp (h.stamps.subset hstamp)
  exact ⟨y.2, (congrArg Prod.snd hy).symm⟩

/-- The live entries are the live items. -/
theorem size_eq (h : Refines limits e c l) : c.size = (l.live limits).length := by
  have hlive := (h.stamps.filter fun x => x.2.any (limits.admits l.now)).length_eq
  rw [Cache.stamps, List.filter_map, List.filter_map, List.length_map, List.length_map] at hlive
  have hentries : (c.entries.filter fun x => c.isLive x.2) =
      c.entries.filter ((fun x => x.2.any (limits.admits l.now)) ∘
        fun x => (x.1, c.born? x.2)) := by
    apply List.filter_congr
    intro x _
    rw [isLive_eq, h.limits, h.now]
    rfl
  exact (congrArg List.length hentries).trans hlive

variable [DecidableEq κ]

theorem live?_eq_some_iff (h : Refines limits e c l) {key : κ} {id : EntryId} :
    c.live? key = some id ↔ (key, id) ∈ c.entries ∧ c.isLive id = true := by
  simp only [live?, Option.filter_eq_some_iff, lookup_eq_some_iff_mem h.nodup_entries]

theorem contains_eq (h : Refines limits e c l) (key : κ) :
    c.contains key = l.holds limits key := by
  rw [Bool.eq_iff_iff, Lane.holds_iff, contains, Option.isSome_iff_exists]
  constructor
  · rintro ⟨id, hid⟩
    obtain ⟨hentry, hlive⟩ := h.live?_eq_some_iff.mp hid
    obtain ⟨landed, hborn⟩ := h.born_of_mem hentry
    rw [isLive_eq, hborn, h.limits, h.now, Option.any_some] at hlive
    exact ⟨landed, h.mem_items_iff.mpr ⟨id, hentry, hborn⟩, hlive⟩
  · rintro ⟨landed, hitem, hlive⟩
    obtain ⟨id, hentry, hborn⟩ := h.mem_items_iff.mp hitem
    refine ⟨id, h.live?_eq_some_iff.mpr ⟨hentry, ?_⟩⟩
    rw [isLive_eq, hborn, h.limits, h.now, Option.any_some]
    exact hlive

theorem line_eq (h : Refines limits e c l) : c.line = l.items.map (·.1) := by
  rw [line, h.tracks.order_eq h.nodup, h.length_entries]
  exact List.take_of_length_le (by simp)

theorem not_mem_entries (h : Refines limits e c l) {key : κ} (hkey : key ∉ l.items.map (·.1)) :
    c.entries.lookup key = none :=
  lookup_eq_none_iff_not_mem.mpr fun hmem => hkey (h.keys_perm.subset hmem)

/-! ### Dropping -/

omit [DecidableEq κ] in
/-- What is not the map, the policy or one of two counters is nothing to the list. -/
theorem congr (h : Refines limits e c l) (hlimits : d.limits = c.limits) (hnow : d.now = c.now)
    (hbirths : d.births = c.births) (hentries : d.entries = c.entries)
    (htracking : d.tracking = c.tracking) (hhits : d.counters.hits = c.counters.hits)
    (hevictions : d.counters.evictions = c.counters.evictions) : Refines limits e d l := by
  refine ⟨hlimits.trans h.limits, hnow.trans h.now, h.nodup, ?_, ?_, hhits.trans h.hits,
    hevictions.trans h.evictions⟩
  · rw [htracking]
    exact h.tracks
  · have hstamps : d.stamps = c.stamps := by
      simp only [Cache.stamps, born?, hentries, hbirths]
    rw [hstamps]
    exact h.stamps

theorem forget (h : Refines limits e c l) (key : κ) :
    Refines limits e (c.forget NamedPolicy.policy key)
      { l with items := l.items.filter (·.1 ≠ key) } := by
  refine ⟨h.limits, h.now, h.nodup.sublist (List.filter_sublist.map _), ?_, ?_, h.hits,
    h.evictions⟩
  · rw [Lru.map_fst_filter]
    exact h.tracks.onRemove key
  · have hdropped := h.stamps.filter fun x => x.1 ≠ key
    rw [Cache.stamps, List.filter_map, List.filter_map] at hdropped
    exact hdropped

/-- Forgetting a row of keys one after the other takes them out of the list. -/
theorem forgetAll (h : Refines limits e c l) (row : List (κ × EntryId)) :
    Refines limits e (row.foldl (fun acc x => acc.forget NamedPolicy.policy x.1) c)
      { l with items := l.items.filter (·.1 ∉ row.map (·.1)) } := by
  induction row generalizing c l with
  | nil => simpa using h
  | cons x rest ih =>
      have hrest := ih (h.forget x.1)
      have hitems : (l.items.filter (·.1 ≠ x.1)).filter (·.1 ∉ rest.map (·.1)) =
          l.items.filter (·.1 ∉ (x :: rest).map (·.1)) := by
        rw [List.filter_filter]
        apply List.filter_congr
        intro y _
        by_cases hy : y.1 = x.1 <;> simp [hy]
      rw [← hitems]
      exact hrest

theorem remove (h : Refines limits e c l) (key : κ) :
    Refines limits e (c.remove NamedPolicy.policy key).2 (l.step limits e (.remove key)) := by
  unfold Cache.remove
  split
  · exact h.forget key
  · next hnone =>
      have habsent : key ∉ l.items.map (·.1) := by
        intro hmem
        rw [Option.not_isSome_iff_eq_none, lookup_eq_none_iff_not_mem] at hnone
        exact hnone (h.keys_perm.symm.subset hmem)
      simp only [Lane.step, filter_ne_of_not_mem Prod.fst habsent]
      exact h

theorem clear (h : Refines limits e c l) :
    Refines limits e (c.clear NamedPolicy.policy) (l.step limits e .clear) := by
  have hnone : l.items.filter (·.1 ∉ c.entries.map (·.1)) = [] := by
    rw [List.filter_eq_nil_iff]
    intro x hx
    simpa using h.keys_perm.symm.subset (List.mem_map_of_mem hx)
  have hall := h.forgetAll c.entries
  rw [hnone] at hall
  exact hall

/-- What a purge drops are the items that have expired. -/
theorem purgeExpired (h : Refines limits e c l) :
    Refines limits e (c.purgeExpired NamedPolicy.policy).2 (l.step limits e .purge) := by
  have hlive : l.items.filter (·.1 ∉ (c.entries.filter fun x => !c.isLive x.2).map (·.1)) =
      l.live limits := by
    apply List.filter_congr
    intro x hx
    obtain ⟨id, hentry, hborn⟩ := h.mem_items_iff.mp hx
    have hsame : c.isLive id = limits.admits l.now x.2 := by
      rw [isLive_eq, hborn, h.limits, h.now, Option.any_some]
    rw [← hsame, decide_not, Bool.not_eq_eq_eq_not, Bool.eq_iff_iff, decide_eq_true_eq,
      List.mem_map]
    constructor
    · rintro ⟨y, hy, hkey⟩
      obtain ⟨hmem, hdead⟩ := List.mem_filter.mp hy
      have heq : y = (x.1, id) := List.inj_on_of_nodup_map h.nodup_entries hmem hentry hkey
      rw [heq] at hdead
      exact hdead
    · intro hdead
      exact ⟨(x.1, id), List.mem_filter.mpr ⟨hentry, hdead⟩, rfl⟩
  have hall := h.forgetAll (c.entries.filter fun x => !c.isLive x.2)
  rw [hlive] at hall
  exact hall.congr rfl rfl rfl rfl rfl rfl rfl

/-! ### Serving and landing -/

/-- A use of a key counts if and only if the list has it and it has not expired. -/
theorem lookup (h : Refines limits e c l) (key : κ) :
    Refines limits e (c.lookup NamedPolicy.policy key).2 (l.step limits e (.look key)) := by
  have hcontains := h.contains_eq key
  cases hlive : c.live? key with
  | none =>
      have hholds : l.holds limits key = false := by
        rw [← hcontains, contains, hlive]
        rfl
      simp only [Cache.lookup, hlive, Lane.step, hholds]
      exact h
  | some id =>
      have hholds : l.holds limits key = true := by
        rw [← hcontains, contains, hlive]
        rfl
      have hkey : key ∈ l.items.map (·.1) :=
        h.keys_perm.subset (List.mem_map_of_mem (h.live?_eq_some_iff.mp hlive).1)
      have hsent := Lane.sendBack_perm e key l.items
      simp only [Cache.lookup, hlive, Lane.step, hholds, if_true]
      refine ⟨h.limits, h.now, (hsent.map _).nodup_iff.mpr h.nodup, ?_, ?_, ?_, h.evictions⟩
      · rw [Lane.map_fst_sendBack e h.nodup hkey]
        exact h.tracks.onAccess hkey
      · simp only [Cache.stamps, born?, births, births_recordHit]
        exact h.stamps.trans (hsent.map _).symm
      · exact congrArg (· + 1) h.hits

omit [DecidableEq κ] in
theorem make (h : Refines limits e c l) (payload : α) : Refines limits e (c.make payload) l := by
  have hstamps : (c.make payload).stamps = c.stamps := by
    apply List.map_congr_left
    intro x hx
    obtain ⟨landed, hborn⟩ := h.born_of_mem hx
    obtain ⟨birth, hbirth, _⟩ := Option.map_eq_some_iff.mp hborn
    have hlt := (List.getElem?_eq_some_iff.mp hbirth).1
    rw [born?, born?, births_make, List.getElem?_append_left hlt]
  refine ⟨h.limits, h.now, h.nodup, h.tracks, ?_, h.hits, h.evictions⟩
  rw [hstamps]
  exact h.stamps

/-- A key that the list does not have goes to its end. -/
theorem put (h : Refines limits e c l) {key : κ} {id : EntryId} {landed : Nat}
    (hkey : key ∉ l.items.map (·.1)) (hborn : c.born? id = some landed) :
    Refines limits e (put NamedPolicy.policy key id c)
      { l with items := l.items ++ [(key, landed)] } := by
  have hnone := h.not_mem_entries hkey
  have hback : toBack key (l.items.map (·.1)) = l.items.map (·.1) ++ [key] := by
    have hsame : (l.items.map (·.1)).filter (· ≠ key) = l.items.map (·.1) :=
      filter_ne_of_not_mem (fun k => k) (by simpa using hkey)
    rw [toBack, hsame]
  simp only [Cache.put, hnone, Option.isSome_none, Bool.false_eq_true, if_false]
  refine ⟨h.limits, h.now, ?_, ?_, ?_, h.hits, h.evictions⟩
  · rw [List.map_append]
    exact List.nodup_append_comm.mp (List.nodup_cons.mpr ⟨hkey, h.nodup⟩)
  · rw [List.map_append, List.map_singleton, ← hback]
    exact h.tracks.onAdd key
  · have happend := h.stamps.append_right [(key, some landed)]
    simp only [Cache.stamps, List.map_append, List.map_singleton] at happend ⊢
    rw [← hborn] at happend ⊢
    exact happend

omit [DecidableEq κ] in
theorem fits_iff (h : Refines limits e c l) :
    c.fits = true ↔ limits.excess l.items.length = 0 := by
  unfold fits Limits.excess
  rw [h.limits, h.length_entries]
  cases limits.maxEntries with
  | none => simp
  | some most => simp [Nat.sub_eq_zero_iff_le]

/-- A round of eviction takes the first item. -/
theorem evict {x : κ × Nat} {rest : List (κ × Nat)} (h : Refines limits e c l)
    (hitems : l.items = x :: rest) :
    Refines limits e (c.evict NamedPolicy.policy x.1)
      { l with items := rest, evictions := l.evictions + 1 } := by
  have hrest : l.items.filter (·.1 ≠ x.1) = rest := by
    have hnodup := h.nodup
    rw [hitems, List.map_cons, List.nodup_cons] at hnodup
    rw [hitems, List.filter_cons_of_neg (by simp)]
    exact filter_ne_of_not_mem Prod.fst hnodup.1
  have hforgot := h.forget x.1
  rw [hrest] at hforgot
  exact ⟨hforgot.limits, hforgot.now, hforgot.nodup, hforgot.tracks, hforgot.stamps, hforgot.hits,
    congrArg (· + 1) h.evictions⟩

omit [DecidableEq κ] in
theorem trim_of_excess_eq_zero (hzero : limits.excess l.items.length = 0) : l.trim limits = l := by
  simp only [Lane.trim, hzero, List.drop_zero, Nat.add_zero]

/-- Where there are too many items the first of them is the victim. -/
theorem victim (h : Refines limits e c l) (hexcess : limits.excess l.items.length ≠ 0) :
    ∃ x rest, l.items = x :: rest ∧ c.fits = false ∧
      NamedPolicy.policy.evict c.tracking = (some x.1, c.tracking) ∧
      limits.excess (rest.length + 1) = limits.excess rest.length + 1 := by
  have hfull : c.fits = false := by
    rw [Bool.eq_false_iff]
    exact fun hfits => hexcess (h.fits_iff.mp hfits)
  cases hitems : l.items with
  | nil =>
      rw [hitems] at hexcess
      exact absurd (by unfold Limits.excess; cases limits.maxEntries <;> simp) hexcess
  | cons x rest =>
      refine ⟨x, rest, rfl, hfull, ?_, ?_⟩
      · rw [h.tracks.evict, hitems]
        rfl
      · rw [hitems, List.length_cons] at hexcess
        unfold Limits.excess at hexcess ⊢
        cases hmost : limits.maxEntries with
        | none => simp [hmost] at hexcess
        | some most =>
            simp only [hmost] at hexcess ⊢
            omega

/-- One round of eviction, where there are too many items. -/
theorem trim_round (h : Refines limits e c l) (hexcess : limits.excess l.items.length ≠ 0)
    (rounds : Nat) :
    ∃ (d : Cache κ α ε (NamedPolicy κ)) (m : Lane κ),
      Cache.trim NamedPolicy.policy (rounds + 1) c = Cache.trim NamedPolicy.policy rounds d ∧
      Refines limits e d m ∧ l.trim limits = m.trim limits ∧
      limits.excess l.items.length = limits.excess m.items.length + 1 := by
  obtain ⟨x, rest, hitems, hfull, hvictim, hsucc⟩ := h.victim hexcess
  refine ⟨_, _, ?_, h.evict hitems, ?_, by rw [hitems]; exact hsucc⟩
  · rw [Cache.trim, hfull, hvictim]
    rfl
  · simp only [Lane.trim, hitems, List.length_cons, hsucc, List.drop_succ_cons, Nat.add_assoc,
      Nat.add_comm 1]

/-- The loop of eviction takes the first items as long as there are too many. -/
theorem trim {rounds : Nat} (h : Refines limits e c l)
    (htrim : Cache.trim NamedPolicy.policy rounds c = some d) :
    Refines limits e d (l.trim limits) := by
  induction rounds generalizing c l with
  | zero =>
      simp only [Cache.trim] at htrim
      split at htrim
      · next hfits =>
          obtain rfl := Option.some.inj htrim
          rw [trim_of_excess_eq_zero (h.fits_iff.mp hfits)]
          exact h
      · cases htrim
  | succ rounds ih =>
      by_cases hzero : limits.excess l.items.length = 0
      · rw [trim_of_fits _ (h.fits_iff.mpr hzero)] at htrim
        obtain rfl := Option.some.inj htrim
        rw [trim_of_excess_eq_zero hzero]
        exact h
      · obtain ⟨c', m, heq, hm, htrimmed, _⟩ := h.trim_round hzero rounds
        rw [htrimmed]
        exact ih hm (heq ▸ htrim)

/-- As many rounds as there are items too many are enough. -/
theorem trim_isSome {rounds : Nat} (h : Refines limits e c l)
    (hrounds : limits.excess l.items.length ≤ rounds) :
    (Cache.trim NamedPolicy.policy rounds c).isSome = true := by
  induction rounds generalizing c l with
  | zero => simp [trim_of_fits _ (h.fits_iff.mpr (Nat.le_zero.mp hrounds))]
  | succ rounds ih =>
      by_cases hzero : limits.excess l.items.length = 0
      · simp [trim_of_fits _ (h.fits_iff.mpr hzero)]
      · obtain ⟨c', m, heq, hm, _, hfewer⟩ := h.trim_round hzero rounds
        rw [heq]
        exact ih hm (by omega)

/-- The state of a landing before it evicts: swept, with the new entry at the end. -/
theorem put_make (h : Refines limits e c l) {key : κ} (hkey : l.holds limits key = false)
    (payload : α) :
    Refines limits e
      (Cache.put NamedPolicy.policy key c.made.length
        ((c.make payload).purgeExpired NamedPolicy.policy).2)
      { l with items := l.live limits ++ [(key, l.now)] } := by
  have hswept := (h.make payload).purgeExpired
  refine hswept.put (Lane.not_mem_live hkey) ?_
  rw [born?, (purgeExpired_drops NamedPolicy.policy (c.make payload)).births, births_make,
    ← length_births]
  simp [h.now]

/-- A key that is not served lands at the end of what has not expired. -/
theorem insert {key : κ} {payload : α} {rounds : Nat} (h : Refines limits e c l)
    (hkey : l.holds limits key = false)
    (hinsert : Cache.insert NamedPolicy.policy rounds key payload c = some d) :
    Refines limits e d (l.step limits e (.land key)) := by
  rw [insert_eq] at hinsert
  exact (h.put_make hkey payload).trim hinsert

theorem insert_isSome {key : κ} {rounds : Nat} (h : Refines limits e c l)
    (hkey : l.holds limits key = false) (payload : α)
    (hrounds : limits.excess ((l.live limits).length + 1) ≤ rounds) :
    (Cache.insert NamedPolicy.policy rounds key payload c).isSome = true := by
  rw [insert_eq]
  refine (h.put_make hkey payload).trim_isSome ?_
  simpa using hrounds

end Refines

end Cache

end Scriptlet
