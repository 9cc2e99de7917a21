import Mathlib.Data.List.Nodup
import Mathlib.Data.List.Perm.Basic
import Scriptlet.Cache.Policy

/-!
The order in which a policy lets its keys go. The state of the least-recently-used policy is a bag
of ticks and that of the first-in-first-out policy is the line itself; `Tracks` says of both which
line of keys they stand for, and each hook is shown to do to the line what it should.
-/

namespace Scriptlet

/-- What a policy would let go, first to last, if it were asked again and again. -/
def Policy.order {κ σ : Type} (p : Policy κ σ) : Nat → σ → List κ
  | 0, _ => []
  | rounds + 1, s =>
      match p.evict s with
      | (none, _) => []
      | (some key, next) => key :: p.order rounds (p.onRemove key next)

variable {κ : Type} [DecidableEq κ]

/-- Puts a key at the end of a line that may hold it already. -/
def toBack (key : κ) (keys : List κ) : List κ :=
  keys.filter (· ≠ key) ++ [key]

/-- Taking out a key that is not there takes nothing out. -/
theorem filter_ne_of_not_mem {β : Type} (f : β → κ) {key : κ} {row : List β}
    (hkey : key ∉ row.map f) : row.filter (fun x => f x ≠ key) = row := by
  rw [List.filter_eq_self]
  intro x hx
  have hne : f x ≠ key := fun heq => hkey (heq ▸ List.mem_map_of_mem hx)
  simpa using hne

/-- The line after a key of it was used. -/
def Eviction.used (e : Eviction) (key : κ) (keys : List κ) : List κ :=
  match e with
  | .lru => toBack key keys
  | .fifo => keys

namespace Lru

/-- The ticks are those of the keys of a line, whose later keys have the later ticks. -/
def Orders (s : Lru κ) (keys : List κ) : Prop :=
  ∃ line : List (κ × Nat), s.ticks.Perm line ∧ line.Pairwise (fun x y => x.2 < y.2) ∧
    (∀ x ∈ line, x.2 ≤ s.clock) ∧ line.map (·.1) = keys

/-- A least pair is found unless there is none at all. -/
theorem oldest_spec {κ : Type} (ticks : List (κ × Nat)) :
    (oldest ticks = none ↔ ticks = []) ∧
      ∀ x, oldest ticks = some x → x ∈ ticks ∧ ∀ y ∈ ticks, x.2 ≤ y.2 := by
  induction ticks with
  | nil => simp [oldest]
  | cons p rest ih =>
      simp only [oldest]
      cases hrest : oldest rest with
      | none =>
          have hnil : rest = [] := ih.1.mp hrest
          simp [hnil]
      | some q =>
          obtain ⟨hmem, hleast⟩ := ih.2 q hrest
          by_cases hle : p.2 ≤ q.2
          · simp only [hle, if_true, Option.some.injEq]
            refine ⟨by simp, ?_⟩
            rintro x rfl
            refine ⟨by simp, ?_⟩
            intro y hy
            rcases List.mem_cons.mp hy with rfl | hy
            · exact Nat.le_refl _
            · exact Nat.le_trans hle (hleast y hy)
          · simp only [hle, if_false, Option.some.injEq]
            refine ⟨by simp, ?_⟩
            rintro x rfl
            refine ⟨List.mem_cons_of_mem _ hmem, ?_⟩
            intro y hy
            rcases List.mem_cons.mp hy with rfl | hy
            · omega
            · exact hleast y hy

/-- Of ticks in order the first is the least, however they are kept. -/
theorem oldest_eq_head? {κ : Type} {ticks line : List (κ × Nat)} (hperm : ticks.Perm line)
    (hline : line.Pairwise fun x y => x.2 < y.2) : oldest ticks = line.head? := by
  obtain ⟨hnone, hsome⟩ := oldest_spec ticks
  cases line with
  | nil =>
      rw [List.perm_nil.mp hperm]
      rfl
  | cons first rest =>
      cases holdest : oldest ticks with
      | none =>
          rw [hnone.mp holdest] at hperm
          exact absurd hperm.symm.eq_nil (by simp)
      | some x =>
          obtain ⟨hmem, hleast⟩ := hsome x holdest
          rcases List.mem_cons.mp (hperm.subset hmem) with rfl | hlater
          · rfl
          · have hle : x.2 ≤ first.2 := hleast first (hperm.symm.subset (by simp))
            have hlt : first.2 < x.2 := (List.pairwise_cons.mp hline).1 x hlater
            omega

theorem map_fst_filter {β : Type} (key : κ) (line : List (κ × β)) :
    (line.filter (·.1 ≠ key)).map (·.1) = (line.map (·.1)).filter (· ≠ key) := by
  rw [List.filter_map]
  rfl

theorem Orders.touch {s : Lru κ} {keys : List κ} (h : Orders s keys) (key : κ) :
    Orders (s.touch key) (toBack key keys) := by
  obtain ⟨line, hperm, hline, hclock, rfl⟩ := h
  have hkept : ∀ x ∈ line.filter (·.1 ≠ key), x.2 ≤ s.clock := by
    intro x hx
    exact hclock x (List.mem_of_mem_filter hx)
  refine ⟨line.filter (·.1 ≠ key) ++ [(key, s.clock + 1)], ?_, ?_, ?_, ?_⟩
  · exact ((hperm.filter _).cons _).trans (List.perm_append_singleton _ _).symm
  · rw [List.pairwise_append]
    refine ⟨hline.filter _, List.pairwise_singleton _ _, ?_⟩
    intro x hx y hy
    rw [List.mem_singleton.mp hy]
    exact Nat.lt_succ_of_le (hkept x hx)
  · intro x hx
    rcases List.mem_append.mp hx with hold | hnew
    · exact Nat.le_succ_of_le (hkept x hold)
    · rw [List.mem_singleton.mp hnew]
      exact Nat.le_refl _
  · rw [List.map_append, map_fst_filter]
    rfl

theorem Orders.remove {s : Lru κ} {keys : List κ} (h : Orders s keys) (key : κ) :
    Orders (policy.onRemove key s) (keys.filter (· ≠ key)) := by
  obtain ⟨line, hperm, hline, hclock, rfl⟩ := h
  refine ⟨line.filter (·.1 ≠ key), hperm.filter _, hline.filter _, ?_, map_fst_filter key line⟩
  intro x hx
  exact hclock x (List.mem_of_mem_filter hx)

theorem Orders.tracks_iff {s : Lru κ} {keys : List κ} (h : Orders s keys) {key : κ} :
    s.tracks key = true ↔ key ∈ keys := by
  obtain ⟨line, hperm, _, _, rfl⟩ := h
  simp only [Lru.tracks, List.any_eq_true, decide_eq_true_eq, List.mem_map]
  constructor
  · rintro ⟨x, hx, hkey⟩
    exact ⟨x, hperm.subset hx, hkey⟩
  · rintro ⟨x, hx, hkey⟩
    exact ⟨x, hperm.symm.subset hx, hkey⟩

end Lru

namespace NamedPolicy

/-- The state is one of the named policy and stands for the line of keys. -/
def Tracks : Eviction → NamedPolicy κ → List κ → Prop
  | .lru, .lru s, keys => s.Orders keys
  | .fifo, .fifo s, keys => s = keys
  | _, _, _ => False

variable {e : Eviction} {s : NamedPolicy κ} {keys : List κ}

omit [DecidableEq κ] in
theorem start_tracks (e : Eviction) : Tracks e (start e : NamedPolicy κ) [] := by
  cases e with
  | lru => exact ⟨[], List.Perm.refl _, List.Pairwise.nil, by simp, rfl⟩
  | fifo => rfl

theorem Tracks.onAdd (h : Tracks e s keys) (key : κ) :
    Tracks e (policy.onAdd key s) (toBack key keys) := by
  cases e <;> cases s <;> simp only [Tracks] at h
  · exact Lru.Orders.touch h key
  · subst h
    rfl

theorem Tracks.onRemove (h : Tracks e s keys) (key : κ) :
    Tracks e (policy.onRemove key s) (keys.filter (· ≠ key)) := by
  cases e <;> cases s <;> simp only [Tracks] at h
  · exact Lru.Orders.remove h key
  · subst h
    rfl

theorem Tracks.onAccess (h : Tracks e s keys) {key : κ} (hkey : key ∈ keys) :
    Tracks e (policy.onAccess key s) (e.used key keys) := by
  cases e <;> cases s <;> simp only [Tracks] at h
  · next s =>
      have htracked : s.tracks key = true := (Lru.Orders.tracks_iff h).mpr hkey
      simp only [Tracks, policy, Lru.policy, htracked, if_true]
      exact Lru.Orders.touch h key
  · exact h

/-- The victim is the first of the line, and asking for it changes nothing. -/
theorem Tracks.evict (h : Tracks e s keys) : policy.evict s = (keys.head?, s) := by
  cases e <;> cases s <;> simp only [Tracks] at h
  · obtain ⟨line, hperm, hline, _, rfl⟩ := h
    simp only [policy, Lru.policy, Lru.oldest_eq_head? hperm hline, List.head?_map]
  · subst h
    rfl

/-- The line is what the policy lets go, first to last. -/
theorem Tracks.order_eq (h : Tracks e s keys) (hnodup : keys.Nodup) (rounds : Nat) :
    policy.order rounds s = keys.take rounds := by
  induction rounds generalizing s keys with
  | zero => rfl
  | succ rounds ih =>
      simp only [Policy.order, h.evict]
      cases keys with
      | nil => rfl
      | cons key rest =>
          obtain ⟨hnew, hrest⟩ := List.nodup_cons.mp hnodup
          have hremoved := h.onRemove key
          have hsame : (key :: rest).filter (· ≠ key) = rest := by
            rw [List.filter_cons_of_neg (by simp)]
            exact filter_ne_of_not_mem (fun k => k) (by simpa using hnew)
          rw [hsame] at hremoved
          simp only [List.head?_cons, List.take_succ_cons, ih hremoved hrest]

end NamedPolicy

end Scriptlet
