import Mathlib.Data.List.Induction
import Scriptlet.Proofs.Cache.EvictionOrder

/-!
What a policy answers, told from the calls it was given and from nothing that it keeps. The calls
may be made in any order: a key may be added twice, used or removed without ever being added, and
the policy may be asked for a victim again and again. A key is added until it is removed, and a
policy that orders by use counts a use only of a key that is added. The victim is then the added key
that was last used the longest ago; a first-in-first-out policy counts nothing but additions.

The state of a policy stands for a line of keys, and `Line` says of the line which keys are in it,
when each of them was last used, and that it is sorted by that. Each call keeps it so.
-/

namespace Scriptlet

namespace Policy

variable {κ σ : Type}

/-- The key that a call is about; to ask for a victim is about none. -/
def Hook.key? : Hook κ → Option κ
  | .add key | .access key | .remove key => some key
  | .evict _ => none

/-- The state that a row of calls leads to. -/
def replay (p : Policy κ σ) (s : σ) (calls : List (Hook κ)) : σ :=
  calls.foldl (fun s call =>
    match call with
    | .add key => p.onAdd key s
    | .access key => p.onAccess key s
    | .remove key => p.onRemove key s
    | .evict _ => (p.evict s).2) s

theorem replay_append (p : Policy κ σ) (s : σ) (calls more : List (Hook κ)) :
    p.replay s (calls ++ more) = p.replay (p.replay s calls) more :=
  List.foldl_append

variable [DecidableEq κ]

/-- The key was added and not removed since. -/
def isAdded (key : κ) (calls : List (Hook κ)) : Bool :=
  calls.foldl (fun added call =>
    if call = .add key then true else if call = .remove key then false else added) false

theorem isAdded_concat (key : κ) (calls : List (Hook κ)) (call : Hook κ) :
    isAdded key (calls ++ [call]) =
      if call = .add key then true else if call = .remove key then false
      else isAdded key calls := by
  simp only [isAdded, List.foldl_append, List.foldl_cons, List.foldl_nil]

theorem isAdded_concat_of_ne {key : κ} {call : Hook κ} (hcall : call.key? ≠ some key)
    (calls : List (Hook κ)) : isAdded key (calls ++ [call]) = isAdded key calls := by
  have hadd : call ≠ .add key := fun heq => hcall (heq ▸ rfl)
  have hremove : call ≠ .remove key := fun heq => hcall (heq ▸ rfl)
  rw [isAdded_concat, if_neg hadd, if_neg hremove]

end Policy

variable {κ : Type} [DecidableEq κ]

namespace Eviction

open Policy (Hook isAdded)

/-- A call is a use of a key, after the calls before it: the key is added, or it is accessed while
it is added and the policy orders by use. -/
def Uses (e : Eviction) (before : List (Hook κ)) (key : κ) (call : Hook κ) : Prop :=
  call = .add key ∨ e = .lru ∧ call = .access key ∧ isAdded key before = true

/-- The call at place `i` is a use of the key. -/
def UsedAt (e : Eviction) (calls : List (Hook κ)) (key : κ) (i : Nat) : Prop :=
  ∃ call, calls[i]? = some call ∧ e.Uses (calls.take i) key call

/-- The key is used at place `i` and at no later one. -/
def LastUsedAt (e : Eviction) (calls : List (Hook κ)) (key : κ) (i : Nat) : Prop :=
  e.UsedAt calls key i ∧ ∀ j, e.UsedAt calls key j → j ≤ i

/-- A line of the keys that are added, each with the place of its last use, in the order of these
places. -/
structure Line (e : Eviction) (calls : List (Hook κ)) (line : List (κ × Nat)) : Prop where
  keys : ∀ key, key ∈ line.map (·.1) ↔ isAdded key calls = true
  lastUse : ∀ x ∈ line, e.LastUsedAt calls x.1 x.2
  ascending : line.Pairwise fun x y => x.2 < y.2

variable {e : Eviction} {calls : List (Hook κ)} {call : Hook κ} {key k : κ} {i j : Nat}
  {line less : List (κ × Nat)}

/-! ### One more call -/

theorem Uses.eq (h : e.Uses calls key call) (h' : e.Uses calls k call) : k = key := by
  rcases h with rfl | ⟨_, rfl, _⟩
  · rcases h' with heq | ⟨_, heq, _⟩
    · exact (Hook.add.inj heq).symm
    · cases heq
  · rcases h' with heq | ⟨_, heq, _⟩
    · cases heq
    · exact (Hook.access.inj heq).symm

/-- A key that is used is added, and no other key is added or removed. -/
theorem Uses.isAdded_iff (h : e.Uses calls key call) (k : κ) :
    isAdded k (calls ++ [call]) = true ↔ isAdded k calls = true ∨ k = key := by
  by_cases hk : k = key
  · subst hk
    rcases h with rfl | ⟨_, rfl, hadded⟩
    · simp [Policy.isAdded_concat]
    · simp [Policy.isAdded_concat, hadded]
  · have hother : call.key? ≠ some k := by
      rcases h with rfl | ⟨_, rfl, _⟩ <;> simpa [Hook.key?] using Ne.symm hk
    simp [Policy.isAdded_concat_of_ne hother, hk]

theorem usedAt_concat : e.UsedAt (calls ++ [call]) key i ↔
    e.UsedAt calls key i ∨ i = calls.length ∧ e.Uses calls key call := by
  rcases Nat.lt_trichotomy i calls.length with hlt | rfl | hgt
  · simp only [UsedAt, List.getElem?_append_left hlt,
      List.take_append_of_le_length (Nat.le_of_lt hlt), Nat.ne_of_lt hlt, false_and, or_false]
  · simp [UsedAt]
  · have hnone : (calls ++ [call])[i]? = none := List.getElem?_eq_none (by simp; omega)
    have hnone' : calls[i]? = none := List.getElem?_eq_none (Nat.le_of_lt hgt)
    simp [UsedAt, hnone, hnone', Nat.ne_of_gt hgt]

theorem UsedAt.lt (h : e.UsedAt calls key i) : i < calls.length := by
  obtain ⟨call, hcall, _⟩ := h
  exact (List.getElem?_eq_some_iff.mp hcall).1

theorem LastUsedAt.eq (h : e.LastUsedAt calls key i) (h' : e.LastUsedAt calls key j) : i = j :=
  Nat.le_antisymm (h'.2 i h.1) (h.2 j h'.1)

theorem Uses.lastUsedAt (h : e.Uses calls key call) :
    e.LastUsedAt (calls ++ [call]) key calls.length := by
  refine ⟨usedAt_concat.mpr (.inr ⟨rfl, h⟩), ?_⟩
  intro j hj
  rcases usedAt_concat.mp hj with hold | ⟨rfl, _⟩
  · exact Nat.le_of_lt hold.lt
  · exact Nat.le_refl _

theorem LastUsedAt.concat (h : e.LastUsedAt calls key i) (hcall : ¬ e.Uses calls key call) :
    e.LastUsedAt (calls ++ [call]) key i := by
  refine ⟨usedAt_concat.mpr (.inl h.1), ?_⟩
  intro j hj
  rcases usedAt_concat.mp hj with hold | ⟨_, huse⟩
  · exact h.2 j hold
  · exact absurd huse hcall

/-! ### The line -/

theorem map_fst_toBack (key : κ) (n : Nat) (line : List (κ × Nat)) :
    (line.filter (·.1 ≠ key) ++ [(key, n)]).map (·.1) = toBack key (line.map (·.1)) := by
  rw [List.map_append, Lru.map_fst_filter]
  rfl

theorem mem_toBack {keys : List κ} : k ∈ toBack key keys ↔ k ∈ keys ∨ k = key := by
  by_cases hk : k = key <;> simp [toBack, hk]

/-- The key that is used goes to the end of the line. -/
theorem Line.use (h : e.Line calls line) (huse : e.Uses calls key call) :
    e.Line (calls ++ [call]) (line.filter (·.1 ≠ key) ++ [(key, calls.length)]) where
  keys k := by
    rw [map_fst_toBack, mem_toBack, h.keys, huse.isAdded_iff]
  lastUse x hx := by
    rcases List.mem_append.mp hx with hold | hnew
    · obtain ⟨hmem, hne⟩ := List.mem_filter.mp hold
      refine (h.lastUse x hmem).concat ?_
      intro hother
      exact of_decide_eq_true hne (huse.eq hother)
    · obtain rfl := List.mem_singleton.mp hnew
      exact huse.lastUsedAt
  ascending := by
    rw [List.pairwise_append]
    refine ⟨h.ascending.filter _, List.pairwise_singleton _ _, ?_⟩
    intro x hx y hy
    obtain rfl := List.mem_singleton.mp hy
    exact (h.lastUse x (List.mem_of_mem_filter hx)).1.lt

/-- A call that is no use leaves the order alone; it may take a key out. -/
theorem Line.idle (h : e.Line calls line) (hidle : ∀ key, ¬ e.Uses calls key call)
    (hless : less.Sublist line)
    (hkeys : ∀ key, key ∈ less.map (·.1) ↔ isAdded key (calls ++ [call]) = true) :
    e.Line (calls ++ [call]) less where
  keys := hkeys
  lastUse x hx := (h.lastUse x (hless.subset hx)).concat (hidle x.1)
  ascending := h.ascending.sublist hless

/-- The first of the line is the key whose last use lies behind that of every other. -/
theorem Line.head?_eq_some_iff (h : e.Line calls line) :
    (line.map (·.1)).head? = some key ↔
      isAdded key calls = true ∧ ∃ i, e.LastUsedAt calls key i ∧
        ∀ other, isAdded other calls = true → other ≠ key →
          ∃ j, e.LastUsedAt calls other j ∧ i < j := by
  cases line with
  | nil =>
      have hnone : isAdded key calls ≠ true := by simp [← h.keys]
      simp [hnone]
  | cons first rest =>
      obtain ⟨hlater, -⟩ := List.pairwise_cons.mp h.ascending
      have hfirst := h.lastUse first List.mem_cons_self
      rw [List.map_cons, List.head?_cons, Option.some.injEq]
      constructor
      · rintro rfl
        refine ⟨(h.keys _).mp List.mem_cons_self, first.2, hfirst, ?_⟩
        intro other hadded hne
        obtain ⟨x, hx, rfl⟩ := List.mem_map.mp ((h.keys other).mpr hadded)
        rcases List.mem_cons.mp hx with rfl | hrest
        · exact absurd rfl hne
        · exact ⟨x.2, h.lastUse x hx, hlater x hrest⟩
      · rintro ⟨hadded, i, hi, hbehind⟩
        by_contra hne
        obtain ⟨x, hx, rfl⟩ := List.mem_map.mp ((h.keys key).mpr hadded)
        rcases List.mem_cons.mp hx with rfl | hrest
        · exact hne rfl
        · obtain ⟨j, hj, hlt⟩ := hbehind first.1 ((h.keys _).mp List.mem_cons_self) hne
          have hbefore := hlater x hrest
          rw [hi.eq (h.lastUse x hx), hj.eq hfirst] at hlt
          omega

theorem Line.head?_eq_none_iff (h : e.Line calls line) :
    (line.map (·.1)).head? = none ↔ ∀ key, isAdded key calls = false := by
  rw [List.head?_eq_none_iff, List.eq_nil_iff_forall_not_mem]
  simp only [h.keys, Bool.not_eq_true]

end Eviction

/-! ### The ticks -/

namespace Lru

variable {s : Lru κ} {keys : List κ}

omit [DecidableEq κ] in
/-- A tick is given once, so that no two keys can be the oldest. -/
theorem Orders.nodup_ticks (h : Orders s keys) : (s.ticks.map (·.2)).Nodup := by
  obtain ⟨line, hperm, hline, -, -⟩ := h
  rw [(hperm.map _).nodup_iff]
  exact (List.pairwise_map.mpr hline).imp Nat.ne_of_lt

omit [DecidableEq κ] in
theorem Orders.le_clock (h : Orders s keys) : ∀ x ∈ s.ticks, x.2 ≤ s.clock := by
  obtain ⟨line, hperm, -, hclock, -⟩ := h
  intro x hx
  exact hclock x (hperm.subset hx)

/-- The order in which the ticks are kept makes no difference to the victim. -/
theorem Orders.evict_perm (h : Orders s keys) {ticks : List (κ × Nat)}
    (hticks : ticks.Perm s.ticks) :
    policy.evict { s with ticks } = ((policy.evict s).1, { s with ticks }) := by
  obtain ⟨line, hperm, hline, -, -⟩ := h
  simp only [policy, oldest_eq_head? (hticks.trans hperm) hline, oldest_eq_head? hperm hline]

/-- A call counts the clock on by one at most. -/
theorem clock_replay_le (calls : List (Policy.Hook κ)) :
    (policy.replay ({} : Lru κ) calls).clock ≤ calls.length := by
  induction calls using List.reverseRecOn with
  | nil => exact Nat.le_refl _
  | append_singleton calls call ih =>
      have hstep (s : Lru κ) : (policy.replay s [call]).clock ≤ s.clock + 1 := by
        cases call with
        | access key =>
            change (if s.tracks key then s.touch key else s).clock ≤ s.clock + 1
            split
            · exact Nat.le_refl _
            · exact Nat.le_succ _
        | add key => exact Nat.le_refl _
        | remove key => exact Nat.le_succ _
        | evict answer => exact Nat.le_succ _
      rw [Policy.replay_append, List.length_append, List.length_singleton]
      exact Nat.le_trans (hstep _) (Nat.succ_le_succ ih)

end Lru

/-! ### Any row of calls -/

namespace NamedPolicy

open Policy (Hook isAdded)

variable {e : Eviction} {s : NamedPolicy κ} {keys : List κ}

/-- Using a key is nothing to a policy that does not order by use or does not track the key. -/
theorem Tracks.onAccess_eq_self (h : Tracks e s keys) {key : κ} (hkey : e = .lru → key ∉ keys) :
    policy.onAccess key s = s := by
  cases e <;> cases s <;> simp only [Tracks] at h
  · next s =>
      have htracked : s.tracks key = false :=
        Bool.eq_false_iff.mpr fun htracks => hkey rfl ((Lru.Orders.tracks_iff h).mp htracks)
      simp [policy, Lru.policy, htracked]
  · rfl

/-- However a named policy was driven, it keeps the line of the keys that are added. -/
theorem replay_line (e : Eviction) (calls : List (Hook κ)) :
    ∃ line, Tracks e (policy.replay (start e) calls) (line.map (·.1)) ∧ e.Line calls line := by
  induction calls using List.reverseRecOn with
  | nil => exact ⟨[], start_tracks e, by simp [isAdded], by simp, .nil⟩
  | append_singleton calls call ih =>
      obtain ⟨line, htracks, hline⟩ := ih
      simp only [Policy.replay_append]
      cases call with
      | add key =>
          refine ⟨_, ?_, hline.use (.inl rfl)⟩
          rw [Eviction.map_fst_toBack]
          exact htracks.onAdd key
      | access key =>
          have hsame (k : κ) : isAdded k (calls ++ [.access key]) = isAdded k calls := by
            simp [Policy.isAdded_concat]
          -- the policy ignores an access exactly where the history does not count it as a use
          by_cases hcounts : e = .lru ∧ isAdded key calls = true
          · obtain ⟨rfl, hadded⟩ := hcounts
            refine ⟨_, ?_, hline.use (.inr ⟨rfl, rfl, hadded⟩)⟩
            rw [Eviction.map_fst_toBack]
            exact htracks.onAccess ((hline.keys key).mpr hadded)
          · refine ⟨line, ?_, hline.idle ?_ (List.Sublist.refl _) ?_⟩
            · change Tracks e (policy.onAccess key _) _
              rw [htracks.onAccess_eq_self]
              · exact htracks
              · intro hlru hmem
                exact hcounts ⟨hlru, (hline.keys key).mp hmem⟩
            · rintro k (heq | ⟨hlru, heq, hadded⟩)
              · cases heq
              · obtain rfl := Hook.access.inj heq
                exact hcounts ⟨hlru, hadded⟩
            · intro k
              rw [hsame, hline.keys]
      | remove key =>
          refine ⟨line.filter (·.1 ≠ key), ?_, hline.idle ?_ List.filter_sublist ?_⟩
          · rw [Lru.map_fst_filter]
            exact htracks.onRemove key
          · rintro k (heq | ⟨_, heq, _⟩) <;> cases heq
          · intro k
            rw [Lru.map_fst_filter, List.mem_filter, hline.keys, Policy.isAdded_concat]
            by_cases hk : k = key
            · simp [hk]
            · simp [hk, Ne.symm hk]
      | evict answer =>
          refine ⟨line, ?_, hline.idle ?_ (List.Sublist.refl _) ?_⟩
          · change Tracks e (policy.evict _).2 _
            rw [htracks.evict]
            exact htracks
          · rintro k (heq | ⟨_, heq, _⟩) <;> cases heq
          · intro k
            rw [Policy.isAdded_concat_of_ne (by simp [Hook.key?]), hline.keys]

/-- The state of the policy that orders by use, without the name. -/
theorem replay_lru (calls : List (Hook κ)) :
    policy.replay (start .lru) calls = .lru (Lru.policy.replay {} calls) := by
  induction calls using List.reverseRecOn with
  | nil => rfl
  | append_singleton calls call ih =>
      rw [Policy.replay_append, Policy.replay_append, ih]
      cases call <;> rfl

/-- Whatever calls were made of a policy, it answers by them alone. Its victim is the added key
whose last use lies behind that of every other added key; it has none exactly when no key is added;
and to be asked changes nothing. The policy that orders by use gives every key a tick of its own, of
which there are no more than calls, so it has one answer in whatever order it keeps the ticks. -/
theorem evicts_by_history (e : Eviction) (calls : List (Hook κ)) :
    (∀ key, (policy.evict (policy.replay (start e) calls)).1 = some key ↔
      isAdded key calls = true ∧ ∃ i, e.LastUsedAt calls key i ∧
        ∀ other, isAdded other calls = true → other ≠ key →
          ∃ j, e.LastUsedAt calls other j ∧ i < j) ∧
    ((policy.evict (policy.replay (start e) calls)).1 = none ↔
      ∀ key, isAdded key calls = false) ∧
    (policy.evict (policy.replay (start e) calls)).2 = policy.replay (start e) calls ∧
    ∃ s : Lru κ, policy.replay (start .lru) calls = .lru s ∧ s.clock ≤ calls.length ∧
      (s.ticks.map (·.2)).Nodup ∧ (∀ x ∈ s.ticks, x.2 ≤ s.clock) ∧
        ∀ ticks, ticks.Perm s.ticks →
          Lru.policy.evict { s with ticks } = ((Lru.policy.evict s).1, { s with ticks }) := by
  obtain ⟨line, htracks, hline⟩ := replay_line e calls
  rw [htracks.evict]
  refine ⟨fun key => hline.head?_eq_some_iff, hline.head?_eq_none_iff, rfl,
    Lru.policy.replay {} calls, replay_lru calls, Lru.clock_replay_le calls, ?_⟩
  obtain ⟨lruLine, hlru, -⟩ := replay_line .lru calls
  rw [replay_lru] at hlru
  exact ⟨hlru.nodup_ticks, hlru.le_clock, fun ticks hticks => hlru.evict_perm hticks⟩

/-- A key is used and another removed that were never added, and one is added twice. The oldest use
is that of key 3, and the oldest addition that of key 2. -/
theorem evicts_by_history_of_strangers :
    let calls : List (Hook Nat) :=
      [.access 9, .add 1, .add 2, .add 3, .evict none, .add 1, .remove 9, .access 2]
    (∃ i, Eviction.lru.LastUsedAt calls 3 i ∧ ∀ other, isAdded other calls = true → other ≠ 3 →
        ∃ j, Eviction.lru.LastUsedAt calls other j ∧ i < j) ∧
      (∃ i, Eviction.fifo.LastUsedAt calls 2 i ∧ ∀ other, isAdded other calls = true → other ≠ 2 →
        ∃ j, Eviction.fifo.LastUsedAt calls other j ∧ i < j) ∧
      ∃ s : Lru Nat, policy.replay (start .lru) calls = .lru s ∧
        (Lru.policy.evict { s with ticks := s.ticks.reverse }).1 = some 3 := by
  intro calls
  have holdest : (policy.evict (policy.replay (start .lru) calls)).1 = some 3 := by decide
  have hfirst : (policy.evict (policy.replay (start .fifo) calls)).1 = some 2 := by decide
  obtain ⟨hlru, -, -, s, hs, -, -, -, hperm⟩ := evicts_by_history .lru calls
  obtain ⟨hfifo, -⟩ := evicts_by_history .fifo calls
  refine ⟨((hlru 3).mp holdest).2, ((hfifo 2).mp hfirst).2, s, hs, ?_⟩
  rw [hperm _ (List.reverse_perm _)]
  rw [hs] at holdest
  exact holdest

end NamedPolicy

end Scriptlet
