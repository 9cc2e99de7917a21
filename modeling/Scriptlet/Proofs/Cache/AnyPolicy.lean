import Scriptlet.Proofs.Cache.ExtraPurges
import Scriptlet.Proofs.Cache.SingleFlight

/-!
Eviction under any policy. A policy is asked to pick an entry, and nothing holds it to that. An
answer that is in the map makes it smaller, so a round for every entry is enough, and one more for
every answer that is not. A policy may also have no answer, and then the eviction is over and the
map is left too large.
-/

namespace Scriptlet

namespace Cache

variable {κ α ε σ : Type} [DecidableEq κ]

/-- In how many of so many rounds the policy names a key that is not in the map. -/
def absences (p : Policy κ σ) : Nat → Cache κ α ε σ → Nat
  | 0, _ => 0
  | rounds + 1, c =>
      if c.fits then 0
      else
        match p.evict c.tracking with
        | (none, _) => 0
        | (some victim, tracking) =>
            (if victim ∈ c.entries.map (·.1) then 0 else 1) +
              absences p rounds (evict p victim { c with tracking })

/-- The cache when the last of so many rounds begins: it fits, or the policy has no answer, or it is
the round after all of them. -/
def lastRound (p : Policy κ σ) : Nat → Cache κ α ε σ → Cache κ α ε σ
  | 0, c => c
  | rounds + 1, c =>
      if c.fits then c
      else
        match p.evict c.tracking with
        | (none, _) => c
        | (some victim, tracking) => lastRound p rounds (evict p victim { c with tracking })

/-- The cache of a landing when its eviction begins: swept, and with the new entry. -/
def filled (p : Policy κ σ) (key : κ) (payload : α) (c : Cache κ α ε σ) : Cache κ α ε σ :=
  put p key c.made.length (c.readied p payload)

variable {p : Policy κ σ} {rounds : Nat} {c d : Cache κ α ε σ}
  {landing : Option (FlightId × Except ε α)}

/-! ### The keys of the map -/

theorem nodup_replace {β : Type} {map : List (κ × β)} (hnodup : (map.map (·.1)).Nodup) (key : κ)
    (v : β) : ((without key map ++ [(key, v)]).map (·.1)).Nodup := by
  rw [List.map_append]
  have hkept : ((without key map).map (·.1)).Nodup := hnodup.sublist (List.filter_sublist.map _)
  have hfresh : key ∉ (without key map).map (·.1) := by
    intro hmem
    obtain ⟨x, hx, hkey⟩ := List.mem_map.mp hmem
    exact (mem_without.mp hx).2 hkey
  exact List.nodup_append_comm.mp (List.nodup_cons.mpr ⟨hfresh, hkept⟩)

/-- No step puts a key into the map twice. -/
theorem Effect.nodup_entries (h : Effect p c landing d) (hnodup : (c.entries.map (·.1)).Nodup) :
    (d.entries.map (·.1)).Nodup := by
  cases h with
  | drops h => exact hnodup.sublist (h.entries.map _)
  | waits time => exact hnodup
  | starts _ _ => exact hnodup
  | fails e counters hair => exact hnodup
  | lands hair h =>
      obtain ⟨kept, hkept, hentries⟩ := (insert_inserts p h).entries
      exact (nodup_replace (hnodup.sublist (hkept.map _)) _ _).sublist (hentries.map _)

theorem readied_entries_sublist (p : Policy κ σ) (payload : α) (c : Cache κ α ε σ) :
    (c.readied p payload).entries.Sublist c.entries :=
  (purgeExpired_drops p (({ c with
    counters := { c.counters with compiles := c.counters.compiles + 1 } } :
      Cache κ α ε σ).make payload)).entries

theorem filled_nodup (hnodup : (c.entries.map (·.1)).Nodup) (key : κ) (payload : α) :
    ((c.filled p key payload).entries.map (·.1)).Nodup := by
  rw [filled, put_entries]
  exact nodup_replace (hnodup.sublist ((readied_entries_sublist p payload c).map _)) key _

theorem length_filled_le (key : κ) (payload : α) (c : Cache κ α ε σ) :
    (c.filled p key payload).entries.length ≤ c.entries.length + 1 := by
  rw [filled, put_entries, List.length_append, List.length_singleton]
  exact Nat.succ_le_succ (Nat.le_trans (List.length_filter_le _ _)
    (readied_entries_sublist p payload c).length_le)

theorem filled_evictions (hnodup : (c.entries.map (·.1)).Nodup) (key : κ) (payload : α) :
    (c.filled p key payload).counters.evictions = c.counters.evictions := by
  have hput := (put_frame p key c.made.length (c.readied p payload)).2.2.2.2.2
  obtain ⟨tracking, hreadied⟩ := readied_eq p hnodup payload
  rw [filled, hput, hreadied]

/-! ### The rounds -/

/-- With more rounds than it takes a trim comes to the same end. -/
theorem trim_mono (h : trim p rounds c = some d) {more : Nat} (hle : rounds ≤ more) :
    trim p more c = some d := by
  induction rounds generalizing c more with
  | zero =>
      simp only [trim] at h
      split at h
      · next hfits => rw [trim_of_fits p hfits, h]
      · cases h
  | succ rounds ih =>
      obtain ⟨more, rfl⟩ := Nat.exists_eq_succ_of_ne_zero (Nat.ne_of_gt (Nat.lt_of_lt_of_le
        (Nat.succ_pos rounds) hle))
      simp only [trim] at h ⊢
      split at h
      · next hfits => rw [if_pos hfits, h]
      · next hfull =>
          rw [if_neg hfull]
          split at h
          · exact h
          · exact ih h (Nat.le_of_succ_le_succ hle)

theorem trim_unique (h : trim p rounds c = some d) {rounds' : Nat} {d' : Cache κ α ε σ}
    (h' : trim p rounds' c = some d') : d' = d := by
  have hmore := trim_mono h (Nat.le_max_left rounds rounds')
  rw [trim_mono h' (Nat.le_max_right rounds rounds')] at hmore
  exact Option.some.inj hmore

/-- One round: the cache fits, or the policy has no answer, or it names a key. -/
theorem round_cases (p : Policy κ σ) (rounds : Nat) (c : Cache κ α ε σ) :
    c.fits = true ∨
    (∃ s, c.fits = false ∧ p.evict c.tracking = (none, s)) ∨
    ∃ victim tracking, c.fits = false ∧ p.evict c.tracking = (some victim, tracking) ∧
      trim p (rounds + 1) c = trim p rounds (evict p victim { c with tracking }) ∧
      victims p (rounds + 1) c = victim :: victims p rounds (evict p victim { c with tracking }) ∧
      absences p (rounds + 1) c = (if victim ∈ c.entries.map (·.1) then 0 else 1) +
        absences p rounds (evict p victim { c with tracking }) ∧
      lastRound p (rounds + 1) c = lastRound p rounds (evict p victim { c with tracking }) := by
  cases hfits : c.fits with
  | true => exact Or.inl rfl
  | false =>
      right
      rcases hevict : p.evict c.tracking with ⟨_ | victim, tracking⟩
      · exact Or.inl ⟨tracking, rfl, rfl⟩
      · refine Or.inr ⟨victim, tracking, rfl, rfl, ?_, ?_, ?_, ?_⟩
        · simp [trim, hfits, hevict]
        · simp [victims, hfits, hevict]
        · simp [absences, hfits, hevict]
        · simp [lastRound, hfits, hevict]

/-- A trim ends when the cache fits, or with a round in which the policy has no answer and nothing
else changes. -/
theorem trim_end (h : trim p rounds c = some d) (hfull : d.fits = false) :
    p.evict (lastRound p rounds c).tracking = (none, d.tracking) ∧
      d = { lastRound p rounds c with tracking := d.tracking } := by
  have hfits {c : Cache κ α ε σ} {rounds : Nat} (h : trim p rounds c = some d) : c.fits = false := by
    by_contra hfits
    rw [Bool.not_eq_false] at hfits
    rw [trim_of_fits p hfits, Option.some_inj] at h
    rw [h, hfull] at hfits
    cases hfits
  induction rounds generalizing c with
  | zero => simp [trim, hfits h] at h
  | succ rounds ih =>
      rcases round_cases p rounds c with hfitting | ⟨s, hfull, hevict⟩ |
        ⟨victim, tracking, _, _, htrim, _, _, hlast⟩
      · rw [hfits h] at hfitting
        cases hfitting
      · have hlast : lastRound p (rounds + 1) c = c := by simp [lastRound, hfull, hevict]
        simp only [trim, hfull, hevict, Bool.false_eq_true, if_false, Option.some.injEq] at h
        subst h
        rw [hlast]
        exact ⟨hevict, rfl⟩
      · rw [htrim] at h
        rw [hlast]
        exact ih h

omit [DecidableEq κ] in
theorem fits_of_no_entries (h : c.entries.length = 0) : c.fits = true := by
  unfold Cache.fits
  split
  · rfl
  · exact decide_eq_true (Nat.le_trans (Nat.le_of_eq h) (Nat.zero_le _))

/-- A round for every entry and one for every answer that is not in the map are enough. -/
theorem trim_of_absences (hnodup : (c.entries.map (·.1)).Nodup) {absent : Nat}
    (habsent : absences p rounds c ≤ absent) (hrounds : c.entries.length + absent ≤ rounds) :
    ∃ d, trim p rounds c = some d := by
  induction rounds generalizing c absent with
  | zero =>
      have hnone : c.entries.length = 0 := by omega
      exact ⟨c, trim_of_fits p (fits_of_no_entries hnone)⟩
  | succ rounds ih =>
      rcases round_cases p rounds c with hfits | ⟨s, hfull, hevict⟩ |
        ⟨victim, tracking, _, _, htrim, _, hcount, _⟩
      · exact ⟨c, trim_of_fits p hfits⟩
      · exact ⟨{ c with tracking := s }, by simp [trim, hfull, hevict]⟩
      · rw [htrim]
        have hrest := hnodup.sublist
          ((List.filter_sublist (p := (·.1 ≠ victim)) (l := c.entries)).map (·.1))
        by_cases hmem : victim ∈ c.entries.map (·.1)
        · have hlength : (evict p victim { c with tracking }).entries.length + 1 =
              c.entries.length := length_without hnodup hmem
          rw [if_pos hmem] at hcount
          have hlater : absences p rounds (evict p victim { c with tracking }) ≤ absent := by omega
          exact ih hrest hlater (by omega)
        · have hlength : (evict p victim { c with tracking }).entries.length ≤
              c.entries.length := List.length_filter_le _ _
          rw [if_neg hmem] at hcount
          have hlater : absences p rounds (evict p victim { c with tracking }) ≤ absent - 1 := by
            omega
          exact ih hrest hlater (by omega)

/-- If every answer is in the map, each takes one entry. -/
theorem trim_exact (h : trim p rounds c = some d) (hnodup : (c.entries.map (·.1)).Nodup)
    (habsent : absences p rounds c = 0) :
    d.entries.length + (victims p rounds c).length = c.entries.length ∧
      (victims p rounds c).Nodup ∧ ∀ key ∈ victims p rounds c, key ∈ c.entries.map (·.1) := by
  induction rounds generalizing c with
  | zero =>
      simp only [trim] at h
      split at h
      · obtain rfl := Option.some.inj h
        simp [victims]
      · cases h
  | succ rounds ih =>
      rcases round_cases p rounds c with hfits | ⟨s, hfull, hevict⟩ |
        ⟨victim, tracking, _, _, htrim, hvictims, hcount, _⟩
      · rw [trim_of_fits p hfits] at h
        obtain rfl := Option.some.inj h
        simp [victims, hfits]
      · simp only [trim, hfull, hevict, Bool.false_eq_true, if_false, Option.some.injEq] at h
        subst h
        simp [victims, hfull, hevict]
      · have hmem : victim ∈ c.entries.map (·.1) := by
          by_contra hnot
          rw [if_neg hnot] at hcount
          omega
        have hlength : (evict p victim { c with tracking }).entries.length + 1 =
            c.entries.length := length_without hnodup hmem
        rw [htrim] at h
        obtain ⟨hsum, hdistinct, hkeys⟩ :=
          ih h (hnodup.sublist (List.filter_sublist.map _)) (by omega)
        rw [hvictims]
        refine ⟨?_, List.nodup_cons.mpr ⟨?_, hdistinct⟩, ?_⟩
        · rw [List.length_cons]
          omega
        · intro hagain
          obtain ⟨x, hx, hkey⟩ := List.mem_map.mp (hkeys victim hagain)
          exact (mem_without.mp hx).2 hkey
        · intro key hkey
          rcases List.mem_cons.mp hkey with rfl | hkey
          · exact hmem
          · exact (List.filter_sublist.map Prod.fst).subset (hkeys key hkey)

/-- A policy that always names a key that is not there is asked for ever. -/
theorem trim_eq_none {victim : κ} (hnames : ∀ s, (p.evict s).1 = some victim)
    (habsent : victim ∉ c.entries.map (·.1)) (hfull : c.fits = false) :
    trim p rounds c = none := by
  induction rounds generalizing c with
  | zero => simp [trim, hfull]
  | succ rounds ih =>
      rcases hevict : p.evict c.tracking with ⟨answer, tracking⟩
      obtain rfl : answer = some victim := by rw [← hnames c.tracking, hevict]
      have hsame : without victim c.entries = c.entries :=
        without_of_lookup_none (lookup_eq_none_iff_not_mem.mpr habsent)
      simp only [trim, hfull, hevict, Bool.false_eq_true, if_false]
      refine ih ?_ ?_
      · simp only [evict, forget, hsame]
        exact habsent
      · have hfits : (evict p victim { c with tracking }).fits = c.fits := by
          simp only [fits, evict, forget, hsame]
        rw [hfits, hfull]

end Cache

namespace Traffic

open Cache

variable {κ α ε σ : Type} [DecidableEq κ]

theorem run_nodup_entries (p : Policy κ σ) {limits : Limits} {tracking : σ}
    {steps : List (Step κ α ε)} {t : Traffic κ α ε σ}
    (hrun : run p (start limits tracking) steps = some t) : (t.cache.entries.map (·.1)).Nodup := by
  have hstart : ((start limits tracking : Traffic κ α ε σ).cache.entries.map (·.1)).Nodup :=
    List.nodup_nil
  exact run_keeps p (fun _ => True) (fun t => (t.cache.entries.map (·.1)).Nodup)
    (fun _ _ _ _ ht h => (step_effect p h).nodup_entries ht) (fun _ _ => trivial) hstart hrun

/-- A landing under any policy, in every state `t` that any steps lead to. A round for every entry,
the new one included, and one for every answer that is not in the map when it is given are enough,
and more rounds come to the same end. If the map is still too large then, the policy had no answer in
the last round, and that round changed neither the map nor the counters. The entries of the keys that
were the answers are gone and no others, and one eviction is counted for each answer.

As long as every answer is in the map when it is given, none is given twice, and as many entries
are gone as there were answers. -/
theorem landing_ends (p : Policy κ σ) (limits : Limits) (tracking : σ) (steps : List (Step κ α ε))
    (t : Traffic κ α ε σ) (hrun : run p (start limits tracking) steps = some t) (key : κ)
    (f : FlightId) (payload : α) (hair : t.cache.InAir key f) (absent : Nat)
    (habsent : absences p (t.cache.entries.length + 1 + absent) (t.cache.filled p key payload) ≤
      absent) :
    let rounds := t.cache.entries.length + 1 + absent
    let full := t.cache.filled p key payload
    let last := lastRound p rounds full
    let gone := t.cache.evicted p rounds key payload
    ∃ d, t.cache.landWithin p rounds f (.ok payload) = some d ∧
      (∀ more, rounds ≤ more → t.cache.landWithin p more f (.ok payload) = some d) ∧
      (∀ rounds' d', t.cache.landWithin p rounds' f (.ok payload) = some d' → d' = d) ∧
      (d.fits = false → p.evict last.tracking = (none, d.tracking) ∧
        d.entries = last.entries ∧ d.counters = last.counters) ∧
      d.entries = full.entries.filter (fun x => x.1 ∉ gone) ∧
      d.counters.evictions = t.cache.counters.evictions + gone.length ∧
      (absent = 0 →
        gone.Nodup ∧ (∀ k ∈ gone, k ∈ full.entries.map (·.1)) ∧
        d.entries.length + gone.length = full.entries.length) := by
  intro rounds full last gone
  have hnodup := run_nodup_entries p hrun
  have hfilled : (full.entries.map (·.1)).Nodup := filled_nodup hnodup key payload
  have hlength : full.entries.length ≤ t.cache.entries.length + 1 :=
    length_filled_le key payload t.cache
  obtain ⟨d, htrim⟩ := trim_of_absences hfilled habsent (by omega)
  obtain ⟨tracked, hd⟩ := trim_eq p htrim
  have hland (rounds : Nat) : t.cache.landWithin p rounds f (.ok payload) =
      (trim p rounds full).map (retire f key (.ok t.cache.made.length)) :=
    landWithin_eq p hair rounds payload
  refine ⟨retire f key (.ok t.cache.made.length) d, ?_, ?_, ?_, ?_, ?_, ?_, ?_⟩
  · rw [hland, htrim, Option.map_some]
  · intro more hmore
    rw [hland, trim_mono htrim hmore, Option.map_some]
  · intro rounds' d' hland'
    rw [hland] at hland'
    obtain ⟨e, he, rfl⟩ := Option.map_eq_some_iff.mp hland'
    rw [trim_unique htrim he]
  · intro hfull
    obtain ⟨hasked, hlast⟩ := trim_end htrim hfull
    have hentries : d.entries = last.entries := by rw [hlast]
    have hcounters : d.counters = last.counters := by rw [hlast]
    exact ⟨hasked, hentries, hcounters⟩
  · rw [hd]
    rfl
  · rw [hd]
    change full.counters.evictions + _ = _
    rw [filled_evictions hnodup]
    rfl
  · intro hzero
    obtain ⟨hsum, hdistinct, hkeys⟩ := trim_exact htrim hfilled (Nat.le_zero.mp (hzero ▸ habsent))
    exact ⟨hdistinct, hkeys, hsum⟩

/-- A policy whose every answer is key 2. -/
def namesTwo : Policy Nat Unit where
  onAdd _ s := s
  onAccess _ s := s
  onRemove _ s := s
  evict s := (some 2, s)

/-- In a cache for nothing, where key 1 is about to land. With a policy that names key 2 the landing
does not end, whatever number of rounds it has. With one that has no answer it ends after a round
that removes nothing, and the entry stays. -/
theorem endless_and_idle_evictions :
    let steps : List (Step Nat String String) := [.call 1, .proceed 0, .proceed 0]
    let limits : Limits := { maxEntries := some 0 }
    (∃ t, run namesTwo (start limits ()) steps = some t ∧ t.cache.InAir 1 0 ∧
      ∀ rounds, t.step namesTwo (.land 0 (.ok "one") rounds) = none) ∧
    ∃ t u, run namesTwo.keepAll (start limits ()) steps = some t ∧
      t.step namesTwo.keepAll (.land 0 (.ok "one") 1) = some u ∧
      u.cache.entries = [(1, 0)] ∧ u.cache.fits = false ∧ u.cache.counters.evictions = 0 := by
  intro steps limits
  refine ⟨?_, _, _, rfl, rfl, rfl, rfl, rfl⟩
  obtain ⟨t, hrun, hair, hfull, habsent⟩ : ∃ t, run namesTwo (start limits ()) steps = some t ∧
      t.cache.InAir 1 0 ∧ (t.cache.filled namesTwo 1 "one").fits = false ∧
      2 ∉ (t.cache.filled namesTwo 1 "one").entries.map (·.1) :=
    ⟨_, rfl, rfl, rfl, by decide⟩
  refine ⟨t, hrun, hair, fun rounds => ?_⟩
  have htrim : trim namesTwo rounds (t.cache.filled namesTwo 1 "one") = none :=
    trim_eq_none (fun _ => rfl) habsent hfull
  have hland : t.cache.landWithin namesTwo rounds 0 (.ok "one") = none := by
    rw [landWithin_eq namesTwo hair, ← filled, htrim, Option.map_none]
  simp only [Traffic.step, hland, Option.bind_eq_bind, Option.bind_none]

/-- A policy that lets go of the key that was added last. -/
def lastFirst : Policy Nat (List Nat) where
  onAdd key s := key :: s
  onAccess _ s := s
  onRemove key s := s.filter (· ≠ key)
  evict s := (s.head?, s)

/-- In a cache for one entry, with a policy that lets go of the newest: key 2 lands while key 1 is
there, and is gone at once. Two rounds are enough. -/
theorem landing_ends_with_its_own_entry_gone :
    let steps : List (Step Nat String String) :=
      [.call 1, .proceed 0, .proceed 0, .land 0 (.ok "one") 1, .call 2, .proceed 1, .proceed 1]
    let limits : Limits := { maxEntries := some 1 }
    ∃ t d, run lastFirst (start limits []) steps = some t ∧
      (∀ rounds, 2 ≤ rounds → t.cache.landWithin lastFirst rounds 1 (.ok "two") = some d) ∧
      t.cache.evicted lastFirst 2 2 "two" = [2] ∧ d.entries.length + 1 = 2 ∧
      d.counters.evictions = 1 := by
  intro steps limits
  have hseen : (run lastFirst (start limits []) steps).map (fun t =>
      let full := t.cache.filled lastFirst 2 "two"
      (t.cache.inFlight.lookup 2, t.cache.entries.length, absences lastFirst 2 full,
        t.cache.evicted lastFirst 2 2 "two", full.entries.length, t.cache.counters.evictions)) =
      some (some 1, 1, 0, [2], 2, 0) := by
    decide +kernel
  obtain ⟨t, hrun, hseen⟩ := Option.map_eq_some_iff.mp hseen
  simp only [Prod.mk.injEq] at hseen
  obtain ⟨hlookup, hone, habsent, hgone, hlength, hnone⟩ := hseen
  have hair := (run_airborne lastFirst hrun).lookup_eq_some_iff.mp hlookup
  have hends := landing_ends lastFirst limits [] steps t hrun 2 1 "two" hair 0
  simp only [hone, habsent, hgone, hlength, hnone] at hends
  obtain ⟨d, _, hland, _, _, _, hevictions, hexact⟩ := hends (Nat.le_refl 0)
  obtain ⟨_, _, hcount⟩ := hexact trivial
  exact ⟨t, d, hrun, hland, hgone, hcount, hevictions⟩

end Traffic

end Scriptlet
