import Scriptlet.Proofs.Cache.Bounded

/-!
What the operations leave as it was, to the last field. `Drops` says of an operation what cannot
have happened; here each result is written down as the cache before with the fields that changed.
The entries that a sweep keeps are those that are live, and those that a trim keeps are those that
are not among its victims.
-/

namespace Scriptlet

namespace Cache

variable {κ α ε σ : Type} [DecidableEq κ]

theorem length_without {β : Type} {key : κ} {map : List (κ × β)}
    (hnodup : (map.map (·.1)).Nodup) (hkey : key ∈ map.map (·.1)) :
    (without key map).length + 1 = map.length := by
  have hkeys : (without key map).map (·.1) = (map.map (·.1)).erase key := by
    rw [hnodup.erase_eq_filter, List.filter_map]
    simp only [without, Function.comp_def, bne, Bool.beq_eq_decide_eq, decide_not]
  have hlength := congrArg List.length hkeys
  rw [List.length_map, List.length_erase_of_mem hkey, List.length_map] at hlength
  have hpos := List.length_pos_of_mem hkey
  rw [List.length_map] at hpos
  omega

omit [DecidableEq κ] in
theorem lt_of_isLive {c : Cache κ α ε σ} {id : EntryId} (hlive : c.isLive id = true) :
    id < c.made.length := by
  unfold Cache.isLive at hlive
  split at hlive
  · next e he => exact (List.getElem?_eq_some_iff.mp he).1
  · cases hlive

theorem foldl_forget_eq (p : Policy κ σ) (row : List (κ × EntryId)) (c : Cache κ α ε σ) :
    ∃ tracking, row.foldl (fun acc x => acc.forget p x.1) c =
      { c with entries := c.entries.filter fun x => x.1 ∉ row.map (·.1), tracking } := by
  have hentries := foldl_forget_entries p row c
  suffices hrest : ∃ entries tracking,
      row.foldl (fun acc x => acc.forget p x.1) c = { c with entries, tracking } by
    obtain ⟨entries, tracking, heq⟩ := hrest
    rw [heq] at hentries
    exact ⟨tracking, heq.trans (by rw [← hentries])⟩
  clear hentries
  induction row generalizing c with
  | nil => exact ⟨_, _, rfl⟩
  | cons x rest ih =>
      obtain ⟨entries, tracking, heq⟩ := ih (c.forget p x.1)
      exact ⟨entries, tracking, heq⟩

/-- The order in which entries are dropped does not matter, unless it does to the policy. -/
theorem foldl_forget_perm {p : Policy κ σ}
    (hcomm : ∀ key key' s, p.onRemove key (p.onRemove key' s) = p.onRemove key' (p.onRemove key s))
    {row row' : List (κ × EntryId)} (hperm : row.Perm row') (c : Cache κ α ε σ) :
    row.foldl (fun acc x => acc.forget p x.1) c = row'.foldl (fun acc x => acc.forget p x.1) c := by
  refine hperm.foldl_eq' (fun x _ y _ d => ?_) c
  have hentries : without y.1 (without x.1 d.entries) = without x.1 (without y.1 d.entries) :=
    List.filter_comm ..
  simp only [forget, hcomm x.1 y.1, hentries]

/-- The two policies that have names do not see the order. -/
theorem foldl_forget_perm_named {row row' : List (κ × EntryId)} (hperm : row.Perm row')
    (c : Cache κ α ε (NamedPolicy κ)) :
    row.foldl (fun acc x => acc.forget NamedPolicy.policy x.1) c =
      row'.foldl (fun acc x => acc.forget NamedPolicy.policy x.1) c := by
  refine foldl_forget_perm (fun key key' s => ?_) hperm c
  cases s with
  | lru s =>
      have hticks : (s.ticks.filter (·.1 ≠ key')).filter (·.1 ≠ key) =
          (s.ticks.filter (·.1 ≠ key)).filter (·.1 ≠ key') := List.filter_comm ..
      simp only [NamedPolicy.policy, Lru.policy, hticks]
  | fifo s =>
      have hkeys : (s.filter (· ≠ key')).filter (· ≠ key) =
          (s.filter (· ≠ key)).filter (· ≠ key') := List.filter_comm ..
      simp only [NamedPolicy.policy, Fifo.policy, hkeys]

theorem clear_eq (p : Policy κ σ) (c : Cache κ α ε σ) :
    ∃ tracking, c.clear p = { c with entries := [], tracking } := by
  obtain ⟨tracking, heq⟩ := foldl_forget_eq p c.entries c
  have hentries := clear_entries p c
  rw [clear, heq] at hentries
  exact ⟨tracking, heq.trans (by rw [← hentries])⟩

/-- In a map without repeated keys. -/
theorem purgeExpired_eq (p : Policy κ σ) {c : Cache κ α ε σ}
    (hnodup : (c.entries.map (·.1)).Nodup) :
    ∃ tracking, (c.purgeExpired p).2 = { c with
      entries := c.entries.filter fun x => c.isLive x.2
      tracking
      counters := { c.counters with
        expirations :=
          c.counters.expirations + (c.entries.filter fun x => !c.isLive x.2).length } } := by
  obtain ⟨tracking, heq⟩ := foldl_forget_eq p (c.entries.filter fun x => !c.isLive x.2) c
  have hentries := purgeExpired_entries p hnodup
  simp only [purgeExpired, heq] at hentries ⊢
  exact ⟨tracking, by rw [hentries]⟩

/-- The keys that a trim lets go, in order. -/
def victims (p : Policy κ σ) : Nat → Cache κ α ε σ → List κ
  | 0, _ => []
  | rounds + 1, c =>
      if c.fits then []
      else
        match p.evict c.tracking with
        | (none, _) => []
        | (some victim, tracking) => victim :: victims p rounds (evict p victim { c with tracking })

/-- A trim takes out its victims and counts them. -/
theorem trim_eq (p : Policy κ σ) {rounds : Nat} {c d : Cache κ α ε σ}
    (h : trim p rounds c = some d) :
    ∃ tracking, d = { c with
      entries := c.entries.filter fun x => x.1 ∉ victims p rounds c
      tracking
      counters := { c.counters with
        evictions := c.counters.evictions + (victims p rounds c).length } } := by
  induction rounds generalizing c with
  | zero =>
      simp only [trim] at h
      split at h
      · rw [← Option.some.inj h]
        exact ⟨c.tracking, by simp [victims]⟩
      · cases h
  | succ rounds ih =>
      simp only [trim] at h
      split at h
      · next hfits =>
          have hnone : victims p (rounds + 1) c = [] := by simp [victims, hfits]
          rw [← Option.some.inj h]
          exact ⟨c.tracking, by simp [hnone]⟩
      · next hfull =>
          rcases hevict : p.evict c.tracking with ⟨_ | victim, tracking⟩
          · have hnone : victims p (rounds + 1) c = [] := by simp [victims, hfull, hevict]
            simp only [hevict, Option.some.injEq] at h
            rw [← h]
            exact ⟨tracking, by simp [hnone]⟩
          · have hfirst : victims p (rounds + 1) c =
                victim :: victims p rounds (evict p victim { c with tracking }) := by
              simp [victims, hfull, hevict]
            simp only [hevict] at h
            obtain ⟨last, rfl⟩ := ih h
            refine ⟨last, ?_⟩
            simp only [hfirst, evict, forget, without, List.filter_filter, List.length_cons,
              List.mem_cons, not_or, Bool.decide_and]
            congr 2
            · funext x
              exact Bool.and_comm _ _
            · omega

/-- The cache into which a landing puts its entry: the compile is counted, the entry is made, and
what has expired is swept. -/
def readied (p : Policy κ σ) (payload : α) (c : Cache κ α ε σ) : Cache κ α ε σ :=
  (({ c with counters := { c.counters with compiles := c.counters.compiles + 1 } } :
    Cache κ α ε σ).make payload |>.purgeExpired p).2

theorem landWithin_eq (p : Policy κ σ) {c : Cache κ α ε σ} {key : κ} {flight : FlightId}
    (hair : c.InAir key flight) (rounds : Nat) (payload : α) :
    c.landWithin p rounds flight (.ok payload) =
      (trim p rounds (put p key c.made.length (c.readied p payload))).map
        (retire flight key (.ok c.made.length)) := by
  rw [InAir] at hair
  simp only [landWithin, hair, insert_eq]
  exact Option.map_eq_bind.symm

theorem readied_eq (p : Policy κ σ) {c : Cache κ α ε σ}
    (hnodup : (c.entries.map (·.1)).Nodup) (payload : α) :
    ∃ tracking, c.readied p payload = { c with
      made := c.made ++ [{ payload, createdAt := c.now }]
      entries := c.entries.filter fun x => (c.make payload).isLive x.2
      tracking
      counters := { c.counters with
        compiles := c.counters.compiles + 1
        expirations := c.counters.expirations +
          (c.entries.filter fun x => !(c.make payload).isLive x.2).length } } :=
  purgeExpired_eq p (c := ({ c with
    counters := { c.counters with compiles := c.counters.compiles + 1 } } :
      Cache κ α ε σ).make payload) hnodup

theorem put_eq (p : Policy κ σ) {key : κ} {c : Cache κ α ε σ}
    (hfree : c.entries.lookup key = none) (id : EntryId) :
    put p key id c = { c with
      entries := c.entries ++ [(key, id)], tracking := p.onAdd key c.tracking } := by
  simp [put, hfree]

/-- The keys that a landing evicts. -/
def evicted (p : Policy κ σ) (rounds : Nat) (key : κ) (payload : α) (c : Cache κ α ε σ) : List κ :=
  victims p rounds (put p key c.made.length (c.readied p payload))

/-- A landing that replaces nothing: what has expired goes, the new entry comes, and then the
victims go. -/
theorem landed_eq (p : Policy κ σ) {c d : Cache κ α ε σ} {key : κ} {flight : FlightId}
    (hair : c.InAir key flight) (hnodup : (c.entries.map (·.1)).Nodup) {rounds : Nat} {payload : α}
    (hfree : (c.readied p payload).entries.lookup key = none)
    (hland : c.landWithin p rounds flight (.ok payload) = some d) :
    ∃ tracking, d = { c with
      made := c.made ++ [{ payload, createdAt := c.now }]
      entries := ((c.entries.filter fun x => (c.make payload).isLive x.2) ++
        [(key, c.made.length)]).filter fun x => x.1 ∉ c.evicted p rounds key payload
      flights := c.flights.modify flight fun f => { f with outcome := some (.ok c.made.length) }
      inFlight := without key c.inFlight
      tracking
      counters := { c.counters with
        compiles := c.counters.compiles + 1
        evictions := c.counters.evictions + (c.evicted p rounds key payload).length
        expirations := c.counters.expirations +
          (c.entries.filter fun x => !(c.make payload).isLive x.2).length } } := by
  rw [landWithin_eq p hair] at hland
  obtain ⟨b, htrim, rfl⟩ := Option.map_eq_some_iff.mp hland
  obtain ⟨trimmed, rfl⟩ := trim_eq p htrim
  obtain ⟨swept, hswept⟩ := readied_eq p hnodup payload
  have hput := put_eq p hfree c.made.length
  rw [hswept] at hput
  refine ⟨trimmed, ?_⟩
  change retire flight key _ { put p key c.made.length (c.readied p payload) with
    entries := List.filter (fun x => x.1 ∉ c.evicted p rounds key payload) _
    tracking := trimmed
    counters := { Cache.counters _ with
      evictions := _ + (c.evicted p rounds key payload).length } } = _
  generalize c.evicted p rounds key payload = gone
  rw [hswept, hput]
  rfl

namespace Refines

variable {limits : Limits} {e : Eviction} {c d : Cache κ α ε (NamedPolicy κ)} {l : Lane κ}

/-- Under a key that is not served nothing is left once the cache is swept. -/
theorem readied_lookup (h : Refines limits e c l) {key : κ} (hkey : l.holds limits key = false)
    (payload : α) : (c.readied NamedPolicy.policy payload).entries.lookup key = none :=
  (h.countCompile.make payload).purgeExpired.not_mem_entries (Lane.not_mem_live hkey)

theorem put_readied (h : Refines limits e c l) {key : κ} (hkey : l.holds limits key = false)
    (payload : α) :
    Refines limits e
      (Cache.put NamedPolicy.policy key c.made.length (c.readied NamedPolicy.policy payload))
      { l with items := l.live limits ++ [(key, l.now)] } :=
  h.countCompile.put_make hkey payload

/-- What a trim takes out it counts. -/
theorem length_trim (h : Refines limits e c l) {rounds : Nat}
    (htrim : Cache.trim NamedPolicy.policy rounds c = some d) :
    d.entries.length + d.counters.evictions = c.entries.length + c.counters.evictions := by
  have hd := h.trim htrim
  rw [hd.length_entries, hd.evictions, h.length_entries, h.evictions]
  exact Lane.length_trim limits l

/-- Two caches that keep the same list let the same keys go, one after the other. -/
theorem trim_lockstep {c' : Cache κ α ε (NamedPolicy κ)} (h : Refines limits e c l)
    (h' : Refines limits e c' l) {rounds : Nat}
    (htrim : Cache.trim NamedPolicy.policy rounds c = some d) :
    (∃ d', Cache.trim NamedPolicy.policy rounds c' = some d') ∧
      victims NamedPolicy.policy rounds c' = victims NamedPolicy.policy rounds c := by
  induction rounds generalizing c c' l with
  | zero =>
      refine ⟨?_, rfl⟩
      simp only [Cache.trim] at htrim ⊢
      split at htrim
      · next hfits =>
          have hfits' := h'.fits_iff.mpr (h.fits_iff.mp hfits)
          exact ⟨c', by rw [hfits', if_pos rfl]⟩
      · cases htrim
  | succ rounds ih =>
      by_cases hzero : limits.excess l.items.length = 0
      · have hfits := h.fits_iff.mpr hzero
        have hfits' := h'.fits_iff.mpr hzero
        exact ⟨⟨c', trim_of_fits _ hfits'⟩, by simp [victims, hfits, hfits']⟩
      · obtain ⟨x, rest, hitems, hfull, hvictim, _⟩ := h.victim hzero
        obtain ⟨x', rest', hitems', hfull', hvictim', _⟩ := h'.victim hzero
        obtain ⟨rfl, rfl⟩ := List.cons_eq_cons.mp (hitems.symm.trans hitems')
        simp only [Cache.trim, hfull, hvictim, Bool.false_eq_true, if_false] at htrim
        obtain ⟨hsome, hsame⟩ := ih (h.evict hitems) (h'.evict hitems) htrim
        simp only [Cache.trim, victims, hfull, hvictim, hfull', hvictim', Bool.false_eq_true,
          if_false]
        exact ⟨hsome, congrArg _ hsame⟩

end Refines

end Cache

end Scriptlet
