import Scriptlet.Proofs.Cache.Flights

/-!
Single flight. At any time at most one compile of a key is in the air, and the map of flights
says which. Who joins or starts it receives what it lands with, whatever else happens to the
cache. A cache without limits from which nothing is taken compiles a key successfully once.

The first look-up of a caller runs without the lock of the flights, so nothing that it saw need
hold any more when the caller decides. The invariants below are about the state at the decision.
-/

namespace Scriptlet

namespace Cache

variable {κ α ε σ : Type} [DecidableEq κ]

/-- Nothing expires and nothing is evicted. -/
def Unlimited (c : Cache κ α ε σ) : Prop :=
  c.limits.maxEntries = none ∧ c.limits.timeToLive = none

/-- Every entry of the map was made. -/
def Grounded (c : Cache κ α ε σ) : Prop :=
  ∀ x ∈ c.entries, x.2 < c.births.length

omit [DecidableEq κ] in
theorem Unlimited.isLive {c : Cache κ α ε σ} (hc : Unlimited c) {id : EntryId}
    (hid : id < c.births.length) : c.isLive id = true := by
  rw [length_births] at hid
  simp only [Cache.isLive, List.getElem?_eq_getElem hid, isExpired, hc.2, Bool.not_false]

/-- Without a time to live a key that is not served is not there. -/
theorem Unlimited.not_mem_of_not_live {c : Cache κ α ε σ} (hc : Unlimited c)
    (hground : Grounded c) {key : κ} (hlive : c.live? key = none) :
    key ∉ c.entries.map (·.1) := by
  rw [← lookup_eq_none_iff_not_mem]
  cases hlookup : c.entries.lookup key with
  | none => rfl
  | some id =>
      have hmem : (key, id) ∈ c.entries := by
        obtain ⟨before, after, heq, _⟩ := List.lookup_eq_some_iff.mp hlookup
        simp [heq]
      have hid : c.isLive id = true := hc.isLive (hground _ hmem)
      simp [live?, hlookup, hid] at hlive

variable {landing : Option (FlightId × Except ε α)}

theorem Effect.unlimited {p : Policy κ σ} {c d : Cache κ α ε σ} (h : Effect p c landing d)
    (hc : Unlimited c) : Unlimited d := by
  rw [Unlimited, h.limits]
  exact hc

theorem Effect.grounded {p : Policy κ σ} {c d : Cache κ α ε σ} (h : Effect p c landing d)
    (hc : Grounded c) : Grounded d := by
  cases h with
  | drops h =>
      intro x hx
      rw [h.births]
      exact hc x (h.entries.subset hx)
  | waits time => exact hc
  | starts _ _ => exact hc
  | fails e counters hair => exact hc
  | @lands key flight payload rounds counters d hair h =>
      have hframe := insert_inserts p h
      have hbirths : d.births = c.births ++ [(payload, c.now)] := hframe.births
      intro x hx
      have hlength : (retire flight key (.ok c.made.length) d).births.length =
          c.births.length + 1 := by
        rw [← List.length_singleton (a := (payload, c.now)), ← List.length_append, ← hbirths]
        rfl
      rw [hlength]
      rcases hframe.mem_entries hx with hold | rfl
      · exact Nat.lt_succ_of_lt (hc x hold)
      · exact Nat.lt_succ_self _

/-- A cache without limits drops nothing when it sweeps. -/
theorem Unlimited.purgeExpired_entries (p : Policy κ σ) {c : Cache κ α ε σ}
    (hc : Unlimited c) (hground : Grounded c) : (c.purgeExpired p).2.entries = c.entries := by
  have hnone : c.entries.filter (fun x => !c.isLive x.2) = [] := by
    rw [List.filter_eq_nil_iff]
    intro x hx
    simp [hc.isLive (hground x hx)]
  simp only [purgeExpired, hnone, List.foldl_nil]

omit [DecidableEq κ] in
theorem Grounded.make {c : Cache κ α ε σ} (hground : Grounded c) (payload : α) :
    Grounded (c.make payload) := by
  intro x hx
  have hlt := hground x hx
  rw [length_births] at hlt ⊢
  simp only [Cache.make, List.length_append, List.length_singleton]
  exact Nat.lt_succ_of_lt hlt

theorem insert_entries_of_unlimited (p : Policy κ σ) {rounds : Nat} {key : κ} {payload : α}
    {c d : Cache κ α ε σ} (h : insert p rounds key payload c = some d) (hc : Unlimited c)
    (hground : Grounded c) : d.entries = without key c.entries ++ [(key, c.made.length)] := by
  have hmake : Unlimited (c.make payload) := hc
  have hpurge := purgeExpired_drops p (c.make payload)
  have hput := put_frame p key c.made.length ((c.make payload).purgeExpired p).2
  have hmax : (put p key c.made.length ((c.make payload).purgeExpired p).2).limits.maxEntries =
      none := by
    rw [hput.1, hpurge.limits]
    exact hc.1
  have hfits : (put p key c.made.length ((c.make payload).purgeExpired p).2).fits = true := by
    simp only [fits, hmax]
  rw [insert_eq, trim_of_fits p hfits] at h
  rw [← Option.some.inj h, put_entries, hmake.purgeExpired_entries p (hground.make payload)]
  rfl

end Cache

namespace Traffic

open Cache

variable {κ α ε σ : Type} [DecidableEq κ]

/-- Nothing is taken from the cache. -/
def Step.Spares : Step κ α ε → Prop
  | .remove _ | .clear => False
  | _ => True

/-- Steps that take nothing leave every key in a cache without limits. -/
theorem step_keys (p : Policy κ σ) {t u : Traffic κ α ε σ} {s : Step κ α ε}
    (hs : s.Spares) (hc : Unlimited t.cache) (hground : Grounded t.cache)
    (h : t.step p s = some u) {key : κ} (hkey : key ∈ t.cache.entries.map (·.1)) :
    key ∈ u.cache.entries.map (·.1) := by
  cases s with
  | call key' =>
      cases h
      exact hkey
  | proceed i =>
      simp only [step] at h
      split at h
      · cases h
        exact hkey
      · next x _ =>
          cases h
          rw [advance_entries]
          exact hkey
  | cancel i =>
      cases h
      exact hkey
  | land flight made rounds =>
      obtain ⟨d, hland, rfl⟩ := (step_land_iff p).mp h
      rcases landWithin_cases p hland with ⟨_, rfl⟩ | ⟨k, e, _, _, rfl⟩ |
        ⟨k, payload, e, _, _, hinsert, rfl⟩
      · exact hkey
      · exact hkey
      · have hentries := insert_entries_of_unlimited p hinsert hc hground
        simp only [retire, hentries, List.map_append, List.mem_append, List.map_cons,
          List.map_nil, List.mem_singleton]
        by_cases hk : key = k
        · exact Or.inr hk
        · obtain ⟨x, hx, rfl⟩ := List.mem_map.mp hkey
          exact Or.inl (List.mem_map_of_mem (mem_without.mpr ⟨hx, hk⟩))
  | get key' =>
      cases h
      rw [lookup_entries]
      exact hkey
  | remove key' => exact absurd hs (by simp [Step.Spares])
  | clear => exact absurd hs (by simp [Step.Spares])
  | purgeExpired =>
      cases h
      rw [Unlimited.purgeExpired_entries p hc hground]
      exact hkey
  | wait time =>
      cases h
      exact hkey

/-- In a cache without limits from which nothing is taken, a key that was compiled is there, and
a key that is being compiled is not. -/
structure CompilesOnce (c : Cache κ α ε σ) : Prop where
  unlimited : Unlimited c
  grounded : Grounded c
  airborne : Airborne c
  absent : ∀ key f, c.InAir key f → key ∉ c.entries.map (·.1)
  present : ∀ key f, c.Succeeded key f → key ∈ c.entries.map (·.1)
  unique : ∀ key f g, c.Succeeded key f → c.Succeeded key g → f = g

theorem step_compilesOnce (p : Policy κ σ) {t u : Traffic κ α ε σ} {s : Step κ α ε}
    (hs : s.Spares) (ht : CompilesOnce t.cache) (h : t.step p s = some u) :
    CompilesOnce u.cache := by
  have heffect := step_effect p h
  have hkeys (key : κ) : key ∈ t.cache.entries.map (·.1) → key ∈ u.cache.entries.map (·.1) :=
    step_keys p hs ht.unlimited ht.grounded h
  refine ⟨heffect.unlimited ht.unlimited, heffect.grounded ht.grounded,
    heffect.airborne ht.airborne, ?_, ?_, ?_⟩
  · intro key f hf hmem
    rcases heffect.inAir hf with hold | ⟨hlive, hd⟩
    · obtain ⟨x, hx, rfl⟩ := List.mem_map.mp hmem
      rcases heffect.mem_entries hx with hbefore | ⟨g, hg, hlanded⟩
      · exact ht.absent x.1 f hold (List.mem_map_of_mem hbefore)
      · obtain rfl : f = g := ht.airborne.unique hold hg
        rw [InAir, hlanded] at hf
        cases hf
    · rw [hd] at hmem
      exact ht.unlimited.not_mem_of_not_live ht.grounded hlive hmem
  · intro key f hf
    rcases heffect.succeeded hf with hold | ⟨_, _, _, _, _, hinsert, hsame⟩
    · exact hkeys key (ht.present key f hold)
    · rw [hsame, insert_entries_of_unlimited p hinsert ht.unlimited ht.grounded]
      simp
  · intro key f g hf hg
    rcases heffect.succeeded hf with hf | ⟨hf, _⟩ <;>
      rcases heffect.succeeded hg with hg | ⟨hg, _⟩
    · exact ht.unique key f g hf hg
    · exact absurd (ht.present key f hf) (ht.absent key g hg)
    · exact absurd (ht.present key g hg) (ht.absent key f hf)
    · exact ht.airborne.unique hf hg

/-- The caller waits for the flight, and has or can have what it landed with as soon as it has. -/
def Awaits (i : Nat) (flight : FlightId) (t : Traffic κ α ε σ) : Prop :=
  match t.cache.outcome? flight with
  | none => t.callers[i]? = some (.waiting flight)
  | some o => t.callers[i]? = some (.waiting flight) ∨ t.callers[i]? = some (.done o)

omit [DecidableEq κ] in
theorem awaits_of_waiting {i : Nat} {flight : FlightId} {t : Traffic κ α ε σ}
    (h : t.callers[i]? = some (.waiting flight)) : Awaits i flight t := by
  unfold Awaits
  split
  · exact h
  · exact Or.inl h

/-- One who is done stays done. -/
theorem step_done (p : Policy κ σ) {t u : Traffic κ α ε σ} {s : Step κ α ε} {i : Nat}
    {o : Except ε EntryId} (ht : t.callers[i]? = some (.done o)) (h : t.step p s = some u) :
    u.callers[i]? = some (.done o) := by
  obtain ⟨y, hy, hmove | ⟨_, _, rfl⟩⟩ := step_move p h ht
  · cases hmove with
    | rests => exact hy
    | isServed _ hx => rcases hx with hx | hx <;> cases hx
  · exact hy

/-- Whatever is done by others, one who waits goes on waiting or has what the flight landed with. -/
theorem step_awaits (p : Policy κ σ) {t u : Traffic κ α ε σ} {s : Step κ α ε} {i : Nat}
    {flight : FlightId} (hs : s ≠ .cancel i) (ht : Awaits i flight t)
    (h : t.step p s = some u) : Awaits i flight u := by
  have hwaiting (hx : t.callers[i]? = some (.waiting flight)) : Awaits i flight u := by
    obtain ⟨y, hy, hmove | ⟨hcancel, _⟩⟩ := step_move p h hx
    · cases hmove with
      | rests => exact awaits_of_waiting hy
      | isServed _ hx => rcases hx with hx | hx <;> cases hx
      | receives ho hd =>
          unfold Awaits
          rw [hd, ho]
          exact Or.inr hy
    · exact absurd hcancel hs
  cases ho : t.cache.outcome? flight with
  | none =>
      simp only [Awaits, ho] at ht
      exact hwaiting ht
  | some o =>
      simp only [Awaits, ho] at ht
      rcases ht with hx | hx
      · exact hwaiting hx
      · simp only [Awaits, (step_effect p h).outcome? ho]
        exact Or.inr (step_done p hx h)

/-- Once the flight has landed, the next step of one who waits for it is to receive the outcome. -/
theorem proceed_receives (p : Policy κ σ) {t : Traffic κ α ε σ} {i : Nat}
    {flight : FlightId} {o : Except ε EntryId} (ht : Awaits i flight t)
    (ho : t.cache.outcome? flight = some o) :
    ∃ u, t.step p (.proceed i) = some u ∧ u.callers[i]? = some (.done o) := by
  simp only [Awaits, ho] at ht
  rcases ht with hx | hx
  all_goals
    have hlt := (List.getElem?_eq_some_iff.mp hx).1
    refine ⟨_, step_proceed p hx, ?_⟩
    simp [advance, ho, hlt]

/-- One who decides without being served waits for the compile of the key. -/
theorem decision_inAir (p : Policy κ σ) {t u : Traffic κ α ε σ} {key : κ} {i : Nat}
    {flight : FlightId} (ht : Airborne t.cache) (hx : t.callers[i]? = some (.deciding key))
    (h : t.step p (.proceed i) = some u) (hy : u.callers[i]? = some (.waiting flight)) :
    u.cache.InAir key flight := by
  obtain ⟨y, hy', hmove | ⟨hcancel, _⟩⟩ := step_move p h hx
  · obtain rfl : y = .waiting flight := Option.some.inj (hy'.symm.trans hy)
    cases hmove with
    | joins _ hair hd =>
        rw [hd]
        exact ht.lookup_eq_some_iff.mp hair
    | starts _ _ hd =>
        rw [hd]
        simp [InAir, depart]
  · cases hcancel

theorem run_airborne (p : Policy κ σ) {limits : Limits} {tracking : σ}
    {steps : List (Step κ α ε)} {t : Traffic κ α ε σ}
    (hrun : run p (start limits tracking) steps = some t) : Airborne t.cache :=
  run_keeps p (fun _ => True) (fun t => Airborne t.cache)
    (fun _ _ _ _ ht h => (step_effect p h).airborne ht) (fun _ _ => trivial)
    (start_airborne limits tracking) hrun

/-- Single flight, in every state `t` that any steps lead to. The map of flights is a map; it holds
a key exactly while a compile of it is in the air, and there is one at most. Who decides to wait
waits for that compile, and unless it gives up it has its outcome as soon as that is there and it
takes a step. The outcome is what the compiler made, whatever happens before or after. Without
limits, and if nothing is taken, no key is compiled successfully twice. -/
theorem single_flight (p : Policy κ σ) (limits : Limits) (tracking : σ)
    (before : List (Step κ α ε)) (t : Traffic κ α ε σ)
    (hrun : run p (start limits tracking) before = some t) :
    ((t.cache.inFlight.map (·.1)).Nodup ∧
      (∀ key f, t.cache.inFlight.lookup key = some f ↔ t.cache.InAir key f) ∧
      ∀ key f g, t.cache.InAir key f → t.cache.InAir key g → f = g) ∧
    (∀ i key f u, t.callers[i]? = some (.deciding key) → t.step p (.proceed i) = some u →
      u.callers[i]? = some (.waiting f) →
      u.cache.InAir key f ∧
      ∀ after v, (∀ s ∈ after, s ≠ .cancel i) → run p u after = some v →
        Awaits i f v ∧ ∀ o, v.cache.outcome? f = some o →
          ∃ w, v.step p (.proceed i) = some w ∧ w.callers[i]? = some (.done o)) ∧
    (∀ key f made rounds u after v, t.cache.InAir key f →
      t.step p (.land f made rounds) = some u → run p u after = some v →
      v.cache.Brought f made) ∧
    (limits.maxEntries = none → limits.timeToLive = none → (∀ s ∈ before, s.Spares) →
      ∀ key f g, t.cache.Succeeded key f → t.cache.Succeeded key g → f = g) := by
  have hair := run_airborne p hrun
  refine ⟨⟨hair.nodup, fun _ _ => hair.lookup_eq_some_iff, fun _ _ _ => hair.unique⟩,
    ?_, ?_, ?_⟩
  · intro i key f u hx hstep hy
    refine ⟨decision_inAir p hair hx hstep hy, ?_⟩
    intro after v hafter hv
    have hawaits : Awaits i f v :=
      run_keeps p (· ≠ .cancel i) (Awaits i f) (fun _ _ _ hs ht h => step_awaits p hs ht h)
        hafter (awaits_of_waiting hy) hv
    exact ⟨hawaits, fun o ho => proceed_receives p hawaits ho⟩
  · intro key f made rounds u after v hf hland hv
    obtain ⟨d, hd, rfl⟩ := (step_land_iff p).mp hland
    exact run_keeps p (fun _ => True) (fun t => t.cache.Brought f made)
      (fun _ _ _ _ ht h => (step_effect p h).brought ht) (fun _ _ => trivial)
      (landWithin_brought p hf hd) hv
  · intro hmax httl hspares
    have honce : CompilesOnce t.cache := by
      refine run_keeps p Step.Spares (fun t => CompilesOnce t.cache)
        (fun _ _ _ hs ht h => step_compilesOnce p hs ht h) hspares ?_ hrun
      exact ⟨⟨hmax, httl⟩, by simp [Grounded, start], start_airborne limits tracking,
        by simp [InAir, start], by simp [Succeeded, start], by simp [Succeeded, start]⟩
    exact honce.unique

/-- The second of two callers joins the compile of the first, who then gives up. What the compile
brought is cleared away, and the second caller has it all the same. -/
theorem single_flight_of_two_callers :
    let t : Traffic Nat String String (Lru Nat) :=
      { cache :=
          { limits := {}, tracking := {}, flights := [{ key := 7 }], inFlight := [(7, 0)],
            counters := { misses := 1 } }
        callers := [.waiting 0, .deciding 7] }
    let u : Traffic Nat String String (Lru Nat) :=
      { cache := { t.cache with counters := { misses := 1, coalesced := 1 } }
        callers := [.waiting 0, .waiting 0] }
    let v : Traffic Nat String String (Lru Nat) :=
      { cache :=
          { limits := {}, tracking := { clock := 1 },
            made := [{ payload := "script", createdAt := 0 }],
            flights := [{ key := 7, outcome := some (.ok 0) }],
            counters := { misses := 1, coalesced := 1, compiles := 1 } }
        callers := [.cancelled, .waiting 0] }
    (run Lru.policy (start {} {}) [.call 7, .proceed 0, .proceed 0, .call 7, .proceed 1] = some t ∧
      t.step Lru.policy (.proceed 1) = some u ∧
      run Lru.policy u [.land 0 (.ok "script") 1, .cancel 0, .clear] = some v) ∧
    u.cache.InAir 7 0 ∧ Awaits 1 0 v ∧ v.cache.Brought 0 (.ok "script") := by
  intro t u v
  have ht : run Lru.policy (start {} {})
      [.call 7, .proceed 0, .proceed 0, .call 7, .proceed 1] = some t := rfl
  have hu : t.step Lru.policy (.proceed 1) = some u := rfl
  have hv : run Lru.policy u [.land 0 (.ok "script") 1, .cancel 0, .clear] = some v := rfl
  have hwait := (single_flight Lru.policy {} {} _ t ht).2.1 1 7 0 u rfl hu rfl
  have hbrought := (single_flight Lru.policy {} {}
    [.call 7, .proceed 0, .proceed 0, .call 7, .proceed 1, .proceed 1] u rfl).2.2.1
    7 0 (.ok "script") 1 _ [.cancel 0, .clear] v hwait.1 rfl rfl
  exact ⟨⟨ht, hu, hv⟩, hwait.1, (hwait.2 _ v (by simp) hv).1, hbrought⟩

end Traffic

end Scriptlet
