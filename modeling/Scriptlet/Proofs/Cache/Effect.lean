import Scriptlet.Cache.Caller
import Scriptlet.Proofs.Cache.Operations

/-!
One step of the traffic, seen twice. `Effect` lists what it can do to the cache and `Move` what it
can do to a caller. Every invariant of a run is shown against these two lists, so a step is opened
here and nowhere else.
-/

namespace Scriptlet

namespace Cache

variable {κ α ε σ : Type} [DecidableEq κ]

/-- The cache after a compile of a key was started. -/
def depart (key : κ) (c : Cache κ α ε σ) : Cache κ α ε σ :=
  { c with
    flights := c.flights ++ [{ key }]
    inFlight := c.inFlight ++ [(key, c.flights.length)]
    counters := { c.counters with misses := c.counters.misses + 1 } }

/-- The cache after a caller joined a flight. -/
def coalesce (c : Cache κ α ε σ) : Cache κ α ε σ :=
  { c with counters := { c.counters with coalesced := c.counters.coalesced + 1 } }

/-- The cache with one more entry made, under no key yet. -/
def make (payload : α) (c : Cache κ α ε σ) : Cache κ α ε σ :=
  { c with made := c.made ++ [{ payload, createdAt := c.now }] }

omit [DecidableEq κ] in
theorem coalesce_drops (c : Cache κ α ε σ) : Drops c c.coalesce :=
  ⟨rfl, rfl, rfl, rfl, rfl, List.Sublist.refl _⟩

omit [DecidableEq κ] in
theorem births_make (payload : α) (c : Cache κ α ε σ) :
    (c.make payload).births = c.births ++ [(payload, c.now)] := by
  simp [births, make, Entry.birth]

/-- The decision under the lock: a live entry first, then a flight, then a start. -/
theorem ask_eq (p : Policy κ σ) (key : κ) (c : Cache κ α ε σ) :
    c.ask p key =
      match c.live? key with
      | some id => (.hit id, (c.lookup p key).2)
      | none =>
          match c.inFlight.lookup key with
          | some flight => (.joined flight, c.coalesce)
          | none => (.started c.flights.length, c.depart key) := by
  unfold ask lookup
  cases hlive : c.live? key with
  | some id => rfl
  | none => cases hair : c.inFlight.lookup key <;> simp only [hair] <;> rfl

theorem ask_entries (p : Policy κ σ) (key : κ) (c : Cache κ α ε σ) :
    (c.ask p key).2.entries = c.entries := by
  rw [ask_eq]
  split
  · exact lookup_entries p key c
  · split <;> rfl

theorem put_entries (p : Policy κ σ) (key : κ) (id : EntryId) (c : Cache κ α ε σ) :
    (put p key id c).entries = without key c.entries ++ [(key, id)] := by
  unfold put
  cases hlookup : c.entries.lookup key with
  | none => simp [without_of_lookup_none hlookup]
  | some _ => simp [forget]

/-- `d` is `c` after an entry was made and put in under a key. Entries may have been dropped on
the way, the new one included. -/
structure Inserts (key : κ) (payload : α) (c d : Cache κ α ε σ) : Prop where
  limits : d.limits = c.limits
  now : d.now = c.now
  births : d.births = c.births ++ [(payload, c.now)]
  flights : d.flights = c.flights
  inFlight : d.inFlight = c.inFlight
  entries : ∃ kept, kept.Sublist c.entries ∧
    d.entries.Sublist (without key kept ++ [(key, c.births.length)])

theorem put_frame (p : Policy κ σ) (key : κ) (id : EntryId) (c : Cache κ α ε σ) :
    (put p key id c).limits = c.limits ∧ (put p key id c).now = c.now ∧
      (put p key id c).births = c.births ∧ (put p key id c).flights = c.flights ∧
      (put p key id c).inFlight = c.inFlight ∧ (put p key id c).counters = c.counters := by
  unfold put
  split <;> exact ⟨rfl, rfl, rfl, rfl, rfl, rfl⟩

theorem insert_eq (p : Policy κ σ) (rounds : Nat) (key : κ) (payload : α)
    (c : Cache κ α ε σ) :
    insert p rounds key payload c =
      trim p rounds (put p key c.made.length ((c.make payload).purgeExpired p).2) := rfl

theorem insert_inserts (p : Policy κ σ) {rounds : Nat} {key : κ} {payload : α}
    {c d : Cache κ α ε σ} (h : insert p rounds key payload c = some d) :
    Inserts key payload c d := by
  rw [insert_eq] at h
  have hpurge := purgeExpired_drops p (c.make payload)
  have hput := put_frame p key c.made.length ((c.make payload).purgeExpired p).2
  have htrim := trim_drops p h
  have hmake := births_make payload c
  refine ⟨?_, ?_, ?_, ?_, ?_, _, hpurge.entries, ?_⟩
  · exact htrim.limits.trans (hput.1.trans hpurge.limits)
  · exact htrim.now.trans (hput.2.1.trans hpurge.now)
  · exact htrim.births.trans (hput.2.2.1.trans (hpurge.births.trans hmake))
  · exact htrim.flights.trans (hput.2.2.2.1.trans hpurge.flights)
  · exact htrim.inFlight.trans (hput.2.2.2.2.1.trans hpurge.inFlight)
  · rw [length_births, ← put_entries p]
    exact htrim.entries

theorem Inserts.mem_entries {key : κ} {payload : α} {c d : Cache κ α ε σ}
    (h : Inserts key payload c d) {x : κ × EntryId} (hx : x ∈ d.entries) :
    x ∈ c.entries ∨ x = (key, c.births.length) := by
  obtain ⟨kept, hkept, hsub⟩ := h.entries
  rcases List.mem_append.mp (hsub.subset hx) with hold | hnew
  · exact Or.inl (hkept.subset (mem_without.mp hold).1)
  · exact Or.inr (List.mem_singleton.mp hnew)

/-- Whatever the key had before is gone. -/
theorem Inserts.eq_of_mem {key : κ} {payload : α} {c d : Cache κ α ε σ}
    (h : Inserts key payload c d) {id : EntryId} (hid : (key, id) ∈ d.entries) :
    id = c.births.length := by
  obtain ⟨kept, _, hsub⟩ := h.entries
  rcases List.mem_append.mp (hsub.subset hid) with hold | hnew
  · exact absurd rfl (mem_without.mp hold).2
  · exact congrArg Prod.snd (List.mem_singleton.mp hnew)

/-- What one step can do to a cache, and the compile that it lands if it does. -/
inductive Effect (p : Policy κ σ) (c : Cache κ α ε σ) :
    Option (FlightId × Except ε α) → Cache κ α ε σ → Prop where
  | drops {landing : Option (FlightId × Except ε α)} {d : Cache κ α ε σ} (h : Drops c d) :
      Effect p c landing d
  | waits (time : Duration) : Effect p c none (c.wait time)
  | starts {key : κ} (hlive : c.live? key = none) (hfree : c.inFlight.lookup key = none) :
      Effect p c none (c.depart key)
  | fails {key : κ} {flight : FlightId} (e : ε) (counters : Counters)
      (hair : c.InAir key flight) :
      Effect p c (some (flight, .error e)) (retire flight key (.error e) { c with counters })
  | lands {key : κ} {flight : FlightId} {payload : α} {rounds : Nat} {counters : Counters}
      {d : Cache κ α ε σ} (hair : c.InAir key flight)
      (h : insert p rounds key payload { c with counters } = some d) :
      Effect p c (some (flight, .ok payload)) (retire flight key (.ok c.made.length) d)

variable {landing : Option (FlightId × Except ε α)}

theorem Effect.limits {p : Policy κ σ} {c d : Cache κ α ε σ} (h : Effect p c landing d) :
    d.limits = c.limits := by
  cases h with
  | drops h => exact h.limits
  | waits time => rfl
  | starts _ _ => rfl
  | fails e counters hair => rfl
  | lands hair h => exact (insert_inserts p h).limits

/-- The clock does not go back. -/
theorem Effect.now_le {p : Policy κ σ} {c d : Cache κ α ε σ} (h : Effect p c landing d) :
    c.now ≤ d.now := by
  cases h with
  | drops h => exact Nat.le_of_eq h.now.symm
  | waits time => exact Nat.le_add_right _ _
  | starts _ _ => exact Nat.le_refl _
  | fails e counters hair => exact Nat.le_refl _
  | lands hair h => exact Nat.le_of_eq (insert_inserts p h).now.symm

/-- A landing is nothing for a flight that is not in the air; else it fails or puts an entry in. -/
theorem landWithin_cases (p : Policy κ σ) {rounds : Nat} {flight : FlightId}
    {made : Except ε α} {c d : Cache κ α ε σ}
    (h : c.landWithin p rounds flight made = some d) :
    ((∀ key, ¬ c.InAir key flight) ∧ d = c) ∨
    (∃ key e, c.InAir key flight ∧ made = .error e ∧
      d = retire flight key (.error e) { c with
        counters := { c.counters with compileFailures := c.counters.compileFailures + 1 } }) ∨
    (∃ key payload e, c.InAir key flight ∧ made = .ok payload ∧
      insert p rounds key payload { c with
        counters := { c.counters with compiles := c.counters.compiles + 1 } } = some e ∧
      d = retire flight key (.ok c.made.length) e) := by
  unfold landWithin at h
  split at h
  · next key hflight =>
      right
      cases made with
      | error e =>
          left
          cases h
          exact ⟨key, e, hflight, rfl, rfl⟩
      | ok payload =>
          right
          simp only [Option.bind_eq_bind, Option.bind_eq_some_iff, Option.some.injEq] at h
          obtain ⟨e, hinsert, rfl⟩ := h
          exact ⟨key, payload, e, hflight, rfl, hinsert, rfl⟩
  · next hnot =>
      left
      refine ⟨fun key hair => hnot key hair, ?_⟩
      exact (Option.some.inj h).symm

/-- A flight in the air that lands with a payload puts it in under its key. -/
theorem landWithin_ok (p : Policy κ σ) {rounds : Nat} {key : κ} {flight : FlightId} {payload : α}
    {c d : Cache κ α ε σ} (hair : c.InAir key flight)
    (h : c.landWithin p rounds flight (.ok payload) = some d) :
    ∃ e, insert p rounds key payload { c with
        counters := { c.counters with compiles := c.counters.compiles + 1 } } = some e ∧
      d = retire flight key (.ok c.made.length) e := by
  rcases landWithin_cases p h with ⟨hnot, _⟩ | ⟨_, _, _, hmade, _⟩ |
    ⟨key', payload', e, hair', hmade, hinsert, rfl⟩
  · exact absurd hair (hnot key)
  · cases hmade
  · cases hmade
    rw [InAir, hair] at hair'
    obtain rfl : key = key' := congrArg Flight.key (Option.some.inj hair')
    exact ⟨e, hinsert, rfl⟩

theorem landWithin_effect (p : Policy κ σ) {rounds : Nat} {flight : FlightId}
    {made : Except ε α} {c d : Cache κ α ε σ}
    (h : c.landWithin p rounds flight made = some d) : Effect p c (some (flight, made)) d := by
  rcases landWithin_cases p h with ⟨_, rfl⟩ | ⟨key, e, hair, rfl, rfl⟩ |
    ⟨key, payload, e, hair, rfl, hinsert, rfl⟩
  · exact .drops (Drops.refl _)
  · exact .fails e _ hair
  · exact .lands hair hinsert

theorem ask_effect (p : Policy κ σ) (key : κ) (c : Cache κ α ε σ) :
    Effect p c none (c.ask p key).2 := by
  rw [ask_eq]
  split
  · exact .drops (lookup_drops p key c)
  · next hlive =>
      split
      · exact .drops (coalesce_drops c)
      · next hfree => exact .starts hlive hfree

end Cache

namespace Traffic

open Cache

variable {κ α ε σ : Type} [DecidableEq κ]

/-- What one step can do to a caller, who sees the cache `c` before it and `d` after it. -/
inductive Move (c d : Cache κ α ε σ) : Caller κ ε → Caller κ ε → Prop where
  | rests (x : Caller κ ε) : Move c d x x
  | misses {key : κ} (hlive : c.live? key = none) : Move c d (.looking key) (.deciding key)
  | isServed {key : κ} {id : EntryId} (hlive : c.live? key = some id) {x : Caller κ ε}
      (hx : x = .looking key ∨ x = .deciding key) : Move c d x (.done (.ok id))
  | joins {key : κ} {flight : FlightId} (hlive : c.live? key = none)
      (hair : c.inFlight.lookup key = some flight) (hd : d = c.coalesce) :
      Move c d (.deciding key) (.waiting flight)
  | starts {key : κ} (hlive : c.live? key = none) (hfree : c.inFlight.lookup key = none)
      (hd : d = c.depart key) : Move c d (.deciding key) (.waiting c.flights.length)
  | receives {flight : FlightId} {o : Except ε EntryId} (ho : c.outcome? flight = some o)
      (hd : d = c) : Move c d (.waiting flight) (.done o)

theorem advance_looking_snd (p : Policy κ σ) (key : κ) (c : Cache κ α ε σ) :
    (advance p c (.looking key)).2 = (c.lookup p key).2 := by
  rcases h : c.lookup p key with ⟨_ | id, d⟩ <;> simp only [advance, h]

theorem advance_deciding_snd (p : Policy κ σ) (key : κ) (c : Cache κ α ε σ) :
    (advance p c (.deciding key)).2 = (c.ask p key).2 := by
  rcases h : c.ask p key with ⟨_ | _ | _, d⟩ <;> simp only [advance, h]

theorem advance_effect (p : Policy κ σ) (c : Cache κ α ε σ) (x : Caller κ ε) :
    Effect p c none (advance p c x).2 := by
  cases x with
  | looking key =>
      rw [advance_looking_snd]
      exact .drops (lookup_drops p key c)
  | deciding key =>
      rw [advance_deciding_snd]
      exact ask_effect p key c
  | waiting flight =>
      simp only [advance]
      split <;> exact .drops (Drops.refl c)
  | done o => exact .drops (Drops.refl c)
  | cancelled => exact .drops (Drops.refl c)

/-- Callers put nothing in and take nothing out. -/
theorem advance_entries (p : Policy κ σ) (c : Cache κ α ε σ) (x : Caller κ ε) :
    (advance p c x).2.entries = c.entries := by
  cases x with
  | looking key =>
      rw [advance_looking_snd]
      exact lookup_entries p key c
  | deciding key =>
      rw [advance_deciding_snd]
      exact ask_entries p key c
  | waiting flight =>
      simp only [advance]
      split <;> rfl
  | done o => rfl
  | cancelled => rfl

theorem advance_move (p : Policy κ σ) (c : Cache κ α ε σ) (x : Caller κ ε) :
    Move c (advance p c x).2 x (advance p c x).1 := by
  cases x with
  | looking key =>
      cases hlive : c.live? key with
      | none =>
          simp only [advance, lookup, hlive]
          exact .misses hlive
      | some id =>
          simp only [advance, lookup, hlive]
          exact .isServed hlive (Or.inl rfl)
  | deciding key =>
      cases hlive : c.live? key with
      | some id =>
          simp only [advance, ask_eq, hlive]
          exact .isServed hlive (Or.inr rfl)
      | none =>
          cases hair : c.inFlight.lookup key with
          | some flight =>
              simp only [advance, ask_eq, hlive, hair]
              exact .joins hlive hair rfl
          | none =>
              simp only [advance, ask_eq, hlive, hair]
              exact .starts hlive hair rfl
  | waiting flight =>
      cases ho : c.outcome? flight with
      | none =>
          simp only [advance, ho]
          exact .rests _
      | some o =>
          simp only [advance, ho]
          exact .receives ho rfl
  | done o => exact .rests _
  | cancelled => exact .rests _

theorem step_proceed (p : Policy κ σ) {t : Traffic κ α ε σ} {i : Nat} {x : Caller κ ε}
    (hx : t.callers[i]? = some x) :
    t.step p (.proceed i) = some
      { cache := (advance p t.cache x).2, callers := t.callers.set i (advance p t.cache x).1 } := by
  simp only [step, hx]

theorem step_land_iff (p : Policy κ σ) {t u : Traffic κ α ε σ} {flight : FlightId}
    {made : Except ε α} {rounds : Nat} :
    t.step p (.land flight made rounds) = some u ↔
      ∃ d, t.cache.landWithin p rounds flight made = some d ∧ { t with cache := d } = u := by
  simp only [step, Option.bind_eq_bind, Option.bind_eq_some_iff, Option.some.injEq]

theorem run_cons_iff (p : Policy κ σ) {t u : Traffic κ α ε σ} {s : Step κ α ε}
    {more : List (Step κ α ε)} :
    run p t (s :: more) = some u ↔ ∃ v, t.step p s = some v ∧ run p v more = some u := by
  simp only [run, Option.bind_eq_bind, Option.bind_eq_some_iff]

/-- The compile that a step lands, if it is in the air. -/
def Step.landing : Step κ α ε → Option (FlightId × Except ε α)
  | .land flight made _ => some (flight, made)
  | _ => none

theorem step_effect (p : Policy κ σ) {t u : Traffic κ α ε σ} {s : Step κ α ε}
    (h : t.step p s = some u) : Effect p t.cache s.landing u.cache := by
  cases s with
  | call key =>
      cases h
      exact .drops (Drops.refl _)
  | proceed i =>
      simp only [step] at h
      split at h
      · cases h
        exact .drops (Drops.refl _)
      · next x _ =>
          cases h
          exact advance_effect p t.cache x
  | cancel i =>
      cases h
      exact .drops (Drops.refl _)
  | land flight made rounds =>
      obtain ⟨d, hland, rfl⟩ := (step_land_iff p).mp h
      exact landWithin_effect p hland
  | get key =>
      cases h
      exact .drops (lookup_drops p key _)
  | remove key =>
      cases h
      exact .drops (remove_drops p key _)
  | clear =>
      cases h
      exact .drops (clear_drops p _)
  | purgeExpired =>
      cases h
      exact .drops (purgeExpired_drops p _)
  | wait time =>
      cases h
      exact .waits time

/-- The keys that new callers ask for. -/
def Step.asks : Step κ α ε → List κ
  | .call key => [key]
  | _ => []

/-- A step that is not a caller's own leaves the callers as they are, but for a new one or one
who gives up. -/
theorem step_callers (p : Policy κ σ) {t u : Traffic κ α ε σ} {s : Step κ α ε}
    (h : t.step p s = some u) :
    (∃ key, s = .call key ∧ u = { t with callers := t.callers ++ [.looking key] }) ∨
    (∃ i x, s = .proceed i ∧ t.callers[i]? = some x ∧
      u = { cache := (advance p t.cache x).2, callers := t.callers.set i (advance p t.cache x).1 }) ∨
    (∃ i, s = .cancel i ∧ u = { t with callers := t.callers.modify i giveUp }) ∨
    (s.asks = [] ∧ u.callers = t.callers) := by
  cases s with
  | call key =>
      cases h
      exact Or.inl ⟨key, rfl, rfl⟩
  | proceed i =>
      simp only [step] at h
      split at h
      · cases h
        exact Or.inr (Or.inr (Or.inr ⟨rfl, rfl⟩))
      · next x hx =>
          cases h
          exact Or.inr (Or.inl ⟨i, x, rfl, hx, rfl⟩)
  | cancel i =>
      cases h
      exact Or.inr (Or.inr (Or.inl ⟨i, rfl, rfl⟩))
  | land flight made rounds =>
      obtain ⟨d, _, rfl⟩ := (step_land_iff p).mp h
      exact Or.inr (Or.inr (Or.inr ⟨rfl, rfl⟩))
  | get key => cases h; exact Or.inr (Or.inr (Or.inr ⟨rfl, rfl⟩))
  | remove key => cases h; exact Or.inr (Or.inr (Or.inr ⟨rfl, rfl⟩))
  | clear => cases h; exact Or.inr (Or.inr (Or.inr ⟨rfl, rfl⟩))
  | purgeExpired => cases h; exact Or.inr (Or.inr (Or.inr ⟨rfl, rfl⟩))
  | wait time => cases h; exact Or.inr (Or.inr (Or.inr ⟨rfl, rfl⟩))

/-- Every caller makes one of the moves, unless it is told to give up. -/
theorem step_move (p : Policy κ σ) {t u : Traffic κ α ε σ} {s : Step κ α ε}
    (h : t.step p s = some u) {i : Nat} {x : Caller κ ε} (hx : t.callers[i]? = some x) :
    ∃ y, u.callers[i]? = some y ∧
      (Move t.cache u.cache x y ∨ s = .cancel i ∧ u.cache = t.cache ∧ y = giveUp x) := by
  have hi : i < t.callers.length := (List.getElem?_eq_some_iff.mp hx).1
  rcases step_callers p h with ⟨key, rfl, rfl⟩ | ⟨j, x', rfl, hj, rfl⟩ | ⟨j, rfl, rfl⟩ | ⟨_, hsame⟩
  · exact ⟨x, by rw [List.getElem?_append_left hi, hx], Or.inl (.rests x)⟩
  · by_cases hij : j = i
    · subst hij
      obtain rfl : x' = x := Option.some.inj (hj.symm.trans hx)
      exact ⟨_, by simp [hi], Or.inl (advance_move p t.cache x')⟩
    · exact ⟨x, by simp [hij, hx], Or.inl (.rests x)⟩
  · by_cases hij : j = i
    · subst hij
      exact ⟨giveUp x, by simp [hx], Or.inr ⟨rfl, rfl, rfl⟩⟩
    · exact ⟨x, by rw [List.getElem?_modify_ne _ _ hij, hx], Or.inl (.rests x)⟩
  · exact ⟨x, by rw [hsame, hx], Or.inl (.rests x)⟩

/-- What every allowed step keeps, a run of allowed steps keeps. -/
theorem run_keeps (p : Policy κ σ) (Allowed : Step κ α ε → Prop)
    (Inv : Traffic κ α ε σ → Prop)
    (hstep : ∀ t u s, Allowed s → Inv t → t.step p s = some u → Inv u)
    {steps : List (Step κ α ε)} (hsteps : ∀ s ∈ steps, Allowed s)
    {t u : Traffic κ α ε σ} (ht : Inv t) (hrun : run p t steps = some u) : Inv u := by
  induction steps generalizing t with
  | nil => exact Option.some.inj hrun ▸ ht
  | cons s more ih =>
      obtain ⟨v, hv, hrest⟩ := (run_cons_iff p).mp hrun
      have hkept : Inv v := hstep t v s (hsteps s (by simp)) ht hv
      exact ih (fun s hs => hsteps s (by simp [hs])) hkept hrest

/-- Nothing asked for yet, with a policy in a given state. -/
def start (limits : Limits) (tracking : σ) : Traffic κ α ε σ :=
  { cache := { limits, tracking } }

end Traffic

end Scriptlet
