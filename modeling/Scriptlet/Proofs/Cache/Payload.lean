import Scriptlet.Proofs.Cache.Effect

/-!
No operation of the cache looks at what an entry holds. Replacing every payload by what a function
makes of it, before a step or after it, comes to the same.
-/

namespace Scriptlet

variable {κ α β ε σ : Type}

def Entry.map (f : α → β) (e : Entry α) : Entry β :=
  { payload := f e.payload, createdAt := e.createdAt, hits := e.hits }

namespace Cache

def map (f : α → β) (c : Cache κ α ε σ) : Cache κ β ε σ :=
  { limits := c.limits
    tracking := c.tracking
    now := c.now
    made := c.made.map (Entry.map f)
    entries := c.entries
    flights := c.flights
    inFlight := c.inFlight
    counters := c.counters }

variable (f : α → β) (p : Policy κ σ) (key : κ) (c : Cache κ α ε σ)

theorem isLive_map (id : EntryId) : (c.map f).isLive id = c.isLive id := by
  simp only [isLive, map, List.getElem?_map]
  cases c.made[id]? <;> rfl

theorem recordHit_map (id : EntryId) (made : List (Entry α)) :
    recordHit id (made.map (Entry.map f)) = (recordHit id made).map (Entry.map f) := by
  apply List.ext_getElem?
  intro i
  by_cases hi : id = i
  · subst hi
    simp only [recordHit, List.getElem?_map, List.getElem?_modify_eq]
    cases made[id]? <;> rfl
  · simp only [recordHit, List.getElem?_map, List.getElem?_modify_ne _ _ hi]

variable [DecidableEq κ]

theorem live?_map : (c.map f).live? key = c.live? key := by
  have hlive : (c.map f).isLive = c.isLive := funext (isLive_map f c)
  rw [live?, live?, hlive]
  rfl

theorem lookup_map :
    (c.map f).lookup p key = ((c.lookup p key).1, (c.lookup p key).2.map f) := by
  simp only [lookup, live?_map]
  cases c.live? key with
  | none => rfl
  | some id =>
      simp only [map, recordHit_map]

theorem ask_map : (c.map f).ask p key = ((c.ask p key).1, (c.ask p key).2.map f) := by
  simp only [ask_eq, live?_map, lookup_map]
  cases c.live? key with
  | some id => rfl
  | none =>
      have hair : (c.map f).inFlight = c.inFlight := rfl
      rw [hair]
      cases c.inFlight.lookup key <;> rfl

/-! ### Dropping -/

theorem forgetAll_map (row : List (κ × EntryId)) :
    row.foldl (fun acc x => acc.forget p x.1) (c.map f) =
      (row.foldl (fun acc x => acc.forget p x.1) c).map f := by
  induction row generalizing c with
  | nil => rfl
  | cons x rest ih => exact ih (c.forget p x.1)

theorem remove_map : ((c.map f).remove p key).2 = (c.remove p key).2.map f := by
  have hentries : (c.map f).entries = c.entries := rfl
  simp only [remove, hentries]
  split <;> rfl

theorem clear_map : (c.map f).clear p = (c.clear p).map f :=
  forgetAll_map f p c c.entries

theorem purgeExpired_map : ((c.map f).purgeExpired p).2 = (c.purgeExpired p).2.map f := by
  have hexpired : (c.map f).entries.filter (fun x => !(c.map f).isLive x.2) =
      c.entries.filter fun x => !c.isLive x.2 := by
    simp only [isLive_map]
    rfl
  simp only [purgeExpired, hexpired, forgetAll_map]
  rfl

theorem put_map (id : EntryId) : put p key id (c.map f) = (put p key id c).map f := by
  have hentries : (c.map f).entries = c.entries := rfl
  simp only [put, hentries]
  split <;> rfl

theorem trim_map (rounds : Nat) :
    trim p rounds (c.map f) = (trim p rounds c).map (Cache.map f) := by
  have hfits (c : Cache κ α ε σ) : (c.map f).fits = c.fits := rfl
  induction rounds generalizing c with
  | zero =>
      simp only [trim, hfits]
      split <;> rfl
  | succ rounds ih =>
      simp only [trim, hfits]
      split
      · rfl
      · have htracking : (c.map f).tracking = c.tracking := rfl
        rw [htracking]
        rcases p.evict c.tracking with ⟨_ | victim, tracking⟩
        · rfl
        · exact ih (evict p victim { c with tracking })

/-! ### Landing -/

theorem insert_map (rounds : Nat) (payload : α) :
    insert p rounds key (f payload) (c.map f) =
      (insert p rounds key payload c).map (Cache.map f) := by
  have hmake : (c.map f).make (f payload) = (c.make payload).map f := by
    simp [make, map, Entry.map]
  have hlength : (c.map f).made.length = c.made.length := List.length_map _
  rw [insert_eq, insert_eq, hmake, hlength, purgeExpired_map, put_map, trim_map]

theorem landWithin_map (rounds : Nat) (flight : FlightId) (made : Except ε α) :
    (c.map f).landWithin p rounds flight (made.map f) =
      (c.landWithin p rounds flight made).map (Cache.map f) := by
  have hflights : (c.map f).flights = c.flights := rfl
  simp only [landWithin, hflights]
  split
  · next key hair =>
      cases made with
      | error e => rfl
      | ok payload =>
          let counted := { c with
            counters := { c.counters with compiles := c.counters.compiles + 1 } }
          have hlength : (c.map f).made.length = c.made.length := List.length_map _
          change (insert p rounds key (f payload) (counted.map f)).bind (fun d =>
            some (retire flight key (.ok (c.map f).made.length) d)) = _
          rw [insert_map, hlength]
          change _ = ((insert p rounds key payload counted).bind fun d =>
            some (retire flight key (.ok c.made.length) d)).map (Cache.map f)
          cases insert p rounds key payload counted <;> rfl
  · rfl

end Cache

namespace Traffic

def map (f : α → β) (t : Traffic κ α ε σ) : Traffic κ β ε σ :=
  { cache := t.cache.map f, callers := t.callers }

def Step.map (f : α → β) : Step κ α ε → Step κ β ε
  | .call key => .call key
  | .proceed i => .proceed i
  | .cancel i => .cancel i
  | .land flight made rounds => .land flight (made.map f) rounds
  | .get key => .get key
  | .remove key => .remove key
  | .clear => .clear
  | .purgeExpired => .purgeExpired
  | .wait time => .wait time

variable [DecidableEq κ]

theorem advance_map (f : α → β) (p : Policy κ σ) (c : Cache κ α ε σ) (x : Caller κ ε) :
    advance p (c.map f) x = ((advance p c x).1, (advance p c x).2.map f) := by
  cases x with
  | looking key =>
      simp only [advance, Cache.lookup_map]
      rcases c.lookup p key with ⟨_ | _, _⟩ <;> rfl
  | deciding key =>
      simp only [advance, Cache.ask_map]
      rcases c.ask p key with ⟨_ | _ | _, _⟩ <;> rfl
  | waiting flight =>
      have ho : (c.map f).outcome? flight = c.outcome? flight := rfl
      simp only [advance, ho]
      split <;> rfl
  | done o => rfl
  | cancelled => rfl

/-- A step does the same to caches that differ in what their entries hold. -/
theorem step_map (f : α → β) (p : Policy κ σ) (t : Traffic κ α ε σ) (s : Step κ α ε) :
    (t.map f).step p (s.map f) = (t.step p s).map (Traffic.map f) := by
  cases s with
  | call key => rfl
  | proceed i =>
      have hcallers : (t.map f).callers = t.callers := rfl
      simp only [Step.map, step, hcallers]
      split
      · rfl
      · next x hx =>
          have hcache : (t.map f).cache = t.cache.map f := rfl
          rw [hcache, advance_map]
          rfl
  | cancel i => rfl
  | land flight made rounds =>
      have hcache : (t.map f).cache = t.cache.map f := rfl
      simp only [Step.map, step, hcache, Cache.landWithin_map]
      cases t.cache.landWithin p rounds flight made <;> rfl
  | get key =>
      have hcache : (t.map f).cache = t.cache.map f := rfl
      simp only [Step.map, step, hcache, Cache.lookup_map]
      rfl
  | remove key =>
      have hcache : (t.map f).cache = t.cache.map f := rfl
      simp only [Step.map, step, hcache, Cache.remove_map]
      rfl
  | clear =>
      have hcache : (t.map f).cache = t.cache.map f := rfl
      simp only [Step.map, step, hcache, Cache.clear_map]
      rfl
  | purgeExpired =>
      have hcache : (t.map f).cache = t.cache.map f := rfl
      simp only [Step.map, step, hcache, Cache.purgeExpired_map]
      rfl
  | wait time => rfl

end Traffic

end Scriptlet
