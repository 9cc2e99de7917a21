import Scriptlet.Proofs.Cache.Flights
import Scriptlet.Proofs.Cache.ReferenceList

/-!
The bounded cache under any traffic. With one of the two named policies it keeps the reference
list, whatever callers, landings and everyone else do and in whichever order.

A landing puts its key at the end of the list, which is right only if the key is not in the list
any more once the expired items are gone. It is not, because a compile is started only for a key
that is not served, and no key comes to be served but by its own landing.
-/

namespace Scriptlet

theorem Limits.admits_of_le {limits : Limits} {now later landed : Nat} (hle : now ≤ later)
    (h : limits.admits later landed = true) : limits.admits now landed = true := by
  unfold Limits.admits at h ⊢
  cases httl : limits.timeToLive with
  | none => rfl
  | some lifetime =>
      simp only [httl, decide_eq_true_eq] at h ⊢
      omega

namespace Cache

variable {κ α ε σ : Type} [DecidableEq κ] {landing : Option (FlightId × Except ε α)}

/-- No step brings an entry back to life. -/
theorem Effect.isLive {p : Policy κ σ} {c d : Cache κ α ε σ} (h : Effect p c landing d) {id : EntryId}
    (hid : id < c.births.length) (hlive : d.isLive id = true) : c.isLive id = true := by
  obtain ⟨more, hmore⟩ := h.births
  have hborn : d.born? id = c.born? id := by
    rw [born?, born?, hmore, List.getElem?_append_left hid]
  rw [isLive_eq, hborn, h.limits] at hlive
  rw [isLive_eq]
  cases hb : c.born? id with
  | none => simp [hb] at hlive
  | some landed =>
      rw [hb, Option.any_some] at hlive
      exact Limits.admits_of_le h.now_le hlive

/-- A key that is being compiled is not served. -/
def Unserved (c : Cache κ α ε σ) : Prop :=
  ∀ key f, c.InAir key f → c.live? key = none

/-- What is served after a step was served before or has just landed, so it is not in the air. -/
theorem Effect.unserved {limits : Limits} {e : Eviction} {c d : Cache κ α ε (NamedPolicy κ)}
    {l m : Lane κ} (h : Effect NamedPolicy.policy c landing d) (hc : Refines limits e c l)
    (hd : Refines limits e d m) (hair : Airborne c) (hunserved : Unserved c) : Unserved d := by
  intro key f hf
  rcases h.inAir hf with hold | ⟨hlive, rfl⟩
  · cases hserved : d.live? key with
    | none => rfl
    | some id =>
        exfalso
        obtain ⟨hentry, hlive⟩ := hd.live?_eq_some_iff.mp hserved
        rcases h.mem_entries hentry with hbefore | ⟨g, hg, hlanded⟩
        · have hid : id < c.births.length := by
            obtain ⟨landed, hborn⟩ := hc.born_of_mem hbefore
            obtain ⟨birth, hbirth, _⟩ := Option.map_eq_some_iff.mp hborn
            exact (List.getElem?_eq_some_iff.mp hbirth).1
          have hthen := hc.live?_eq_some_iff.mpr ⟨hbefore, h.isLive hid hlive⟩
          rw [hunserved key f hold] at hthen
          cases hthen
        · obtain rfl : f = g := hair.unique hold hg
          rw [InAir, hlanded] at hf
          cases hf
  · exact hlive

namespace Refines

variable {limits : Limits} {e : Eviction} {c d : Cache κ α ε (NamedPolicy κ)} {l : Lane κ}

theorem holds_of_live?_eq_none (h : Refines limits e c l) {key : κ} (hlive : c.live? key = none) :
    l.holds limits key = false := by
  rw [← h.contains_eq, contains, hlive]
  rfl

/-- A decision uses the key if it is served; to join a flight or to start one is nothing to the
list. -/
theorem ask (h : Refines limits e c l) (key : κ) :
    Refines limits e (c.ask NamedPolicy.policy key).2 (l.step limits e (.look key)) := by
  rw [ask_eq]
  split
  · exact h.lookup key
  · next hlive =>
      have hsame : l.step limits e (.look key) = l := by
        simp [Lane.step, h.holds_of_live?_eq_none hlive]
      rw [hsame]
      split <;> exact h.congr rfl rfl rfl rfl rfl rfl rfl

omit [DecidableEq κ] in
theorem countCompile (h : Refines limits e c l) :
    Refines limits e { c with
      counters := { c.counters with compiles := c.counters.compiles + 1 } } l :=
  h.congr rfl rfl rfl rfl rfl rfl rfl

omit [DecidableEq κ] in
theorem wait (h : Refines limits e c l) (time : Duration) :
    Refines limits e (c.wait time) { l with now := l.now + time.nanoseconds } :=
  ⟨h.limits, congrArg (· + time.nanoseconds) h.now, h.nodup, h.tracks, h.stamps, h.hits,
    h.evictions⟩

end Refines

end Cache

namespace Traffic

open Cache

variable {κ α ε : Type} [DecidableEq κ]

/-- What a step is to the list: a use of a key, a landing that brings an entry, or one of the
operations on the map. -/
def event {σ : Type} (t : Traffic κ α ε σ) : Step κ α ε → Lane.Event κ
  | .proceed i =>
      match t.callers[i]? with
      | some (.looking key) | some (.deciding key) => .look key
      | _ => .rest
  | .land flight made _ =>
      match t.cache.flights[flight]?, made with
      | some { key, outcome := none }, .ok _ => .land key
      | _, _ => .rest
  | .get key => .look key
  | .remove key => .remove key
  | .clear => .clear
  | .purgeExpired => .purge
  | .wait time => .wait time
  | .call _ | .cancel _ => .rest

/-- What a run is to the list. -/
def events {σ : Type} (p : Policy κ σ) : Traffic κ α ε σ → List (Step κ α ε) →
    List (Lane.Event κ)
  | _, [] => []
  | t, s :: more =>
      t.event s :: match t.step p s with
        | some u => events p u more
        | none => []

/-- The cache keeps the list, which has room, and what is in the air is not served. -/
structure Bounded (limits : Limits) (e : Eviction) (t : Traffic κ α ε (NamedPolicy κ))
    (l : Lane κ) : Prop where
  refines : Refines limits e t.cache l
  airborne : Airborne t.cache
  unserved : Unserved t.cache
  room : ∀ most, limits.maxEntries = some most → l.items.length ≤ most

variable {limits : Limits} {e : Eviction} {t u : Traffic κ α ε (NamedPolicy κ)} {l : Lane κ}

theorem advance_refines (h : Refines limits e t.cache l) {i : Nat} {x : Caller κ ε}
    (hx : t.callers[i]? = some x) :
    Refines limits e (advance NamedPolicy.policy t.cache x).2
      (l.step limits e (t.event (.proceed i))) := by
  cases x with
  | looking key =>
      simp only [event, hx, advance_looking_snd]
      exact h.lookup key
  | deciding key =>
      simp only [event, hx, advance_deciding_snd]
      exact h.ask key
  | waiting flight =>
      simp only [event, hx, advance]
      split <;> exact h
  | done o =>
      simp only [event, hx]
      exact h
  | cancelled =>
      simp only [event, hx]
      exact h

theorem Bounded.landWithin (h : Bounded limits e t l) {f : FlightId} {made : Except ε α}
    {rounds : Nat} {d : Cache κ α ε (NamedPolicy κ)}
    (hland : t.cache.landWithin NamedPolicy.policy rounds f made = some d) :
    Refines limits e d (l.step limits e (t.event (.land f made rounds))) := by
  rcases landWithin_cases _ hland with ⟨hnot, rfl⟩ | ⟨key, error, hair, rfl, rfl⟩ |
    ⟨key, payload, d, hair, rfl, hinsert, rfl⟩
  · have hrest : t.event (.land f made rounds) = .rest := by
      simp only [event]
      split
      · next key _ hflight => exact absurd hflight (hnot key)
      · rfl
    rw [hrest]
    exact h.refines
  · rw [InAir] at hair
    simp only [event, hair]
    exact h.refines.congr rfl rfl rfl rfl rfl rfl rfl
  · have hholds := h.refines.holds_of_live?_eq_none (h.unserved key f hair)
    rw [InAir] at hair
    simp only [event, hair]
    exact (h.refines.countCompile.insert hholds hinsert).congr rfl rfl rfl rfl rfl rfl rfl

/-- One step of the traffic is one step of the list. -/
theorem Bounded.step_refines (h : Bounded limits e t l) {s : Step κ α ε}
    (hstep : t.step NamedPolicy.policy s = some u) :
    Refines limits e u.cache (l.step limits e (t.event s)) := by
  cases s with
  | call key =>
      cases hstep
      exact h.refines
  | proceed i =>
      cases hx : t.callers[i]? with
      | none =>
          simp only [step, hx, Option.some.injEq] at hstep
          simp only [event, hx, ← hstep]
          exact h.refines
      | some x =>
          rw [step_proceed _ hx, Option.some.injEq] at hstep
          rw [← hstep]
          exact advance_refines h.refines hx
  | cancel i =>
      cases hstep
      exact h.refines
  | land f made rounds =>
      obtain ⟨d, hland, rfl⟩ := (step_land_iff _).mp hstep
      exact h.landWithin hland
  | get key =>
      cases hstep
      exact h.refines.lookup key
  | remove key =>
      cases hstep
      exact h.refines.remove key
  | clear =>
      cases hstep
      exact h.refines.clear
  | purgeExpired =>
      cases hstep
      exact h.refines.purgeExpired
  | wait time =>
      cases hstep
      exact h.refines.wait time

theorem Bounded.step (h : Bounded limits e t l) {s : Step κ α ε}
    (hstep : t.step NamedPolicy.policy s = some u) :
    Bounded limits e u (l.step limits e (t.event s)) := by
  have heffect := step_effect _ hstep
  have hrefines := h.step_refines hstep
  refine ⟨hrefines, heffect.airborne h.airborne,
    heffect.unserved h.refines hrefines h.airborne h.unserved, ?_⟩
  intro most hmost
  exact Lane.length_step_le hmost e (h.room most hmost) _

theorem Bounded.run (h : Bounded limits e t l) {steps : List (Step κ α ε)}
    (hrun : run NamedPolicy.policy t steps = some u) :
    Bounded limits e u
      ((events NamedPolicy.policy t steps).foldl (Lane.step limits e) l) := by
  induction steps generalizing t l with
  | nil => exact Option.some.inj hrun ▸ h
  | cons s more ih =>
      obtain ⟨v, hv, hrest⟩ := (run_cons_iff _).mp hrun
      simp only [events, hv, List.foldl_cons]
      exact ih (h.step hv) hrest

theorem start_bounded (limits : Limits) (e : Eviction) :
    Bounded limits e (start limits (.start e) : Traffic κ α ε (NamedPolicy κ)) {} := by
  refine ⟨?_, start_airborne limits _, by simp [Unserved, start, InAir], by simp⟩
  exact ⟨rfl, rfl, List.nodup_nil, NamedPolicy.start_tracks e, List.Perm.refl _, rfl, rfl⟩

/-- A landing needs one round at most. -/
theorem Bounded.land_isSome (h : Bounded limits e t l) (f : FlightId) (made : Except ε α)
    {rounds : Nat} (hrounds : 0 < rounds) :
    (t.step NamedPolicy.policy (.land f made rounds)).isSome = true := by
  simp only [Traffic.step, Cache.landWithin]
  split
  · next key hair =>
      cases made with
      | error error => rfl
      | ok payload =>
          have hholds := h.refines.holds_of_live?_eq_none (h.unserved key f hair)
          have hexcess := Lane.excess_land_le h.room
          have hsome := h.refines.countCompile.insert_isSome hholds payload
            (Nat.le_trans hexcess hrounds)
          obtain ⟨d, hd⟩ := Option.isSome_iff_exists.mp hsome
          simp [hd]
  · rfl

/-- Every step happens, if a landing is given a round. -/
theorem Bounded.step_isSome (h : Bounded limits e t l) (s : Step κ α ε)
    (hrounds : ∀ f made rounds, s = .land f made rounds → 0 < rounds) :
    (t.step NamedPolicy.policy s).isSome = true := by
  cases s with
  | proceed i =>
      simp only [Traffic.step]
      split <;> rfl
  | land f made rounds => exact h.land_isSome f made (hrounds f made rounds rfl)
  | call _ | cancel _ | get _ | remove _ | clear | purgeExpired | wait _ => rfl

/-- A landing that brings an entry evicts one other at most, and the new one only where there may
be no entry at all. -/
theorem Bounded.land_ok (h : Bounded limits e t l) {key : κ} {f : FlightId} {payload : α}
    {rounds : Nat} (hair : t.cache.InAir key f)
    (hstep : t.step NamedPolicy.policy (.land f (.ok payload) rounds) = some u) :
    u.cache.counters.evictions ≤ t.cache.counters.evictions + 1 ∧
      (limits.maxEntries ≠ some 0 → (key, t.cache.made.length) ∈ u.cache.entries) := by
  have hrefines := h.step_refines hstep
  have hevent : t.event (.land f (.ok payload) rounds) = .land key := by
    rw [InAir] at hair
    simp only [event, hair]
  rw [hevent] at hrefines
  constructor
  · rw [hrefines.evictions, h.refines.evictions]
    simp only [Lane.step, Lane.trim, List.length_append, List.length_singleton]
    exact Nat.add_le_add_left (Lane.excess_land_le h.room) _
  · intro hroom
    obtain ⟨id, hentry, _⟩ := hrefines.mem_items_iff.mp (Lane.mem_step_land hroom e key l)
    obtain ⟨d, hland, rfl⟩ := (step_land_iff _).mp hstep
    obtain ⟨d, hinsert, rfl⟩ := landWithin_ok _ hair hland
    have hid : id = t.cache.births.length := (insert_inserts _ hinsert).eq_of_mem hentry
    rw [← length_births, ← hid]
    exact hentry

/-- The bounded cache is the reference list, in every state `t` that any steps lead to. The keys
of the map, first victim first, are the keys of the list; the cache serves what the list has and
has not expired, and it has counted as many uses and victims. There are never more entries than
there may be, every landing comes to its end and evicts one entry at most, and the entry that just
landed stays unless there may be none. -/
theorem refines_list (limits : Limits) (e : Eviction) (steps : List (Step κ α ε))
    (t : Traffic κ α ε (NamedPolicy κ))
    (hrun : run NamedPolicy.policy (start limits (.start e)) steps = some t) :
    let l := (events NamedPolicy.policy (start limits (.start e)) steps).foldl
      (Lane.step limits e) {}
    (t.cache.line = l.items.map (·.1) ∧
      (t.cache.entries.map (·.1)).Perm (l.items.map (·.1)) ∧
      (∀ key, t.cache.contains key = l.holds limits key) ∧
      t.cache.size = (l.live limits).length ∧
      t.cache.counters.hits = l.hits ∧ t.cache.counters.evictions = l.evictions) ∧
    (∀ most, limits.maxEntries = some most → t.cache.entries.length ≤ most) ∧
    (∀ f made rounds, 0 < rounds →
      (t.step NamedPolicy.policy (.land f made rounds)).isSome = true) ∧
    (∀ key f payload rounds u, t.cache.InAir key f →
      t.step NamedPolicy.policy (.land f (.ok payload) rounds) = some u →
      u.cache.counters.evictions ≤ t.cache.counters.evictions + 1 ∧
        (limits.maxEntries ≠ some 0 → (key, t.cache.made.length) ∈ u.cache.entries)) := by
  have hbounded := (start_bounded limits e).run hrun
  have hrefines := hbounded.refines
  refine ⟨⟨hrefines.line_eq, hrefines.keys_perm, hrefines.contains_eq, hrefines.size_eq,
    hrefines.hits, hrefines.evictions⟩, ?_, ?_, ?_⟩
  · intro most hmost
    rw [hrefines.length_entries]
    exact hbounded.room most hmost
  · intro f made rounds hrounds
    exact hbounded.land_isSome f made hrounds
  · intro key f payload rounds u hair hstep
    exact hbounded.land_ok hair hstep

/-- Of three keys in a cache for two the one that was used longest ago goes, though it was not the
first to land. -/
theorem refines_list_of_three_keys :
    let steps : List (Step Nat String String) :=
      [.call 1, .proceed 0, .proceed 0, .call 2, .proceed 1, .proceed 1, .land 0 (.ok "one") 1,
        .land 1 (.ok "two") 1, .get 1, .call 3, .proceed 2, .proceed 2]
    ∃ t u, run NamedPolicy.policy (start { maxEntries := some 2 } (.start .lru)) steps = some t ∧
      t.step NamedPolicy.policy (.land 2 (.ok "three") 1) = some u ∧ t.cache.line = [2, 1] ∧
      t.cache.entries.length ≤ 2 ∧ u.cache.counters.evictions ≤ t.cache.counters.evictions + 1 ∧
      (3, 2) ∈ u.cache.entries ∧ u.cache.line = [1, 3] := by
  intro steps
  refine ⟨_, _, rfl, rfl, ?_⟩
  have ht := refines_list { maxEntries := some 2 } .lru steps _ rfl
  have hu := refines_list { maxEntries := some 2 } .lru (steps ++ [.land 2 (.ok "three") 1]) _ rfl
  have hland := ht.2.2.2 3 2 "three" 1 _ rfl rfl
  exact ⟨ht.1.1, ht.2.1 2 rfl, hland.1, hland.2 (by decide), hu.1.1⟩

end Traffic

end Scriptlet
