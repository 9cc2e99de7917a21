import Scriptlet.Proofs.Cache.Changes

/-!
Nobody can tell when expired entries are swept. Two runs are compared that differ in nothing but
purges that one of them makes in addition. Their maps differ, and so does what their policies keep
in mind, but the parts of the maps that are served are equal and so are the live parts of the two
lists. A landing sweeps before it evicts, so from there on both choose the same victims.
-/

namespace Scriptlet

namespace Lane

variable {κ : Type} {limits : Limits} {l m : Lane κ}

/-- The lists agree on what has not expired, in order. -/
structure Alike (limits : Limits) (l m : Lane κ) : Prop where
  now : m.now = l.now
  live : m.live limits = l.live limits

theorem Alike.refl (limits : Limits) (l : Lane κ) : Alike limits l l :=
  ⟨rfl, rfl⟩

theorem Alike.of_items (hnow : m.now = l.now) (hitems : m.items = l.items) : Alike limits l m :=
  ⟨hnow, by simp only [Lane.live, hnow, hitems]⟩

theorem Alike.purge (h : Alike limits l m) : Alike limits l { m with items := m.live limits } := by
  refine ⟨h.now, ?_⟩
  rw [← h.live]
  simp [Lane.live, List.filter_filter]

/-- What is live later is live now. -/
theorem live_wait (limits : Limits) (l : Lane κ) (time : Nat) :
    ({ l with now := l.now + time } : Lane κ).live limits =
      (l.live limits).filter fun x => limits.admits (l.now + time) x.2 := by
  simp only [live, List.filter_filter]
  apply List.filter_congr
  intro x _
  have hle : l.now ≤ l.now + time := Nat.le_add_right _ _
  cases hlater : limits.admits (l.now + time) x.2 with
  | false => rfl
  | true => rw [Limits.admits_of_le hle hlater]; rfl

variable [DecidableEq κ]

theorem Alike.holds (h : Alike limits l m) (key : κ) : m.holds limits key = l.holds limits key := by
  rw [Lane.holds, Lane.holds, h.live]

theorem filter_sendBack (e : Eviction) (key : κ) (items : List (κ × Nat))
    (keep : κ × Nat → Bool) :
    (sendBack e key items).filter keep = sendBack e key (items.filter keep) := by
  cases e with
  | lru => simp only [sendBack, List.filter_append, List.filter_filter, Bool.and_comm]
  | fifo => rfl

theorem Alike.step (h : Alike limits l m) (e : Eviction) (event : Event κ) :
    Alike limits (l.step limits e event) (m.step limits e event) := by
  cases event with
  | rest => exact h
  | look key =>
      simp only [Lane.step, h.holds key]
      split
      · refine ⟨h.now, ?_⟩
        have hlive := congrArg (sendBack e key) h.live
        simp only [Lane.live, ← filter_sendBack] at hlive
        exact hlive
      · exact h
  | land key => exact Alike.of_items h.now (by simp only [Lane.step, trim, h.live, h.now])
  | remove key =>
      refine ⟨h.now, ?_⟩
      have hlive := congrArg (List.filter fun x => decide (x.1 ≠ key)) h.live
      simp only [Lane.live, List.filter_filter] at hlive
      simpa only [Lane.step, Lane.live, List.filter_filter, Bool.and_comm] using hlive
  | clear => exact Alike.of_items h.now rfl
  | purge => exact Alike.of_items h.now h.live
  | wait time =>
      refine ⟨congrArg (· + time.nanoseconds) h.now, ?_⟩
      simp only [Lane.step, live_wait]
      rw [h.live, h.now]

end Lane

namespace Cache

variable {κ α ε σ : Type}

/-- The part of the map that is served. -/
def served (c : Cache κ α ε σ) : List (κ × EntryId) :=
  c.entries.filter fun x => c.isLive x.2

/-- The caches serve the same and differ at most in what has expired, in how much of that was
swept, and in the state of the policy. -/
structure Alike (c d : Cache κ α ε σ) : Prop where
  limits : d.limits = c.limits
  now : d.now = c.now
  made : d.made = c.made
  served : d.served = c.served
  flights : d.flights = c.flights
  inFlight : d.inFlight = c.inFlight
  counters : ∃ expirations, d.counters = { c.counters with expirations }

theorem Alike.refl (c : Cache κ α ε σ) : Alike c c :=
  ⟨rfl, rfl, rfl, rfl, rfl, rfl, c.counters.expirations, rfl⟩

variable {c d : Cache κ α ε σ}

theorem Alike.symm (h : Alike c d) : Alike d c := by
  obtain ⟨_, hcounters⟩ := h.counters
  exact ⟨h.limits.symm, h.now.symm, h.made.symm, h.served.symm, h.flights.symm, h.inFlight.symm,
    c.counters.expirations, by rw [hcounters]⟩

theorem isLive_congr (hlimits : d.limits = c.limits) (hnow : d.now = c.now)
    (hbirths : d.births = c.births) : d.isLive = c.isLive := by
  funext id
  simp only [isLive_eq, born?, hlimits, hnow, hbirths]

theorem Alike.isLive (h : Alike c d) : d.isLive = c.isLive :=
  isLive_congr h.limits h.now (congrArg (List.map Entry.birth) h.made)

theorem served_of_births (hlimits : d.limits = c.limits) (hnow : d.now = c.now)
    (hbirths : d.births = c.births) (hentries : d.entries = c.entries) : d.served = c.served := by
  simp only [Cache.served, isLive_congr hlimits hnow hbirths, hentries]

theorem Alike.inAir (h : Alike c d) {key : κ} {f : FlightId} (hair : c.InAir key f) :
    d.InAir key f := by
  rw [InAir, h.flights]
  exact hair

theorem Alike.size (h : Alike c d) : d.size = c.size :=
  congrArg List.length h.served

variable [DecidableEq κ]

theorem live?_eq_lookup_served (hnodup : (c.entries.map (·.1)).Nodup) (key : κ) :
    c.live? key = c.served.lookup key := by
  have hserved : (c.served.map (·.1)).Nodup := hnodup.sublist (List.filter_sublist.map _)
  ext id
  rw [lookup_eq_some_iff_mem hserved]
  simp only [live?, Option.filter_eq_some_iff, lookup_eq_some_iff_mem hnodup, Cache.served,
    List.mem_filter]

theorem Alike.live? (h : Alike c d) (hc : (c.entries.map (·.1)).Nodup)
    (hd : (d.entries.map (·.1)).Nodup) (key : κ) : d.live? key = c.live? key := by
  rw [live?_eq_lookup_served hd, live?_eq_lookup_served hc, h.served]

theorem served_lookup (p : Policy κ σ) (key : κ) (c : Cache κ α ε σ) :
    (c.lookup p key).2.served = c.served := by
  have hframe := lookup_drops p key c
  exact served_of_births hframe.limits hframe.now hframe.births (lookup_entries p key c)

/-- A look-up has the same result and leaves the caches alike. -/
theorem Alike.lookup (h : Alike c d) (p : Policy κ σ) {key : κ}
    (hlive : d.live? key = c.live? key) :
    (d.lookup p key).1 = (c.lookup p key).1 ∧ Alike (c.lookup p key).2 (d.lookup p key).2 := by
  have hserved : (d.lookup p key).2.served = (c.lookup p key).2.served := by
    rw [served_lookup, served_lookup, h.served]
  obtain ⟨expirations, hcounters⟩ := h.counters
  unfold Cache.lookup at hserved ⊢
  rw [hlive] at hserved ⊢
  cases hfound : c.live? key with
  | none => exact ⟨rfl, h⟩
  | some id =>
      simp only [hfound] at hserved
      exact ⟨rfl, h.limits, h.now, congrArg (recordHit id) h.made, hserved, h.flights, h.inFlight,
        expirations, by rw [hcounters]⟩

/-- So does a decision: both serve the key, join its flight or start one. -/
theorem Alike.ask (h : Alike c d) (p : Policy κ σ) {key : κ} (hlive : d.live? key = c.live? key) :
    (d.ask p key).1 = (c.ask p key).1 ∧ Alike (c.ask p key).2 (d.ask p key).2 := by
  obtain ⟨expirations, hcounters⟩ := h.counters
  rw [ask_eq, ask_eq, hlive, h.inFlight, h.flights]
  split
  · exact ⟨rfl, (h.lookup p hlive).2⟩
  · split
    · exact ⟨rfl, h.limits, h.now, h.made, h.served, h.flights, h.inFlight, expirations,
        by rw [coalesce, coalesce, hcounters]⟩
    · refine ⟨rfl, h.limits, h.now, h.made, h.served, ?_, ?_, expirations, ?_⟩
      · simp only [depart, h.flights]
      · simp only [depart, h.flights, h.inFlight]
      · rw [depart, depart, hcounters]

theorem served_without (key : κ) (tracking : σ) (c : Cache κ α ε σ) :
    ({ c with entries := without key c.entries, tracking } : Cache κ α ε σ).served =
      without key c.served := by
  simp only [served, without, List.filter_filter]
  apply List.filter_congr
  intro x _
  exact Bool.and_comm _ _

theorem remove_eq (p : Policy κ σ) (key : κ) (c : Cache κ α ε σ) :
    ∃ tracking, (c.remove p key).2 = { c with entries := without key c.entries, tracking } := by
  unfold Cache.remove
  split
  · exact ⟨_, rfl⟩
  · next hnone =>
      rw [Option.not_isSome_iff_eq_none] at hnone
      exact ⟨c.tracking, by rw [without_of_lookup_none hnone]⟩

theorem Alike.remove (h : Alike c d) (p : Policy κ σ) (key : κ) :
    Alike (c.remove p key).2 (d.remove p key).2 := by
  obtain ⟨s, hc⟩ := remove_eq p key c
  obtain ⟨t, hd⟩ := remove_eq p key d
  rw [hc, hd]
  refine ⟨h.limits, h.now, h.made, ?_, h.flights, h.inFlight, h.counters⟩
  rw [served_without, served_without, h.served]

theorem Alike.clear (h : Alike c d) (p : Policy κ σ) : Alike (c.clear p) (d.clear p) := by
  obtain ⟨s, hc⟩ := clear_eq p c
  obtain ⟨t, hd⟩ := clear_eq p d
  rw [hc, hd]
  exact ⟨h.limits, h.now, h.made, rfl, h.flights, h.inFlight, h.counters⟩

/-- A purge of one of the caches. -/
theorem Alike.purgeExpired (h : Alike c d) (p : Policy κ σ)
    (hnodup : (d.entries.map (·.1)).Nodup) : Alike c (d.purgeExpired p).2 := by
  obtain ⟨t, hd⟩ := purgeExpired_eq p hnodup
  obtain ⟨expirations, hcounters⟩ := h.counters
  rw [hd]
  refine ⟨h.limits, h.now, h.made, ?_, h.flights, h.inFlight, _, by rw [hcounters]⟩
  have hlive : (d.served.filter fun x => d.isLive x.2) = d.served := by
    simp [Cache.served, List.filter_filter]
  exact hlive.trans h.served

omit [DecidableEq κ] in
theorem isLive_of_wait {time : Duration} {id : EntryId} (hlater : (c.wait time).isLive id = true) :
    c.isLive id = true := by
  have hborn : (c.wait time).born? id = c.born? id := rfl
  rw [isLive_eq, hborn] at hlater
  rw [isLive_eq]
  cases hb : c.born? id with
  | none => simp [hb] at hlater
  | some landed =>
      rw [hb] at hlater
      exact Limits.admits_of_le (Nat.le_add_right c.now time.nanoseconds) hlater

omit [DecidableEq κ] in
theorem served_wait (time : Duration) (c : Cache κ α ε σ) :
    (c.wait time).served = c.served.filter fun x => (c.wait time).isLive x.2 := by
  simp only [Cache.served, List.filter_filter]
  apply List.filter_congr
  intro x _
  cases hlater : (c.wait time).isLive x.2 with
  | false => rfl
  | true =>
      rw [isLive_of_wait hlater]
      rfl

omit [DecidableEq κ] in
theorem Alike.wait (h : Alike c d) (time : Duration) : Alike (c.wait time) (d.wait time) := by
  have hnow : (d.wait time).now = (c.wait time).now := congrArg (· + time.nanoseconds) h.now
  refine ⟨h.limits, hnow, h.made, ?_, h.flights, h.inFlight, h.counters⟩
  have hlive : (d.wait time).isLive = (c.wait time).isLive :=
    isLive_congr h.limits hnow (congrArg (List.map Entry.birth) h.made)
  rw [served_wait, served_wait, h.served, hlive]

theorem landWithin_of_not_inAir (p : Policy κ σ) {f : FlightId} (hnot : ∀ key, ¬ c.InAir key f)
    (rounds : Nat) (made : Except ε α) : c.landWithin p rounds f made = some c := by
  unfold landWithin
  split
  · next key hflight => exact absurd hflight (hnot key)
  · rfl

theorem Alike.fail (h : Alike c d) (f : FlightId) (key : κ) (error : ε) :
    Alike
      (retire f key (.error error) { c with
        counters := { c.counters with compileFailures := c.counters.compileFailures + 1 } })
      (retire f key (.error error) { d with
        counters := { d.counters with compileFailures := d.counters.compileFailures + 1 } }) := by
  obtain ⟨expirations, hcounters⟩ := h.counters
  refine ⟨h.limits, h.now, h.made, h.served, ?_, congrArg (Cache.without key) h.inFlight,
    expirations, ?_⟩
  · simp only [retire, h.flights]
  · simp only [retire, hcounters]

end Cache

namespace Cache

variable {κ α ε : Type} [DecidableEq κ] {c d c' : Cache κ α ε (NamedPolicy κ)} {l m : Lane κ}
  {limits : Limits} {e : Eviction}

omit [DecidableEq κ] in
/-- To make one more entry is nothing to those that the map holds. -/
theorem Refines.served_make (h : Refines limits e c l) (payload : α) :
    (c.entries.filter fun x => (c.make payload).isLive x.2) = c.served := by
  apply List.filter_congr
  intro x hx
  obtain ⟨landed, hborn⟩ := h.born_of_mem hx
  obtain ⟨birth, hbirth, _⟩ := Option.map_eq_some_iff.mp hborn
  have hid : x.2 < c.births.length := (List.getElem?_eq_some_iff.mp hbirth).1
  have hsame : (c.make payload).born? x.2 = c.born? x.2 := by
    rw [born?, born?, births_make, List.getElem?_append_left hid]
  rw [isLive_eq, hsame, isLive_eq]
  rfl

/-- Before they evict both caches keep the same list. -/
theorem Alike.put_readied (h : Alike c d) (hc : Refines limits e c l) (hd : Refines limits e d m)
    (hlanes : Lane.Alike limits l m) {key : κ} (hholds : l.holds limits key = false)
    (payload : α) :
    Refines limits e
      (Cache.put NamedPolicy.policy key d.made.length (d.readied NamedPolicy.policy payload))
      { l with items := l.live limits ++ [(key, l.now)] } := by
  obtain ⟨_, hcounters⟩ := h.counters
  have hhits : m.hits = l.hits := by rw [← hd.hits, ← hc.hits, hcounters]
  have hevictions : m.evictions = l.evictions := by rw [← hd.evictions, ← hc.evictions, hcounters]
  have hput := hd.put_readied (hlanes.holds key ▸ hholds) payload
  rw [hlanes.live, hlanes.now, hhits, hevictions] at hput
  exact hput

theorem Alike.evicted (h : Alike c d) (hc : Refines limits e c l) (hd : Refines limits e d m)
    (hlanes : Lane.Alike limits l m) {key : κ} {f : FlightId} (hair : c.InAir key f)
    (hholds : l.holds limits key = false) {payload : α} {rounds : Nat}
    (hland : c.landWithin NamedPolicy.policy rounds f (.ok payload) = some c') :
    (∃ d', d.landWithin NamedPolicy.policy rounds f (.ok payload) = some d') ∧
      d.evicted NamedPolicy.policy rounds key payload =
        c.evicted NamedPolicy.policy rounds key payload := by
  have hput := h.put_readied hc hd hlanes hholds payload
  rw [landWithin_eq _ hair] at hland
  obtain ⟨b, htrim, -⟩ := Option.map_eq_some_iff.mp hland
  obtain ⟨⟨b', htrim'⟩, hgone⟩ := (hc.put_readied hholds payload).trim_lockstep hput htrim
  refine ⟨⟨retire f key (.ok d.made.length) b', ?_⟩, hgone⟩
  rw [landWithin_eq _ (h.inAir hair), htrim', Option.map_some]

/-- The caches are alike again after both have swept, put the new entry in and evicted. -/
theorem Alike.land {d' : Cache κ α ε (NamedPolicy κ)} (h : Alike c d) (hc : Refines limits e c l)
    (hd : Refines limits e d m) (hlanes : Lane.Alike limits l m) {key : κ} {f : FlightId}
    (hair : c.InAir key f) (hholds : l.holds limits key = false) {payload : α} {rounds : Nat}
    (hland : c.landWithin NamedPolicy.policy rounds f (.ok payload) = some c')
    (hland' : d.landWithin NamedPolicy.policy rounds f (.ok payload) = some d') : Alike c' d' := by
  obtain ⟨expirations, hcounters⟩ := h.counters
  obtain ⟨_, hgone⟩ := h.evicted hc hd hlanes hair hholds hland
  have hfree := hc.readied_lookup hholds payload
  have hfree' := hd.readied_lookup (hlanes.holds key ▸ hholds) payload
  obtain ⟨s, rfl⟩ := landed_eq _ hair hc.nodup_entries hfree hland
  obtain ⟨t, rfl⟩ := landed_eq _ (h.inAir hair) hd.nodup_entries hfree' hland'
  have hmade : d.made ++ [{ payload, createdAt := d.now }] =
      c.made ++ [{ payload, createdAt := c.now }] := by
    rw [h.made, h.now]
  refine ⟨h.limits, h.now, hmade, ?_, ?_, congrArg (Cache.without key) h.inFlight, ?_⟩
  · refine served_of_births h.limits h.now (congrArg (List.map Entry.birth) hmade) ?_
    simp only [hc.served_make, hd.served_make, h.served, h.made, hgone]
  · simp only [h.flights, h.made]
  · exact ⟨_, by rw [hcounters, hgone]⟩

end Cache

namespace Traffic

open Cache

section
variable {κ α ε σ : Type} [DecidableEq κ]

/-- The second row is the first one with purges put in anywhere. -/
inductive WithPurges : List (Step κ α ε) → List (Step κ α ε) → Prop where
  | nil : WithPurges [] []
  | step (s : Step κ α ε) {steps padded : List (Step κ α ε)} (h : WithPurges steps padded) :
      WithPurges (s :: steps) (s :: padded)
  | purge {steps padded : List (Step κ α ε)} (h : WithPurges steps padded) :
      WithPurges steps (.purgeExpired :: padded)

omit [DecidableEq κ] in
theorem WithPurges.refl (steps : List (Step κ α ε)) : WithPurges steps steps := by
  induction steps with
  | nil => exact .nil
  | cons s rest ih => exact .step s ih

omit [DecidableEq κ] in
theorem WithPurges.insert (before after : List (Step κ α ε)) :
    WithPurges (before ++ after) (before ++ .purgeExpired :: after) := by
  induction before with
  | nil => exact .purge (.refl after)
  | cons s rest ih => exact .step s ih

/-- What a step lets the outside see: what a caller was told and what became of it, the entry that
a `get` found, or the keys that a landing evicted. -/
inductive Answer (κ ε : Type) where
  | moved (decision : Option Decision) (caller : Caller κ ε)
  | got (entry : Option EntryId)
  | evicted (keys : List κ)

/-- What a caller is told about its key on its way: that it is served, or the decision under the
lock. -/
def decision? (p : Policy κ σ) (c : Cache κ α ε σ) : Caller κ ε → Option Decision
  | .looking key => (c.lookup p key).1.map .hit
  | .deciding key => some (c.ask p key).1
  | _ => none

def answer? (p : Policy κ σ) (t : Traffic κ α ε σ) : Step κ α ε → Option (Answer κ ε)
  | .proceed i =>
      t.callers[i]?.map fun x => .moved (decision? p t.cache x) (advance p t.cache x).1
  | .get key => some (.got (t.cache.lookup p key).1)
  | .land f made rounds =>
      match t.cache.flights[f]?, made with
      | some { key, outcome := none }, .ok payload =>
          some (.evicted (t.cache.evicted p rounds key payload))
      | _, _ => some (.evicted [])
  | _ => none

/-- All answers of a run, in order. -/
def answers (p : Policy κ σ) : Traffic κ α ε σ → List (Step κ α ε) → List (Answer κ ε)
  | _, [] => []
  | t, s :: more =>
      (t.answer? p s).toList ++ match t.step p s with
        | some u => answers p u more
        | none => []

theorem advance_alike (p : Policy κ σ) {c d : Cache κ α ε σ} (h : Alike c d)
    (hlive : ∀ key, d.live? key = c.live? key) (x : Caller κ ε) :
    Alike (advance p c x).2 (advance p d x).2 ∧ (advance p d x).1 = (advance p c x).1 ∧
      decision? p d x = decision? p c x := by
  cases x with
  | looking key =>
      obtain ⟨hfound, halike⟩ := h.lookup p (hlive key)
      rw [advance_looking_snd, advance_looking_snd]
      refine ⟨halike, ?_, by simp only [decision?, hfound]⟩
      cases hc : c.live? key with
      | none => simp only [advance, Cache.lookup, hlive key, hc]
      | some id => simp only [advance, Cache.lookup, hlive key, hc]
  | deciding key =>
      obtain ⟨hdecision, halike⟩ := h.ask p (hlive key)
      rw [advance_deciding_snd, advance_deciding_snd]
      refine ⟨halike, ?_, by simp only [decision?, hdecision]⟩
      cases hc : c.live? key with
      | some id => simp only [advance, ask_eq, hlive key, hc]
      | none =>
          cases hair : c.inFlight.lookup key with
          | some f => simp only [advance, ask_eq, hlive key, hc, h.inFlight, hair]
          | none => simp only [advance, ask_eq, hlive key, hc, h.inFlight, hair, h.flights]
  | waiting f =>
      simp only [advance, Cache.outcome?, h.flights]
      split <;> exact ⟨h, rfl, rfl⟩
  | done o => exact ⟨h, rfl, rfl⟩
  | cancelled => exact ⟨h, rfl, rfl⟩

end

variable {κ α ε : Type} [DecidableEq κ] {limits : Limits} {e : Eviction}
  {t t' u u' : Traffic κ α ε (NamedPolicy κ)} {l m : Lane κ}

/-- The state of a run and that of one with more purges. -/
structure Indistinct (limits : Limits) (e : Eviction) (t t' : Traffic κ α ε (NamedPolicy κ))
    (l m : Lane κ) : Prop where
  bounded : Bounded limits e t l
  bounded' : Bounded limits e t' m
  lanes : Lane.Alike limits l m
  cache : Alike t.cache t'.cache
  callers : t'.callers = t.callers

theorem Indistinct.live? (h : Indistinct limits e t t' l m) (key : κ) :
    t'.cache.live? key = t.cache.live? key :=
  h.cache.live? h.bounded.refines.nodup_entries h.bounded'.refines.nodup_entries key

theorem Indistinct.event (h : Indistinct limits e t t' l m) (s : Step κ α ε) :
    t'.event s = t.event s := by
  cases s <;> simp only [Traffic.event, h.callers, h.cache.flights]

/-- A landing evicts the same keys from both caches and leaves them alike. -/
theorem Indistinct.land (h : Indistinct limits e t t' l m) {f : FlightId} {made : Except ε α}
    {rounds : Nat} {d : Cache κ α ε (NamedPolicy κ)}
    (hland : t.cache.landWithin NamedPolicy.policy rounds f made = some d) :
    ∃ d', t'.cache.landWithin NamedPolicy.policy rounds f made = some d' ∧ Alike d d' ∧
      t'.answer? NamedPolicy.policy (.land f made rounds) =
        t.answer? NamedPolicy.policy (.land f made rounds) := by
  rcases landWithin_cases _ hland with ⟨hnot, rfl⟩ | ⟨key, error, hair, rfl, rfl⟩ |
    ⟨key, payload, _, hair, rfl, _, _⟩
  · refine ⟨t'.cache, landWithin_of_not_inAir _ ?_ rounds made, h.cache, ?_⟩
    · intro key hair'
      exact hnot key (h.cache.symm.inAir hair')
    · simp only [answer?, h.cache.flights]
      split
      · next key _ hflight => exact absurd hflight (hnot key)
      · rfl
  · have hair' := h.cache.inAir hair
    rw [InAir] at hair hair'
    refine ⟨_, ?_, h.cache.fail f key error, ?_⟩
    · simp only [landWithin, hair']
    · simp only [answer?, hair, hair']
  · have hholds := h.bounded.refines.holds_of_live?_eq_none (h.bounded.unserved key f hair)
    obtain ⟨⟨d', hland'⟩, hgone⟩ :=
      h.cache.evicted h.bounded.refines h.bounded'.refines h.lanes hair hholds hland
    refine ⟨d', hland', h.cache.land h.bounded.refines h.bounded'.refines h.lanes hair hholds hland
      hland', ?_⟩
    have hair' := h.cache.inAir hair
    rw [InAir] at hair hair'
    simp only [answer?, hair, hair', hgone]

/-- What a step gives the one cache it gives the other as well. -/
theorem Indistinct.step_alike (h : Indistinct limits e t t' l m) {s : Step κ α ε}
    (hstep : t.step NamedPolicy.policy s = some u) :
    ∃ u', t'.step NamedPolicy.policy s = some u' ∧ Alike u.cache u'.cache ∧
      u'.callers = u.callers ∧
      t'.answer? NamedPolicy.policy s = t.answer? NamedPolicy.policy s := by
  cases s with
  | call key =>
      cases hstep
      exact ⟨_, rfl, h.cache, congrArg (· ++ _) h.callers, rfl⟩
  | proceed i =>
      cases hx : t.callers[i]? with
      | none =>
          have hx' : t'.callers[i]? = none := by rw [h.callers, hx]
          simp only [Traffic.step, hx, Option.some.injEq] at hstep
          subst hstep
          refine ⟨t', by simp only [Traffic.step, hx'], h.cache, h.callers, ?_⟩
          simp only [answer?, hx, hx', Option.map_none]
      | some x =>
          have hx' : t'.callers[i]? = some x := by rw [h.callers, hx]
          obtain ⟨halike, hnext, hdecision⟩ :=
            advance_alike NamedPolicy.policy h.cache h.live? x
          rw [step_proceed _ hx, Option.some.injEq] at hstep
          subst hstep
          refine ⟨_, step_proceed _ hx', halike, ?_, ?_⟩
          · simp only [h.callers, hnext]
          · simp only [answer?, hx, hx', Option.map_some, hnext, hdecision]
  | cancel i =>
      cases hstep
      exact ⟨_, rfl, h.cache, congrArg (List.modify · i giveUp) h.callers, rfl⟩
  | land f made rounds =>
      obtain ⟨d, hland, rfl⟩ := (step_land_iff _).mp hstep
      obtain ⟨d', hland', halike, hanswer⟩ := h.land hland
      exact ⟨_, (step_land_iff _).mpr ⟨d', hland', rfl⟩, halike, h.callers, hanswer⟩
  | get key =>
      cases hstep
      obtain ⟨hfound, halike⟩ := h.cache.lookup NamedPolicy.policy (h.live? key)
      exact ⟨_, rfl, halike, h.callers, by simp only [answer?, hfound]⟩
  | remove key =>
      cases hstep
      exact ⟨_, rfl, h.cache.remove NamedPolicy.policy key, h.callers, rfl⟩
  | clear =>
      cases hstep
      exact ⟨_, rfl, h.cache.clear NamedPolicy.policy, h.callers, rfl⟩
  | purgeExpired =>
      cases hstep
      have hnodup := h.bounded.refines.nodup_entries
      have hnodup' := h.bounded'.refines.nodup_entries
      have hpurged := (h.cache.purgeExpired NamedPolicy.policy hnodup').symm
      exact ⟨_, rfl, (hpurged.purgeExpired NamedPolicy.policy hnodup).symm, h.callers, rfl⟩
  | wait time =>
      cases hstep
      exact ⟨_, rfl, h.cache.wait time, h.callers, rfl⟩

theorem Indistinct.step (h : Indistinct limits e t t' l m) {s : Step κ α ε}
    (hstep : t.step NamedPolicy.policy s = some u) :
    ∃ u', t'.step NamedPolicy.policy s = some u' ∧
      Indistinct limits e u u' (l.step limits e (t.event s)) (m.step limits e (t.event s)) ∧
      t'.answer? NamedPolicy.policy s = t.answer? NamedPolicy.policy s := by
  obtain ⟨u', hstep', halike, hcallers, hanswer⟩ := h.step_alike hstep
  have hbounded' := h.bounded'.step hstep'
  rw [h.event] at hbounded'
  exact ⟨u', hstep', ⟨h.bounded.step hstep, hbounded', h.lanes.step e _, halike, hcallers⟩, hanswer⟩

/-- One purge more. -/
theorem Indistinct.purge (h : Indistinct limits e t t' l m) :
    Indistinct limits e t { t' with cache := (t'.cache.purgeExpired NamedPolicy.policy).2 } l
      (m.step limits e .purge) :=
  ⟨h.bounded, h.bounded'.step (s := .purgeExpired) rfl, h.lanes.purge,
    h.cache.purgeExpired _ h.bounded'.refines.nodup_entries, h.callers⟩

theorem Indistinct.run (h : Indistinct limits e t t' l m) {steps padded : List (Step κ α ε)}
    (hpadded : WithPurges steps padded) (hrun : run NamedPolicy.policy t steps = some u) :
    ∃ u' l' m', run NamedPolicy.policy t' padded = some u' ∧ Indistinct limits e u u' l' m' ∧
      answers NamedPolicy.policy t' padded = answers NamedPolicy.policy t steps := by
  induction hpadded generalizing t t' l m with
  | nil =>
      obtain rfl := Option.some.inj hrun
      exact ⟨t', l, m, rfl, h, rfl⟩
  | step s _ ih =>
      obtain ⟨v, hv, hrest⟩ := (run_cons_iff _).mp hrun
      obtain ⟨v', hv', hnext, hanswer⟩ := h.step hv
      obtain ⟨u', l', m', hrun', hlast, hanswers⟩ := ih hnext hrest
      refine ⟨u', l', m', (run_cons_iff _).mpr ⟨v', hv', hrun'⟩, hlast, ?_⟩
      simp only [answers, hv, hv', hanswer, hanswers]
  | purge _ ih =>
      obtain ⟨u', l', m', hrun', hlast, hanswers⟩ := ih h.purge hrun
      refine ⟨u', l', m', (run_cons_iff _).mpr ⟨_, rfl, hrun'⟩, hlast, ?_⟩
      simpa only [answers, answer?, Traffic.step, Option.toList_none, List.nil_append]
        using hanswers

theorem start_indistinct (limits : Limits) (e : Eviction) :
    Indistinct limits e (start limits (.start e) : Traffic κ α ε (NamedPolicy κ))
      (start limits (.start e)) {} {} :=
  ⟨start_bounded limits e, start_bounded limits e, Lane.Alike.refl limits {}, Alike.refl _, rfl⟩

/-- Nobody sees a purge. However many purges are put into a run, and wherever, the run comes to an
end that is the same but for what has expired: every caller was told the same and has become the
same, every `get` found the same, every landing evicted the same keys, the same keys are served,
and the counters differ only in the number of expirations. -/
theorem extra_purges_unseen (limits : Limits) (e : Eviction) (steps padded : List (Step κ α ε))
    (hpadded : WithPurges steps padded) (t : Traffic κ α ε (NamedPolicy κ))
    (hrun : run NamedPolicy.policy (start limits (.start e)) steps = some t) :
    ∃ t', run NamedPolicy.policy (start limits (.start e)) padded = some t' ∧
      answers NamedPolicy.policy (start limits (.start e)) padded =
        answers NamedPolicy.policy (start limits (.start e)) steps ∧
      (∀ key, t'.cache.live? key = t.cache.live? key ∧
        t'.cache.contains key = t.cache.contains key) ∧
      t'.cache.size = t.cache.size ∧
      (t'.callers = t.callers ∧ t'.cache.made = t.cache.made ∧
        t'.cache.flights = t.cache.flights) ∧
      ∃ expirations, t'.cache.counters = { t.cache.counters with expirations } := by
  obtain ⟨t', l, m, hrun', h, hanswers⟩ := (start_indistinct limits e).run hpadded hrun
  refine ⟨t', hrun', hanswers, ?_, h.cache.size, ⟨h.callers, h.cache.made, h.cache.flights⟩,
    h.cache.counters⟩
  intro key
  exact ⟨h.live? key, by rw [contains, contains, h.live?]⟩

/-- In a cache for one an entry expires. Whether it is purged as well, before the next one lands,
makes no difference to that one, and nothing is evicted. -/
theorem extra_purges_unseen_of_expiry :
    let limits : Limits := { maxEntries := some 1, timeToLive := some ⟨5⟩ }
    let before : List (Step Nat String String) :=
      [.call 1, .proceed 0, .proceed 0, .land 0 (.ok "one") 1, .wait ⟨7⟩]
    let after : List (Step Nat String String) :=
      [.call 2, .proceed 1, .proceed 1, .land 1 (.ok "two") 1, .get 1, .get 2]
    ∃ t t', run NamedPolicy.policy (start limits (.start .lru)) (before ++ after) = some t ∧
      run NamedPolicy.policy (start limits (.start .lru)) (before ++ .purgeExpired :: after) =
        some t' ∧
      (t.cache.size = 1 ∧ t'.cache.size = 1) ∧
      (t.cache.live? 1 = none ∧ t'.cache.live? 1 = none) ∧
      t.cache.counters.evictions = 0 ∧ t'.cache.counters.evictions = 0 := by
  intro limits before after
  have hpadded := WithPurges.insert before after
  have hseen : (run NamedPolicy.policy (start limits (.start .lru)) (before ++ after)).map
      (fun t => (t.cache.size, t.cache.live? 1, t.cache.counters.evictions)) =
        some (1, none, 0) := by
    decide +kernel
  obtain ⟨t, hrun, hseen⟩ := Option.map_eq_some_iff.mp hseen
  simp only [Prod.mk.injEq] at hseen
  obtain ⟨hsize, hgone, hevictions⟩ := hseen
  obtain ⟨t', hrun', _, hkeys, hsame, _, _, hcounters⟩ :=
    extra_purges_unseen limits .lru _ _ hpadded t hrun
  refine ⟨t, t', hrun, hrun', ⟨hsize, hsame.trans hsize⟩, ⟨hgone, (hkeys 1).1.trans hgone⟩,
    hevictions, ?_⟩
  rw [hcounters]
  exact hevictions

end Traffic

end Scriptlet
