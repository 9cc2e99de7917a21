import Mathlib.Algebra.GroupWithZero.Nat
import Scriptlet.Proofs.Cache.Changes

/-!
The books of the cache balance. What callers see of a run is booked step by step: a call that has
come to its decision, a `get` that found an entry, a removal that found one, and a clearing with
the number of entries that it dropped. Against these the counters of the cache are checked.

The entries are the hard side. A landing adds one to what was ever put in only if it replaces
nothing, and it does replace nothing: a compile in the air has no live entry under its key, and an
expired one is swept before the new one is put in.
-/

namespace Scriptlet

namespace Cache

variable {κ α ε σ : Type}

/-- All hits of all entries that were ever made. -/
def totalHits (c : Cache κ α ε σ) : Nat :=
  (c.made.map (·.hits)).sum

theorem sum_hits_recordHit {id : EntryId} {made : List (Entry α)} (hid : id < made.length) :
    ((recordHit id made).map (·.hits)).sum = (made.map (·.hits)).sum + 1 := by
  induction made generalizing id with
  | nil => exact absurd hid (Nat.not_lt_zero _)
  | cons e rest ih =>
      cases id with
      | zero =>
          simp only [recordHit, List.modify_zero_cons, List.map_cons, List.sum_cons]
          omega
      | succ id =>
          have hrest := ih (Nat.lt_of_succ_lt_succ hid)
          simp only [recordHit, List.modify_succ_cons, List.map_cons, List.sum_cons] at hrest ⊢
          omega

/-- The compiles that were started and have not landed. -/
def pending (c : Cache κ α ε σ) : Nat :=
  c.flights.countP (·.outcome.isNone)

theorem pending_retire [DecidableEq κ] {c : Cache κ α ε σ} {key : κ} {f : FlightId}
    (hair : c.InAir key f) (o : Except ε EntryId) :
    (retire f key o c).pending + 1 = c.pending := by
  simp only [pending, retire, InAir] at hair ⊢
  generalize c.flights = flights at hair ⊢
  induction flights generalizing f with
  | nil => simp at hair
  | cons first rest ih =>
      cases f with
      | zero =>
          rw [List.getElem?_cons_zero, Option.some.injEq] at hair
          simp [hair]
      | succ f =>
          rw [List.getElem?_cons_succ] at hair
          have hrest := ih hair
          simp only [List.modify_succ_cons, List.countP_cons] at hrest ⊢
          omega

theorem Airborne.length_without [DecidableEq κ] {c : Cache κ α ε σ} (hc : Airborne c) {key : κ}
    {f : FlightId} (hair : c.InAir key f) :
    (without key c.inFlight).length + 1 = c.inFlight.length :=
  Cache.length_without hc.nodup (List.mem_map_of_mem ((hc.mem_iff key f).mpr hair))

/-- Of what a landing has swept, put in and evicted there is left what the map holds after it. -/
theorem Refines.length_landed [DecidableEq κ] {limits : Limits} {e : Eviction}
    {c d : Cache κ α ε (NamedPolicy κ)} {l : Lane κ} (h : Refines limits e c l) {key : κ}
    {f : FlightId} {payload : α} {rounds : Nat} (hholds : l.holds limits key = false)
    (hair : c.InAir key f)
    (hland : c.landWithin NamedPolicy.policy rounds f (.ok payload) = some d) :
    d.entries.length + d.counters.evictions =
      (c.entries.filter fun x => (c.make payload).isLive x.2).length + 1 +
        c.counters.evictions := by
  have hput := h.put_readied hholds payload
  have hfree := h.readied_lookup hholds payload
  obtain ⟨swept, hswept⟩ := readied_eq NamedPolicy.policy h.nodup_entries payload
  rw [landWithin_eq _ hair] at hland
  obtain ⟨b, htrim, rfl⟩ := Option.map_eq_some_iff.mp hland
  have hlength := hput.length_trim htrim
  rw [put_eq _ hfree, hswept] at hlength
  simpa [retire] using hlength

end Cache

namespace Traffic

open Cache

variable {κ α ε σ : Type} [DecidableEq κ]

/-- What a step is to those who keep the books of the callers. -/
inductive Booking where
  | nothing
  | decided
  | found
  | removed
  | cleared (entries : Nat)
  deriving Repr, DecidableEq

/-- The entries that a booking says were dropped at a blow. -/
def Booking.dropped : Booking → Nat
  | .cleared entries => entries
  | _ => 0

/-- The caller was served, has joined a flight or has started one. -/
def hasDecided : Caller κ ε → Bool
  | .waiting _ | .done _ => true
  | _ => false

def booking (p : Policy κ σ) (t : Traffic κ α ε σ) : Step κ α ε → Booking
  | .proceed i =>
      match t.callers[i]? with
      | some x =>
          if !hasDecided x && hasDecided (advance p t.cache x).1 then .decided else .nothing
      | none => .nothing
  | .get key => if (t.cache.lookup p key).1.isSome then .found else .nothing
  | .remove key => if (t.cache.remove p key).1 then .removed else .nothing
  | .clear => .cleared t.cache.entries.length
  | _ => .nothing

/-- The books of a run. -/
def bookings (p : Policy κ σ) : Traffic κ α ε σ → List (Step κ α ε) → List Booking
  | _, [] => []
  | t, s :: more =>
      t.booking p s :: match t.step p s with
        | some u => bookings p u more
        | none => []

/-- The counters agree with the books, with the map and with the hits of the entries. -/
structure Balanced (c : Cache κ α ε σ) (books : List Booking) : Prop where
  requests : c.counters.hits + c.counters.misses + c.counters.coalesced =
    books.count .decided + books.count .found
  compiles : c.counters.misses =
    c.counters.compiles + c.counters.compileFailures + c.inFlight.length
  inFlight : c.inFlight.length = c.pending
  entries : c.counters.compiles =
    c.entries.length + c.counters.evictions + c.counters.expirations + books.count .removed +
      (books.map Booking.dropped).sum
  hits : c.counters.hits = c.totalHits

namespace Balanced

variable {p : Policy κ σ} {c : Cache κ α ε σ} {books : List Booking}

omit [DecidableEq κ] in
theorem nothing (h : Balanced c books) : Balanced c (books ++ [.nothing]) := by
  refine ⟨?_, h.compiles, h.inFlight, ?_, h.hits⟩
  · simpa using h.requests
  · simpa [Booking.dropped] using h.entries

/-- An entry is served, to a caller or to a `get`. -/
theorem serve (h : Balanced c books) {key : κ} {id : EntryId} (hlive : c.live? key = some id)
    {b : Booking} (hb : b = .decided ∨ b = .found) :
    Balanced (c.lookup p key).2 (books ++ [b]) := by
  have hid := lt_of_isLive (Option.filter_eq_some_iff.mp hlive).2
  have hrequests := h.requests
  have hentries := h.entries
  simp only [lookup, hlive]
  refine ⟨?_, h.compiles, h.inFlight, ?_, ?_⟩
  · rcases hb with rfl | rfl <;> simp <;> omega
  · rcases hb with rfl | rfl <;> simpa [Booking.dropped] using hentries
  · simp only [totalHits, sum_hits_recordHit hid]
    exact congrArg (· + 1) h.hits

/-- A caller decides: it is served, joins a flight or starts one. -/
theorem ask (h : Balanced c books) (key : κ) :
    Balanced (c.ask p key).2 (books ++ [.decided]) := by
  have hrequests := h.requests
  have hentries := h.entries
  rw [ask_eq]
  split
  · next id hlive => exact h.serve hlive (Or.inl rfl)
  · split
    · refine ⟨?_, h.compiles, h.inFlight, ?_, h.hits⟩
      · simp [coalesce]
        omega
      · simpa [coalesce, Booking.dropped] using hentries
    · have hcompiles := h.compiles
      have hflights := h.inFlight
      refine ⟨?_, ?_, ?_, ?_, h.hits⟩
      · simp [depart]
        omega
      · simp [depart]
        omega
      · simpa [depart, pending] using hflights
      · simpa [depart, Booking.dropped] using hentries

theorem remove (h : Balanced c books) (hnodup : (c.entries.map (·.1)).Nodup) (key : κ) :
    Balanced (c.remove p key).2
      (books ++ [if (c.remove p key).1 then .removed else .nothing]) := by
  by_cases hthere : (c.entries.lookup key).isSome
  · have hkey : key ∈ c.entries.map (·.1) := by
      by_contra hnone
      rw [lookup_eq_none_iff_not_mem.mpr hnone] at hthere
      cases hthere
    have hlength := length_without hnodup hkey
    have hentries := h.entries
    simp only [Cache.remove, hthere, if_true]
    refine ⟨?_, h.compiles, h.inFlight, ?_, h.hits⟩
    · simpa [forget] using h.requests
    · simp [forget, Booking.dropped]
      omega
  · simp only [Cache.remove, hthere, Bool.false_eq_true, if_false]
    exact h.nothing

theorem clear (h : Balanced c books) :
    Balanced (c.clear p) (books ++ [.cleared c.entries.length]) := by
  obtain ⟨tracking, heq⟩ := clear_eq p c
  have hentries := h.entries
  rw [heq]
  refine ⟨?_, h.compiles, h.inFlight, ?_, h.hits⟩
  · simpa using h.requests
  · simp [Booking.dropped]
    omega

/-- What is swept is counted. -/
theorem purgeExpired (h : Balanced c books) (hnodup : (c.entries.map (·.1)).Nodup) :
    Balanced (c.purgeExpired p).2 books := by
  obtain ⟨tracking, heq⟩ := purgeExpired_eq p hnodup
  have hsplit := List.length_eq_length_filter_add (l := c.entries) fun x => c.isLive x.2
  have hentries := h.entries
  rw [heq]
  refine ⟨h.requests, h.compiles, h.inFlight, ?_, h.hits⟩
  simp only
  omega

/-- A compile fails: it is counted among the failures and no more among those in the air. -/
theorem fail (h : Balanced c books) (hairborne : Airborne c) {key : κ} {f : FlightId}
    (hair : c.InAir key f) (error : ε) :
    Balanced (retire f key (.error error) { c with
      counters := { c.counters with compileFailures := c.counters.compileFailures + 1 } })
      books := by
  have hcompiles := h.compiles
  have hflights := h.inFlight
  have hlength := hairborne.length_without hair
  have hpending := pending_retire hair (.error error)
  refine ⟨h.requests, ?_, ?_, h.entries, h.hits⟩
  · simp only [retire]
    omega
  · simp only [retire, pending] at hpending hflights ⊢
    omega

/-- A compile succeeds: its entry is in the map, or another one has made room for it. -/
theorem land {c d : Cache κ α ε (NamedPolicy κ)} (h : Balanced c books) {limits : Limits}
    {e : Eviction} {l : Lane κ} (hrefines : Refines limits e c l) (hairborne : Airborne c)
    {key : κ} {f : FlightId} {payload : α} {rounds : Nat} (hair : c.InAir key f)
    (hholds : l.holds limits key = false)
    (hland : c.landWithin NamedPolicy.policy rounds f (.ok payload) = some d) :
    Balanced d books := by
  have hcompiles := h.compiles
  have hentries := h.entries
  have hlength := hairborne.length_without hair
  have hflights := h.inFlight
  have hpending := pending_retire hair (.ok c.made.length)
  have hroom := hrefines.length_landed hholds hair hland
  have hsplit := List.length_eq_length_filter_add (l := c.entries)
    fun x => (c.make payload).isLive x.2
  obtain ⟨tracking, rfl⟩ := landed_eq NamedPolicy.policy hair hrefines.nodup_entries
    (hrefines.readied_lookup hholds payload) hland
  refine ⟨h.requests, ?_, ?_, ?_, ?_⟩
  · simp only
    omega
  · simp only [retire, pending] at hpending hflights ⊢
    omega
  · simp only at hroom ⊢
    omega
  · simpa [totalHits] using h.hits

theorem advance (h : Balanced c books) (x : Caller κ ε) :
    Balanced (advance p c x).2 (books ++
      [if !hasDecided x && hasDecided (Traffic.advance p c x).1 then .decided else .nothing]) := by
  cases x with
  | looking key =>
      rw [advance_looking_snd]
      cases hlive : c.live? key with
      | none =>
          simp only [Traffic.advance, lookup, hlive]
          exact h.nothing
      | some id =>
          have hserved := h.serve (p := p) hlive (Or.inl rfl)
          simp only [Traffic.advance, lookup, hlive] at hserved ⊢
          exact hserved
  | deciding key =>
      rw [advance_deciding_snd]
      have hdecided : hasDecided (Traffic.advance p c (.deciding key)).1 = true := by
        rcases hask : c.ask p key with ⟨_ | _ | _, d⟩ <;> simp only [Traffic.advance, hask] <;> rfl
      rw [hdecided]
      exact h.ask key
  | waiting flight =>
      simp only [Traffic.advance]
      split <;> exact h.nothing
  | done o => exact h.nothing
  | cancelled => exact h.nothing

end Balanced

variable {limits : Limits} {e : Eviction} {t u : Traffic κ α ε (NamedPolicy κ)} {l : Lane κ}
  {books : List Booking}

theorem Balanced.landWithin (h : Balanced t.cache books) (hbounded : Bounded limits e t l)
    {f : FlightId} {made : Except ε α} {rounds : Nat} {d : Cache κ α ε (NamedPolicy κ)}
    (hland : t.cache.landWithin NamedPolicy.policy rounds f made = some d) : Balanced d books := by
  rcases landWithin_cases _ hland with ⟨_, rfl⟩ | ⟨key, error, hair, rfl, rfl⟩ |
    ⟨key, payload, _, hair, rfl, _, _⟩
  · exact h
  · exact h.fail hbounded.airborne hair error
  · have hholds := hbounded.refines.holds_of_live?_eq_none (hbounded.unserved key f hair)
    exact h.land hbounded.refines hbounded.airborne hair hholds hland

/-- A step keeps the books balanced once it is booked. -/
theorem Balanced.step (h : Balanced t.cache books) (hbounded : Bounded limits e t l)
    {s : Step κ α ε} (hstep : t.step NamedPolicy.policy s = some u) :
    Balanced u.cache (books ++ [t.booking NamedPolicy.policy s]) := by
  have hnodup := hbounded.refines.nodup_entries
  cases s with
  | proceed i =>
      cases hx : t.callers[i]? with
      | none =>
          simp only [Traffic.step, hx, Option.some.injEq] at hstep
          simp only [booking, hx, ← hstep]
          exact h.nothing
      | some x =>
          rw [step_proceed _ hx, Option.some.injEq] at hstep
          simp only [booking, hx, ← hstep]
          exact h.advance x
  | land f made rounds =>
      obtain ⟨d, hland, rfl⟩ := (step_land_iff _).mp hstep
      exact (h.landWithin hbounded hland).nothing
  | get key =>
      cases hstep
      simp only [booking]
      cases hlive : t.cache.live? key with
      | none =>
          simp only [lookup, hlive]
          exact h.nothing
      | some id =>
          have hserved := h.serve (p := NamedPolicy.policy) hlive (Or.inr rfl)
          simp only [lookup, hlive] at hserved ⊢
          exact hserved
  | remove key =>
      cases hstep
      exact h.remove hnodup key
  | clear =>
      cases hstep
      exact h.clear
  | purgeExpired =>
      cases hstep
      exact (h.purgeExpired hnodup).nothing
  | wait time =>
      cases hstep
      have hsame := h.nothing
      exact ⟨hsame.requests, hsame.compiles, hsame.inFlight, hsame.entries, hsame.hits⟩
  | call _ | cancel _ =>
      cases hstep
      exact h.nothing

theorem Balanced.run (h : Balanced t.cache books) (hbounded : Bounded limits e t l)
    {steps : List (Step κ α ε)} (hrun : run NamedPolicy.policy t steps = some u) :
    Balanced u.cache (books ++ bookings NamedPolicy.policy t steps) := by
  induction steps generalizing t l books with
  | nil =>
      obtain rfl := Option.some.inj hrun
      simpa [bookings] using h
  | cons s more ih =>
      obtain ⟨v, hv, hrest⟩ := (run_cons_iff _).mp hrun
      have hmore := ih (h.step hbounded hv) (hbounded.step hv) hrest
      simpa only [bookings, hv, List.append_assoc, List.singleton_append] using hmore

omit [DecidableEq κ] in
theorem start_balanced (limits : Limits) (e : Eviction) :
    Balanced (start limits (.start e) : Traffic κ α ε (NamedPolicy κ)).cache [] :=
  ⟨rfl, rfl, rfl, rfl, rfl⟩

/-- The books balance after any run. Every decision and every `get` that found an entry is one hit,
one miss or one caller joined; every miss has been compiled, has failed or is in the air; every
compile that succeeded is in the map, or it was evicted, expired, removed or cleared; and a hit
is a hit on some entry. A landing that brings an entry finds none in its way once the cache is
swept, so it replaces none. -/
theorem counters_conserved (limits : Limits) (e : Eviction) (steps : List (Step κ α ε))
    (t : Traffic κ α ε (NamedPolicy κ))
    (hrun : run NamedPolicy.policy (start limits (.start e)) steps = some t) :
    let books := bookings NamedPolicy.policy (start limits (.start e)) steps
    let n := t.cache.counters
    n.hits + n.misses + n.coalesced = books.count .decided + books.count .found ∧
    (n.misses = n.compiles + n.compileFailures + t.cache.inFlight.length ∧
      t.cache.inFlight.length = t.cache.pending) ∧
    n.compiles = t.cache.entries.length + n.evictions + n.expirations + books.count .removed +
      (books.map Booking.dropped).sum ∧
    n.hits = t.cache.totalHits ∧
    ∀ key f payload, t.cache.InAir key f →
      (t.cache.readied NamedPolicy.policy payload).entries.lookup key = none := by
  have hbounded := (start_bounded limits e).run hrun
  have hbalanced := (start_balanced limits e).run (start_bounded limits e) hrun
  refine ⟨hbalanced.requests, ⟨hbalanced.compiles, hbalanced.inFlight⟩, hbalanced.entries,
    hbalanced.hits, ?_⟩
  intro key f payload hair
  have hholds := hbounded.refines.holds_of_live?_eq_none (hbounded.unserved key f hair)
  exact hbounded.refines.readied_lookup hholds payload

/-- One entry is served twice, evicted by a second one, asked for again while its compile fails, and
the second one is cleared. -/
theorem counters_conserved_of_eviction :
    let steps : List (Step Nat String String) :=
      [.call 1, .proceed 0, .proceed 0, .land 0 (.ok "one") 1, .get 1, .get 1, .call 2, .proceed 1,
        .proceed 1, .land 1 (.ok "two") 1, .call 1, .call 1, .proceed 2, .proceed 2, .proceed 3,
        .proceed 3, .land 2 (.error "refused") 1, .clear, .call 3, .proceed 4, .proceed 4]
    ∃ t, run NamedPolicy.policy (start { maxEntries := some 1 } (.start .lru)) steps = some t ∧
      t.cache.counters.hits + t.cache.counters.misses + t.cache.counters.coalesced = 5 + 2 ∧
      t.cache.counters.misses = 2 + 1 + 1 ∧ t.cache.counters.compiles = 0 + 1 + 0 + 0 + 1 ∧
      t.cache.totalHits = 2 ∧
      (t.cache.readied NamedPolicy.policy "three").entries.lookup 3 = none := by
  intro steps
  refine ⟨_, rfl, ?_⟩
  have ht := counters_conserved { maxEntries := some 1 } .lru steps _ rfl
  exact ⟨ht.1, ht.2.1.1, ht.2.2.1, ht.2.2.2.1.symm, ht.2.2.2.2 3 3 "three" rfl⟩

end Traffic

end Scriptlet
