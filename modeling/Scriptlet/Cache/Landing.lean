import Scriptlet.Cache.Store

/-!
Starting a compile and landing it. Whoever asks for a key that is not cached either starts a
flight or joins the one there is. When a flight lands, expired entries are swept, the new entry
is put in, and the policy is asked for victims as long as there are too many entries.

A policy may answer with a key that the cache does not hold, again and again, and then the
eviction has no end. So it is given a number of rounds and says when they were not enough. As
long as every answer is a key that the cache holds, the number of its entries is enough.
-/

namespace Scriptlet

/-- What becomes of a caller who asks for a key. -/
inductive Decision where
  | hit (id : EntryId)
  | joined (flight : FlightId)
  | started (flight : FlightId)
  deriving Repr, DecidableEq

namespace Cache

variable {κ α ε σ : Type} [DecidableEq κ]

/-- Serves the key, joins its flight, or starts one. -/
def ask (p : Policy κ σ) (key : κ) (c : Cache κ α ε σ) : Decision × Cache κ α ε σ :=
  match c.lookup p key with
  | (some id, c) => (.hit id, c)
  | (none, c) =>
      match c.inFlight.lookup key with
      | some flight =>
          (.joined flight,
            { c with counters := { c.counters with coalesced := c.counters.coalesced + 1 } })
      | none =>
          (.started c.flights.length,
            { c with
              flights := c.flights ++ [{ key }]
              inFlight := c.inFlight ++ [(key, c.flights.length)]
              counters := { c.counters with misses := c.counters.misses + 1 } })

def fits (c : Cache κ α ε σ) : Bool :=
  match c.limits.maxEntries with
  | none => true
  | some most => c.entries.length ≤ most

/-- Drops a victim and counts it. -/
def evict (p : Policy κ σ) (victim : κ) (c : Cache κ α ε σ) : Cache κ α ε σ :=
  let c := c.forget p victim
  { c with counters := { c.counters with evictions := c.counters.evictions + 1 } }

/-- Asks for victims until the cache fits or the policy has none; `none` when that takes more
than the given number of rounds. -/
def trim (p : Policy κ σ) : Nat → Cache κ α ε σ → Option (Cache κ α ε σ)
  | 0, c => if c.fits then some c else none
  | rounds + 1, c =>
      if c.fits then some c
      else
        match p.evict c.tracking with
        | (none, tracking) => some { c with tracking }
        | (some victim, tracking) => trim p rounds (evict p victim { c with tracking })

/-- Puts an entry under a key. An entry that it replaces is reported as removed. -/
def put (p : Policy κ σ) (key : κ) (id : EntryId) (c : Cache κ α ε σ) : Cache κ α ε σ :=
  let c := if (c.entries.lookup key).isSome then c.forget p key else c
  { c with entries := c.entries ++ [(key, id)], tracking := p.onAdd key c.tracking }

/-- Adds a new entry: sweeps, puts it in and trims. -/
def insert (p : Policy κ σ) (rounds : Nat) (key : κ) (payload : α) (c : Cache κ α ε σ) :
    Option (Cache κ α ε σ) :=
  let id := c.made.length
  let made := c.made ++ [{ payload, createdAt := c.now }]
  let c := { c with made }
  trim p rounds (put p key id (c.purgeExpired p).2)

/-- Ends a flight: its outcome is there for those who wait, and its key is free. -/
def retire (flight : FlightId) (key : κ) (outcome : Except ε EntryId) (c : Cache κ α ε σ) :
    Cache κ α ε σ :=
  { c with
    flights := c.flights.modify flight fun f => { f with outcome := some outcome }
    inFlight := without key c.inFlight }

/-- The landing of a flight with what the compiler made of it. A flight that is not in the air
does not land. -/
def landWithin (p : Policy κ σ) (rounds : Nat) (flight : FlightId) (outcome : Except ε α)
    (c : Cache κ α ε σ) : Option (Cache κ α ε σ) :=
  match c.flights[flight]? with
  | some { key, outcome := none } =>
      match outcome with
      | .error e =>
          let counters :=
            { c.counters with compileFailures := c.counters.compileFailures + 1 }
          some (retire flight key (.error e) { c with counters })
      | .ok payload => do
          let id := c.made.length
          let counters := { c.counters with compiles := c.counters.compiles + 1 }
          let c ← insert p rounds key payload { c with counters }
          some (retire flight key (.ok id) c)
  | _ => some c

/-- A landing with a round for every entry, the new one included. -/
def land (p : Policy κ σ) (flight : FlightId) (outcome : Except ε α) (c : Cache κ α ε σ) :
    Option (Cache κ α ε σ) :=
  c.landWithin p (c.entries.length + 1) flight outcome

/-- What a flight landed with. -/
def outcome? (c : Cache κ α ε σ) (flight : FlightId) : Option (Except ε EntryId) :=
  c.flights[flight]?.bind (·.outcome)

end Cache

end Scriptlet
