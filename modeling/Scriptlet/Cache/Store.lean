import Scriptlet.Cache.Policy
import Scriptlet.Duration

/-!
The cache of compiled snippets. What was compiled is kept in the order in which it was made, and
an entry is known by its number there, so that whoever holds one still sees its hits after the
cache has let it go. The map goes from keys to those numbers. A compile that has been started and
has not landed is a flight; a key has at most one, and every caller who asks for that key
meanwhile waits for it.

Time is a reading of a clock that the operations do not turn. An entry expires when its age
reaches the time to live, which with a time to live of zero is at once.
-/

namespace Scriptlet

abbrev EntryId := Nat

abbrev FlightId := Nat

/-- A compiled snippet, when it was made, and how often it was served. -/
structure Entry (α : Type) where
  payload : α
  createdAt : Nat
  hits : Nat := 0
  deriving Repr

/-- A compile for a key, with what came of it once it has landed. -/
structure Flight (κ ε : Type) where
  key : κ
  outcome : Option (Except ε EntryId) := none

structure Limits where
  maxEntries : Option Nat := none
  timeToLive : Option Duration := none
  deriving Repr, DecidableEq

structure Counters where
  hits : Nat := 0
  misses : Nat := 0
  coalesced : Nat := 0
  compiles : Nat := 0
  compileFailures : Nat := 0
  evictions : Nat := 0
  expirations : Nat := 0
  deriving Repr, DecidableEq

/-- A cache with keys `κ`, payloads `α`, compile errors `ε` and a policy whose state is `σ`. -/
structure Cache (κ α ε σ : Type) where
  limits : Limits
  tracking : σ
  now : Nat := 0
  made : List (Entry α) := []
  entries : List (κ × EntryId) := []
  flights : List (Flight κ ε) := []
  inFlight : List (κ × FlightId) := []
  counters : Counters := {}

namespace Cache

variable {κ α ε σ : Type} [DecidableEq κ]

/-- Removes a key from a map. -/
def without {β : Type} (key : κ) (map : List (κ × β)) : List (κ × β) :=
  map.filter (·.1 ≠ key)

def isExpired (c : Cache κ α ε σ) (e : Entry α) : Bool :=
  match c.limits.timeToLive with
  | none => false
  | some lifetime => lifetime.nanoseconds ≤ c.now - e.createdAt

/-- An entry that is there and has not expired. -/
def isLive (c : Cache κ α ε σ) (id : EntryId) : Bool :=
  match c.made[id]? with
  | some e => !c.isExpired e
  | none => false

def live? (c : Cache κ α ε σ) (key : κ) : Option EntryId :=
  (c.entries.lookup key).filter c.isLive

def contains (c : Cache κ α ε σ) (key : κ) : Bool :=
  (c.live? key).isSome

/-- The number of live entries; those that have expired and were not swept yet do not count. -/
def size (c : Cache κ α ε σ) : Nat :=
  (c.entries.filter fun (_, id) => c.isLive id).length

/-- The live entries and the counters. -/
def stats (c : Cache κ α ε σ) : Nat × Counters :=
  (c.size, c.counters)

/-- One more hit on an entry. -/
def recordHit (id : EntryId) (made : List (Entry α)) : List (Entry α) :=
  made.modify id fun e => { e with hits := e.hits + 1 }

/-- The live entry of a key. A find counts as a hit, with the entry, the cache and the policy. -/
def lookup (p : Policy κ σ) (key : κ) (c : Cache κ α ε σ) : Option EntryId × Cache κ α ε σ :=
  match c.live? key with
  | none => (none, c)
  | some id =>
      (some id,
        { c with
          made := recordHit id c.made
          counters := { c.counters with hits := c.counters.hits + 1 }
          tracking := p.onAccess key c.tracking })

/-- Takes a key out of the map and tells the policy. -/
def forget (p : Policy κ σ) (key : κ) (c : Cache κ α ε σ) : Cache κ α ε σ :=
  { c with entries := without key c.entries, tracking := p.onRemove key c.tracking }

/-- Drops the entry of a key; whether there was one. -/
def remove (p : Policy κ σ) (key : κ) (c : Cache κ α ε σ) : Bool × Cache κ α ε σ :=
  if (c.entries.lookup key).isSome then (true, c.forget p key) else (false, c)

/-- Drops every entry. The flights go on. A map is gone through in no order of its own; here the
policy is told of the entries in the order in which they came. -/
def clear (p : Policy κ σ) (c : Cache κ α ε σ) : Cache κ α ε σ :=
  c.entries.foldl (fun acc (key, _) => acc.forget p key) c

/-- Drops the entries that have expired; how many there were. Here too the policy is told of them in
the order in which they came. -/
def purgeExpired (p : Policy κ σ) (c : Cache κ α ε σ) : Nat × Cache κ α ε σ :=
  let expired := c.entries.filter fun (_, id) => !c.isLive id
  let swept := expired.foldl (fun acc (key, _) => acc.forget p key) c
  (expired.length,
    { swept with
      counters :=
        { swept.counters with expirations := swept.counters.expirations + expired.length } })

/-- Lets time pass. -/
def wait (time : Duration) (c : Cache κ α ε σ) : Cache κ α ε σ :=
  { c with now := c.now + time.nanoseconds }

end Cache

end Scriptlet
