import Scriptlet.Settings

/-!
Settings from the values of some format. Not much is asked of a format: the named fields of a
structure, a count, and one of several names. Which of its values it takes for these is its own
affair. A field that is missing has its default, and fields that no setting has are passed over.
-/

namespace Scriptlet

/-- What is asked of the values of a format. -/
structure Reader (ν : Type) where
  /-- The values of the named fields, where a value can stand for a structure that has them. -/
  fields? (names : List String) : ν → Option (String → Option ν)
  /-- A count, or a value that stands for the absence of one. -/
  count? : ν → Option (Option Nat)
  /-- One of the names. -/
  choice? (names : List String) : ν → Option String

namespace Settings

def sectionNames : List String := ["cache", "runner"]

def cacheNames : List String := ["max_entries", "time_to_live_secs", "eviction"]

def runnerNames : List String := ["timeout_ms"]

def evictionNames : List String := ["lru", "fifo"]

def evictionNamed? : String → Option Eviction
  | "lru" => some .lru
  | "fifo" => some .fifo
  | _ => none

/-- Reads a field that may be missing. -/
def field {ν α : Type} (read : ν → Option α) (default : α) : Option ν → Option α
  | none => some default
  | some v => read v

variable {ν : Type} (r : Reader ν)

def eviction? (v : ν) : Option Eviction := do
  evictionNamed? (← r.choice? evictionNames v)

def withCache? (s : Settings) (cache : ν) : Option Settings := do
  let fields ← r.fields? cacheNames cache
  let maxEntries ← field r.count? none (fields "max_entries")
  let timeToLiveSecs ← field r.count? none (fields "time_to_live_secs")
  let eviction ← field (eviction? r) .lru (fields "eviction")
  some { s with maxEntries, timeToLiveSecs, eviction }

def withRunner? (s : Settings) (runner : ν) : Option Settings := do
  let fields ← r.fields? runnerNames runner
  let timeoutMs ← field r.count? none (fields "timeout_ms")
  some { s with timeoutMs }

/-- The settings of a value, before their bounds are looked at. -/
def ofValue? (v : ν) : Option Settings := do
  let sections ← r.fields? sectionNames v
  let s ← field (withCache? r {}) {} (sections "cache")
  field (withRunner? r s) s (sections "runner")

end Settings

end Scriptlet
