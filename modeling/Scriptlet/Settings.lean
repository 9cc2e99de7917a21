import Scriptlet.Cache.Store

/-!
The settings of a service: how much its cache holds and for how long, which entry it lets go
first, and how long an invocation may take. What is absent is unbounded, and a bound is never
zero.
-/

namespace Scriptlet

structure Settings where
  maxEntries : Option Nat := none
  timeToLiveSecs : Option Nat := none
  eviction : Eviction := .lru
  timeoutMs : Option Nat := none
  deriving Repr, DecidableEq

/-- A bound that can be set. -/
inductive Bound where
  | maxEntries
  | timeToLive
  | timeout
  deriving Repr, DecidableEq

def Bound.name : Bound → String
  | .maxEntries => "cache.max_entries"
  | .timeToLive => "cache.time_to_live_secs"
  | .timeout => "runner.timeout_ms"

/-- Why there are no settings: their sources could not be read or do not fit, a document could
not be, or a bound is zero. -/
inductive SettingsError where
  | load
  | parse
  | zero (bound : Bound)
  deriving Repr, DecidableEq

def SettingsError.message : SettingsError → String
  | .load => "failed to load configuration"
  | .parse => "failed to parse configuration"
  | .zero bound => "invalid configuration: " ++ bound.name ++ " must be greater than 0"

namespace Settings

/-- Refuses a bound of zero; the first one in the order of the fields is reported. -/
def validate (s : Settings) : Except SettingsError Settings :=
  if s.maxEntries = some 0 then .error (.zero .maxEntries)
  else if s.timeToLiveSecs = some 0 then .error (.zero .timeToLive)
  else if s.timeoutMs = some 0 then .error (.zero .timeout)
  else .ok s

def timeToLive (s : Settings) : Option Duration :=
  s.timeToLiveSecs.map .ofSeconds

def timeout (s : Settings) : Option Duration :=
  s.timeoutMs.map .ofMilliseconds

def limits (s : Settings) : Limits :=
  { maxEntries := s.maxEntries, timeToLive := s.timeToLive }

end Settings

end Scriptlet
