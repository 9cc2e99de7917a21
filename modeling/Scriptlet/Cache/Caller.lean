import Scriptlet.Cache.Landing

/-!
Callers that share a cache. A caller looks its key up, then decides under the lock of the flights,
and then waits for a flight unless it was served. Each of these is one step, and between any two
of them other callers, landings and everything else may take theirs. A caller may give up at any
time; its flight goes on.
-/

namespace Scriptlet

inductive Caller (κ ε : Type) where
  | looking (key : κ)
  | deciding (key : κ)
  | waiting (flight : FlightId)
  | done (outcome : Except ε EntryId)
  | cancelled

/-- A cache and everyone who ever asked it for a key, in the order of their asking. -/
structure Traffic (κ α ε σ : Type) where
  cache : Cache κ α ε σ
  callers : List (Caller κ ε) := []

namespace Traffic

variable {κ α ε σ : Type} [DecidableEq κ]

inductive Step (κ α ε : Type) where
  | call (key : κ)
  | proceed (caller : Nat)
  | cancel (caller : Nat)
  | land (flight : FlightId) (outcome : Except ε α) (rounds : Nat)
  | get (key : κ)
  | remove (key : κ)
  | clear
  | purgeExpired
  | wait (time : Duration)

/-- The next step of a caller; one who waits for a flight in the air stays as it is. -/
def advance (p : Policy κ σ) (c : Cache κ α ε σ) : Caller κ ε → Caller κ ε × Cache κ α ε σ
  | .looking key =>
      match c.lookup p key with
      | (some id, c) => (.done (.ok id), c)
      | (none, c) => (.deciding key, c)
  | .deciding key =>
      match c.ask p key with
      | (.hit id, c) => (.done (.ok id), c)
      | (.joined flight, c) | (.started flight, c) => (.waiting flight, c)
  | .waiting flight =>
      match c.outcome? flight with
      | some outcome => (.done outcome, c)
      | none => (.waiting flight, c)
  | .done outcome => (.done outcome, c)
  | .cancelled => (.cancelled, c)

/-- Giving up; one who is done stays done. -/
def giveUp : Caller κ ε → Caller κ ε
  | .done outcome => .done outcome
  | _ => .cancelled

/-- One step. A landing whose eviction is not over in its rounds does not happen. -/
def step (p : Policy κ σ) (t : Traffic κ α ε σ) : Step κ α ε → Option (Traffic κ α ε σ)
  | .call key => some { t with callers := t.callers ++ [.looking key] }
  | .proceed i =>
      match t.callers[i]? with
      | none => some t
      | some caller =>
          let (next, cache) := advance p t.cache caller
          some { cache, callers := t.callers.set i next }
  | .cancel i => some { t with callers := t.callers.modify i giveUp }
  | .land flight outcome rounds => do
      some { t with cache := ← t.cache.landWithin p rounds flight outcome }
  | .get key => some { t with cache := (t.cache.lookup p key).2 }
  | .remove key => some { t with cache := (t.cache.remove p key).2 }
  | .clear => some { t with cache := t.cache.clear p }
  | .purgeExpired => some { t with cache := (t.cache.purgeExpired p).2 }
  | .wait time => some { t with cache := t.cache.wait time }

/-- A run from a state through steps. -/
def run (p : Policy κ σ) : Traffic κ α ε σ → List (Step κ α ε) → Option (Traffic κ α ε σ)
  | t, [] => some t
  | t, s :: more => do run p (← t.step p s) more

end Traffic

end Scriptlet
