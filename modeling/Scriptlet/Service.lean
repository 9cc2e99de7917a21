import Scriptlet.Cache.Caller
import Scriptlet.Cache.Key
import Scriptlet.Script

/-!
The service that runs snippets. It compiles a snippet when it is first asked for, keeps the
runner in a cache, and invokes it on a context. A failed compile is not kept, and a fault of an
invocation leaves the runner where it is.

Whoever needs a runner is a caller of the cache. `enter` takes a caller to where it has a runner
or waits for one, `settle` lets the compiles in the air land, and `runnerOf` is what the caller
then has. A single invocation is these three in a row; overlapping ones are many `enter`s before
one `settle`.
-/

namespace Scriptlet

/-- What the cache holds: runners, and whatever else was put there behind the service's back. -/
inductive Cached (τ : Type) where
  | runner (r : Runner τ)
  | foreign

abbrev RunnerCache (τ : Type) :=
  Cache (CacheKey τ) (Cached τ) CompileError (NamedPolicy (CacheKey τ))

abbrev RunnerTraffic (τ : Type) :=
  Traffic (CacheKey τ) (Cached τ) CompileError (NamedPolicy (CacheKey τ))

inductive ScriptError (τ : Type) where
  | compile (error : CompileError)
  | runtime (fault : RuntimeFault)
  | cacheCorruption (key : CacheKey τ)

namespace ScriptError

variable {τ : Type}

def message [TypeNames τ] : ScriptError τ → String
  | .compile e => e.message
  | .runtime fault => fault.message
  | .cacheCorruption key =>
      "cached runner " ++ key.fingerprint ++ " is not bound to " ++ key.signature.text

def isCompileError : ScriptError τ → Bool
  | .compile _ => true
  | _ => false

def isRuntimeFault : ScriptError τ → Bool
  | .runtime _ => true
  | _ => false

/-- Not worth trying again. -/
def isFatal : ScriptError τ → Bool
  | .cacheCorruption _ => true
  | _ => false

end ScriptError

structure Service (τ : Type) where
  compiler : Compiler τ
  timeout : Option Duration
  traffic : RunnerTraffic τ

namespace Service

variable {τ : Type} [DecidableEq τ]

/-- A service with nothing cached. -/
def new (compiler : Compiler τ) (limits : Limits) (eviction : Eviction)
    (timeout : Option Duration) : Service τ :=
  { compiler, timeout, traffic := { cache := { limits, tracking := .start eviction } } }

def cache (s : Service τ) : RunnerCache τ :=
  s.traffic.cache

def withCache (s : Service τ) (cache : RunnerCache τ) : Service τ :=
  { s with traffic := { s.traffic with cache } }

/-- What a compile of a key lands with. -/
def compile (s : Service τ) (key : CacheKey τ) : Except CompileError (Cached τ) :=
  (s.compiler key.source key.signature).map fun script =>
    .runner { signature := key.signature, script }

/-- A step of the traffic. The named policies bring every landing to its end. -/
def step (s : Service τ) (step : Traffic.Step (CacheKey τ) (Cached τ) CompileError) : Service τ :=
  { s with traffic := (s.traffic.step NamedPolicy.policy step).getD s.traffic }

/-- A new caller for a key, as far as it gets without waiting, and its number. -/
def enter (key : CacheKey τ) (s : Service τ) : Nat × Service τ :=
  let caller := s.traffic.callers.length
  (caller, ((s.step (.call key)).step (.proceed caller)).step (.proceed caller))

/-- Lands every flight in the air with what `compile` makes of its key. -/
def settleWith (compile : CacheKey τ → Except CompileError (Cached τ)) (s : Service τ) : Service τ :=
  s.cache.inFlight.foldl
    (fun s (key, flight) => s.step (.land flight (compile key) (s.cache.entries.length + 1))) s

def settle (s : Service τ) : Service τ :=
  s.settleWith s.compile

/-- The entry, or the compile error, that a caller has received by now. -/
def received (caller : Nat) (s : Service τ) : Option (Except CompileError EntryId) :=
  match (s.step (.proceed caller)).traffic.callers[caller]? with
  | some (.done outcome) => some outcome
  | _ => none

/-- The runner of an entry, which has to be bound to the types of the key. -/
def runner? (key : CacheKey τ) (id : EntryId) (s : Service τ) : Option (Runner τ) :=
  match s.cache.made[id]? with
  | some { payload := .runner r, .. } => if r.signature = key.signature then some r else none
  | _ => none

/-- The runner that a caller has by now, with the number of its entry. -/
def runnerOf (key : CacheKey τ) (caller : Nat) (s : Service τ) :
    Option (Except (ScriptError τ) (EntryId × Runner τ)) :=
  (s.received caller).map fun
    | .error e => .error (.compile e)
    | .ok id =>
        match s.runner? key id with
        | some r => .ok (id, r)
        | none => .error (.cacheCorruption key)

variable [Types τ]

/-- Invokes a runner on a context, no longer than the service allows. -/
def call (s : Service τ) (r : Runner τ) (key : CacheKey τ) (context : key.signature.Context) :
    Ending (Except (ScriptError τ) key.signature.Result) :=
  let ending := (r.script.invoke key.signature context).map (·.mapError ScriptError.runtime)
  match s.timeout with
  | none => ending
  | some limit => ending.within limit (.error (.runtime (.timeout limit)))

/-- What a caller who asked for a key answers on a context. -/
def answer (key : CacheKey τ) (context : key.signature.Context) (caller : Nat) (s : Service τ) :
    Ending (Except (ScriptError τ) key.signature.Result) :=
  match s.runnerOf key caller with
  | none => .never
  | some (.error e) => .now (.error e)
  | some (.ok (_, r)) => s.call r key context

/-- The runner of a key, compiled on first use. -/
def runner (key : CacheKey τ) (s : Service τ) :
    Option (Except (ScriptError τ) (EntryId × Runner τ)) × Service τ :=
  let (caller, s) := s.enter key
  let s := s.settle
  (s.runnerOf key caller, s)

/-- Compiles, or fetches, the snippet of a key and invokes it. -/
def invoke (key : CacheKey τ) (context : key.signature.Context) (s : Service τ) :
    Ending (Except (ScriptError τ) key.signature.Result) × Service τ :=
  let (caller, s) := s.enter key
  let s := s.settle
  (s.answer key context caller, s)

/-- The callers of several contexts, who all enter before anything lands. -/
def enterAll (key : CacheKey τ) : List key.signature.Context → Service τ →
    List (key.signature.Context × Nat) × Service τ
  | [], s => ([], s)
  | context :: more, s =>
      let (caller, s) := s.enter key
      let (callers, s) := enterAll key more s
      ((context, caller) :: callers, s)

/-- Invocations of one key on several contexts at once. -/
def invokeAll (key : CacheKey τ) (contexts : List key.signature.Context) (s : Service τ) :
    List (Ending (Except (ScriptError τ) key.signature.Result)) × Service τ :=
  let (callers, s) := s.enterAll key contexts
  let s := s.settle
  (callers.map fun (context, caller) => s.answer key context caller, s)

end Service

end Scriptlet
