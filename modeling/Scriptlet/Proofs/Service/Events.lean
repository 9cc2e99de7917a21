import Scriptlet.Proofs.Cache.Bounded
import Scriptlet.Proofs.Cache.Provenance
import Scriptlet.Service

/-!
Everything that can happen to a service, as a list of events. The cache is filled through the
service only: a compile lands with what the compiler makes of the key of its flight. `Sound` is
what any events keep, and says of whatever is cached that it is bound to its own source and types.
-/

namespace Scriptlet

namespace Service

variable {τ : Type}

theorem compile_congr {s u : Service τ} (h : u.compiler = s.compiler) : u.compile = s.compile := by
  funext key
  simp only [compile, h]

variable [DecidableEq τ]

/-! ### What any events keep -/

/-- The cache is within its limits, and holds and hands out under a key what the compiler makes of
that key. The keys are those of the callers, in the order of their calls. -/
structure Sound (limits : Limits) (e : Eviction) (keys : List (CacheKey τ)) (s : Service τ) : Prop where
  honest : Traffic.Honest s.compile keys s.traffic
  bounded : ∃ l, Traffic.Bounded limits e s.traffic l

variable {limits : Limits} {e : Eviction} {keys : List (CacheKey τ)} {s : Service τ}

theorem new_sound (compiler : Compiler τ) (limits : Limits) (e : Eviction)
    (timeout : Option Duration) : Sound limits e [] (new compiler limits e timeout) := by
  refine ⟨?_, {}, Traffic.start_bounded limits e⟩
  refine ⟨Traffic.start_airborne limits (NamedPolicy.start e), ?_, ?_, rfl, ?_⟩
  · intro x hx
    cases hx
  · intro key f o hf
    cases hf
  · intro i key hkey
    cases hkey

/-- A step of a sound service happens, if it gives a landing a round. -/
theorem Sound.step_traffic (h : Sound limits e keys s)
    (step : Traffic.Step (CacheKey τ) (Cached τ) CompileError)
    (hrounds : ∀ f made rounds, step = .land f made rounds → 0 < rounds) :
    s.traffic.step NamedPolicy.policy step = some (s.step step).traffic := by
  obtain ⟨l, hbounded⟩ := h.bounded
  obtain ⟨t, ht⟩ := Option.isSome_iff_exists.mp (hbounded.step_isSome step hrounds)
  rw [Service.step, ht]
  rfl

theorem Sound.step (h : Sound limits e keys s)
    {step : Traffic.Step (CacheKey τ) (Cached τ) CompileError}
    (hrounds : ∀ f made rounds, step = .land f made rounds → 0 < rounds)
    (hhonest : step.Honest s.compile s.traffic) :
    Sound limits e (keys ++ step.asks) (s.step step) := by
  have hstep := h.step_traffic step hrounds
  obtain ⟨l, hbounded⟩ := h.bounded
  exact ⟨h.honest.step hhonest hstep, _, hbounded.step hstep⟩

/-! ### Events -/

/-- A call of the service, a step of someone who called it, a landing, or an operation on the
cache. Runners are fetched to be invoked later or to be compiled ahead of their first use. -/
inductive Event (τ : Type) [Types τ] where
  | invoke (key : CacheKey τ) (context : key.signature.Context)
  | fetch (key : CacheKey τ)
  | proceed (caller : Nat)
  | cancel (caller : Nat)
  | land (flight : FlightId)
  | get (key : CacheKey τ)
  | remove (key : CacheKey τ)
  | clear
  | purgeExpired
  | wait (time : Duration)

variable [Types τ]

/-- The key that a new caller asks for. -/
def Event.key? : Event τ → Option (CacheKey τ)
  | .invoke key _ | .fetch key => some key
  | _ => none

/-- The event without the context. -/
def Event.bare : Event τ → Event τ
  | .invoke key _ => .fetch key
  | event => event

/-- The step of the traffic that an event is, if it is one. -/
def Event.step (s : Service τ) : Event τ → Option (Traffic.Step (CacheKey τ) (Cached τ) CompileError)
  | .invoke key _ | .fetch key => some (.call key)
  | .proceed i => some (.proceed i)
  | .cancel i => some (.cancel i)
  | .land f =>
      s.cache.flights[f]?.map fun fl => .land f (s.compile fl.key) (s.cache.entries.length + 1)
  | .get key => some (.get key)
  | .remove key => some (.remove key)
  | .clear => some .clear
  | .purgeExpired => some .purgeExpired
  | .wait time => some (.wait time)

def handle (s : Service τ) (event : Event τ) : Service τ :=
  match event.step s with
  | some step => s.step step
  | none => s

def after (s : Service τ) (events : List (Event τ)) : Service τ :=
  events.foldl handle s

theorem handle_compiler (s : Service τ) (event : Event τ) :
    (s.handle event).compiler = s.compiler ∧ (s.handle event).timeout = s.timeout := by
  unfold handle
  split <;> exact ⟨rfl, rfl⟩

theorem after_compiler (s : Service τ) (events : List (Event τ)) :
    (s.after events).compiler = s.compiler ∧ (s.after events).timeout = s.timeout := by
  induction events generalizing s with
  | nil => exact ⟨rfl, rfl⟩
  | cons event more ih =>
      have hfirst := handle_compiler s event
      have hrest := ih (s.handle event)
      exact ⟨hrest.1.trans hfirst.1, hrest.2.trans hfirst.2⟩

/-- An event is a step that brings nothing but what the compiler makes, or it is nothing. -/
theorem event_cases (s : Service τ) (event : Event τ) :
    (event.key? = none ∧ s.handle event = s) ∨
    ∃ step : Traffic.Step (CacheKey τ) (Cached τ) CompileError,
      s.handle event = s.step step ∧ event.key?.toList = step.asks ∧
      (∀ f made rounds, step = .land f made rounds → 0 < rounds) ∧
      step.Honest s.compile s.traffic ∧ ∀ i, step = .cancel i → event = .cancel i := by
  cases event with
  | land f =>
      cases hf : s.cache.flights[f]? with
      | none =>
          left
          simp [handle, Event.step, hf, Event.key?]
      | some fl =>
          right
          refine ⟨.land f (s.compile fl.key) (s.cache.entries.length + 1), ?_, rfl, ?_, ?_, ?_⟩
          · simp only [handle, Event.step, hf, Option.map_some]
          · intro g made rounds heq
            cases heq
            exact Nat.succ_pos _
          · intro g made heq key hair
            cases heq
            have hflies : s.cache.FliesFor fl.key f := ⟨fl, hf, rfl⟩
            rw [hflies.eq_of_inAir hair]
          · intro i heq
            cases heq
  | cancel i =>
      right
      refine ⟨.cancel i, rfl, rfl, ?_, ?_, ?_⟩
      · intro f made rounds heq
        cases heq
      · intro f made heq
        cases heq
      · intro j heq
        cases heq
        rfl
  | _ =>
      right
      refine ⟨_, rfl, rfl, ?_, ?_, ?_⟩
      · intro f made rounds heq
        cases heq
      · intro f made heq
        cases heq
      · intro i heq
        cases heq

theorem Sound.handle (h : Sound limits e keys s) (event : Event τ) :
    Sound limits e (keys ++ event.key?.toList) (s.handle event) := by
  rcases event_cases s event with ⟨hkey, hsame⟩ | ⟨step, hstep, hkeys, hrounds, hhonest, _⟩
  · rw [hkey, hsame, Option.toList_none, List.append_nil]
    exact h
  · rw [hstep, hkeys]
    exact h.step hrounds hhonest

theorem Sound.after (h : Sound limits e keys s) (events : List (Event τ)) :
    Sound limits e (keys ++ events.filterMap Event.key?) (s.after events) := by
  induction events generalizing s keys with
  | nil =>
      rw [List.filterMap_nil, List.append_nil]
      exact h
  | cons event more ih =>
      have hkeys : keys ++ (event :: more).filterMap Event.key? =
          (keys ++ event.key?.toList) ++ more.filterMap Event.key? := by
        rw [List.append_assoc]
        cases hkey : event.key? <;> simp [hkey]
      rw [hkeys]
      exact ih (h.handle event)

/-- Events are a run of the traffic, in which nobody gives up who is not told to. -/
theorem Sound.run (h : Sound limits e keys s) (events : List (Event τ)) :
    ∃ steps, Traffic.run NamedPolicy.policy s.traffic steps = some (s.after events).traffic ∧
      ∀ i, .cancel i ∈ steps → .cancel i ∈ events := by
  induction events generalizing s keys with
  | nil => exact ⟨[], rfl, by simp⟩
  | cons event more ih =>
      obtain ⟨steps, hrun, hcancel⟩ := ih (h.handle event)
      rcases event_cases s event with ⟨_, hsame⟩ | ⟨step, hstep, _, hrounds, _, hgives⟩
      · rw [hsame] at hrun
        refine ⟨steps, ?_, ?_⟩
        · rw [Service.after, List.foldl_cons, hsame]
          exact hrun
        · intro i hi
          exact List.mem_cons_of_mem _ (hcancel i hi)
      · rw [hstep] at hrun
        refine ⟨step :: steps, ?_, ?_⟩
        · rw [Service.after, List.foldl_cons, hstep]
          simp only [Traffic.run, h.step_traffic step hrounds, Option.bind_eq_bind,
            Option.bind_some]
          exact hrun
        · intro i hi
          rcases List.mem_cons.mp hi with hfirst | hlater
          · exact hgives i hfirst.symm ▸ List.mem_cons_self
          · exact List.mem_cons_of_mem _ (hcancel i hlater)

end Service

end Scriptlet
