import Scriptlet.Proofs.Cache.Payload
import Scriptlet.Proofs.Cache.SingleFlight
import Scriptlet.Proofs.Service.Events

/-!
The cache of the service cannot be seen in its answers. Whatever happened before and meanwhile, an
invocation that completes answers what compiling its snippet afresh and running it once answers;
and what is in the cache depends neither on contexts nor on what the scripts made of them.
-/

namespace Scriptlet

variable {τ : Type}

/-- The runner of a key, compiled afresh. -/
def Compiler.runner (compiler : Compiler τ) (key : CacheKey τ) : Except (ScriptError τ) (Runner τ) :=
  match compiler key.source key.signature with
  | .ok script => .ok { signature := key.signature, script }
  | .error error => .error (.compile error)

theorem Compiler.exists_of_runner_error {compiler : Compiler τ} {key : CacheKey τ}
    {error : ScriptError τ} (h : compiler.runner key = .error error) :
    ∃ refusal, error = .compile refusal ∧ compiler key.source key.signature = .error refusal := by
  unfold Compiler.runner at h
  split at h
  · cases h
  · next refusal hrefusal =>
      obtain rfl := Except.error.inj h
      exact ⟨refusal, rfl, hrefusal⟩

/-- The answer of a runner of a key, compiled afresh, on a context. -/
def Compiler.answer [Types τ] (compiler : Compiler τ) (key : CacheKey τ)
    (context : key.signature.Context) :
    Ending (Except (ScriptError τ) key.signature.Result) :=
  match compiler.runner key with
  | .ok r => (r.script.invoke key.signature context).map (·.mapError .runtime)
  | .error error => .now (.error error)

/-- An error of the compiler is about the snippet that it was given. -/
def Compiler.NamesSource (compiler : Compiler τ) : Prop :=
  ∀ source signature error, compiler source signature = .error error → error.source = source

/-- The compilers refuse the same snippets for the same reasons, whatever scripts they make of the
others. -/
def Compiler.RefusesLike (compiler other : Compiler τ) : Prop :=
  ∀ source signature,
    (compiler source signature).map (fun _ => ()) = (other source signature).map (fun _ => ())

namespace Service

open Cache Traffic

theorem compile_refuses {s u : Service τ} (h : s.compiler.RefusesLike u.compiler) (key : CacheKey τ) :
    (s.compile key).map (fun _ => ()) = (u.compile key).map (fun _ => ()) := by
  have hkey := h key.source key.signature
  unfold compile
  cases hs : s.compiler key.source key.signature <;>
    cases hu : u.compiler key.source key.signature <;> simp_all [Except.map]

variable [DecidableEq τ]

/-! ### All but the runners -/

/-- Everything about the callers and the cache but the runners themselves. -/
def outline (s : Service τ) : Traffic (CacheKey τ) Unit CompileError (NamedPolicy (CacheKey τ)) :=
  s.traffic.map fun _ => ()

theorem outline_step (s : Service τ) (step : Traffic.Step (CacheKey τ) (Cached τ) CompileError) :
    (s.step step).outline =
      (s.outline.step NamedPolicy.policy (step.map fun _ => ())).getD s.outline := by
  rw [outline, outline, step_map, Service.step]
  cases s.traffic.step NamedPolicy.policy step <;> rfl

/-! ### What a caller receives -/

variable {limits : Limits} {e : Eviction} {keys : List (CacheKey τ)} {s u : Service τ}

theorem received_eq {i : Nat} {x : Caller (CacheKey τ) CompileError}
    (hx : s.traffic.callers[i]? = some x) :
    s.received i =
      match (advance NamedPolicy.policy s.cache x).1 with
      | .done o => some o
      | _ => none := by
  have hlt := (List.getElem?_eq_some_iff.mp hx).1
  simp only [received, Service.step, cache, step_proceed NamedPolicy.policy hx,
    Option.getD_some, List.getElem?_set_self hlt]
  cases (advance NamedPolicy.policy s.traffic.cache x).1 <;> rfl

theorem runner?_of_payload? {key : CacheKey τ} {id : EntryId} {r : Runner τ}
    (hheld : s.cache.payload? id = some (.runner r)) (hbound : r.signature = key.signature) :
    s.runner? key id = some r := by
  obtain ⟨entry, hentry, hpayload⟩ := Option.map_eq_some_iff.mp hheld
  obtain ⟨payload, createdAt, hits⟩ := entry
  obtain rfl : payload = .runner r := hpayload
  simp only [runner?, hentry, hbound, if_true]

theorem Sound.gives (h : Sound limits e keys s) {i : Nat} {key : CacheKey τ}
    (hkey : keys[i]? = some key) {o : Except CompileError EntryId}
    (ho : s.received i = some o) : s.cache.Gives s.compile key o := by
  obtain ⟨x, hx, hafter⟩ := h.honest.callers i key hkey
  have hmove := advance_move NamedPolicy.policy s.cache x
  rw [received_eq hx] at ho
  split at ho
  · next o' hdone =>
      obtain rfl := Option.some.inj ho
      rw [hdone] at hmove
      exact h.honest.receives hafter hmove
  · cases ho

/-- What a caller has received is what a compile afresh gives, so it is bound to the types that the
caller asked for. -/
theorem Sound.runnerOf (h : Sound limits e keys s) {i : Nat} {key : CacheKey τ}
    (hkey : keys[i]? = some key) {outcome : Except (ScriptError τ) (EntryId × Runner τ)}
    (houtcome : s.runnerOf key i = some outcome) :
    outcome.map Prod.snd = s.compiler.runner key := by
  obtain ⟨o, ho, rfl⟩ := Option.map_eq_some_iff.mp houtcome
  have hgives := h.gives hkey ho
  cases hcompiler : s.compiler key.source key.signature with
  | error refusal =>
      have hcompile : s.compile key = .error refusal := by
        rw [compile, hcompiler]
        rfl
      have hrunner : s.compiler.runner key = .error (.compile refusal) := by
        simp only [Compiler.runner, hcompiler]
      rw [hrunner]
      cases o with
      | error error =>
          obtain rfl := Except.error.inj (hcompile.symm.trans hgives)
          rfl
      | ok id =>
          obtain ⟨payload, _, hpayload⟩ := hgives
          cases hcompile.symm.trans hpayload
  | ok script =>
      let r : Runner τ := { signature := key.signature, script }
      have hcompile : s.compile key = .ok (.runner r) := by
        rw [compile, hcompiler]
        rfl
      have hrunner : s.compiler.runner key = .ok r := by
        simp only [Compiler.runner, hcompiler, r]
      rw [hrunner]
      cases o with
      | error error => cases hcompile.symm.trans hgives
      | ok id =>
          obtain ⟨payload, hheld, hpayload⟩ := hgives
          obtain rfl := Except.ok.inj (hcompile.symm.trans hpayload)
          have hbound : s.runner? key id = some r := runner?_of_payload? hheld rfl
          simp only [hbound]
          rfl

variable [Types τ]

theorem Sound.answer (h : Sound limits e keys s) (htimeout : s.timeout = none) {i : Nat}
    {key : CacheKey τ} (hkey : keys[i]? = some key) (hreceived : (s.received i).isSome = true)
    (context : key.signature.Context) :
    s.answer key context i = s.compiler.answer key context := by
  obtain ⟨o, ho⟩ := Option.isSome_iff_exists.mp hreceived
  obtain ⟨outcome, houtcome⟩ : ∃ outcome, s.runnerOf key i = some outcome := by
    simp only [Service.runnerOf, ho, Option.map_some]
    exact ⟨_, rfl⟩
  have hrunner := h.runnerOf hkey houtcome
  unfold Service.answer Compiler.answer
  rw [houtcome, ← hrunner]
  cases outcome with
  | error error => rfl
  | ok found =>
      simp only [Except.map, call, htimeout]

/-! ### A call that everything in the air lands for -/

theorem Sound.proceed (h : Sound limits e keys s) {i : Nat} {x : Caller (CacheKey τ) CompileError}
    (hx : s.traffic.callers[i]? = some x) :
    s.traffic.step NamedPolicy.policy (.proceed i) = some (s.handle (.proceed i)).traffic ∧
      (s.handle (.proceed i)).traffic.callers[i]? =
        some (advance NamedPolicy.policy s.cache x).1 := by
  have hlt := (List.getElem?_eq_some_iff.mp hx).1
  have hstep := h.step_traffic (.proceed i) (by
    intro f made rounds heq
    cases heq)
  refine ⟨hstep, ?_⟩
  rw [step_proceed NamedPolicy.policy hx] at hstep
  have htraffic := Option.some.inj hstep
  change (s.step (.proceed i)).traffic.callers[i]? = _
  rw [← htraffic]
  exact List.getElem?_set_self hlt

/-- A new caller is served or waits for the compile of its key, and the rest is up to landings. -/
theorem Sound.enter (h : Sound limits e keys s) (key : CacheKey τ) :
    let n := s.traffic.callers.length
    let u := s.after [.fetch key, .proceed n, .proceed n]
    (∃ o, u.traffic.callers[n]? = some (.done o)) ∨
      ∃ f, u.traffic.callers[n]? = some (.waiting f) ∧ u.cache.InAir key f := by
  intro n u
  have hasked := h.handle (.fetch key)
  have hlooking : (s.handle (.fetch key)).traffic.callers[n]? = some (.looking key) := by
    change (s.traffic.callers ++ [Caller.looking key])[s.traffic.callers.length]? = _
    simp
  have hlooked := hasked.handle (.proceed n)
  obtain ⟨_, hthen⟩ := hasked.proceed hlooking
  rcases hserved : (s.handle (.fetch key)).cache.lookup NamedPolicy.policy key with ⟨_ | id, d⟩
  · simp only [advance, hserved] at hthen
    obtain ⟨hstep, hlast⟩ := hlooked.proceed hthen
    rcases hasked : ((s.handle (.fetch key)).handle (.proceed n)).cache.ask NamedPolicy.policy key
      with ⟨id | f | f, d⟩
    · simp only [advance, hasked] at hlast
      exact Or.inl ⟨_, hlast⟩
    · simp only [advance, hasked] at hlast
      exact Or.inr ⟨f, hlast, decision_inAir _ hlooked.honest.airborne hthen hstep hlast⟩
    · simp only [advance, hasked] at hlast
      exact Or.inr ⟨f, hlast, decision_inAir _ hlooked.honest.airborne hthen hstep hlast⟩
  · simp only [advance, hserved] at hthen
    obtain ⟨_, hlast⟩ := hlooked.proceed hthen
    exact Or.inl ⟨_, hlast⟩

theorem Sound.effect (h : Sound limits e keys s) (event : Event τ) :
    ∃ landing, Effect NamedPolicy.policy s.cache landing (s.handle event).cache := by
  rcases event_cases s event with ⟨_, hsame⟩ | ⟨step, hstep, _, hrounds, _, _⟩
  · rw [hsame]
    exact ⟨none, .drops (Drops.refl _)⟩
  · rw [hstep]
    exact ⟨_, step_effect _ (h.step_traffic step hrounds)⟩

theorem handle_land {key : CacheKey τ} {f : FlightId} (hf : s.cache.FliesFor key f) :
    s.handle (.land f) = s.step (.land f (s.compile key) (s.cache.entries.length + 1)) := by
  obtain ⟨fl, hfl, rfl⟩ := hf
  simp only [handle, Event.step, hfl, Option.map_some]

/-- A landing leaves its flight landed, by then or since before. -/
theorem Sound.land (h : Sound limits e keys s) {key : CacheKey τ} {f : FlightId}
    (hf : s.cache.FliesFor key f) :
    ((s.handle (.land f)).cache.outcome? f).isSome = true := by
  obtain ⟨landing, heffect⟩ := h.effect (.land f)
  cases ho : s.cache.outcome? f with
  | some o => rw [heffect.outcome? ho, Option.isSome_some]
  | none =>
      have hair : s.cache.InAir key f := by
        obtain ⟨fl, hfl, rfl⟩ := hf
        rw [outcome?, hfl, Option.bind_some] at ho
        rw [InAir, hfl, ← ho]
      have hstep := h.step_traffic (.land f (s.compile key) (s.cache.entries.length + 1)) (by
        intro g made rounds heq
        cases heq
        exact Nat.succ_pos _)
      rw [← handle_land hf] at hstep
      obtain ⟨d, hland, htraffic⟩ := (Traffic.step_land_iff _).mp hstep
      have hcache : (s.handle (.land f)).cache = d := by
        rw [Service.cache, ← htraffic]
      have hbrought := landWithin_brought _ hair hland
      rw [hcache]
      cases hmade : s.compile key with
      | error error =>
          rw [hmade] at hbrought
          rw [hbrought, Option.isSome_some]
      | ok payload =>
          rw [hmade] at hbrought
          obtain ⟨id, hid, _⟩ := hbrought
          rw [hid, Option.isSome_some]

theorem Sound.outcome? (h : Sound limits e keys s) (events : List (Event τ)) {f : FlightId}
    {o : Except CompileError EntryId} (ho : s.cache.outcome? f = some o) :
    (s.after events).cache.outcome? f = some o := by
  obtain ⟨steps, hrun, _⟩ := h.run events
  exact run_keeps NamedPolicy.policy (fun _ => True) (fun t => t.cache.outcome? f = some o)
    (fun _ _ _ _ ht hstep => (step_effect _ hstep).outcome? ht) (fun _ _ => trivial) ho hrun

/-- Landing a row of flights one after the other is a row of events and leaves them all landed. -/
theorem Sound.landAll (h : Sound limits e keys s) {make : CacheKey τ → Except CompileError (Cached τ)}
    (hmake : s.compile = make) (row : List (CacheKey τ × FlightId))
    (hrow : ∀ x ∈ row, s.cache.FliesFor x.1 x.2) :
    row.foldl (fun s x => s.step (.land x.2 (make x.1) (s.cache.entries.length + 1))) s =
        s.after (row.map fun x => .land x.2) ∧
      ∀ x ∈ row, ((s.after (row.map fun x => .land x.2)).cache.outcome? x.2).isSome = true := by
  induction row generalizing s keys with
  | nil => exact ⟨rfl, by simp⟩
  | cons x rest ih =>
      have hfirst := hrow x (by simp)
      have hnext := h.handle (.land x.2)
      obtain ⟨landing, heffect⟩ := h.effect (.land x.2)
      have hstep := handle_land hfirst
      rw [hmake] at hstep
      obtain ⟨hrest, hlanded⟩ := ih hnext
        ((compile_congr (handle_compiler s (.land x.2)).1).trans hmake)
        (fun y hy => heffect.fliesFor (hrow y (List.mem_cons_of_mem _ hy)))
      refine ⟨?_, ?_⟩
      · rw [List.foldl_cons, ← hstep, hrest]
        rfl
      · intro y hy
        rcases List.mem_cons.mp hy with rfl | hlater
        · obtain ⟨o, ho⟩ := Option.isSome_iff_exists.mp (h.land hfirst)
          have hkept := hnext.outcome? (rest.map fun x => .land x.2) ho
          exact Option.isSome_iff_exists.mpr ⟨o, hkept⟩
        · exact hlanded y hlater

/-- To settle is to land whatever is in the air. -/
theorem Sound.settle (h : Sound limits e keys s) :
    s.settle = s.after (s.cache.inFlight.map fun x => .land x.2) ∧
      ∀ key f, s.cache.InAir key f → (s.settle.cache.outcome? f).isSome = true := by
  obtain ⟨heq, hlanded⟩ := h.landAll rfl s.cache.inFlight (by
    intro x hx
    exact ((h.honest.airborne.mem_iff x.1 x.2).mp hx).fliesFor)
  have hsettle : s.settle = s.after (s.cache.inFlight.map fun x => .land x.2) := heq
  refine ⟨hsettle, ?_⟩
  intro key f hair
  rw [hsettle]
  exact hlanded (key, f) ((h.honest.airborne.mem_iff key f).mpr hair)

/-- A call of a sound service ends as soon as what is in the air lands. -/
theorem Sound.received_of_settle (h : Sound limits e keys s) {n : Nat}
    (hn : (∃ o, s.traffic.callers[n]? = some (.done o)) ∨
      ∃ key f, s.traffic.callers[n]? = some (.waiting f) ∧ s.cache.InAir key f) :
    (s.settle.received n).isSome = true := by
  obtain ⟨hsettle, hlanded⟩ := h.settle
  obtain ⟨steps, hrun, hcancel⟩ := h.run (s.cache.inFlight.map fun x => .land x.2)
  rw [← hsettle] at hrun
  have hsteps : ∀ step ∈ steps, step ≠ .cancel n := by
    intro step hmem heq
    obtain ⟨x, _, hx⟩ := List.mem_map.mp (hcancel n (heq ▸ hmem))
    cases hx
  rcases hn with ⟨o, hdone⟩ | ⟨key, f, hwaiting, hair⟩
  · have hkept : s.settle.traffic.callers[n]? = some (.done o) :=
      run_keeps NamedPolicy.policy (· ≠ .cancel n) (fun t => t.callers[n]? = some (.done o))
        (fun _ _ _ _ ht hstep => step_done _ ht hstep) hsteps hdone hrun
    rw [received_eq hkept]
    rfl
  · have hawaits : Awaits n f s.settle.traffic :=
      run_keeps NamedPolicy.policy (· ≠ .cancel n) (Awaits n f)
        (fun _ _ _ hs ht hstep => step_awaits _ hs ht hstep) hsteps (awaits_of_waiting hwaiting)
        hrun
    obtain ⟨o, ho⟩ := Option.isSome_iff_exists.mp (hlanded key f hair)
    obtain ⟨u, hstep, hdone⟩ := proceed_receives NamedPolicy.policy hawaits ho
    rw [received, Service.step, hstep, Option.getD_some, hdone]
    rfl

/-- A call that meets no other ends with the answer of a compile afresh. -/
theorem Sound.invoke (h : Sound limits e keys s) (htimeout : s.timeout = none) (key : CacheKey τ)
    (context : key.signature.Context) :
    (s.invoke key context).1 = s.compiler.answer key context := by
  let n := s.traffic.callers.length
  let events : List (Event τ) := [.fetch key, .proceed n, .proceed n]
  have hentered := h.after events
  have hsettled := hentered.after ((s.after events).cache.inFlight.map fun x => .land x.2)
  have hsettle := hentered.settle.1
  rw [← hsettle] at hsettled
  have hreceived : ((s.after events).settle.received n).isSome = true := by
    apply hentered.received_of_settle
    rcases h.enter key with hdone | ⟨f, hwaiting, hair⟩
    · exact Or.inl hdone
    · exact Or.inr ⟨key, f, hwaiting, hair⟩
  have hkey : ((keys ++ events.filterMap Event.key?) ++
      ((s.after events).cache.inFlight.map fun x => Event.land x.2).filterMap Event.key?)[n]? =
      some key := by
    have hlength : n = keys.length := h.honest.length.symm
    simp [events, Event.key?, hlength]
  have hentry := after_compiler s events
  have hlanded := after_compiler (s.after events)
    ((s.after events).cache.inFlight.map fun x => .land x.2)
  rw [← hsettle] at hlanded
  have hanswer := hsettled.answer (hlanded.2.trans (hentry.2.trans htimeout)) hkey hreceived context
  rw [hlanded.1.trans hentry.1] at hanswer
  exact hanswer

/-! ### What the cache does not depend on -/

theorem after_bare (s : Service τ) (events : List (Event τ)) :
    s.after (events.map Event.bare) = s.after events := by
  have hhandle (s : Service τ) (event : Event τ) : s.handle event.bare = s.handle event := by
    cases event <;> rfl
  induction events generalizing s with
  | nil => rfl
  | cons event more ih =>
      simp only [after, List.map_cons, List.foldl_cons, hhandle]
      exact ih (s.handle event)

/-- Events do the same to services whose compilers refuse the same, up to the runners. -/
theorem outline_handle {s u : Service τ} (h : s.compiler.RefusesLike u.compiler)
    (houtline : s.outline = u.outline) (event : Event τ) :
    (s.handle event).outline = (u.handle event).outline := by
  cases event with
  | land f =>
      have hflights : s.cache.flights = u.cache.flights := congrArg (·.cache.flights) houtline
      have hentries : s.cache.entries = u.cache.entries := congrArg (·.cache.entries) houtline
      simp only [handle, Event.step, hflights, hentries]
      cases u.cache.flights[f]? with
      | none => exact houtline
      | some fl =>
          simp only [Option.map_some, outline_step, Traffic.Step.map, compile_refuses h, houtline]
  | _ => simp only [handle, Event.step, outline_step, houtline]

theorem outline_after {s u : Service τ} (h : s.compiler.RefusesLike u.compiler)
    (houtline : s.outline = u.outline) (events : List (Event τ)) :
    (s.after events).outline = (u.after events).outline := by
  induction events generalizing s u with
  | nil => exact houtline
  | cons event more ih =>
      refine ih ?_ (outline_handle h houtline event)
      rw [(handle_compiler s event).1, (handle_compiler u event).1]
      exact h

/-- The cache is transparent, whatever types there are, in every state `s` that any events lead a new
service without a timeout to. Who asked for a key has the runner that a compile of it gives, or the
compile error, and never one that is bound to something else; an invocation that completes answers
what it would answer without a cache, and one more invocation does complete. What is cached and what
is counted depends neither on the contexts nor, for compilers that refuse the same, on the
scripts. -/
theorem transparent (compiler : Compiler τ) (limits : Limits) (e : Eviction)
    (events : List (Event τ)) :
    let s := (new compiler limits e none).after events
    (∀ i key, (events.filterMap Event.key?)[i]? = some key →
      (∀ outcome, s.runnerOf key i = some outcome →
        outcome.map Prod.snd = compiler.runner key) ∧
      (∀ error, s.runnerOf key i = some (.error error) →
        ∃ refusal, error = .compile refusal ∧
          compiler key.source key.signature = .error refusal ∧
          (compiler.NamesSource → refusal.source = key.source)) ∧
      ((s.received i).isSome = true →
        ∀ context, s.answer key context i = compiler.answer key context)) ∧
    (∀ key context, (s.invoke key context).1 = compiler.answer key context ∧
      (s.invoke key context).2 = (s.runner key).2) ∧
    (∀ others, others.map Event.bare = events.map Event.bare →
      (new compiler limits e none).after others = s) ∧
    (∀ other others, compiler.RefusesLike other →
      others.map Event.bare = events.map Event.bare →
        ((new other limits e none).after others).outline = s.outline) := by
  intro s
  have hsound : Sound limits e (events.filterMap Event.key?) s :=
    (new_sound compiler limits e none).after events
  obtain ⟨hcompiler, htimeout⟩ := after_compiler (new compiler limits e none) events
  refine ⟨?_, ?_, ?_, ?_⟩
  · intro i key hkey
    have hrunner : ∀ outcome, s.runnerOf key i = some outcome →
        outcome.map Prod.snd = compiler.runner key := by
      intro outcome houtcome
      rw [hsound.runnerOf hkey houtcome, hcompiler]
      rfl
    refine ⟨hrunner, ?_, ?_⟩
    · intro error herror
      obtain ⟨refusal, hcompile, hrefusal⟩ :=
        Compiler.exists_of_runner_error (hrunner _ herror).symm
      exact ⟨refusal, hcompile, hrefusal, fun hnames => hnames _ _ _ hrefusal⟩
    · intro hreceived context
      rw [hsound.answer htimeout hkey hreceived context, hcompiler]
      rfl
  · intro key context
    refine ⟨?_, rfl⟩
    rw [hsound.invoke htimeout key context, hcompiler]
    rfl
  · intro others hbare
    rw [← after_bare _ others, hbare, after_bare]
  · intro other others hrefuses hbare
    rw [← after_bare _ others, hbare, after_bare]
    have hnew : (new compiler limits e none).compiler.RefusesLike
        (new other limits e none).compiler := hrefuses
    exact (outline_after hnew rfl events).symm

/-- Of two overlapping invocations of one snippet the second joins the compile of the first, and
answers on its own context though the key has been removed by then. -/
theorem transparent_of_overlap :
    let compiler : Compiler AnyJson := fun _ _ => .ok fun context => .now (.ok context)
    let key : CacheKey AnyJson := ⟨"Context", ⟨.json, .json⟩⟩
    let s := (new compiler { maxEntries := some 1 } .lru none).after
      [.invoke key Json.null, .proceed 0, .proceed 0, .invoke key (Json.bool true), .proceed 1,
        .proceed 1, .land 0, .remove key]
    (s.received 1).isSome = true ∧
      s.answer key (Json.bool true) 1 = .now (.ok (Json.bool true)) := by
  intro compiler key s
  have hreceived : (s.received 1).isSome = true := by decide +kernel
  have hcaller := (transparent compiler { maxEntries := some 1 } .lru
    [.invoke key Json.null, .proceed 0, .proceed 0, .invoke key (Json.bool true), .proceed 1,
      .proceed 1, .land 0, .remove key]).1 1 key rfl
  have hanswer : compiler.answer key (Json.bool true) = .now (.ok (Json.bool true)) := rfl
  exact ⟨hreceived, (hcaller.2.2 hreceived (Json.bool true)).trans hanswer⟩

end Service

end Scriptlet
