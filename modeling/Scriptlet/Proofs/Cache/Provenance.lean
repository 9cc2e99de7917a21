import Scriptlet.Proofs.Cache.Flights

/-!
Where what a cache hands out comes from. If every landing brings what a function makes of its key,
then every entry and every outcome under a key is what the function makes of that key, and so is
what a caller who asked for the key has received.
-/

namespace Scriptlet

namespace Cache

variable {κ α ε σ : Type} {make : κ → Except ε α}

/-- An outcome that is what a function makes of a key. -/
def Gives (c : Cache κ α ε σ) (make : κ → Except ε α) (key : κ) : Except ε EntryId → Prop
  | .error e => make key = .error e
  | .ok id => ∃ payload, c.payload? id = some payload ∧ make key = .ok payload

/-- The flight was started for the key, whether or not it has landed. -/
def FliesFor (c : Cache κ α ε σ) (key : κ) (flight : FlightId) : Prop :=
  ∃ fl, c.flights[flight]? = some fl ∧ fl.key = key

theorem InAir.fliesFor {c : Cache κ α ε σ} {key : κ} {flight : FlightId}
    (h : c.InAir key flight) : c.FliesFor key flight :=
  ⟨_, h, rfl⟩

theorem FliesFor.eq_of_inAir {c : Cache κ α ε σ} {key key' : κ} {flight : FlightId}
    (h : c.FliesFor key flight) (hair : c.InAir key' flight) : key' = key := by
  obtain ⟨fl, hfl, rfl⟩ := h
  rw [InAir, hfl] at hair
  rw [Option.some.inj hair]

/-- What a flight brought from an honest compile is what the function makes. -/
theorem Brought.gives {c : Cache κ α ε σ} {key : κ} {f : FlightId}
    (h : c.Brought f (make key)) {o : Except ε EntryId} (ho : c.outcome? f = some o) :
    c.Gives make key o := by
  cases hmake : make key with
  | error e =>
      rw [hmake, Brought, ho] at h
      obtain rfl := Option.some.inj h
      exact hmake
  | ok payload =>
      rw [hmake] at h
      obtain ⟨id, hid, hpayload⟩ := h
      rw [ho] at hid
      obtain rfl := Option.some.inj hid
      exact ⟨payload, hpayload, hmake⟩

variable [DecidableEq κ] {landing : Option (FlightId × Except ε α)}

/-- A flight stays the flight of its key. -/
theorem Effect.fliesFor {p : Policy κ σ} {c d : Cache κ α ε σ} (h : Effect p c landing d)
    {key : κ} {f : FlightId} (hf : c.FliesFor key f) : d.FliesFor key f := by
  rcases h.flight_cases f with hsame | ⟨_, _, _, hnone, _⟩ | ⟨k, _, _, hair, hlanded⟩ |
    ⟨k, _, _, _, _, _, hair, _, _, hlanded⟩
  · rw [FliesFor, hsame]
    exact hf
  · obtain ⟨fl, hfl, _⟩ := hf
    rw [hnone] at hfl
    cases hfl
  · exact ⟨_, hlanded, hf.eq_of_inAir hair⟩
  · exact ⟨_, hlanded, hf.eq_of_inAir hair⟩

theorem Effect.gives {p : Policy κ σ} {c d : Cache κ α ε σ} (h : Effect p c landing d) {key : κ}
    {o : Except ε EntryId} (ho : c.Gives make key o) : d.Gives make key o := by
  cases o with
  | error e => exact ho
  | ok id =>
      obtain ⟨payload, hid, hmake⟩ := ho
      exact ⟨payload, h.payload? hid, hmake⟩

end Cache

namespace Traffic

open Cache

variable {κ α ε σ : Type} {make : κ → Except ε α} [DecidableEq κ]

/-- Every landing brings what the function makes of the key of its flight. -/
def Step.Honest (make : κ → Except ε α) (t : Traffic κ α ε σ) (s : Step κ α ε) : Prop :=
  ∀ f made, s.landing = some (f, made) → ∀ key, t.cache.InAir key f → made = make key

/-- What a caller who asked for the key is after, or what it has received. -/
def After (make : κ → Except ε α) (c : Cache κ α ε σ) (key : κ) : Caller κ ε → Prop
  | .looking k | .deciding k => k = key
  | .waiting f => c.FliesFor key f
  | .done o => c.Gives make key o
  | .cancelled => True

/-- Everything under a key is what the function makes of it: entries, outcomes of flights, and what
the callers receive, who asked for the keys in their order. -/
structure Honest (make : κ → Except ε α) (keys : List κ) (t : Traffic κ α ε σ) : Prop where
  airborne : Airborne t.cache
  entries : ∀ x ∈ t.cache.entries, t.cache.Gives make x.1 (.ok x.2)
  landed : ∀ (key : κ) (f : FlightId) (o : Except ε EntryId),
    t.cache.flights[f]? = some { key, outcome := some o } → t.cache.Gives make key o
  length : keys.length = t.callers.length
  callers : ∀ (i : Nat) (key : κ), keys[i]? = some key →
    ∃ x, t.callers[i]? = some x ∧ After make t.cache key x

variable {keys : List κ} {landing : Option (FlightId × Except ε α)}

theorem After.mono {p : Policy κ σ} {c d : Cache κ α ε σ} (h : Effect p c landing d) {key : κ}
    {x : Caller κ ε} (hx : After make c key x) : After make d key x := by
  cases x with
  | looking k => exact hx
  | deciding k => exact hx
  | waiting f => exact h.fliesFor hx
  | done o => exact h.gives hx
  | cancelled => trivial

omit [DecidableEq κ] in
theorem After.giveUp {c : Cache κ α ε σ} {key : κ} {x : Caller κ ε} (hx : After make c key x) :
    After make c key (giveUp x) := by
  cases x with
  | done o => exact hx
  | looking _ | deciding _ | waiting _ | cancelled => trivial

/-- A caller who is served has an entry of the map. -/
theorem Honest.gives_of_live {t : Traffic κ α ε σ} (ht : Honest make keys t) {key : κ}
    {id : EntryId} (hlive : t.cache.live? key = some id) : t.cache.Gives make key (.ok id) := by
  have hlookup := (Option.filter_eq_some_iff.mp hlive).1
  obtain ⟨before, after, heq, _⟩ := List.lookup_eq_some_iff.mp hlookup
  exact ht.entries (key, id) (by simp [heq])

/-- What a caller receives is what the function makes of the key that it asked for. -/
theorem Honest.receives {t : Traffic κ α ε σ} (ht : Honest make keys t) {d : Cache κ α ε σ}
    {key : κ} {x : Caller κ ε} {o : Except ε EntryId} (hx : After make t.cache key x)
    (hmove : Move t.cache d x (.done o)) : t.cache.Gives make key o := by
  cases hmove with
  | rests => exact hx
  | @isServed k id hlive _ hx' =>
      have hkey : k = key := by
        rcases hx' with rfl | rfl <;> exact hx
      exact hkey ▸ ht.gives_of_live hlive
  | @receives f _ ho _ =>
      obtain ⟨fl, hfl, rfl⟩ := hx
      rw [outcome?, hfl, Option.bind_some] at ho
      have hlanded : t.cache.flights[f]? = some { key := fl.key, outcome := some o } := by
        rw [hfl, ← ho]
      exact ht.landed _ f o hlanded

theorem Honest.move {p : Policy κ σ} {t : Traffic κ α ε σ} (ht : Honest make keys t)
    {d : Cache κ α ε σ} (h : Effect p t.cache landing d) {key : κ} {x y : Caller κ ε}
    (hx : After make t.cache key x) (hmove : Move t.cache d x y) : After make d key y := by
  cases hmove with
  | rests => exact hx.mono h
  | misses _ => exact hx
  | isServed hlive hx' =>
      have hserved : Move t.cache d x (.done (.ok _)) := .isServed hlive hx'
      exact h.gives (ht.receives hx hserved)
  | joins _ hair _ =>
      obtain rfl := hx
      exact h.fliesFor (ht.airborne.lookup_eq_some_iff.mp hair).fliesFor
  | @starts k _ _ hd =>
      rw [hd]
      exact ⟨{ key := k }, by simp [depart], hx⟩
  | receives ho hd =>
      have hreceived : Move t.cache d (.waiting _) (.done _) := .receives ho hd
      exact h.gives (ht.receives hx hreceived)

theorem Honest.step {p : Policy κ σ} {t u : Traffic κ α ε σ} {s : Step κ α ε}
    (ht : Honest make keys t) (hs : s.Honest make t) (h : t.step p s = some u) :
    Honest make (keys ++ s.asks) u := by
  have heffect := step_effect p h
  have hlanded : ∀ (key : κ) (f : FlightId) (o : Except ε EntryId),
      u.cache.flights[f]? = some { key, outcome := some o } → u.cache.Gives make key o := by
    intro key f o hf
    rcases heffect.landed hf with hold | ⟨hair, made, hlanding, hbrought⟩
    · exact heffect.gives (ht.landed key f o hold)
    · obtain rfl := hs f made hlanding key hair
      refine hbrought.gives ?_
      rw [outcome?, hf]
      rfl
  refine ⟨heffect.airborne ht.airborne, ?_, hlanded, ?_, ?_⟩
  · intro x hx
    rcases heffect.mem_entries hx with hold | ⟨f, _, hf⟩
    · exact heffect.gives (ht.entries x hold)
    · exact hlanded x.1 f _ hf
  · rcases step_callers p h with ⟨k, rfl, rfl⟩ | ⟨j, x, rfl, _, rfl⟩ | ⟨j, rfl, rfl⟩ | ⟨hasks, hsame⟩
    · simp [Step.asks, ht.length]
    · simp [Step.asks, ht.length]
    · simp [Step.asks, ht.length]
    · simp [hasks, hsame, ht.length]
  · intro i key hkey
    by_cases hi : i < keys.length
    · rw [List.getElem?_append_left hi] at hkey
      obtain ⟨x, hx, hafter⟩ := ht.callers i key hkey
      obtain ⟨y, hy, hmove | ⟨_, hcache, rfl⟩⟩ := step_move p h hx
      · exact ⟨y, hy, ht.move heffect hafter hmove⟩
      · exact ⟨_, hy, (hcache ▸ hafter).giveUp⟩
    · -- The caller is the new one.
      rcases step_callers p h with ⟨k, rfl, rfl⟩ | ⟨j, x, rfl, _, _⟩ | ⟨j, rfl, _⟩ | ⟨hasks, _⟩
      · rw [List.getElem?_append_right (Nat.le_of_not_lt hi), Step.asks,
          List.getElem?_singleton] at hkey
        split at hkey
        · next hzero =>
            obtain rfl := Option.some.inj hkey
            have hlast : i = t.callers.length := by
              have hlength := ht.length
              omega
            exact ⟨.looking k, by simp [hlast], rfl⟩
        · cases hkey
      · simp [Step.asks, hi] at hkey
      · simp [Step.asks, hi] at hkey
      · simp [hasks, hi] at hkey

end Traffic

end Scriptlet
