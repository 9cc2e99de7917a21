import Scriptlet.Proofs.Cache.Effect

/-!
Flights. The map of flights holds exactly the compiles in the air, one for a key at most. A
flight lands once and with what the compiler made: with the error, or with an entry that holds
the payload. What it landed with does not change any more, and neither does what an entry holds.
-/

namespace Scriptlet

namespace Cache

variable {κ α ε σ : Type}

/-- The map of flights is a map, and holds exactly the compiles in the air. -/
structure Airborne (c : Cache κ α ε σ) : Prop where
  nodup : (c.inFlight.map (·.1)).Nodup
  mem_iff : ∀ key flight, (key, flight) ∈ c.inFlight ↔ c.InAir key flight

/-- The flight was started for the key and has landed with an entry. -/
def Succeeded (c : Cache κ α ε σ) (key : κ) (flight : FlightId) : Prop :=
  ∃ id, c.flights[flight]? = some { key, outcome := some (.ok id) }

/-- What was compiled for an entry. -/
def payload? (c : Cache κ α ε σ) (id : EntryId) : Option α :=
  c.made[id]?.map (·.payload)

/-- The flight has landed with what the compiler made: with its error, or with an entry that
holds its payload. -/
def Brought (c : Cache κ α ε σ) (flight : FlightId) : Except ε α → Prop
  | .error e => c.outcome? flight = some (.error e)
  | .ok payload => ∃ id, c.outcome? flight = some (.ok id) ∧ c.payload? id = some payload

theorem payload?_eq_births (c : Cache κ α ε σ) (id : EntryId) :
    c.payload? id = c.births[id]?.map (·.1) := by
  simp only [payload?, births, List.getElem?_map, Option.map_map]
  rfl

theorem InAir.outcome?_eq_none {c : Cache κ α ε σ} {key : κ} {flight : FlightId}
    (h : c.InAir key flight) : c.outcome? flight = none := by
  simp only [outcome?, InAir] at h ⊢
  rw [h]
  rfl

theorem InAir.lt {c : Cache κ α ε σ} {key : κ} {flight : FlightId}
    (h : c.InAir key flight) : flight < c.flights.length :=
  (List.getElem?_eq_some_iff.mp h).1

theorem Airborne.congr {c d : Cache κ α ε σ} (hc : Airborne c)
    (hflights : d.flights = c.flights) (hinFlight : d.inFlight = c.inFlight) : Airborne d := by
  constructor
  · rw [hinFlight]
    exact hc.nodup
  · intro key flight
    rw [hinFlight, hc.mem_iff, InAir, InAir, hflights]

variable [DecidableEq κ] {landing : Option (FlightId × Except ε α)}

theorem Airborne.lookup_eq_some_iff {c : Cache κ α ε σ} (hc : Airborne c) {key : κ}
    {flight : FlightId} : c.inFlight.lookup key = some flight ↔ c.InAir key flight :=
  (lookup_eq_some_iff_mem hc.nodup).trans (hc.mem_iff key flight)

/-- Two compiles of one key in the air are one. -/
theorem Airborne.unique {c : Cache κ α ε σ} (hc : Airborne c) {key : κ}
    {f g : FlightId} (hf : c.InAir key f) (hg : c.InAir key g) : f = g := by
  have hlookup : c.inFlight.lookup key = some f := hc.lookup_eq_some_iff.mpr hf
  rw [hc.lookup_eq_some_iff.mpr hg] at hlookup
  exact (Option.some.inj hlookup).symm

theorem depart_airborne {c : Cache κ α ε σ} (hc : Airborne c) {key : κ}
    (hfree : c.inFlight.lookup key = none) : Airborne (c.depart key) := by
  have hfresh : key ∉ c.inFlight.map (·.1) := lookup_eq_none_iff_not_mem.mp hfree
  constructor
  · simp only [depart, List.map_append, List.map_cons, List.map_nil]
    exact List.nodup_append.mpr ⟨hc.nodup, by simp, by
      intro k hk k' hk' heq
      rw [List.mem_singleton] at hk'
      exact hfresh (hk' ▸ heq ▸ hk)⟩
  · intro k f
    simp only [depart, InAir, List.mem_append, List.mem_singleton, Prod.mk.injEq, hc.mem_iff]
    rcases Nat.lt_trichotomy f c.flights.length with hlt | rfl | hgt
    · have hne : f ≠ c.flights.length := Nat.ne_of_lt hlt
      rw [List.getElem?_append_left hlt]
      simp [hne]
    · simp [eq_comm]
    · have hne : f ≠ c.flights.length := Nat.ne_of_gt hgt
      have hbeyond : (c.flights ++ [({ key } : Flight κ ε)])[f]? = none :=
        List.getElem?_eq_none (List.length_append ▸ hgt)
      have hbefore : c.flights[f]? = none := List.getElem?_eq_none (Nat.le_of_lt hgt)
      simp [hbeyond, hbefore, hne]

theorem retire_airborne {c : Cache κ α ε σ} (hc : Airborne c) {key : κ}
    {flight : FlightId} (hair : c.InAir key flight) (o : Except ε EntryId) :
    Airborne (retire flight key o c) := by
  constructor
  · exact hc.nodup.sublist (List.filter_sublist.map _)
  · intro k f
    simp only [retire, mem_without, hc.mem_iff]
    constructor
    · rintro ⟨hkf, hk⟩
      have hne : flight ≠ f := by
        rintro rfl
        rw [InAir, hkf] at hair
        exact hk (congrArg Flight.key (Option.some.inj hair))
      rw [InAir, List.getElem?_modify_ne _ _ hne]
      exact hkf
    · intro hkf
      by_cases hne : flight = f
      · subst hne
        simp [InAir, hair.lt] at hkf
      · rw [InAir, List.getElem?_modify_ne _ _ hne] at hkf
        refine ⟨hkf, ?_⟩
        rintro rfl
        exact hne (hc.unique hair hkf)

theorem Effect.airborne {p : Policy κ σ} {c d : Cache κ α ε σ} (h : Effect p c landing d)
    (hc : Airborne c) : Airborne d := by
  cases h with
  | drops h => exact hc.congr h.flights h.inFlight
  | waits time => exact hc.congr rfl rfl
  | starts _ hfree => exact depart_airborne hc hfree
  | fails e counters hair =>
      have hcounted : Airborne { c with counters } := hc.congr rfl rfl
      exact retire_airborne hcounted hair (.error e)
  | lands hair h =>
      have hframe := insert_inserts p h
      have hput : Airborne _ := hc.congr hframe.flights hframe.inFlight
      refine retire_airborne hput ?_ _
      rw [InAir, hframe.flights]
      exact hair

/-- A flight of a retired cache is the one that landed or was there before. -/
theorem retire_getElem? {c : Cache κ α ε σ} {key : κ} {flight f : FlightId}
    (hair : c.InAir key flight) (o : Except ε EntryId) :
    (retire flight key o c).flights[f]? =
      if flight = f then some { key, outcome := some o } else c.flights[f]? := by
  by_cases hne : flight = f
  · subst hne
    rw [InAir] at hair
    simp [retire, hair]
  · simp only [retire, List.getElem?_modify_ne _ _ hne, if_neg hne]

theorem retire_outcome? {c : Cache κ α ε σ} {key : κ} {flight : FlightId}
    (hair : c.InAir key flight) (o : Except ε EntryId) :
    (retire flight key o c).outcome? flight = some o := by
  rw [outcome?, retire_getElem? hair, if_pos rfl]
  rfl

/-- Entries are made, and what they hold does not change again. -/
theorem Effect.births {p : Policy κ σ} {c d : Cache κ α ε σ} (h : Effect p c landing d) :
    ∃ more, d.births = c.births ++ more := by
  cases h with
  | drops h => exact ⟨[], by simp [h.births]⟩
  | waits time => exact ⟨[], by simp [Cache.births, wait]⟩
  | starts _ _ => exact ⟨[], by simp [Cache.births, depart]⟩
  | fails e counters hair => exact ⟨[], by simp [Cache.births, retire]⟩
  | lands hair h => exact ⟨_, (insert_inserts p h).births⟩

theorem Effect.payload? {p : Policy κ σ} {c d : Cache κ α ε σ} (h : Effect p c landing d)
    {id : EntryId} {payload : α} (hid : c.payload? id = some payload) :
    d.payload? id = some payload := by
  obtain ⟨more, hmore⟩ := h.births
  rw [payload?_eq_births] at hid ⊢
  obtain ⟨b, hb, rfl⟩ := Option.map_eq_some_iff.mp hid
  have hlt := (List.getElem?_eq_some_iff.mp hb).1
  rw [hmore, List.getElem?_append_left hlt, hb]
  rfl

/-- What an insertion made is the payload of the entry that it put in. -/
theorem Inserts.payload? {key : κ} {payload : α} {c d : Cache κ α ε σ}
    (h : Inserts key payload c d) : d.payload? c.made.length = some payload := by
  rw [payload?_eq_births, h.births, ← length_births]
  simp

theorem Inserts.inAir_iff {key k : κ} {payload : α} {c d : Cache κ α ε σ} {f : FlightId}
    (h : Inserts key payload c d) : d.InAir k f ↔ c.InAir k f := by
  rw [InAir, InAir, h.flights]

/-- A flight after a step is the one from before, unless it has just been started or has just
landed with an error or with an entry. -/
theorem Effect.flight_cases {p : Policy κ σ} {c d : Cache κ α ε σ} (h : Effect p c landing d)
    (f : FlightId) :
    d.flights[f]? = c.flights[f]? ∨
    (∃ key, c.live? key = none ∧ d = c.depart key ∧ c.flights[f]? = none ∧ d.InAir key f) ∨
    (∃ key e, landing = some (f, .error e) ∧ c.InAir key f ∧
      d.flights[f]? = some { key, outcome := some (.error e) }) ∨
    (∃ key payload rounds counters e, landing = some (f, .ok payload) ∧ c.InAir key f ∧
      insert p rounds key payload { c with counters } = some e ∧
      d = retire f key (.ok c.made.length) e ∧
      d.flights[f]? = some { key, outcome := some (.ok c.made.length) }) := by
  cases h with
  | drops h => exact Or.inl (by rw [h.flights])
  | waits time => exact Or.inl rfl
  | @starts key hlive hfree =>
      rcases Nat.lt_trichotomy f c.flights.length with hlt | rfl | hgt
      · exact Or.inl (List.getElem?_append_left hlt)
      · exact Or.inr (Or.inl ⟨key, hlive, rfl, by simp, by simp [InAir, depart]⟩)
      · left
        rw [depart, List.getElem?_eq_none (Nat.le_of_lt hgt)]
        exact List.getElem?_eq_none (List.length_append ▸ hgt)
  | @fails key flight e counters hair =>
      have hair' : ({ c with counters } : Cache κ α ε σ).InAir key flight := hair
      rw [retire_getElem? hair']
      by_cases hne : flight = f
      · subst hne
        exact Or.inr (Or.inr (Or.inl ⟨key, e, rfl, hair, if_pos rfl⟩))
      · exact Or.inl (if_neg hne)
  | @lands key flight payload rounds counters e hair h =>
      have hframe := insert_inserts p h
      rw [retire_getElem? (hframe.inAir_iff.mpr hair)]
      by_cases hne : flight = f
      · subst hne
        exact Or.inr (Or.inr (Or.inr
          ⟨key, payload, rounds, counters, e, rfl, hair, h, rfl, if_pos rfl⟩))
      · exact Or.inl ((if_neg hne).trans (by rw [hframe.flights]))

/-- What a flight has landed with does not change again. -/
theorem Effect.outcome? {p : Policy κ σ} {c d : Cache κ α ε σ} (h : Effect p c landing d)
    {f : FlightId} {o : Except ε EntryId} (ho : c.outcome? f = some o) :
    d.outcome? f = some o := by
  rcases h.flight_cases f with hsame | ⟨_, _, _, hnone, _⟩ | ⟨key, _, _, hair, _⟩ |
    ⟨key, _, _, _, _, _, hair, _⟩
  · rw [Cache.outcome?, hsame]
    exact ho
  · rw [Cache.outcome?, hnone] at ho
    cases ho
  · rw [hair.outcome?_eq_none] at ho
    cases ho
  · rw [hair.outcome?_eq_none] at ho
    cases ho

theorem Effect.brought {p : Policy κ σ} {c d : Cache κ α ε σ} (h : Effect p c landing d)
    {flight : FlightId} {made : Except ε α} (hmade : c.Brought flight made) :
    d.Brought flight made := by
  cases made with
  | error e => exact h.outcome? hmade
  | ok payload =>
      obtain ⟨id, ho, hid⟩ := hmade
      exact ⟨id, h.outcome? ho, h.payload? hid⟩

/-- What is in the air after a step was there before or has just been started. -/
theorem Effect.inAir {p : Policy κ σ} {c d : Cache κ α ε σ} (h : Effect p c landing d) {key : κ}
    {f : FlightId} (hf : d.InAir key f) : c.InAir key f ∨ c.live? key = none ∧ d = c.depart key := by
  rcases h.flight_cases f with hsame | ⟨k, hlive, hd, _, hair⟩ | ⟨_, _, _, _, hlanded⟩ |
    ⟨_, _, _, _, _, _, _, _, _, hlanded⟩
  · exact Or.inl (hsame.symm.trans hf)
  · rw [InAir, hair] at hf
    obtain rfl : k = key := congrArg Flight.key (Option.some.inj hf)
    exact Or.inr ⟨hlive, hd⟩
  · rw [InAir, hlanded] at hf
    cases hf
  · rw [InAir, hlanded] at hf
    cases hf

/-- What has landed after a step had before, or the step has landed it with what was brought. -/
theorem Effect.landed {p : Policy κ σ} {c d : Cache κ α ε σ} (h : Effect p c landing d) {key : κ}
    {f : FlightId} {o : Except ε EntryId}
    (hf : d.flights[f]? = some { key, outcome := some o }) :
    c.flights[f]? = some { key, outcome := some o } ∨
      c.InAir key f ∧ ∃ made, landing = some (f, made) ∧ d.Brought f made := by
  rcases h.flight_cases f with hsame | ⟨_, _, _, _, hair⟩ | ⟨k, e, hlanding, hair, hlanded⟩ |
    ⟨k, payload, _, _, e, hlanding, hair, hinsert, rfl, hlanded⟩
  · exact Or.inl (hsame.symm.trans hf)
  · rw [InAir, hf] at hair
    cases hair
  · obtain rfl : k = key := congrArg Flight.key (Option.some.inj (hlanded.symm.trans hf))
    refine Or.inr ⟨hair, _, hlanding, ?_⟩
    rw [Brought, Cache.outcome?, hlanded]
    rfl
  · obtain rfl : k = key := congrArg Flight.key (Option.some.inj (hlanded.symm.trans hf))
    refine Or.inr ⟨hair, _, hlanding, c.made.length, ?_, (insert_inserts p hinsert).payload?⟩
    rw [Cache.outcome?, hlanded]
    rfl

/-- What has succeeded after a step had before or has just landed. -/
theorem Effect.succeeded {p : Policy κ σ} {c d : Cache κ α ε σ} (h : Effect p c landing d)
    {key : κ} {f : FlightId} (hf : d.Succeeded key f) :
    c.Succeeded key f ∨ c.InAir key f ∧ ∃ rounds payload counters e,
      insert p rounds key payload { c with counters } = some e ∧ d.entries = e.entries := by
  obtain ⟨id, hid⟩ := hf
  rcases h.flight_cases f with hsame | ⟨_, _, _, _, hair⟩ | ⟨_, _, _, _, hlanded⟩ |
    ⟨k, payload, rounds, counters, e, _, hair, hinsert, rfl, hlanded⟩
  · exact Or.inl ⟨id, hsame.symm.trans hid⟩
  · rw [InAir, hid] at hair
    cases hair
  · rw [hlanded] at hid
    cases hid
  · obtain rfl : k = key := congrArg Flight.key (Option.some.inj (hlanded.symm.trans hid))
    exact Or.inr ⟨hair, rounds, payload, counters, e, hinsert, rfl⟩

/-- A flight in the air lands with what the compiler made of its key. -/
theorem landWithin_brought (p : Policy κ σ) {rounds : Nat} {key : κ} {flight : FlightId}
    {made : Except ε α} {c d : Cache κ α ε σ} (hair : c.InAir key flight)
    (h : c.landWithin p rounds flight made = some d) : d.Brought flight made := by
  rcases landWithin_cases p h with ⟨hnot, _⟩ | ⟨k, e, hk, rfl, rfl⟩ |
    ⟨k, payload, e, hk, rfl, hinsert, rfl⟩
  · exact absurd hair (hnot key)
  · have hk' : ({ c with counters := _ } : Cache κ α ε σ).InAir k flight := hk
    exact retire_outcome? hk' _
  · have hframe := insert_inserts p hinsert
    exact ⟨_, retire_outcome? (hframe.inAir_iff.mpr hk) _, hframe.payload?⟩

/-- What is in the map after a step was there before or is what a flight has just brought. -/
theorem Effect.mem_entries {p : Policy κ σ} {c d : Cache κ α ε σ} (h : Effect p c landing d)
    {x : κ × EntryId} (hx : x ∈ d.entries) :
    x ∈ c.entries ∨ ∃ f, c.InAir x.1 f ∧
      d.flights[f]? = some { key := x.1, outcome := some (.ok x.2) } := by
  cases h with
  | drops h => exact Or.inl (h.entries.subset hx)
  | waits time => exact Or.inl hx
  | starts hlive hfree => exact Or.inl hx
  | fails e counters hair => exact Or.inl hx
  | @lands k flight payload rounds counters e hair h =>
      have hframe := insert_inserts p h
      rcases hframe.mem_entries hx with hold | rfl
      · exact Or.inl hold
      · right
        refine ⟨flight, hair, ?_⟩
        rw [retire_getElem? (hframe.inAir_iff.mpr hair), if_pos rfl, length_births]

end Cache

namespace Traffic

open Cache

theorem start_airborne {κ α ε σ : Type} (limits : Limits) (tracking : σ) :
    Airborne (start limits tracking : Traffic κ α ε σ).cache :=
  ⟨List.nodup_nil, by simp [start, InAir]⟩

end Traffic

end Scriptlet
