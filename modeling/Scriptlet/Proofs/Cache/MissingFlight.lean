import Scriptlet.Proofs.Cache.Board
import Scriptlet.Proofs.Cache.ExtraPurges

/-!
A cache and the same cache without one of its flights. The flights behind it move up by one, what
is off the board is the same, and what was counted of the flight is missing. Whatever else happens
to a cache happens to the other in the same way.
-/

namespace Scriptlet

/-! ### Moving up -/

/-- The number of a flight once flight `f` is taken out of the row. -/
def renumber (f g : Nat) : Nat :=
  if f < g then g - 1 else g

theorem exists_renumber (f g' : Nat) : ∃ g, g ≠ f ∧ renumber f g = g' := by
  rcases Nat.lt_or_ge g' f with hlt | hge
  · exact ⟨g', Nat.ne_of_lt hlt, if_neg (Nat.lt_asymm hlt)⟩
  · exact ⟨g' + 1, by omega, if_pos (Nat.lt_succ_of_le hge)⟩

theorem getElem?_eraseIdx_renumber {β : Type} (row : List β) {f g : Nat} (hne : g ≠ f) :
    (row.eraseIdx f)[renumber f g]? = row[g]? := by
  rw [List.getElem?_eraseIdx, renumber]
  by_cases hlt : f < g
  · have hback : g - 1 + 1 = g := by omega
    rw [if_pos hlt, if_neg (by omega), hback]
  · rw [if_neg hlt, if_pos (by omega)]

theorem eraseIdx_modify_renumber {β : Type} (row : List β) (change : β → β) {f g : Nat}
    (hne : g ≠ f) :
    (row.modify g change).eraseIdx f = (row.eraseIdx f).modify (renumber f g) change := by
  apply List.ext_getElem?
  intro i
  obtain ⟨j, hj, rfl⟩ := exists_renumber f i
  rw [getElem?_eraseIdx_renumber _ hj, List.getElem?_modify, List.getElem?_modify,
    getElem?_eraseIdx_renumber _ hj]
  have hsame : renumber f g = renumber f j ↔ g = j := by
    unfold renumber
    split <;> split <;> omega
  simp only [hsame]

theorem eraseIdx_modify_self {β : Type} (row : List β) (change : β → β) (f : Nat) :
    (row.modify f change).eraseIdx f = row.eraseIdx f := by
  apply List.ext_getElem?
  intro i
  obtain ⟨j, hj, rfl⟩ := exists_renumber f i
  rw [getElem?_eraseIdx_renumber _ hj, getElem?_eraseIdx_renumber _ hj,
    List.getElem?_modify_ne _ _ (Ne.symm hj)]

theorem length_eraseIdx_renumber {β : Type} (row : List β) (f : Nat) :
    (row.eraseIdx f).length = renumber f row.length := by
  rw [List.length_eraseIdx]
  rfl

theorem eraseIdx_concat {β : Type} {row : List β} {f : Nat} (hne : row.length ≠ f) (x : β) :
    (row ++ [x]).eraseIdx f = row.eraseIdx f ++ [x] := by
  rcases Nat.lt_or_ge f row.length with hlt | hge
  · exact List.eraseIdx_append_of_lt_length hlt [x]
  · rw [List.eraseIdx_of_length_le (by simp; omega), List.eraseIdx_of_length_le hge]

def Decision.renumber (f : FlightId) : Decision → Decision
  | .hit id => .hit id
  | .joined g => .joined (Scriptlet.renumber f g)
  | .started g => .started (Scriptlet.renumber f g)

/-- The flight that a decision boards. -/
def Decision.flight? : Decision → Option FlightId
  | .hit _ => none
  | .joined g | .started g => some g

/-- What becomes of a caller with a decision. -/
def Decision.caller {κ ε : Type} : Decision → Caller κ ε
  | .hit id => .done (.ok id)
  | .joined g | .started g => .waiting g

def Caller.renumber {κ ε : Type} (f : FlightId) : Caller κ ε → Caller κ ε
  | .waiting g => .waiting (Scriptlet.renumber f g)
  | caller => caller

/-! ### The caches with and without a flight -/

namespace Cache

variable {κ α ε σ : Type}

/-- One if the flight has been started. -/
def countStart (f : FlightId) (c : Cache κ α ε σ) : Nat :=
  if f < c.flights.length then 1 else 0

/-- One if the flight has landed. -/
def countLanding (f : FlightId) (c : Cache κ α ε σ) : Nat :=
  (c.outcome? f).elim 0 fun _ => 1

/-- The cache after a compile has failed and was counted. -/
def countFailure (c : Cache κ α ε σ) : Cache κ α ε σ :=
  { c with counters := { c.counters with compileFailures := c.counters.compileFailures + 1 } }

/-- `d` is `c` without its flight `f`, which so many passengers have boarded. -/
structure Lacks (f : FlightId) (passengers : Nat) (c d : Cache κ α ε σ) : Prop where
  offBoard : SameOffBoard c d
  flights : d.flights = c.flights.eraseIdx f
  misses : c.counters.misses = d.counters.misses + c.countStart f
  coalesced : ∃ joins, c.counters.coalesced = d.counters.coalesced + joins ∧
    passengers = joins + c.countStart f
  compileFailures : c.counters.compileFailures = d.counters.compileFailures + c.countLanding f

variable {f g : FlightId} {passengers : Nat} {c d : Cache κ α ε σ} {key : κ}

theorem Lacks.exists_board (h : Lacks f passengers c d) : ∃ b, d = c.withBoard b :=
  ⟨_, h.offBoard⟩

theorem Lacks.inAir_iff (h : Lacks f passengers c d) (hne : g ≠ f) :
    d.InAir key (renumber f g) ↔ c.InAir key g := by
  rw [InAir, h.flights, getElem?_eraseIdx_renumber _ hne]
  rfl

theorem Lacks.outcome? (h : Lacks f passengers c d) (hne : g ≠ f) :
    d.outcome? (renumber f g) = c.outcome? g := by
  rw [Cache.outcome?, Cache.outcome?, h.flights, getElem?_eraseIdx_renumber _ hne]

/-- Only the boards count, and that there is nothing else between the two. -/
theorem Lacks.congr {c' d' : Cache κ α ε σ} (h : Lacks f passengers c d)
    (hc : c'.board = c.board) (hd : d' = c'.withBoard d.board) : Lacks f passengers c' d' := by
  subst hd
  simp only [board, Board.mk.injEq] at hc
  obtain ⟨hflights, -, hmisses, hcoalesced, hfailures⟩ := hc
  have hstart : c'.countStart f = c.countStart f := by rw [countStart, hflights, countStart]
  have hlanding : c'.countLanding f = c.countLanding f := by
    rw [countLanding, Cache.outcome?, hflights]
    rfl
  refine ⟨rfl, ?_, ?_, ?_, ?_⟩
  · rw [hflights]
    exact h.flights
  · rw [hmisses, hstart]
    exact h.misses
  · rw [hcoalesced, hstart]
    exact h.coalesced
  · rw [hfailures, hlanding]
    exact h.compileFailures

theorem Lacks.map (op : Cache κ α ε σ → Cache κ α ε σ)
    (hop : ∀ b c, op (c.withBoard b) = (op c).withBoard b) (h : Lacks f passengers c d) :
    Lacks f passengers (op c) (op d) := by
  refine h.congr (board_of_withBoard hop c) ?_
  rw [← hop, ← h.offBoard]

theorem Lacks.coalesce (h : Lacks f passengers c d) : Lacks f passengers c.coalesce d.coalesce := by
  obtain ⟨joins, hcoalesced, hpassengers⟩ := h.coalesced
  obtain ⟨b, hb⟩ := h.exists_board
  refine ⟨?_, h.flights, h.misses, ⟨joins, ?_, hpassengers⟩, h.compileFailures⟩
  · rw [hb]
    rfl
  · simp only [Cache.coalesce, hcoalesced]
    omega

/-- One more passenger joins. -/
theorem Lacks.join (h : Lacks f passengers c d) : Lacks f (passengers + 1) c.coalesce d := by
  obtain ⟨joins, hcoalesced, hpassengers⟩ := h.coalesced
  refine ⟨h.offBoard, h.flights, h.misses, ⟨joins + 1, ?_, ?_⟩, h.compileFailures⟩
  · simp only [Cache.coalesce, hcoalesced]
    omega
  · have hstart : c.coalesce.countStart f = c.countStart f := rfl
    omega

theorem countLanding_depart (f : FlightId) (key : κ) (c : Cache κ α ε σ) :
    (c.depart key).countLanding f = c.countLanding f := by
  rw [countLanding, countLanding, Cache.outcome?, Cache.outcome?, Cache.depart]
  rcases Nat.lt_trichotomy f c.flights.length with hlt | rfl | hgt
  · rw [List.getElem?_append_left hlt]
  · simp
  · rw [List.getElem?_eq_none (Nat.le_of_lt hgt), List.getElem?_eq_none]
    rw [List.length_append]
    exact hgt

/-- Another flight is started. -/
theorem Lacks.depart (h : Lacks f passengers c d) (hne : c.flights.length ≠ f) (key : κ) :
    Lacks f passengers (c.depart key) (d.depart key) := by
  have hstart : (c.depart key).countStart f = c.countStart f := by
    have hiff : f < (c.depart key).flights.length ↔ f < c.flights.length := by
      simp only [Cache.depart, List.length_append, List.length_singleton]
      exact ⟨fun hle => Nat.lt_of_le_of_ne (Nat.le_of_lt_succ hle) (Ne.symm hne), Nat.lt_succ_of_lt⟩
    simp only [countStart, hiff]
  obtain ⟨b, hb⟩ := h.exists_board
  refine ⟨?_, ?_, ?_, ?_, ?_⟩
  · rw [hb]
    rfl
  · simp only [Cache.depart, h.flights, eraseIdx_concat hne]
  · rw [hstart]
    simp only [Cache.depart, h.misses]
    omega
  · rw [hstart]
    exact h.coalesced
  · rw [countLanding_depart]
    exact h.compileFailures

/-- The flight itself is started, with its first passenger. -/
theorem Lacks.start (h : Lacks c.flights.length passengers c d) (key : κ) :
    Lacks c.flights.length (passengers + 1) (c.depart key) d := by
  obtain ⟨joins, hcoalesced, hpassengers⟩ := h.coalesced
  have hbefore : c.countStart c.flights.length = 0 := if_neg (Nat.lt_irrefl _)
  have hafter : (c.depart key).countStart c.flights.length = 1 := by
    simp [countStart, Cache.depart]
  refine ⟨h.offBoard, ?_, ?_, ⟨joins, hcoalesced, ?_⟩, ?_⟩
  · simp only [Cache.depart, h.flights]
    rw [List.eraseIdx_of_length_le (Nat.le_refl _),
      List.eraseIdx_append_of_length_le (Nat.le_refl _)]
    simp
  · rw [hafter]
    simp only [Cache.depart, h.misses, hbefore]
  · omega
  · rw [countLanding_depart]
    exact h.compileFailures

variable [DecidableEq κ]

theorem countStart_retire (o : Except ε EntryId) :
    (retire g key o c).countStart f = c.countStart f := by
  simp only [countStart, retire, List.length_modify]

/-- Another flight lands. -/
theorem Lacks.retire (h : Lacks f passengers c d) (hne : g ≠ f) (o : Except ε EntryId) :
    Lacks f passengers (Cache.retire g key o c) (Cache.retire (renumber f g) key o d) := by
  obtain ⟨b, hb⟩ := h.exists_board
  have hlanding : (Cache.retire g key o c).countLanding f = c.countLanding f := by
    rw [countLanding, Cache.outcome?, Cache.retire, List.getElem?_modify_ne _ _ hne]
    rfl
  refine ⟨?_, ?_, ?_, ?_, ?_⟩
  · rw [hb]
    rfl
  · simp only [Cache.retire, h.flights, eraseIdx_modify_renumber _ _ hne]
  · rw [countStart_retire]
    exact h.misses
  · rw [countStart_retire]
    exact h.coalesced
  · rw [hlanding]
    exact h.compileFailures

omit [DecidableEq κ] in
theorem Lacks.countFailure (h : Lacks f passengers c d) :
    Lacks f passengers c.countFailure d.countFailure := by
  obtain ⟨b, hb⟩ := h.exists_board
  refine ⟨?_, h.flights, h.misses, h.coalesced, ?_⟩
  · rw [hb]
    rfl
  · have hlanding : c.countFailure.countLanding f = c.countLanding f := rfl
    rw [hlanding]
    simp only [Cache.countFailure, h.compileFailures]
    omega

/-- The flight itself fails. -/
theorem Lacks.fail (h : Lacks f passengers c d) (hair : c.InAir key f) (e : ε) :
    Lacks f passengers (Cache.retire f key (.error e) c.countFailure) d := by
  have hbefore : c.countLanding f = 0 := by
    rw [countLanding, hair.outcome?_eq_none]
    rfl
  have hafter : (Cache.retire f key (.error e) c.countFailure).countLanding f = 1 := by
    rw [countLanding, retire_outcome? (c := c.countFailure) hair]
    rfl
  refine ⟨h.offBoard, ?_, ?_, ?_, ?_⟩
  · simp only [Cache.retire, Cache.countFailure, h.flights, eraseIdx_modify_self]
  · rw [countStart_retire]
    exact h.misses
  · rw [countStart_retire]
    exact h.coalesced
  · rw [hafter]
    simp only [Cache.retire, Cache.countFailure, h.compileFailures, hbefore]

/-! ### Decisions and landings -/

variable (p : Policy κ σ)

theorem Lacks.live? (h : Lacks f passengers c d) (key : κ) : d.live? key = c.live? key := by
  obtain ⟨b, rfl⟩ := h.exists_board
  rfl

theorem Lacks.lookup (h : Lacks f passengers c d) (key : κ) :
    (d.lookup p key).1 = (c.lookup p key).1 ∧
      Lacks f passengers (c.lookup p key).2 (d.lookup p key).2 := by
  refine ⟨?_, h.map (fun c => (c.lookup p key).2)
    fun b c => congrArg Prod.snd (lookup_withBoard p key b c)⟩
  obtain ⟨b, rfl⟩ := h.exists_board
  rw [lookup_withBoard]

/-- The map of flights without the flight holds the others under their new numbers. -/
theorem Lacks.inFlight_lookup (h : Lacks f passengers c d) (hc : Airborne c) (hd : Airborne d)
    (hother : c.inFlight.lookup key ≠ some f) :
    d.inFlight.lookup key = (c.inFlight.lookup key).map (renumber f) := by
  cases hair : c.inFlight.lookup key with
  | some g =>
      have hne : g ≠ f := fun heq => hother (heq ▸ hair)
      have hgair := hc.lookup_eq_some_iff.mp hair
      exact hd.lookup_eq_some_iff.mpr ((h.inAir_iff hne).mpr hgair)
  | none =>
      cases hair' : d.inFlight.lookup key with
      | none => rfl
      | some g' =>
          obtain ⟨g, hne, rfl⟩ := exists_renumber f g'
          have hgair := (h.inAir_iff hne).mp (hd.lookup_eq_some_iff.mp hair')
          rw [hc.lookup_eq_some_iff.mpr hgair] at hair
          cases hair

/-- A decision that does not board the flight is the same without it. -/
theorem Lacks.ask (h : Lacks f passengers c d) (hc : Airborne c) (hd : Airborne d)
    (hother : (c.ask p key).1.flight? ≠ some f) :
    (d.ask p key).1 = (c.ask p key).1.renumber f ∧
      Lacks f passengers (c.ask p key).2 (d.ask p key).2 := by
  rw [ask_eq] at hother
  rw [ask_eq, ask_eq, h.live?]
  cases hlive : c.live? key with
  | some id => exact ⟨rfl, (h.lookup p key).2⟩
  | none =>
      simp only [hlive] at hother
      have hlookup : d.inFlight.lookup key = (c.inFlight.lookup key).map (renumber f) := by
        refine h.inFlight_lookup hc hd ?_
        intro hair
        simp only [hair, Decision.flight?] at hother
        exact hother rfl
      rw [hlookup]
      cases hair : c.inFlight.lookup key with
      | some g => exact ⟨rfl, h.coalesce⟩
      | none =>
          simp only [hair, Decision.flight?] at hother
          have hne : c.flights.length ≠ f := fun heq => hother (congrArg some heq)
          refine ⟨?_, h.depart hne key⟩
          simp only [Option.map_none, Decision.renumber, h.flights, length_eraseIdx_renumber]

/-- A decision that boards the flight is left out, and counted as a passenger. -/
theorem Lacks.boards (h : Lacks f passengers c d)
    (hboards : (c.ask p key).1.flight? = some f) :
    Lacks f (passengers + 1) (c.ask p key).2 d := by
  rw [ask_eq] at hboards ⊢
  cases hlive : c.live? key with
  | some id => simp only [hlive, Decision.flight?, reduceCtorEq] at hboards
  | none =>
      simp only [hlive] at hboards
      cases hair : c.inFlight.lookup key with
      | some g => exact h.join
      | none =>
          simp only [hair, Decision.flight?, Option.some.injEq] at hboards
          subst hboards
          exact h.start key

/-- Another flight that lands brings the same entry and evicts the same keys. -/
theorem Lacks.landWithin (h : Lacks f passengers c d) (hne : g ≠ f) {made : Except ε α}
    {rounds : Nat} {c' : Cache κ α ε σ} (hland : c.landWithin p rounds g made = some c') :
    ∃ d', d.landWithin p rounds (renumber f g) made = some d' ∧ Lacks f passengers c' d' := by
  rcases landWithin_cases p hland with ⟨hnot, rfl⟩ | ⟨key, e, hair, rfl, rfl⟩ |
    ⟨key, payload, _, hair, rfl, _, _⟩
  · have hnot' (key : κ) : ¬ d.InAir key (renumber f g) :=
      fun hair => hnot key ((h.inAir_iff hne).mp hair)
    exact ⟨d, landWithin_of_not_inAir p hnot' rounds made, h⟩
  · have hair' := (h.inAir_iff hne).mpr hair
    rw [InAir] at hair'
    refine ⟨_, ?_, h.countFailure.retire hne (.error e)⟩
    simp only [Cache.landWithin, hair']
    rfl
  · have hmade : d.made = c.made := by
      rw [h.offBoard]
      rfl
    have hput := h.map (fun x => put p key c.made.length (x.readied p payload)) fun b x => by
      rw [readied_withBoard, put_withBoard]
    obtain ⟨b, hb⟩ := hput.exists_board
    rw [landWithin_eq p hair] at hland
    obtain ⟨trimmed, htrim, rfl⟩ := Option.map_eq_some_iff.mp hland
    have htrim' : trim p rounds (put p key d.made.length (d.readied p payload)) =
        some (trimmed.withBoard b) := by
      rw [hmade, hb, (trim_withBoard p rounds b _).1, htrim, Option.map_some]
    have hlacks : Lacks f passengers trimmed (trimmed.withBoard b) :=
      hput.congr (board_trim p htrim) (by rw [hb]; rfl)
    refine ⟨_, ?_, hlacks.retire hne (.ok c.made.length)⟩
    rw [landWithin_eq p ((h.inAir_iff hne).mpr hair), htrim', Option.map_some, hmade]

end Cache

end Scriptlet
