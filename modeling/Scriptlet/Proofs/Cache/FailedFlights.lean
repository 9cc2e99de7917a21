import Scriptlet.Proofs.Cache.MissingFlight
import Scriptlet.Proofs.Cache.SingleFlight

/-!
A flight that fails leaves no trace. A run is compared with the one from which such a flight is
taken out: the decisions that boarded it, what its passengers did from then on, and its landing.
Everything off the board is the same in both runs after every step that is left, and so is every
answer.
-/

namespace Scriptlet

namespace Traffic

open Cache

def Answer.renumber {κ ε : Type} (f : FlightId) : Answer κ ε → Answer κ ε
  | .moved decision caller => .moved (decision.map (Decision.renumber f)) (caller.renumber f)
  | answer => answer

def Step.renumber {κ α ε : Type} (f : FlightId) : Step κ α ε → Step κ α ε
  | .land g made rounds => .land (Scriptlet.renumber f g) made rounds
  | s => s

/-! ### The callers -/

section
variable {κ ε : Type} {f : FlightId} {aboard : List Nat} {row row' : List (Caller κ ε)} {i : Nat}

/-- What becomes of a caller who has boarded a flight. -/
def Rides (f : FlightId) (x : Caller κ ε) : Prop :=
  x = .waiting f ∨ x = .cancelled ∨ ∃ o, x = .done o

/-- The callers of both runs. Those who are not aboard are the same but for the numbers of the
flights. -/
structure Parted (f : FlightId) (aboard : List Nat) (row row' : List (Caller κ ε)) : Prop where
  length : row'.length = row.length
  others : ∀ i ∉ aboard,
    row'[i]? = row[i]?.map (Caller.renumber f) ∧ row[i]? ≠ some (.waiting f)
  passengers : ∀ i ∈ aboard, ∃ x, row[i]? = some x ∧ Rides f x

theorem Parted.lt (h : Parted f aboard row row') (hi : i ∈ aboard) : i < row.length := by
  obtain ⟨x, hx, _⟩ := h.passengers i hi
  exact (List.getElem?_eq_some_iff.mp hx).1

theorem Parted.call (h : Parted f aboard row row') (key : κ) :
    Parted f aboard (row ++ [.looking key]) (row' ++ [.looking key]) := by
  refine ⟨by simp [h.length], ?_, ?_⟩
  · intro i hi
    obtain ⟨hsame, hnot⟩ := h.others i hi
    rcases Nat.lt_or_ge i row.length with hlt | hge
    · rw [List.getElem?_append_left hlt, List.getElem?_append_left (h.length ▸ hlt)]
      exact ⟨hsame, hnot⟩
    · rw [List.getElem?_append_right hge, List.getElem?_append_right (h.length ▸ hge), h.length]
      cases i - row.length with
      | zero => simp [Caller.renumber]
      | succ n => simp
  · intro i hi
    rw [List.getElem?_append_left (h.lt hi)]
    exact h.passengers i hi

/-- Someone else moves on. -/
theorem Parted.set (h : Parted f aboard row row') (hi : i ∉ aboard) {x : Caller κ ε}
    (hx : x ≠ .waiting f) : Parted f aboard (row.set i x) (row'.set i (x.renumber f)) := by
  refine ⟨by simp [h.length], ?_, ?_⟩
  · intro j hj
    obtain ⟨hsame, hnot⟩ := h.others j hj
    rw [List.getElem?_set, List.getElem?_set, h.length]
    split
    · split <;> simp [hx]
    · exact ⟨hsame, hnot⟩
  · intro j hj
    have hne : i ≠ j := fun heq => hi (heq ▸ hj)
    rw [List.getElem?_set_ne hne]
    exact h.passengers j hj

/-- A passenger moves on. -/
theorem Parted.ride (h : Parted f aboard row row') (hi : i ∈ aboard) {x : Caller κ ε}
    (hx : Rides f x) : Parted f aboard (row.set i x) row' := by
  refine ⟨by simp [h.length], ?_, ?_⟩
  · intro j hj
    have hne : i ≠ j := fun heq => hj (heq ▸ hi)
    rw [List.getElem?_set_ne hne]
    exact h.others j hj
  · intro j hj
    by_cases heq : i = j
    · subst heq
      exact ⟨x, by rw [List.getElem?_set_self (h.lt hi)], hx⟩
    · rw [List.getElem?_set_ne heq]
      exact h.passengers j hj

/-- Someone boards the flight. -/
theorem Parted.board (h : Parted f aboard row row') (hi : i < row.length) :
    Parted f (aboard ++ [i]) (row.set i (.waiting f)) row' := by
  refine ⟨by simp [h.length], ?_, ?_⟩
  · intro j hj
    simp only [List.mem_append, List.mem_singleton, not_or] at hj
    rw [List.getElem?_set_ne (Ne.symm hj.2)]
    exact h.others j hj.1
  · intro j hj
    by_cases heq : i = j
    · subst heq
      exact ⟨_, List.getElem?_set_self hi, Or.inl rfl⟩
    · rw [List.getElem?_set_ne heq]
      simp only [List.mem_append, List.mem_singleton, Ne.symm heq, or_false] at hj
      exact h.passengers j hj

theorem Parted.giveUp (h : Parted f aboard row row') (i : Nat) :
    Parted f aboard (row.modify i giveUp) (row'.modify i giveUp) := by
  refine ⟨by simp [h.length], ?_, ?_⟩
  · intro j hj
    obtain ⟨hsame, hnot⟩ := h.others j hj
    by_cases hij : i = j
    · subst hij
      rw [List.getElem?_modify_eq, List.getElem?_modify_eq, hsame]
      cases row[i]? with
      | none => simp
      | some x => cases x <;> simp [Traffic.giveUp, Caller.renumber]
    · rw [List.getElem?_modify_ne _ _ hij, List.getElem?_modify_ne _ _ hij]
      exact ⟨hsame, hnot⟩
  · intro j hj
    obtain ⟨x, hx, hrides⟩ := h.passengers j hj
    by_cases hij : i = j
    · subst hij
      refine ⟨Traffic.giveUp x, by rw [List.getElem?_modify_eq, hx]; rfl, ?_⟩
      rcases hrides with rfl | rfl | ⟨o, rfl⟩
      · exact Or.inr (Or.inl rfl)
      · exact Or.inr (Or.inl rfl)
      · exact Or.inr (Or.inr ⟨o, rfl⟩)
    · rw [List.getElem?_modify_ne _ _ hij]
      exact ⟨x, hx, hrides⟩

end

/-! ### Taking a flight out of a run -/

variable {κ α ε σ : Type} [DecidableEq κ] (p : Policy κ σ)

/-- The states of a run, each with the step that is made there. -/
def trace : Traffic κ α ε σ → List (Step κ α ε) → List (Traffic κ α ε σ × Step κ α ε)
  | _, [] => []
  | t, s :: more =>
      (t, s) :: match t.step p s with
        | some u => trace u more
        | none => []

/-- Who decides about which key with a step. -/
def decides? (t : Traffic κ α ε σ) : Step κ α ε → Option (Nat × κ)
  | .proceed i =>
      match t.callers[i]? with
      | some (.deciding key) => some (i, key)
      | _ => none
  | _ => none

/-- Who starts or joins flight `f` with a step. -/
def boards (f : FlightId) (t : Traffic κ α ε σ) (s : Step κ α ε) : List Nat :=
  match t.decides? s with
  | some (i, key) => if (t.cache.ask p key).1.flight? = some f then [i] else []
  | none => []

/-- Whether a step is the landing of flight `f` or one of those who are aboard. -/
def Step.concerns (f : FlightId) (aboard : List Nat) : Step κ α ε → Bool
  | .land g _ _ => g = f
  | .proceed i => i ∈ aboard
  | _ => false

/-- What is left of a run without flight `f`, those aboard it before being given. -/
def apart (f : FlightId) :
    List Nat → List (Traffic κ α ε σ × Step κ α ε) → List (Traffic κ α ε σ × Step κ α ε)
  | _, [] => []
  | aboard, x :: more =>
      let aboard := aboard ++ boards p f x.1 x.2
      if x.2.concerns f aboard then apart f aboard more else x :: apart f aboard more

/-- All who boarded flight `f` on a run. -/
def passengers (f : FlightId) (row : List (Traffic κ α ε σ × Step κ α ε)) : List Nat :=
  row.flatMap fun x => boards p f x.1 x.2

/-- The answers to steps in the states where they are made. -/
def heard (row : List (Traffic κ α ε σ × Step κ α ε)) : List (Answer κ ε) :=
  row.flatMap fun x => (x.1.answer? p x.2).toList

/-- The steps of a run without those of flight `f`, the flights behind it moved up. -/
def withoutFlight (f : FlightId) (t : Traffic κ α ε σ) (steps : List (Step κ α ε)) :
    List (Step κ α ε) :=
  (apart p f [] (trace p t steps)).map fun x => x.2.renumber f

/-- All answers of a run are those heard along it. -/
theorem heard_trace (t : Traffic κ α ε σ) (steps : List (Step κ α ε)) :
    heard p (trace p t steps) = answers p t steps := by
  induction steps generalizing t with
  | nil => rfl
  | cons s more ih =>
      simp only [trace, heard, answers, List.flatMap_cons]
      cases t.step p s with
      | none => rfl
      | some u => exact congrArg (_ ++ ·) (ih u)

/-- The state of a run and of that without flight `f`, which is not in the air in the latter. -/
structure Missing (f : FlightId) (aboard : List Nat) (t t' : Traffic κ α ε σ) : Prop where
  airborne : Airborne t.cache
  airborne' : Airborne t'.cache
  cache : Lacks f aboard.length t.cache t'.cache
  callers : Parted f aboard t.callers t'.callers

variable {p} {f : FlightId} {aboard : List Nat} {t t' u : Traffic κ α ε σ} {s : Step κ α ε}

/-- The run without the flight makes the step as well, and is told the same. -/
def Follows (p : Policy κ σ) (f : FlightId) (aboard : List Nat) (t t' u : Traffic κ α ε σ)
    (s : Step κ α ε) : Prop :=
  ∃ u', t'.step p (s.renumber f) = some u' ∧ Missing f aboard u u' ∧
    t'.answer? p (s.renumber f) = (t.answer? p s).map (Answer.renumber f)

theorem Missing.follows (h : Missing f aboard t t') {u' : Traffic κ α ε σ}
    (hstep : t.step p s = some u) (hstep' : t'.step p (s.renumber f) = some u')
    (hcache : Lacks f aboard.length u.cache u'.cache)
    (hcallers : Parted f aboard u.callers u'.callers)
    (hanswer : t'.answer? p (s.renumber f) = (t.answer? p s).map (Answer.renumber f)) :
    Follows p f aboard t t' u s :=
  ⟨u', hstep', ⟨(step_effect p hstep).airborne h.airborne,
    (step_effect p hstep').airborne h.airborne', hcache, hcallers⟩, hanswer⟩

theorem advance_deciding_fst (key : κ) (c : Cache κ α ε σ) :
    (advance p c (.deciding key)).1 = (c.ask p key).1.caller := by
  rcases h : c.ask p key with ⟨_ | _ | _, d⟩ <;> simp only [advance, h, Decision.caller]

/-- A caller who does not board the flight moves on as without it. -/
theorem advance_lacks {n : Nat} {c d : Cache κ α ε σ} (h : Lacks f n c d) (hc : Airborne c)
    (hd : Airborne d) {x : Caller κ ε} (hx : x ≠ .waiting f)
    (hother : ∀ key, x = .deciding key → (c.ask p key).1.flight? ≠ some f) :
    Lacks f n (advance p c x).2 (advance p d (x.renumber f)).2 ∧
      (advance p d (x.renumber f)).1 = (advance p c x).1.renumber f ∧
      (advance p c x).1 ≠ .waiting f ∧
      decision? p d (x.renumber f) = (decision? p c x).map (Decision.renumber f) := by
  cases x with
  | looking key =>
      obtain ⟨hfound, hlacks⟩ := h.lookup p key
      rw [← advance_looking_snd, ← advance_looking_snd] at hlacks
      refine ⟨hlacks, ?_, ?_, ?_⟩
      · rcases hlook : c.lookup p key with ⟨_ | id, c'⟩ <;>
          rcases hlook' : d.lookup p key with ⟨_ | id', d'⟩ <;>
          simp_all [advance, Caller.renumber]
      · rcases hlook : c.lookup p key with ⟨_ | id, c'⟩ <;> simp [advance, hlook]
      · simp only [decision?, Caller.renumber, hfound]
        cases (c.lookup p key).1 <;> rfl
  | deciding key =>
      have hother := hother key rfl
      obtain ⟨hdecision, hlacks⟩ := h.ask p hc hd hother
      rw [← advance_deciding_snd, ← advance_deciding_snd] at hlacks
      refine ⟨hlacks, ?_, ?_, ?_⟩
      · change (advance p d (.deciding key)).1 = _
        rw [advance_deciding_fst, advance_deciding_fst, hdecision]
        cases (c.ask p key).1 <;> rfl
      · rw [advance_deciding_fst]
        generalize (c.ask p key).1 = decision at hother
        cases decision <;> simp_all [Decision.caller, Decision.flight?]
      · simp only [decision?, Caller.renumber, hdecision, Option.map_some]
  | waiting g =>
      have hne : g ≠ f := fun heq => hx (congrArg Caller.waiting heq)
      have houtcome := h.outcome? hne
      simp only [advance, Caller.renumber, houtcome]
      cases c.outcome? g with
      | none => exact ⟨h, rfl, hx, rfl⟩
      | some o => exact ⟨h, rfl, by simp, rfl⟩
  | done o => exact ⟨h, rfl, hx, rfl⟩
  | cancelled => exact ⟨h, rfl, hx, rfl⟩

/-- One who is aboard changes nothing by moving on. -/
theorem advance_rides {c : Cache κ α ε σ} {x : Caller κ ε} (hx : Rides f x) :
    Rides f (advance p c x).1 ∧ (advance p c x).2 = c := by
  rcases hx with rfl | rfl | ⟨o, rfl⟩
  · simp only [advance]
    cases c.outcome? f with
    | none => exact ⟨Or.inl rfl, rfl⟩
    | some o => exact ⟨Or.inr (Or.inr ⟨o, rfl⟩), rfl⟩
  · exact ⟨Or.inr (Or.inl rfl), rfl⟩
  · exact ⟨Or.inr (Or.inr ⟨o, rfl⟩), rfl⟩

/-- There is no such caller, and so none in either run. -/
theorem Missing.proceed_nobody (h : Missing f aboard t t') {i : Nat} (hi : i ∉ aboard)
    (hx : t.callers[i]? = none) (hstep : t.step p (.proceed i) = some u) :
    boards p f t (.proceed i) = [] ∧ Follows p f aboard t t' u (.proceed i) := by
  have hx' : t'.callers[i]? = none := by rw [(h.callers.others i hi).1, hx, Option.map_none]
  refine ⟨by simp only [boards, decides?, hx], ?_⟩
  have hstay := hstep
  simp only [Traffic.step, hx, Option.some.injEq] at hstay
  subst hstay
  have hstay' : t'.step p ((Step.proceed i : Step κ α ε).renumber f) = some t' := by
    simp only [Step.renumber, Traffic.step, hx']
  refine h.follows hstep hstay' h.cache h.callers ?_
  simp only [Step.renumber, answer?, hx, hx', Option.map_none]

/-- What a passenger does is left out. -/
theorem Missing.proceed_aboard (h : Missing f aboard t t') {i : Nat} (hi : i ∈ aboard)
    (hstep : t.step p (.proceed i) = some u) :
    boards p f t (.proceed i) = [] ∧ Missing f aboard u t' := by
  have hairborne := (step_effect p hstep).airborne h.airborne
  obtain ⟨x, hx, hrides⟩ := h.callers.passengers i hi
  have hboards : boards p f t (.proceed i) = [] := by
    rcases hrides with rfl | rfl | ⟨o, rfl⟩ <;> simp only [boards, decides?, hx]
  obtain ⟨hnext, hsame⟩ := advance_rides (p := p) (c := t.cache) hrides
  rw [step_proceed p hx, Option.some.injEq] at hstep
  subst hstep
  refine ⟨hboards, hairborne, h.airborne', ?_, h.callers.ride hi hnext⟩
  rw [hsame]
  exact h.cache

/-- Who boards the flight is a passenger from then on. -/
theorem Missing.proceed_boards (h : Missing f aboard t t') {i : Nat} {key : κ}
    (hx : t.callers[i]? = some (.deciding key))
    (hflight : (t.cache.ask p key).1.flight? = some f)
    (hstep : t.step p (.proceed i) = some u) :
    boards p f t (.proceed i) = [i] ∧ Missing f (aboard ++ [i]) u t' := by
  have hairborne := (step_effect p hstep).airborne h.airborne
  have hboards : boards p f t (.proceed i) = [i] := by
    simp only [boards, decides?, hx, hflight, if_true]
  have hcaller : (advance p t.cache (.deciding key)).1 = .waiting f := by
    rw [advance_deciding_fst]
    generalize (t.cache.ask p key).1 = decision at hflight
    cases decision <;> simp_all [Decision.caller, Decision.flight?]
  rw [step_proceed p hx, Option.some.injEq] at hstep
  subst hstep
  refine ⟨hboards, hairborne, h.airborne', ?_, ?_⟩
  · rw [List.length_append, advance_deciding_snd]
    exact h.cache.boards p hflight
  · rw [hcaller]
    exact h.callers.board (List.getElem?_eq_some_iff.mp hx).1

/-- Anyone else moves on in both runs. -/
theorem Missing.proceed_other (h : Missing f aboard t t') {i : Nat} {x : Caller κ ε}
    (hi : i ∉ aboard) (hx : t.callers[i]? = some x)
    (hother : ∀ key, x = .deciding key → (t.cache.ask p key).1.flight? ≠ some f)
    (hstep : t.step p (.proceed i) = some u) :
    boards p f t (.proceed i) = [] ∧ Follows p f aboard t t' u (.proceed i) := by
  have hboards : boards p f t (.proceed i) = [] := by
    cases x <;> simp_all [boards, decides?]
  obtain ⟨hx', hnot⟩ := h.callers.others i hi
  rw [hx] at hnot
  rw [hx, Option.map_some] at hx'
  obtain ⟨hcache, hnext, hnextNot, hdecision⟩ := advance_lacks (p := p) h.cache h.airborne
    h.airborne' (fun heq => hnot (congrArg some heq)) hother
  have hmove := hstep
  rw [step_proceed p hx, Option.some.injEq] at hmove
  subst hmove
  refine ⟨hboards, h.follows hstep (step_proceed p hx') hcache ?_ ?_⟩
  · rw [hnext]
    exact h.callers.set hi hnextNot
  · simp only [Step.renumber, answer?, hx, hx', Option.map_some, Answer.renumber, hnext,
      hdecision]

theorem Missing.proceed (h : Missing f aboard t t') {i : Nat}
    (hstep : t.step p (.proceed i) = some u) :
    if i ∈ aboard ++ boards p f t (.proceed i) then
      Missing f (aboard ++ boards p f t (.proceed i)) u t'
    else Follows p f (aboard ++ boards p f t (.proceed i)) t t' u (.proceed i) := by
  by_cases hi : i ∈ aboard
  · obtain ⟨hboards, hmissing⟩ := h.proceed_aboard hi hstep
    rw [hboards, List.append_nil, if_pos hi]
    exact hmissing
  · cases hx : t.callers[i]? with
    | none =>
        obtain ⟨hboards, hfollows⟩ := h.proceed_nobody hi hx hstep
        rw [hboards, List.append_nil, if_neg hi]
        exact hfollows
    | some x =>
        by_cases hown : ∃ key, x = .deciding key ∧ (t.cache.ask p key).1.flight? = some f
        · obtain ⟨key, rfl, hflight⟩ := hown
          obtain ⟨hboards, hmissing⟩ := h.proceed_boards hx hflight hstep
          rw [hboards, if_pos (by simp)]
          exact hmissing
        · obtain ⟨hboards, hfollows⟩ := h.proceed_other hi hx
            (fun key hkey hflight => hown ⟨key, hkey, hflight⟩) hstep
          rw [hboards, List.append_nil, if_neg hi]
          exact hfollows

/-- The landing of another flight evicts the same keys. -/
theorem Missing.answer_land (h : Missing f aboard t t') {g : FlightId} (hne : g ≠ f)
    (made : Except ε α) (rounds : Nat) :
    t'.answer? p (.land (renumber f g) made rounds) =
      (t.answer? p (.land g made rounds)).map (Answer.renumber f) := by
  have hflight : t'.cache.flights[renumber f g]? = t.cache.flights[g]? := by
    rw [h.cache.flights, getElem?_eraseIdx_renumber _ hne]
  have hevicted (key : κ) (payload : α) :
      t'.cache.evicted p rounds key payload = t.cache.evicted p rounds key payload := by
    rw [h.cache.offBoard, evicted_withBoard]
  simp only [answer?, hflight, hevicted]
  split <;> rfl

theorem Follows.unless_concerned (h : Follows p f aboard t t' u s) (hboards : boards p f t s = [])
    (hconcerns : s.concerns f aboard = false) :
    if s.concerns f (aboard ++ boards p f t s) then Missing f (aboard ++ boards p f t s) u t'
    else Follows p f (aboard ++ boards p f t s) t t' u s := by
  rw [hboards, List.append_nil, hconcerns]
  exact h

/-- Every step is left out or made as well, and the flight is still all that is missing. -/
theorem Missing.step (h : Missing f aboard t t') (hstep : t.step p s = some u)
    (hfails : ∀ key payload, t.cache.InAir key f → s.landing ≠ some (f, .ok payload)) :
    if s.concerns f (aboard ++ boards p f t s) then Missing f (aboard ++ boards p f t s) u t'
    else Follows p f (aboard ++ boards p f t s) t t' u s := by
  cases s with
  | call key =>
      cases hstep
      refine Follows.unless_concerned ?_ rfl rfl
      exact h.follows rfl rfl h.cache (h.callers.call key) rfl
  | proceed i =>
      simpa only [Step.concerns, decide_eq_true_eq] using h.proceed hstep
  | cancel i =>
      cases hstep
      refine Follows.unless_concerned ?_ rfl rfl
      exact h.follows rfl rfl h.cache (h.callers.giveUp i) rfl
  | land g made rounds =>
      obtain ⟨c, hland, rfl⟩ := (step_land_iff p).mp hstep
      by_cases hg : g = f
      · subst hg
        have hboards : boards p g t (.land g made rounds) = [] := rfl
        rw [hboards, List.append_nil, if_pos (by simp [Step.concerns])]
        refine ⟨(step_effect p hstep).airborne h.airborne, h.airborne', ?_, h.callers⟩
        rcases landWithin_cases p hland with ⟨_, rfl⟩ | ⟨key, e, hair, _, rfl⟩ |
          ⟨key, payload, _, hair, rfl, _, _⟩
        · exact h.cache
        · exact h.cache.fail hair e
        · exact absurd rfl (hfails key payload hair)
      · obtain ⟨d, hland', hlacks⟩ := h.cache.landWithin p hg hland
        have hfollows : Follows p f aboard t t' _ (.land g made rounds) :=
          h.follows hstep ((step_land_iff p).mpr ⟨d, hland', rfl⟩) hlacks h.callers
            (h.answer_land hg made rounds)
        exact hfollows.unless_concerned rfl (decide_eq_false hg)
  | get key =>
      cases hstep
      obtain ⟨hfound, hlacks⟩ := h.cache.lookup p key
      have hanswer : t'.answer? p (.get key) = t.answer? p (.get key) := by
        simp only [answer?, hfound]
      refine Follows.unless_concerned ?_ rfl rfl
      exact h.follows rfl rfl hlacks h.callers hanswer
  | remove key =>
      cases hstep
      have hlacks := h.cache.map (fun c => (c.remove p key).2) (remove_withBoard p key)
      refine Follows.unless_concerned ?_ rfl rfl
      exact h.follows rfl rfl hlacks h.callers rfl
  | clear =>
      cases hstep
      have hlacks := h.cache.map (fun c => c.clear p) (clear_withBoard p)
      refine Follows.unless_concerned ?_ rfl rfl
      exact h.follows rfl rfl hlacks h.callers rfl
  | purgeExpired =>
      cases hstep
      have hlacks := h.cache.map (fun c => (c.purgeExpired p).2) (purgeExpired_withBoard p)
      refine Follows.unless_concerned ?_ rfl rfl
      exact h.follows rfl rfl hlacks h.callers rfl
  | wait time =>
      cases hstep
      have hlacks := h.cache.map (fun c => c.wait time) fun _ _ => rfl
      refine Follows.unless_concerned ?_ rfl rfl
      exact h.follows rfl rfl hlacks h.callers rfl

/-- What a flight lands with in a run is what it has landed with at the end. -/
theorem run_outcome? {steps : List (Step κ α ε)} {o : Except ε EntryId}
    (ho : t.cache.outcome? f = some o) (hrun : run p t steps = some u) :
    u.cache.outcome? f = some o :=
  run_keeps p (fun _ => True) (fun t => t.cache.outcome? f = some o)
    (fun _ _ _ _ ht hstep => (step_effect p hstep).outcome? ht) (fun _ _ => trivial) ho hrun

theorem landing_brought (p : Policy κ σ) (hstep : t.step p s = some u) {made : Except ε α}
    {key : κ} (hlanding : s.landing = some (f, made)) (hair : t.cache.InAir key f) :
    u.cache.Brought f made := by
  cases s with
  | land g made' rounds =>
      obtain ⟨rfl, rfl⟩ := Prod.mk.inj (Option.some.inj hlanding)
      obtain ⟨d, hland, rfl⟩ := (step_land_iff p).mp hstep
      exact landWithin_brought p hair hland
  | _ => cases hlanding

theorem Missing.run (h : Missing f aboard t t') {steps : List (Step κ α ε)} {e : ε}
    (hrun : run p t steps = some u) (hfailed : u.cache.outcome? f = some (.error e)) :
    ∃ u', run p t' ((apart p f aboard (trace p t steps)).map fun x => x.2.renumber f) = some u' ∧
      Missing f (aboard ++ passengers p f (trace p t steps)) u u' ∧
      answers p t' ((apart p f aboard (trace p t steps)).map fun x => x.2.renumber f) =
        (heard p (apart p f aboard (trace p t steps))).map (Answer.renumber f) := by
  induction steps generalizing t t' aboard with
  | nil =>
      obtain rfl := Option.some.inj hrun
      exact ⟨t', rfl, by simpa [trace, passengers] using h, rfl⟩
  | cons s more ih =>
      obtain ⟨v, hv, hrest⟩ := (run_cons_iff p).mp hrun
      have hfails (key : κ) (payload : α) (hair : t.cache.InAir key f) :
          s.landing ≠ some (f, .ok payload) := by
        intro hlanding
        obtain ⟨id, hlanded, _⟩ := landing_brought p hv hlanding hair
        rw [run_outcome? hlanded hrest] at hfailed
        cases hfailed
      have hnext := h.step hv hfails
      have htrace : trace p t (s :: more) = (t, s) :: trace p v more := by simp only [trace, hv]
      have hpassengers : aboard ++ passengers p f ((t, s) :: trace p v more) =
          aboard ++ boards p f t s ++ passengers p f (trace p v more) := by
        simp only [passengers, List.flatMap_cons, List.append_assoc]
      rw [htrace, hpassengers]
      simp only [apart]
      split at hnext
      · next hconcerns =>
          rw [if_pos hconcerns]
          exact ih hnext hrest
      · next hconcerns =>
          rw [if_neg hconcerns]
          obtain ⟨v', hv', hmissing, hanswer⟩ := hnext
          obtain ⟨u', hrun', hlast, hanswers⟩ := ih hmissing hrest
          refine ⟨u', (run_cons_iff p).mpr ⟨v', hv', hrun'⟩, hlast, ?_⟩
          simp only [List.map_cons, answers, heard, List.flatMap_cons, List.map_append, hv',
            hanswer, Option.toList_map, hanswers]

/-! ### The key of a flight that has failed -/

theorem length_flights_landing {c d : Cache κ α ε σ} {landing : FlightId × Except ε α}
    (h : Effect p c (some landing) d) : d.flights.length = c.flights.length := by
  cases h with
  | drops h => rw [h.flights]
  | fails e counters hair => simp only [retire, List.length_modify]
  | lands hair h => simp only [retire, List.length_modify, (insert_inserts p h).flights]

theorem step_of_decides? {i : Nat} {key : κ} (hdecides : t.decides? s = some (i, key))
    (hstep : t.step p s = some u) : u.cache = (t.cache.ask p key).2 := by
  cases s with
  | proceed j =>
      simp only [decides?] at hdecides
      split at hdecides
      · next k hx =>
          obtain ⟨rfl, rfl⟩ := Prod.mk.inj (Option.some.inj hdecides)
          rw [step_proceed p hx, Option.some.injEq] at hstep
          rw [← hstep, advance_deciding_snd]
      · cases hdecides
  | _ => cases hdecides

/-- Only a decision starts a flight. -/
theorem length_flights_of_undecided (hdecides : t.decides? s = none)
    (hstep : t.step p s = some u) : u.cache.flights.length = t.cache.flights.length := by
  cases s with
  | proceed i =>
      cases hx : t.callers[i]? with
      | none =>
          simp only [Traffic.step, hx, Option.some.injEq] at hstep
          rw [hstep]
      | some x =>
          rw [step_proceed p hx, Option.some.injEq] at hstep
          subst hstep
          cases x with
          | deciding key => simp only [decides?, hx, reduceCtorEq] at hdecides
          | looking key => rw [advance_looking_snd, (lookup_drops p key t.cache).flights]
          | waiting g =>
              simp only [advance]
              split <;> rfl
          | done o => rfl
          | cancelled => rfl
  | land g made rounds => exact length_flights_landing (step_effect p hstep)
  | call key => cases hstep; rfl
  | cancel i => cases hstep; rfl
  | get key => cases hstep; rw [(lookup_drops p key t.cache).flights]
  | remove key => cases hstep; rw [(remove_drops p key t.cache).flights]
  | clear => cases hstep; rw [(clear_drops p t.cache).flights]
  | purgeExpired => cases hstep; rw [(purgeExpired_drops p t.cache).flights]
  | wait time => cases hstep; rfl

theorem ask_inAir {c : Cache κ α ε σ} {key k : κ} {g : FlightId}
    (hair : (c.ask p k).2.InAir key g) : c.InAir key g ∨ k = key := by
  rw [ask_eq] at hair
  split at hair
  · rw [InAir, (lookup_drops p k c).flights] at hair
    exact Or.inl hair
  · split at hair
    · exact Or.inl hair
    · simp only [InAir, depart, List.getElem?_append] at hair
      split at hair
      · exact Or.inl hair
      · obtain ⟨_, hlast⟩ := List.getElem?_eq_some_iff.mp hair
        simp only [List.getElem_singleton, Flight.mk.injEq, and_true] at hlast
        exact Or.inr hlast

theorem step_inAir {key : κ} {g : FlightId} (hstep : t.step p s = some u)
    (hair : u.cache.InAir key g) :
    t.cache.InAir key g ∨ ∃ i, t.decides? s = some (i, key) := by
  cases hdecides : t.decides? s with
  | some x =>
      obtain ⟨i, k⟩ := x
      rw [step_of_decides? hdecides hstep] at hair
      rcases ask_inAir hair with hold | rfl
      · exact Or.inl hold
      · exact Or.inr ⟨i, rfl⟩
  | none =>
      rcases (step_effect p hstep).inAir hair with hold | ⟨_, hdepart⟩
      · exact Or.inl hold
      · have hlength := length_flights_of_undecided hdecides hstep
        simp [hdepart, depart] at hlength

/-- Until someone decides about a key that is not in the air, it is not. -/
theorem run_undecided {key : κ} {steps : List (Step κ α ε)} (hrun : run p t steps = some u)
    (hfree : ∀ g, ¬ t.cache.InAir key g)
    (hundecided : ∀ x ∈ trace p t steps, ∀ i, x.1.decides? x.2 ≠ some (i, key)) :
    ∀ g, ¬ u.cache.InAir key g := by
  induction steps generalizing t with
  | nil => exact Option.some.inj hrun ▸ hfree
  | cons s more ih =>
      obtain ⟨v, hv, hrest⟩ := (run_cons_iff p).mp hrun
      simp only [trace, hv, List.mem_cons, forall_eq_or_imp] at hundecided
      refine ih hrest ?_ hundecided.2
      intro g hair
      rcases step_inAir hv hair with hold | ⟨i, hdecides⟩
      · exact hfree g hold
      · exact hundecided.1 i hdecides

/-- Who asks for a key that is not in the air is served or starts a compile. -/
theorem ask_of_not_inAir {c : Cache κ α ε σ} (hc : Airborne c) {key : κ}
    (hfree : ∀ g, ¬ c.InAir key g) :
    (c.ask p key).1 =
      match c.live? key with
      | some id => .hit id
      | none => .started c.flights.length := by
  have hlookup : c.inFlight.lookup key = none := by
    cases hair : c.inFlight.lookup key with
    | none => rfl
    | some g => exact absurd (hc.lookup_eq_some_iff.mp hair) (hfree g)
  rw [ask_eq, hlookup]
  cases c.live? key <;> rfl

/-- A failure is counted and its flight retired, whatever the rounds. -/
theorem landWithin_error (p : Policy κ σ) {c : Cache κ α ε σ} {key : κ} {f : FlightId}
    (hair : c.InAir key f) (e : ε) (rounds : Nat) :
    c.landWithin p rounds f (.error e) = some (retire f key (.error e) c.countFailure) := by
  rw [InAir] at hair
  simp only [landWithin, hair]
  rfl

theorem fail_inAir_iff {c : Cache κ α ε σ} {key k : κ} {f g : FlightId} (hair : c.InAir key f)
    (e : ε) :
    (retire f key (.error e) c.countFailure).InAir k g ↔ c.InAir k g ∧ g ≠ f := by
  have hair' : c.countFailure.InAir key f := hair
  rw [InAir, retire_getElem? hair']
  by_cases hg : f = g
  · subst hg
    simp
  · simp only [if_neg hg, Ne, Ne.symm hg, not_false_eq_true, and_true]
    exact Iff.rfl

omit [DecidableEq κ] in
theorem start_missing (f : FlightId) (limits : Limits) (tracking : σ) :
    Missing f [] (start limits tracking : Traffic κ α ε σ) (start limits tracking) := by
  refine ⟨start_airborne limits tracking, start_airborne limits tracking, ?_, ?_⟩
  · exact ⟨rfl, rfl, rfl, ⟨0, rfl, rfl⟩, rfl⟩
  · exact ⟨rfl, fun i _ => ⟨rfl, by simp [start]⟩, by simp⟩

/-- A compile that fails leaves no trace, in every state `t` that any steps lead to; a compiler
that panics fails as well. The failure of a flight in the air is counted, its outcome is there and
its key is free, and that is all. Who is the next to decide about the key starts another compile,
unless an entry is live.

A flight that has failed can be taken out of the run, with its start, its joins, its landing and
the waiting of those who were aboard. Every other step is told the same as before: every look-up
and every decision, the keys that every landing evicted, and what became of every caller who moved.
The cache at the end differs in nothing but its flights and in three counters, by the start, the
joins and the failure. -/
theorem failed_flight_leaves_no_trace (p : Policy κ σ) (limits : Limits) (tracking : σ)
    (steps : List (Step κ α ε)) (t : Traffic κ α ε σ)
    (hrun : run p (start limits tracking) steps = some t) :
    (∀ key f e rounds, t.cache.InAir key f → ∃ u, t.step p (.land f (.error e) rounds) = some u ∧
      u = { t with cache := { t.cache with
        flights := t.cache.flights.modify f fun x => { x with outcome := some (.error e) }
        inFlight := without key t.cache.inFlight
        counters := { t.cache.counters with
          compileFailures := t.cache.counters.compileFailures + 1 } } } ∧
      (∀ k g, u.cache.InAir k g ↔ t.cache.InAir k g ∧ g ≠ f) ∧
      ∀ after v, run p u after = some v →
        (∀ x ∈ trace p u after, ∀ i, x.1.decides? x.2 ≠ some (i, key)) →
        (v.cache.ask p key).1 =
          match v.cache.live? key with
          | some id => .hit id
          | none => .started v.cache.flights.length) ∧
    ∀ f e, t.cache.outcome? f = some (.error e) →
      let row := trace p (start limits tracking) steps
      let left := withoutFlight p f (start limits tracking) steps
      ∃ t' joins, run p (start limits tracking) left = some t' ∧
        (answers p (start limits tracking) steps = heard p row ∧
          answers p (start limits tracking) left =
            (heard p (apart p f [] row)).map (Answer.renumber f)) ∧
        (∀ i ∉ passengers p f row, t'.callers[i]? = t.callers[i]?.map (Caller.renumber f)) ∧
        t'.cache.flights = t.cache.flights.eraseIdx f ∧
        (∀ key, t'.cache.inFlight.lookup key =
          (t.cache.inFlight.lookup key).map (Scriptlet.renumber f)) ∧
        (passengers p f row).length = joins + 1 ∧
        t.cache = { t'.cache with
          flights := t.cache.flights
          inFlight := t.cache.inFlight
          counters := { t'.cache.counters with
            misses := t'.cache.counters.misses + 1
            coalesced := t'.cache.counters.coalesced + joins
            compileFailures := t'.cache.counters.compileFailures + 1 } } := by
  have hairborne := run_airborne p hrun
  constructor
  · intro key f e rounds hair
    have hland := landWithin_error p hair e rounds
    refine ⟨_, (step_land_iff p).mpr ⟨_, hland, rfl⟩, rfl, fun k g => fail_inAir_iff hair e, ?_⟩
    intro after v hv hundecided
    have hfailed : Airborne (retire f key (.error e) t.cache.countFailure) :=
      (landWithin_effect p hland).airborne hairborne
    refine ask_of_not_inAir ?_ (run_undecided hv ?_ hundecided)
    · exact run_keeps p (fun _ => True) (fun t => Airborne t.cache)
        (fun _ _ _ _ ht h => (step_effect p h).airborne ht) (fun _ _ => trivial) hfailed hv
    · intro g hg
      obtain ⟨hold, hne⟩ := (fail_inAir_iff hair e).mp hg
      exact hne (hairborne.unique hold hair)
  · intro f e hfailed row left
    obtain ⟨t', hrun', hmissing, hanswers⟩ := (start_missing f limits tracking).run hrun hfailed
    rw [List.nil_append] at hmissing
    have hlacks := hmissing.cache
    have hlanding : t.cache.countLanding f = 1 := by rw [countLanding, hfailed]; rfl
    have hstart : t.cache.countStart f = 1 := by
      refine if_pos ?_
      obtain ⟨flight, hflight, _⟩ := Option.bind_eq_some_iff.mp hfailed
      exact (List.getElem?_eq_some_iff.mp hflight).1
    obtain ⟨joins, hcoalesced, hpassengers⟩ := hlacks.coalesced
    have hmisses := hlacks.misses
    have hfailures := hlacks.compileFailures
    rw [hstart] at hmisses hpassengers
    rw [hlanding] at hfailures
    refine ⟨t', joins, hrun', ⟨(heard_trace p _ steps).symm, hanswers⟩,
      fun i hi => (hmissing.callers.others i hi).1, hlacks.flights, ?_, hpassengers, ?_⟩
    · intro key
      refine hlacks.inFlight_lookup hairborne hmissing.airborne' ?_
      intro hair
      have hnone := (hairborne.lookup_eq_some_iff.mp hair).outcome?_eq_none
      rw [hfailed] at hnone
      cases hnone
    · rw [← hmisses, ← hcoalesced, ← hfailures, hlacks.offBoard]
      rfl

deriving instance DecidableEq for Step

/-- Two callers wait for a compile of key 1 that fails, while another one compiles key 2. Without
the two the third starts the first flight, and is served the same entry. -/
theorem failed_flight_leaves_no_trace_of_two_waiting :
    let limits : Limits := { maxEntries := some 1 }
    let steps : List (Step Nat String String) :=
      [.call 1, .proceed 0, .proceed 0, .call 1, .proceed 1, .proceed 1,
        .call 2, .proceed 2, .proceed 2, .land 0 (.error "no") 0, .land 1 (.ok "two") 1,
        .proceed 0, .proceed 1, .proceed 2]
    let left : List (Step Nat String String) :=
      [.call 1, .proceed 0, .call 1, .proceed 1, .call 2, .proceed 2, .proceed 2,
        .land 0 (.ok "two") 1, .proceed 2]
    ∃ t t', run NamedPolicy.policy (start limits (.start .lru)) steps = some t ∧
      run NamedPolicy.policy (start limits (.start .lru)) left = some t' ∧
      t'.cache.made = t.cache.made ∧ t'.cache.entries = t.cache.entries ∧
      t.cache.counters = { misses := 2, coalesced := 1, compiles := 1, compileFailures := 1 } ∧
      t'.cache.counters = { misses := 1, compiles := 1 } := by
  intro limits steps left
  have hseen : (run NamedPolicy.policy (start limits (.start .lru)) steps).map
      (fun t => (t.cache.outcome? 0, t.cache.counters)) =
        some (some (.error "no"),
          { misses := 2, coalesced := 1, compiles := 1, compileFailures := 1 }) := by
    decide +kernel
  obtain ⟨t, hrun, hseen⟩ := Option.map_eq_some_iff.mp hseen
  obtain ⟨hfailed, hcounters⟩ := Prod.mk.inj hseen
  obtain ⟨t', joins, hrun', _, _, _, _, hjoins, hcache⟩ :=
    (failed_flight_leaves_no_trace NamedPolicy.policy limits (.start .lru) steps t hrun).2 0 "no"
      hfailed
  have hcounters' : (run NamedPolicy.policy (start limits (.start .lru)) left).map
      (fun t => t.cache.counters) = some { misses := 1, compiles := 1 } := by decide +kernel
  have hleft : withoutFlight NamedPolicy.policy 0 (start limits (.start .lru)) steps = left := by
    decide +kernel
  rw [hleft] at hrun'
  rw [hrun', Option.map_some, Option.some.injEq] at hcounters'
  refine ⟨t, t', hrun, hrun', ?_, ?_, hcounters, hcounters'⟩
  · rw [hcache]
  · rw [hcache]

end Traffic

end Scriptlet
