import Scriptlet.Proofs.Cache.Effect
import Scriptlet.Proofs.Cache.EvictionHistory

/-!
What a policy is told. On each key its calls come in rounds: the key is added, used any number of
times, and removed once. Between two operations the keys whose round is open are the keys of the
map. This holds of any policy that answers, when it is asked for a victim, with a key whose round
is open or with none; a key that it makes up would be reported as removed and never have been
added.

Entries are put in or taken out in six places, and each of them calls the policy by itself. So one
lemma says what each call does to the rounds, and one lemma for each place says that its calls
and its change of the map go together.
-/

namespace Scriptlet

namespace Policy

variable {κ σ : Type}

/-- A round that is still open: the key was added and then used. -/
def openRound (key : κ) (uses : Nat) : List (Hook κ) :=
  .add key :: List.replicate uses (.access key)

def closedRound (key : κ) (uses : Nat) : List (Hook κ) :=
  openRound key uses ++ [.remove key]

variable [DecidableEq κ]

def callsOn (key : κ) (calls : List (Hook κ)) : List (Hook κ) :=
  calls.filter (·.key? = some key)

/-- The calls on a key are closed rounds, with one more behind them that is open if `isOpen`. -/
def InRounds (key : κ) (calls : List (Hook κ)) (isOpen : Prop) : Prop :=
  ∃ (closed : List Nat) (last : Option Nat),
    callsOn key calls = closed.flatMap (closedRound key) ++ last.elim [] (openRound key) ∧
      (last.isSome = true ↔ isOpen)

/-- As long as it is told of every key in rounds, the policy answers with a key that is added, or
with none. -/
def AnswersAdded (p : Policy κ σ) (s : σ) : Prop :=
  ∀ calls victim, (∀ key, ∃ isOpen, InRounds key calls isOpen) →
    (p.evict (p.replay s calls)).1 = some victim → isAdded victim calls = true

/-! ### One more call -/

variable {key : κ} {calls : List (Hook κ)}

theorem callsOn_concat {call : Hook κ} (hcall : call.key? = some key) :
    callsOn key (calls ++ [call]) = callsOn key calls ++ [call] := by
  simp [callsOn, hcall]

theorem callsOn_concat_of_ne {call : Hook κ} (hcall : call.key? ≠ some key) :
    callsOn key (calls ++ [call]) = callsOn key calls := by
  simp [callsOn, hcall]

theorem InRounds.congr {isOpen stays : Prop} (h : InRounds key calls isOpen)
    (hiff : isOpen ↔ stays) : InRounds key calls stays := by
  obtain ⟨closed, last, hcalls, hlast⟩ := h
  exact ⟨closed, last, hcalls, hlast.trans hiff⟩

/-- A call that is not about the key is nothing to its rounds. -/
theorem InRounds.other {isOpen : Prop} (h : InRounds key calls isOpen) {call : Hook κ}
    (hcall : call.key? ≠ some key) : InRounds key (calls ++ [call]) isOpen := by
  obtain ⟨closed, last, hcalls, hlast⟩ := h
  refine ⟨closed, last, ?_, hlast⟩
  rw [callsOn_concat_of_ne hcall, hcalls]

theorem InRounds.add (h : InRounds key calls False) :
    InRounds key (calls ++ [.add key]) True := by
  obtain ⟨closed, last, hcalls, hlast⟩ := h
  obtain rfl : last = none := by simpa using hlast
  refine ⟨closed, some 0, ?_, by simp⟩
  rw [callsOn_concat rfl, hcalls, List.append_assoc]
  rfl

theorem InRounds.access (h : InRounds key calls True) :
    InRounds key (calls ++ [.access key]) True := by
  obtain ⟨closed, last, hcalls, hlast⟩ := h
  obtain ⟨uses, rfl⟩ := Option.isSome_iff_exists.mp (hlast.mpr trivial)
  refine ⟨closed, some (uses + 1), ?_, by simp⟩
  rw [callsOn_concat rfl, hcalls, List.append_assoc]
  simp only [Option.elim_some, openRound, List.cons_append, List.replicate_succ']

theorem InRounds.remove (h : InRounds key calls True) :
    InRounds key (calls ++ [.remove key]) False := by
  obtain ⟨closed, last, hcalls, hlast⟩ := h
  obtain ⟨uses, rfl⟩ := Option.isSome_iff_exists.mp (hlast.mpr trivial)
  refine ⟨closed ++ [uses], none, ?_, by simp⟩
  rw [callsOn_concat rfl, hcalls, List.append_assoc]
  simp [closedRound]

/-- The policy was told in rounds of every key, those of `Held` being open now. -/
structure Told (p : Policy κ σ) (s : σ) (recorded : σ × List (Hook κ)) (Held : κ → Prop) :
    Prop where
  state : recorded.1 = p.replay s recorded.2
  rounds : ∀ key, InRounds key recorded.2 (Held key)
  added : ∀ key, isAdded key recorded.2 = true ↔ Held key

namespace Told

variable {p : Policy κ σ} {s : σ} {recorded : σ × List (Hook κ)} {Held : κ → Prop}

theorem congr (h : Told p s recorded Held) {Holds : κ → Prop}
    (hiff : ∀ key, Held key ↔ Holds key) : Told p s recorded Holds :=
  ⟨h.state, fun key => (h.rounds key).congr (hiff key), fun key => (h.added key).trans (hiff key)⟩

theorem onAdd (h : Told p s recorded Held) (hkey : ¬ Held key) :
    Told p s (p.recording.onAdd key recorded) fun k => Held k ∨ k = key := by
  refine ⟨?_, ?_, ?_⟩
  · simp only [recording, replay_append, ← h.state]
    rfl
  · intro k
    by_cases hk : k = key
    · subst hk
      exact ((h.rounds k).congr (iff_of_false hkey not_false)).add.congr (by simp)
    · have hcall : (Hook.add key).key? ≠ some k := by simpa [Hook.key?] using Ne.symm hk
      exact ((h.rounds k).other hcall).congr (by simp [hk])
  · intro k
    by_cases hk : k = key
    · subst hk
      simp [recording, isAdded_concat]
    · simp only [recording]
      rw [isAdded_concat_of_ne (by simpa [Hook.key?] using Ne.symm hk), h.added]
      simp [hk]

theorem onAccess (h : Told p s recorded Held) (hkey : Held key) :
    Told p s (p.recording.onAccess key recorded) Held := by
  refine ⟨?_, ?_, ?_⟩
  · simp only [recording, replay_append, ← h.state]
    rfl
  · intro k
    by_cases hk : k = key
    · subst hk
      exact ((h.rounds k).congr (iff_true_intro hkey)).access.congr (iff_true_intro hkey).symm
    · exact (h.rounds k).other (by simpa [Hook.key?] using Ne.symm hk)
  · intro k
    simp only [recording, isAdded_concat, reduceCtorEq, if_false]
    exact h.added k

theorem onRemove (h : Told p s recorded Held) (hkey : Held key) :
    Told p s (p.recording.onRemove key recorded) fun k => Held k ∧ k ≠ key := by
  refine ⟨?_, ?_, ?_⟩
  · simp only [recording, replay_append, ← h.state]
    rfl
  · intro k
    by_cases hk : k = key
    · subst hk
      exact ((h.rounds k).congr (iff_true_intro hkey)).remove.congr (by simp)
    · have hcall : (Hook.remove key).key? ≠ some k := by simpa [Hook.key?] using Ne.symm hk
      exact ((h.rounds k).other hcall).congr (by simp [hk])
  · intro k
    by_cases hk : k = key
    · subst hk
      simp [recording, isAdded_concat]
    · simp only [recording]
      rw [isAdded_concat_of_ne (by simpa [Hook.key?] using Ne.symm hk), h.added]
      simp [hk]

theorem evict (h : Told p s recorded Held) : Told p s (p.recording.evict recorded).2 Held := by
  refine ⟨?_, ?_, ?_⟩
  · simp only [recording, replay_append, ← h.state]
    rfl
  · intro k
    exact (h.rounds k).other (by simp [Hook.key?])
  · intro k
    simp only [recording]
    rw [isAdded_concat_of_ne (by simp [Hook.key?])]
    exact h.added k

/-- The victim is a key whose round is open. -/
theorem held_of_evict (h : Told p s recorded Held) (hp : p.AnswersAdded s) {victim : κ}
    (hvictim : (p.recording.evict recorded).1 = some victim) : Held victim := by
  refine (h.added victim).mp (hp recorded.2 victim (fun key => ⟨_, h.rounds key⟩) ?_)
  rw [← h.state]
  exact hvictim

end Told

end Policy

/-! ### The named policies -/

namespace NamedPolicy

variable {κ : Type} [DecidableEq κ]

theorem answersAdded (e : Eviction) : policy.AnswersAdded (start e : NamedPolicy κ) := by
  intro calls victim _ hvictim
  obtain ⟨line, htracks, hline⟩ := replay_line e calls
  rw [htracks.evict] at hvictim
  exact (hline.keys victim).mp (List.mem_of_mem_head? hvictim)

end NamedPolicy

namespace Cache

open Policy (Hook Told)

variable {κ α ε σ : Type} [DecidableEq κ] {p : Policy κ σ} {s : σ}

/-- The map has no key twice, and its keys are those whose round is open. -/
structure Driven (p : Policy κ σ) (s : σ) (c : Cache κ α ε (σ × List (Hook κ))) : Prop where
  nodup : (c.entries.map (·.1)).Nodup
  told : Told p s c.tracking (· ∈ c.entries.map (·.1))

theorem mem_keys_without {β : Type} {key k : κ} {map : List (κ × β)} :
    k ∈ (without key map).map (·.1) ↔ k ∈ map.map (·.1) ∧ k ≠ key := by
  simp only [List.mem_map, mem_without]
  constructor
  · rintro ⟨x, ⟨hx, hne⟩, rfl⟩
    exact ⟨⟨x, hx, rfl⟩, hne⟩
  · rintro ⟨⟨x, hx, rfl⟩, hne⟩
    exact ⟨x, ⟨hx, hne⟩, rfl⟩

namespace Driven

variable {c d : Cache κ α ε (σ × List (Hook κ))} {key : κ}

theorem congr (h : Driven p s c) (hentries : d.entries = c.entries)
    (htracking : d.tracking = c.tracking) : Driven p s d := by
  refine ⟨?_, ?_⟩
  · rw [hentries]
    exact h.nodup
  · rw [hentries, htracking]
    exact h.told

/-! ### Serving and dropping -/

theorem lookup (h : Driven p s c) (key : κ) : Driven p s (c.lookup p.recording key).2 := by
  unfold Cache.lookup
  cases hlive : c.live? key with
  | none => exact h
  | some id =>
      have hlookup := (Option.filter_eq_some_iff.mp hlive).1
      have hmem := (lookup_eq_some_iff_mem h.nodup).mp hlookup
      exact ⟨h.nodup, h.told.onAccess (List.mem_map_of_mem hmem)⟩

theorem forget (h : Driven p s c) (hkey : key ∈ c.entries.map (·.1)) :
    Driven p s (c.forget p.recording key) := by
  refine ⟨h.nodup.sublist (List.filter_sublist.map _), ?_⟩
  exact (h.told.onRemove hkey).congr fun k => mem_keys_without.symm

/-- A row of entries of the map is forgotten, one after the other. -/
theorem forgetAll (h : Driven p s c) {row : List (κ × EntryId)}
    (hnodup : (row.map (·.1)).Nodup) (hrow : ∀ x ∈ row, x.1 ∈ c.entries.map (·.1)) :
    Driven p s (row.foldl (fun acc x => acc.forget p.recording x.1) c) := by
  induction row generalizing c with
  | nil => exact h
  | cons x rest ih =>
      rw [List.map_cons, List.nodup_cons] at hnodup
      refine ih (h.forget (hrow x (by simp))) hnodup.2 ?_
      intro y hy
      have hne : y.1 ≠ x.1 := fun heq => hnodup.1 (heq ▸ List.mem_map_of_mem hy)
      exact mem_keys_without.mpr ⟨hrow y (by simp [hy]), hne⟩

theorem remove (h : Driven p s c) (key : κ) : Driven p s (c.remove p.recording key).2 := by
  unfold Cache.remove
  split
  · next hthere =>
      obtain ⟨id, hid⟩ := Option.isSome_iff_exists.mp hthere
      exact h.forget (List.mem_map_of_mem ((lookup_eq_some_iff_mem h.nodup).mp hid))
  · exact h

theorem clear (h : Driven p s c) : Driven p s (c.clear p.recording) :=
  h.forgetAll h.nodup fun _ hx => List.mem_map_of_mem hx

theorem purgeExpired (h : Driven p s c) : Driven p s (c.purgeExpired p.recording).2 := by
  have hnodup : ((c.entries.filter fun x => !c.isLive x.2).map (·.1)).Nodup :=
    h.nodup.sublist (List.filter_sublist.map _)
  have hswept := h.forgetAll hnodup fun x hx => List.mem_map_of_mem (List.mem_of_mem_filter hx)
  exact hswept.congr rfl rfl

/-! ### Landing -/

/-- What an entry replaces is reported as removed before the new one is as added. -/
theorem put (h : Driven p s c) (key : κ) (id : EntryId) :
    Driven p s (Cache.put p.recording key id c) := by
  have hadd {c : Cache κ α ε (σ × List (Hook κ))} (h : Driven p s c)
      (hkey : key ∉ c.entries.map (·.1)) :
      Driven p s { c with
        entries := c.entries ++ [(key, id)]
        tracking := p.recording.onAdd key c.tracking } := by
    refine ⟨?_, (h.told.onAdd hkey).congr ?_⟩
    · rw [List.map_append]
      exact List.nodup_append_comm.mp (List.nodup_cons.mpr ⟨hkey, h.nodup⟩)
    · intro k
      simp only [List.map_append, List.mem_append, List.map_cons, List.map_nil,
        List.mem_singleton]
  unfold Cache.put
  cases hlookup : c.entries.lookup key with
  | none => exact hadd h (lookup_eq_none_iff_not_mem.mp hlookup)
  | some old =>
      have hmem := (lookup_eq_some_iff_mem h.nodup).mp hlookup
      have hgone : key ∉ (c.forget p.recording key).entries.map (·.1) :=
        fun hkey => (mem_keys_without.mp hkey).2 rfl
      exact hadd (h.forget (List.mem_map_of_mem hmem)) hgone

/-- The state after the policy was asked for a victim. -/
theorem asked (h : Driven p s c) :
    Driven p s { c with tracking := (p.recording.evict c.tracking).2 } :=
  ⟨h.nodup, h.told.evict⟩

/-- The state after a victim was named and dropped. -/
theorem evict (hp : p.AnswersAdded s) (h : Driven p s c) {victim : κ}
    {tracking : σ × List (Hook κ)}
    (hevict : p.recording.evict c.tracking = (some victim, tracking)) :
    Driven p s (Cache.evict p.recording victim { c with tracking }) := by
  have hasked := h.asked
  rw [hevict] at hasked
  exact (hasked.forget (h.told.held_of_evict hp (congrArg Prod.fst hevict))).congr rfl rfl

theorem trim (hp : p.AnswersAdded s) (h : Driven p s c) {rounds : Nat}
    (htrim : Cache.trim p.recording rounds c = some d) : Driven p s d := by
  induction rounds generalizing c with
  | zero =>
      simp only [Cache.trim] at htrim
      split at htrim
      · exact Option.some.inj htrim ▸ h
      · cases htrim
  | succ rounds ih =>
      simp only [Cache.trim] at htrim
      split at htrim
      · exact Option.some.inj htrim ▸ h
      · have hasked := h.asked
        split at htrim
        · next tracking hevict =>
            rw [hevict] at hasked
            exact Option.some.inj htrim ▸ hasked
        · next victim tracking hevict =>
            exact ih (h.evict hp hevict) htrim

/-- A round for every entry is enough, since every victim is an entry. -/
theorem trim_isSome (hp : p.AnswersAdded s) (h : Driven p s c) {rounds : Nat}
    (hrounds : c.entries.length ≤ rounds) :
    (Cache.trim p.recording rounds c).isSome = true := by
  induction rounds generalizing c with
  | zero =>
      have hfits : c.fits = true := by
        unfold Cache.fits
        split
        · rfl
        · exact decide_eq_true (Nat.le_trans hrounds (Nat.zero_le _))
      simp [trim_of_fits _ hfits]
  | succ rounds ih =>
      simp only [Cache.trim]
      split
      · rfl
      · split
        · rfl
        · next victim tracking hevict =>
            have hheld := h.told.held_of_evict hp (congrArg Prod.fst hevict)
            refine ih (h.evict hp hevict) ?_
            have hfewer : (without victim c.entries).length < c.entries.length := by
              obtain ⟨x, hx, rfl⟩ := List.mem_map.mp hheld
              exact List.length_filter_lt_length_iff_exists.mpr ⟨x, hx, by simp⟩
            exact Nat.le_of_lt_succ (Nat.lt_of_lt_of_le hfewer hrounds)

/-- The state of a landing before it evicts. -/
theorem put_make (h : Driven p s c) (key : κ) (payload : α) :
    Driven p s (Cache.put p.recording key c.made.length
      ((c.make payload).purgeExpired p.recording).2) := by
  have hmake : Driven p s (c.make payload) := h.congr rfl rfl
  exact hmake.purgeExpired.put key _

theorem landWithin (hp : p.AnswersAdded s) (h : Driven p s c) {rounds : Nat} {flight : FlightId}
    {made : Except ε α} (hland : c.landWithin p.recording rounds flight made = some d) :
    Driven p s d := by
  rcases landWithin_cases _ hland with ⟨_, rfl⟩ | ⟨key, e, _, _, rfl⟩ |
    ⟨key, payload, e, _, _, hinsert, rfl⟩
  · exact h
  · exact h.congr rfl rfl
  · rw [insert_eq] at hinsert
    have hcounted : Driven p s { c with
        counters := { c.counters with compiles := c.counters.compiles + 1 } } := h.congr rfl rfl
    exact ((hcounted.put_make key payload).trim hp hinsert).congr rfl rfl

/-- A landing comes to its end. -/
theorem land_isSome (hp : p.AnswersAdded s) (h : Driven p s c) (flight : FlightId)
    (made : Except ε α) : (c.land p.recording flight made).isSome = true := by
  unfold Cache.land Cache.landWithin
  split
  · next key _ =>
      cases made with
      | error e => rfl
      | ok payload =>
          let counted : Cache κ α ε (σ × List (Hook κ)) := { c with
            counters := { c.counters with compiles := c.counters.compiles + 1 } }
          have hcounted : Driven p s counted := h.congr rfl rfl
          have hlength : (Cache.put p.recording key counted.made.length
              ((counted.make payload).purgeExpired p.recording).2).entries.length ≤
                c.entries.length + 1 := by
            have hpurge := (purgeExpired_drops p.recording (counted.make payload)).entries
            rw [put_entries, List.length_append, List.length_singleton]
            exact Nat.succ_le_succ
              (Nat.le_trans (List.length_filter_le _ _) hpurge.length_le)
          have hsome := (hcounted.put_make key payload).trim_isSome hp hlength
          rw [← insert_eq] at hsome
          obtain ⟨d, hd⟩ := Option.isSome_iff_exists.mp hsome
          simp only [counted] at hd
          simp [hd]
  · rfl

theorem ask (h : Driven p s c) (key : κ) : Driven p s (c.ask p.recording key).2 := by
  rw [ask_eq]
  split
  · exact h.lookup key
  · split <;> exact h.congr rfl rfl

end Driven

end Cache

namespace Traffic

open Cache Policy

variable {κ α ε σ : Type} [DecidableEq κ] {p : Policy κ σ} {s : σ}
  {t u : Traffic κ α ε (σ × List (Hook κ))}

theorem advance_driven (h : Driven p s t.cache) (x : Caller κ ε) :
    Driven p s (advance p.recording t.cache x).2 := by
  cases x with
  | looking key =>
      rw [advance_looking_snd]
      exact h.lookup key
  | deciding key =>
      rw [advance_deciding_snd]
      exact h.ask key
  | waiting flight =>
      simp only [advance]
      split <;> exact h
  | done o => exact h
  | cancelled => exact h

/-- Every step keeps the rounds of every key. -/
theorem step_driven (hp : p.AnswersAdded s) (h : Driven p s t.cache) {a : Step κ α ε}
    (hstep : t.step p.recording a = some u) : Driven p s u.cache := by
  cases a with
  | call key =>
      cases hstep
      exact h
  | proceed i =>
      simp only [step] at hstep
      split at hstep
      · cases hstep
        exact h
      · next x _ =>
          cases hstep
          exact advance_driven h x
  | cancel i =>
      cases hstep
      exact h
  | land flight made rounds =>
      obtain ⟨d, hland, rfl⟩ := (step_land_iff _).mp hstep
      exact h.landWithin hp hland
  | get key =>
      cases hstep
      exact h.lookup key
  | remove key =>
      cases hstep
      exact h.remove key
  | clear =>
      cases hstep
      exact h.clear
  | purgeExpired =>
      cases hstep
      exact h.purgeExpired
  | wait time =>
      cases hstep
      exact h.congr rfl rfl

theorem start_driven (limits : Limits) :
    Driven p s (start limits (s, []) : Traffic κ α ε (σ × List (Hook κ))).cache := by
  refine ⟨List.nodup_nil, rfl, fun key => ⟨[], none, rfl, by simp [start]⟩, ?_⟩
  simp [start, isAdded]

/-- What a policy is told, in every state `t` that any steps lead to. The calls on each key are
rounds, and the last of them is open if and only if the key is in the map. No landing is kept from
its end by the policy, a round for every entry being enough. -/
theorem told_in_rounds (p : Policy κ σ) (s : σ) (hp : p.AnswersAdded s) (limits : Limits)
    (steps : List (Step κ α ε)) (t : Traffic κ α ε (σ × List (Hook κ)))
    (hrun : run p.recording (start limits (s, [])) steps = some t) :
    (∀ key, InRounds key t.cache.tracking.2 (key ∈ t.cache.entries.map (·.1))) ∧
      ∀ f made, (t.cache.land p.recording f made).isSome = true := by
  have hdriven : Driven p s t.cache :=
    run_keeps p.recording (fun _ => True) (fun t => Driven p s t.cache)
      (fun _ _ _ _ ht h => step_driven hp ht h) (fun _ _ => trivial) (start_driven limits) hrun
  exact ⟨hdriven.told.rounds, hdriven.land_isSome hp⟩

/-- In a cache for one entry that lives for five nanoseconds: key 1 is used, evicted by key 2, and
back when key 2 has expired, which is swept and not evicted. -/
theorem told_in_rounds_of_two_keys :
    let limits : Limits := { maxEntries := some 1, timeToLive := some ⟨5⟩ }
    let steps : List (Step Nat String String) :=
      [.call 1, .proceed 0, .proceed 0, .land 0 (.ok "one") 1, .get 1,
        .call 2, .proceed 1, .proceed 1, .land 1 (.ok "two") 1, .wait ⟨5⟩,
        .call 1, .proceed 2, .proceed 2, .land 2 (.ok "one") 1]
    ∃ t, run NamedPolicy.policy.recording (start limits (.start .lru, [])) steps = some t ∧
      t.cache.tracking.2 =
        [.add 1, .access 1, .add 2, .evict (some 1), .remove 1, .remove 2, .add 1] ∧
      InRounds 1 t.cache.tracking.2 True ∧ InRounds 2 t.cache.tracking.2 False := by
  intro limits steps
  have hseen : (run NamedPolicy.policy.recording (start limits (.start .lru, [])) steps).map
      (fun t => (t.cache.tracking.2, t.cache.entries.map (·.1))) =
        some ([.add 1, .access 1, .add 2, .evict (some 1), .remove 1, .remove 2, .add 1], [1]) := by
    decide +kernel
  obtain ⟨t, hrun, ht⟩ := Option.map_eq_some_iff.mp hseen
  obtain ⟨hcalls, hkeys⟩ := Prod.mk.inj ht
  have hrounds := (told_in_rounds NamedPolicy.policy (.start .lru)
    (NamedPolicy.answersAdded .lru) limits steps t hrun).1
  refine ⟨t, hrun, hcalls, (hrounds 1).congr ?_, (hrounds 2).congr ?_⟩
  · simp [hkeys]
  · simp [hkeys]

end Traffic

end Scriptlet
