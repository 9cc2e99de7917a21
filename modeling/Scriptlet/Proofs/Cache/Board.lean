import Scriptlet.Proofs.Cache.Changes

/-!
The board of a cache: its flights and what is counted of them. Starting, joining and failing a
compile change the board and nothing else, and nothing else looks at it. So an operation on the
entries does the same to two caches that differ in their boards, and each keeps its own.
-/

namespace Scriptlet

/-- What starts, joins and failures leave behind. -/
structure Board (κ ε : Type) where
  flights : List (Flight κ ε)
  inFlight : List (κ × FlightId)
  misses : Nat
  coalesced : Nat
  compileFailures : Nat

namespace Cache

variable {κ α ε σ : Type}

def board (c : Cache κ α ε σ) : Board κ ε where
  flights := c.flights
  inFlight := c.inFlight
  misses := c.counters.misses
  coalesced := c.counters.coalesced
  compileFailures := c.counters.compileFailures

def withBoard (b : Board κ ε) (c : Cache κ α ε σ) : Cache κ α ε σ :=
  { c with
    flights := b.flights
    inFlight := b.inFlight
    counters := { c.counters with
      misses := b.misses, coalesced := b.coalesced, compileFailures := b.compileFailures } }

/-- What is not on the board is the same. -/
def SameOffBoard (c d : Cache κ α ε σ) : Prop :=
  d = c.withBoard d.board

variable {b : Board κ ε} {c d : Cache κ α ε σ}

/-- An operation that does not look at the board keeps it. -/
theorem board_of_withBoard {op : Cache κ α ε σ → Cache κ α ε σ}
    (hop : ∀ b c, op (c.withBoard b) = (op c).withBoard b) (c : Cache κ α ε σ) :
    (op c).board = c.board := by
  have hkept := congrArg board (hop c.board c)
  exact hkept

variable [DecidableEq κ]

theorem lookup_withBoard (p : Policy κ σ) (key : κ) (b : Board κ ε) (c : Cache κ α ε σ) :
    (c.withBoard b).lookup p key = ((c.lookup p key).1, (c.lookup p key).2.withBoard b) := by
  have hlive : (c.withBoard b).live? key = c.live? key := rfl
  unfold lookup
  rw [hlive]
  split <;> rfl

theorem foldl_forget_withBoard (p : Policy κ σ) (row : List (κ × EntryId)) (b : Board κ ε)
    (c : Cache κ α ε σ) :
    row.foldl (fun acc x => acc.forget p x.1) (c.withBoard b) =
      (row.foldl (fun acc x => acc.forget p x.1) c).withBoard b := by
  induction row generalizing c with
  | nil => rfl
  | cons x rest ih => exact ih (c.forget p x.1)

theorem remove_withBoard (p : Policy κ σ) (key : κ) (b : Board κ ε) (c : Cache κ α ε σ) :
    ((c.withBoard b).remove p key).2 = (c.remove p key).2.withBoard b := by
  have hentries : (c.withBoard b).entries = c.entries := rfl
  unfold remove
  rw [hentries]
  split <;> rfl

theorem clear_withBoard (p : Policy κ σ) (b : Board κ ε) (c : Cache κ α ε σ) :
    (c.withBoard b).clear p = (c.clear p).withBoard b :=
  foldl_forget_withBoard p c.entries b c

theorem purgeExpired_withBoard (p : Policy κ σ) (b : Board κ ε) (c : Cache κ α ε σ) :
    ((c.withBoard b).purgeExpired p).2 = (c.purgeExpired p).2.withBoard b := by
  have hswept := foldl_forget_withBoard p (c.entries.filter fun x => !c.isLive x.2) b c
  have hexpired : ((c.withBoard b).entries.filter fun x => !(c.withBoard b).isLive x.2) =
      c.entries.filter fun x => !c.isLive x.2 := rfl
  simp only [purgeExpired, hexpired, hswept]
  rfl

theorem put_withBoard (p : Policy κ σ) (key : κ) (id : EntryId) (b : Board κ ε)
    (c : Cache κ α ε σ) : put p key id (c.withBoard b) = (put p key id c).withBoard b := by
  have hentries : (c.withBoard b).entries = c.entries := rfl
  unfold put
  rw [hentries]
  split <;> rfl

theorem readied_withBoard (p : Policy κ σ) (payload : α) (b : Board κ ε) (c : Cache κ α ε σ) :
    (c.withBoard b).readied p payload = (c.readied p payload).withBoard b :=
  purgeExpired_withBoard p b (({ c with
    counters := { c.counters with compiles := c.counters.compiles + 1 } } :
      Cache κ α ε σ).make payload)

theorem trim_withBoard (p : Policy κ σ) (rounds : Nat) (b : Board κ ε) (c : Cache κ α ε σ) :
    trim p rounds (c.withBoard b) = (trim p rounds c).map (withBoard b) ∧
      victims p rounds (c.withBoard b) = victims p rounds c := by
  have hfits (c : Cache κ α ε σ) : (c.withBoard b).fits = c.fits := rfl
  have htracking (c : Cache κ α ε σ) : (c.withBoard b).tracking = c.tracking := rfl
  induction rounds generalizing c with
  | zero =>
      simp only [trim, victims, hfits, and_true]
      split <;> rfl
  | succ rounds ih =>
      simp only [trim, victims, hfits, htracking]
      rcases p.evict c.tracking with ⟨_ | victim, tracking⟩
      · constructor <;> split <;> rfl
      · obtain ⟨htrim, hvictims⟩ := ih (evict p victim { c with tracking })
        constructor
        · split
          · rfl
          · exact htrim
        · split
          · rfl
          · exact congrArg (victim :: ·) hvictims

theorem evicted_withBoard (p : Policy κ σ) (rounds : Nat) (key : κ) (payload : α)
    (b : Board κ ε) (c : Cache κ α ε σ) :
    (c.withBoard b).evicted p rounds key payload = c.evicted p rounds key payload := by
  have hmade : (c.withBoard b).made = c.made := rfl
  rw [evicted, evicted, readied_withBoard, put_withBoard, hmade]
  exact (trim_withBoard p rounds b _).2

theorem board_trim (p : Policy κ σ) {rounds : Nat} (h : trim p rounds c = some d) :
    d.board = c.board := by
  obtain ⟨tracking, rfl⟩ := trim_eq p h
  rfl

end Cache

end Scriptlet
