/-!
Eviction policies. A policy is told when an entry is added, used and removed, and answers which
key should go when the cache is too full. It keeps its own state and is never asked to be right:
what it answers may be no key at all, or a key that the cache does not hold.
-/

namespace Scriptlet

/-- A state machine over keys. -/
structure Policy (κ σ : Type) where
  onAdd : κ → σ → σ
  onAccess : κ → σ → σ
  onRemove : κ → σ → σ
  evict : σ → Option κ × σ

/-- Which entry a bounded cache drops first. -/
inductive Eviction where
  | lru
  | fifo
  deriving Repr, DecidableEq

variable {κ : Type} [DecidableEq κ]

/-- The tick of the last use of every tracked key, and the last tick given. -/
structure Lru (κ : Type) where
  ticks : List (κ × Nat) := []
  clock : Nat := 0
  deriving Repr

namespace Lru

def touch (key : κ) (s : Lru κ) : Lru κ :=
  { ticks := (key, s.clock + 1) :: s.ticks.filter (·.1 ≠ key), clock := s.clock + 1 }

def tracks (s : Lru κ) (key : κ) : Bool :=
  s.ticks.any (·.1 = key)

/-- The pair with the least tick. -/
def oldest : List (κ × Nat) → Option (κ × Nat)
  | [] => none
  | p :: rest =>
      match oldest rest with
      | none => some p
      | some q => if p.2 ≤ q.2 then some p else some q

/-- The key whose last use is longest ago goes first; using a key that is not tracked is
nothing. -/
def policy : Policy κ (Lru κ) where
  onAdd := touch
  onAccess key s := if s.tracks key then s.touch key else s
  onRemove key s := { s with ticks := s.ticks.filter (·.1 ≠ key) }
  evict s := ((oldest s.ticks).map (·.1), s)

end Lru

/-- Tracked keys in the order in which they were last added. -/
abbrev Fifo (κ : Type) := List κ

/-- The key that was added first goes first; adding it again puts it at the back. -/
def Fifo.policy : Policy κ (Fifo κ) where
  onAdd key s := s.filter (· ≠ key) ++ [key]
  onAccess _ s := s
  onRemove key s := s.filter (· ≠ key)
  evict s := (s.head?, s)

/-- The state of one of the two policies that a configuration can name. -/
inductive NamedPolicy (κ : Type) where
  | lru (s : Lru κ)
  | fifo (s : Fifo κ)
  deriving Repr

namespace NamedPolicy

def start : Eviction → NamedPolicy κ
  | .lru => .lru {}
  | .fifo => .fifo []

def policy : Policy κ (NamedPolicy κ) where
  onAdd key
    | .lru s => .lru (Lru.policy.onAdd key s)
    | .fifo s => .fifo (Fifo.policy.onAdd key s)
  onAccess key
    | .lru s => .lru (Lru.policy.onAccess key s)
    | .fifo s => .fifo (Fifo.policy.onAccess key s)
  onRemove key
    | .lru s => .lru (Lru.policy.onRemove key s)
    | .fifo s => .fifo (Fifo.policy.onRemove key s)
  evict
    | .lru s => ((Lru.policy.evict s).1, .lru (Lru.policy.evict s).2)
    | .fifo s => ((Fifo.policy.evict s).1, .fifo (Fifo.policy.evict s).2)

end NamedPolicy

namespace Policy

/-- One call of a policy. -/
inductive Hook (κ : Type) where
  | add (key : κ)
  | access (key : κ)
  | remove (key : κ)
  | evict (answer : Option κ)
  deriving Repr, DecidableEq

/-- The policy together with the calls made so far, latest last. -/
def recording {σ : Type} (p : Policy κ σ) : Policy κ (σ × List (Hook κ)) where
  onAdd key s := (p.onAdd key s.1, s.2 ++ [.add key])
  onAccess key s := (p.onAccess key s.1, s.2 ++ [.access key])
  onRemove key s := (p.onRemove key s.1, s.2 ++ [.remove key])
  evict s :=
    let (answer, next) := p.evict s.1
    (answer, next, s.2 ++ [.evict answer])

/-- The policy that never lets anything go. -/
def keepAll {σ : Type} (p : Policy κ σ) : Policy κ σ :=
  { p with evict := fun s => (none, s) }

end Policy

end Scriptlet
