import Scriptlet.Expr.Depth

/-!
The loop that measures a tree. A turn takes one part off the stack and puts the parts of that part
in its place, so the stack may grow at every turn. What shrinks is the number of nodes on it, by one
a turn; what no turn changes is the greatest level that was met or is still to be met.
-/

namespace Scriptlet.Expr

theorem height_eq (e : Expr) : e.height = 1 + greatestHeight e.children := by
  cases e <;> simp [height, children, greatestHeight]

theorem greatestHeight_eq (es : List Expr) : greatestHeight es = (es.map height).foldr max 0 := by
  induction es with
  | nil => rfl
  | cons e es ih => rw [greatestHeight, ih, List.map_cons, List.foldr_cons]

/-- The greatest level that is reached from the parts on a stack. -/
def reach : List (Expr × Nat) → Nat
  | [] => 0
  | (e, level) :: stack => max (level + greatestHeight e.children) (reach stack)

theorem reach_push (level : Nat) (es : List Expr) (stack : List (Expr × Nat)) :
    max level (reach (push (level + 1) es stack)) =
      max (level + greatestHeight es) (reach stack) := by
  induction es generalizing stack with
  | nil => rfl
  | cons e es ih =>
      rw [push, ih, reach, greatestHeight, height_eq e]
      omega

/-! ### Turns of the loop -/

/-- The greatest level so far, and the stack. -/
abbrev Walk : Type := Nat × List (Expr × Nat)

/-- One turn of the loop; there is none on an empty stack. -/
def turn : Walk → Option Walk
  | (_, []) => none
  | (deepest, (e, level) :: stack) =>
      some (max deepest level, push (level + 1) e.children stack)

def turns : Nat → Walk → Option Walk
  | 0, w => some w
  | n + 1, w => turn w >>= turns n

theorem pending_turn {w w' : Walk} (h : turn w = some w') : pending w.2 = pending w'.2 + 1 := by
  obtain ⟨deepest, _ | ⟨⟨e, level⟩, stack⟩⟩ := w
  · cases h
  · obtain rfl := Option.some.inj h
    rw [pending_push, pending, List.map_cons, totalNodes, nodes_eq]
    simp only [pending]
    omega

theorem reach_turn {w w' : Walk} (h : turn w = some w') :
    max w'.1 (reach w'.2) = max w.1 (reach w.2) := by
  obtain ⟨deepest, _ | ⟨⟨e, level⟩, stack⟩⟩ := w
  · cases h
  · obtain rfl := Option.some.inj h
    have hpush := reach_push level e.children stack
    simp only [reach]
    omega

/-- The loop ends, after as many turns as there are nodes on the stack. -/
theorem turns_pending {n : Nat} {w : Walk} (hn : pending w.2 = n) :
    turns n w = some (max w.1 (reach w.2), []) := by
  induction n generalizing w with
  | zero =>
      obtain ⟨deepest, _ | ⟨⟨e, level⟩, stack⟩⟩ := w
      · rw [turns, reach, Nat.max_zero]
      · rw [pending, List.map_cons, totalNodes, nodes_eq] at hn
        omega
  | succ n ih =>
      obtain ⟨deepest, _ | ⟨⟨e, level⟩, stack⟩⟩ := w
      · cases hn
      · have hturn : turn (deepest, (e, level) :: stack) =
            some (max deepest level, push (level + 1) e.children stack) := rfl
        have hpending := pending_turn hturn
        rw [turns, hturn, Option.bind_eq_bind, Option.bind_some, ih (by omega), reach_turn hturn]

/-- What the loop answers is what its turns come to. -/
theorem visit_of_turns {n : Nat} {w : Walk} {deepest : Nat} (h : turns n w = some (deepest, [])) :
    visit w.1 w.2 = deepest := by
  induction n generalizing w with
  | zero =>
      obtain rfl := Option.some.inj h
      rw [visit]
  | succ n ih =>
      obtain ⟨_, _ | ⟨⟨e, level⟩, stack⟩⟩ := w
      · cases h
      · rw [visit]
        exact ih h

theorem visit_eq (deepest : Nat) (stack : List (Expr × Nat)) :
    visit deepest stack = max deepest (reach stack) :=
  visit_of_turns (turns_pending (w := (deepest, stack)) rfl)

theorem depth_height (e : Expr) : e.depth = e.height := by
  rw [depth, visit_eq, reach, reach, height_eq]
  omega

/-- The loop over a tree ends after one turn for each of its nodes, and what it has found by then is
the height: one for a tree without parts, otherwise one more than the greatest height of the parts. -/
theorem loop_measures_height (e : Expr) :
    turns e.nodes (0, [(e, 1)]) = some (e.depth, []) ∧ e.depth = e.height ∧
      e.height = 1 + (e.children.map height).foldr max 0 := by
  refine ⟨?_, depth_height e, ?_⟩
  · have hnodes : pending [(e, 1)] = e.nodes := by
      simp only [pending, List.map_cons, List.map_nil, totalNodes, Nat.add_zero]
    rw [turns_pending (w := (0, [(e, 1)])) hnodes, depth, visit_eq]
  · rw [height_eq, greatestHeight_eq]

end Scriptlet.Expr
