import Scriptlet.Grammar.Diagnostic
import Scriptlet.Grammar.Phrase

/-!
The matching of the grammar with a record of its moments. Whenever the rule for an expression is
entered, for good or in an attempt that is given up later, the record notes what is open there and
what is still ahead. A bracket or a branch is opened right in front of such an entry and nowhere
else, so at no moment is more open than at one of the entries.

The record is faithful: without it the matching is that of the grammar.
-/

namespace Scriptlet.Grammar

/-- An entry into the rule for an expression: what is open there, outermost first, and the lexemes
ahead. -/
structure Moment where
  openers : List Opener
  ahead : List Lexeme
  deriving Repr, DecidableEq

/-- The moment as it is seen from outside of what is open around it. -/
def Moment.within (opener : Opener) (m : Moment) : Moment :=
  { m with openers := opener :: m.openers }

/-- What a rule gives, with the moments of its matching in order. -/
structure Matched (α : Type) where
  moments : List Moment
  result : α

namespace Matched

variable {α β : Type}

/-- Failure is a result like any other here, so an attempt that fails leaves its moments. -/
instance : Monad Matched where
  pure a := ⟨[], a⟩
  bind x f := ⟨x.moments ++ (f x.result).moments, (f x.result).result⟩

/-- Enters the rule for an expression. -/
def enter (ahead : List Lexeme) : Matched Unit :=
  ⟨[⟨[], ahead⟩], ()⟩

/-- A matching inside of what is open around it. -/
def under (opener : Opener) (x : Matched α) : Matched α :=
  ⟨x.moments.map (·.within opener), x.result⟩

@[simp] theorem result_pure (a : α) : (pure a : Matched α).result = a := rfl

@[simp] theorem moments_pure (a : α) : (pure a : Matched α).moments = [] := rfl

@[simp] theorem result_bind (x : Matched α) (f : α → Matched β) :
    (x >>= f).result = (f x.result).result := rfl

@[simp] theorem moments_bind (x : Matched α) (f : α → Matched β) :
    (x >>= f).moments = x.moments ++ (f x.result).moments := rfl

@[simp] theorem result_map (f : α → β) (x : Matched α) : (f <$> x).result = f x.result := rfl

@[simp] theorem moments_map (f : α → β) (x : Matched α) : (f <$> x).moments = x.moments :=
  List.append_nil _

@[simp] theorem moments_under (opener : Opener) (x : Matched α) :
    (x.under opener).moments = x.moments.map (·.within opener) := rfl

@[simp] theorem result_under (opener : Opener) (x : Matched α) :
    (x.under opener).result = x.result := rfl

end Matched

/-- A rule whose matching is recorded. -/
abbrev Watched (α : Type) := List Lexeme → Matched (Option (α × List Lexeme))

namespace Watched

section Rules

variable (nested : Watched Phrase)

/-- Further items, each behind a comma. -/
def furtherItems : Nat → List Lexeme → Matched (List Phrase × List Lexeme)
  | 0, s => pure ([], s)
  | turns + 1, s =>
      match s with
      | .mark ',' _ :: rest => do
          match ← nested rest with
          | some (item, rest) =>
              let (items, rest) ← furtherItems turns rest
              pure (item :: items, rest)
          | none => pure ([], s)
      | _ => pure ([], s)

/-- Items between commas, possibly none. -/
def items (turns : Nat) (s : List Lexeme) : Matched (List Phrase × List Lexeme) := do
  match ← nested s with
  | some (item, rest) =>
      let (items, rest) ← furtherItems nested turns rest
      pure (item :: items, rest)
  | none => pure ([], s)

/-- Items with the closing bracket behind them. -/
def closedBy (close : Char) : List Phrase × List Lexeme → Option (List Phrase × List Lexeme)
  | (items, .mark c _ :: rest) => if c = close then some (items, rest) else none
  | _ => none

def itemsUpTo (close : Char) (turns : Nat) : Watched (List Phrase) := fun s =>
  closedBy close <$> items nested turns s

def primary (turns : Nat) : Watched Phrase := fun s =>
  match literal s with
  | some result => pure (some result)
  | none =>
      match s with
      | .mark '[' _ :: rest => do
          match ← (itemsUpTo nested ']' turns rest).under .list with
          | some (items, rest) => pure (some (.list items, rest))
          | none => pure none
      | .mark '(' _ :: rest => do
          match ← (nested rest).under .group with
          | some (inner, .mark ')' _ :: rest) => pure (some (.group inner, rest))
          | _ => pure none
      | _ =>
          match identifier s with
          | some (name, rest) => pure (some (.name name, rest))
          | none => pure none

/-- A member, an index or a call behind `base`. -/
def suffix (base : Phrase) (turns : Nat) : Watched Phrase
  | .mark '.' _ :: rest =>
      match identifier rest with
      | some (property, rest) => pure (some (.member base property, rest))
      | none => pure none
  | .mark '[' _ :: rest => do
      match ← (nested rest).under .index with
      | some (key, .mark ']' _ :: rest) => pure (some (.index base key, rest))
      | _ => pure none
  | .mark '(' _ :: rest => do
      match ← (itemsUpTo nested ')' turns rest).under .call with
      | some (args, rest) => pure (some (.call base args, rest))
      | none => pure none
  | _ => pure none

def suffixes : Nat → Phrase → List Lexeme → Matched (Phrase × List Lexeme)
  | 0, base, s => pure (base, s)
  | turns + 1, base, s => do
      match ← suffix nested base turns s with
      | some (phrase, rest) => suffixes turns phrase rest
      | none => pure (base, s)

def suffixed (turns : Nat) : Watched Phrase := fun s => do
  match ← primary nested turns s with
  | some (base, rest) => some <$> suffixes nested turns base rest
  | none => pure none

def unary (turns : Nat) : Watched Phrase := fun s => do
  let (ops, rest) := signs s
  match ← suffixed nested turns rest with
  | some (operand, rest) =>
      pure (some (if ops.isEmpty then operand else .signed ops operand, rest))
  | none => pure none

/-- Pairs of an operator and its right operand, folded to the left. -/
def chainFrom (op : Rule BinaryOp) (operand : Watched Phrase) :
    Nat → Phrase → List Lexeme → Matched (Phrase × List Lexeme)
  | 0, left, s => pure (left, s)
  | turns + 1, left, s =>
      match op s with
      | some (o, rest) => do
          match ← operand rest with
          | some (right, rest) => chainFrom op operand turns (.binary o left right) rest
          | none => pure (left, s)
      | none => pure (left, s)

def binary (turns : Nat) : List Level → Watched Phrase
  | [] => unary nested turns
  | level :: tighter => fun s => do
      match ← binary turns tighter s with
      | some (left, rest) =>
          some <$> chainFrom (operator level) (binary turns tighter) turns left rest
      | none => pure none

/-- The branches behind a test. -/
def branches (test : Phrase) (s : List Lexeme) : Matched (Phrase × List Lexeme) :=
  match s with
  | .mark '?' _ :: afterMark => do
      match ← (nested afterMark).under .branch with
      | some (thenP, .mark ':' _ :: afterColon) =>
          match ← (nested afterColon).under .branch with
          | some (elseP, behind) => pure (.conditional test thenP elseP, behind)
          | none => pure (test, s)
      | _ => pure (test, s)
  | _ => pure (test, s)

def conditional (turns : Nat) : Watched Phrase := fun s => do
  match ← binary nested turns Level.all s with
  | none => pure none
  | some (test, rest) => some <$> branches nested test rest

end Rules

def expression : Nat → Watched Phrase
  | 0 => fun s => do
      Matched.enter s
      pure none
  | depth + 1 => fun s => do
      Matched.enter s
      conditional (expression depth) (depth + 1) s

/-! ### Without the record -/

section Forgetting

variable {watched : Watched Phrase} {nested : Rule Phrase}

theorem furtherItems_result (h : ∀ s, (watched s).result = nested s) (turns : Nat)
    (s : List Lexeme) :
    (furtherItems watched turns s).result = Grammar.furtherItems nested turns s := by
  induction turns generalizing s with
  | zero => rfl
  | succ turns ih =>
      unfold furtherItems
      split
      · next rest =>
          simp only [Grammar.furtherItems, Matched.result_bind, h]
          cases nested rest with
          | none => rfl
          | some found => simp only [Matched.result_bind, Matched.result_pure, ih]
      · simp [Grammar.furtherItems]

theorem itemsUpTo_result (h : ∀ s, (watched s).result = nested s) (close : Char) (turns : Nat)
    (s : List Lexeme) :
    (itemsUpTo watched close turns s).result = Grammar.itemsUpTo nested close turns s := by
  unfold itemsUpTo items Grammar.itemsUpTo
  rw [Matched.result_map, Matched.result_bind, h]
  cases nested s with
  | none => rcases s with _ | ⟨_ | _, rest⟩ <;> rfl
  | some found =>
      dsimp only
      rw [Matched.result_bind, furtherItems_result h]
      rcases Grammar.furtherItems nested turns found.2 with ⟨items, _ | ⟨_ | _, rest⟩⟩ <;> rfl

theorem primary_result (h : ∀ s, (watched s).result = nested s) (turns : Nat) (s : List Lexeme) :
    (primary watched turns s).result = Grammar.primary nested turns s := by
  unfold primary Grammar.primary
  cases literal s with
  | some found => rfl
  | none =>
      dsimp only
      split
      · next rest =>
          simp only [Matched.result_bind, Matched.result_under, itemsUpTo_result h]
          cases Grammar.itemsUpTo nested ']' turns rest <;> rfl
      · next rest =>
          simp only [Matched.result_bind, Matched.result_under, h]
          generalize nested rest = found
          split
          · rfl
          · simp
      · cases identifier s <;> simp

theorem suffix_result (h : ∀ s, (watched s).result = nested s) (base : Phrase) (turns : Nat)
    (s : List Lexeme) :
    (suffix watched base turns s).result = Grammar.suffix nested base turns s := by
  unfold suffix
  split
  · next rest =>
      simp only [Grammar.suffix]
      cases identifier rest <;> rfl
  · next rest =>
      simp only [Grammar.suffix, Matched.result_bind, Matched.result_under, h]
      generalize nested rest = found
      split
      · rfl
      · simp
  · next rest =>
      simp only [Grammar.suffix, Matched.result_bind, Matched.result_under, itemsUpTo_result h]
      cases Grammar.itemsUpTo nested ')' turns rest <;> rfl
  · simp [Grammar.suffix]

theorem suffixes_result (h : ∀ s, (watched s).result = nested s) (turns : Nat) (base : Phrase)
    (s : List Lexeme) :
    (suffixes watched turns base s).result = Grammar.suffixes nested turns base s := by
  induction turns generalizing base s with
  | zero => rfl
  | succ turns ih =>
      unfold suffixes Grammar.suffixes
      simp only [Matched.result_bind, suffix_result h]
      cases Grammar.suffix nested base turns s with
      | none => rfl
      | some found => exact ih _ _

theorem suffixed_result (h : ∀ s, (watched s).result = nested s) (turns : Nat) (s : List Lexeme) :
    (suffixed watched turns s).result = Grammar.suffixed nested turns s := by
  unfold suffixed Grammar.suffixed
  simp only [Matched.result_bind, primary_result h]
  cases Grammar.primary nested turns s with
  | none => rfl
  | some found => exact congrArg some (suffixes_result h _ _ _)

theorem unary_result (h : ∀ s, (watched s).result = nested s) (turns : Nat) (s : List Lexeme) :
    (unary watched turns s).result = Grammar.unary nested turns s := by
  unfold unary Grammar.unary
  simp only [Matched.result_bind, suffixed_result h]
  cases Grammar.suffixed nested turns (signs s).2 <;> rfl

theorem chainFrom_result {op : Rule BinaryOp} {watchedOperand : Watched Phrase}
    {operand : Rule Phrase} (hoperand : ∀ s, (watchedOperand s).result = operand s) (turns : Nat)
    (left : Phrase) (s : List Lexeme) :
    (chainFrom op watchedOperand turns left s).result =
      Grammar.chainFrom op operand turns left s := by
  induction turns generalizing left s with
  | zero => rfl
  | succ turns ih =>
      unfold chainFrom Grammar.chainFrom
      cases op s with
      | none => rfl
      | some found =>
          simp only [Matched.result_bind, hoperand]
          cases operand found.2 with
          | none => rfl
          | some right => exact ih _ _

theorem binary_result (h : ∀ s, (watched s).result = nested s) (turns : Nat) (levels : List Level)
    (s : List Lexeme) :
    (binary watched turns levels s).result = Grammar.binary nested turns levels s := by
  induction levels generalizing s with
  | nil => exact unary_result h turns s
  | cons level tighter ih =>
      unfold binary Grammar.binary
      simp only [Matched.result_bind, ih]
      cases Grammar.binary nested turns tighter s with
      | none => rfl
      | some found => exact congrArg some (chainFrom_result ih _ _ _)

theorem conditional_result (h : ∀ s, (watched s).result = nested s) (turns : Nat)
    (s : List Lexeme) :
    (conditional watched turns s).result = Grammar.conditional nested turns s := by
  unfold conditional Grammar.conditional
  simp only [Matched.result_bind, binary_result h]
  cases Grammar.binary nested turns Level.all s with
  | none => rfl
  | some found =>
      obtain ⟨test, rest⟩ := found
      change some (branches watched test rest).result = _
      unfold branches
      split
      · next afterMark =>
          simp only [Matched.result_bind, Matched.result_under, h]
          generalize nested afterMark = found
          split
          · next afterColon =>
              simp only [Matched.result_bind, Matched.result_under, h]
              cases nested afterColon <;> rfl
          · simp
      · simp

end Forgetting

/-- The record changes nothing in the matching. -/
theorem expression_result (depth : Nat) (s : List Lexeme) :
    (expression depth s).result = Grammar.expression depth s := by
  induction depth generalizing s with
  | zero => rfl
  | succ depth ih => exact conditional_result ih (depth + 1) s

end Watched

end Scriptlet.Grammar
