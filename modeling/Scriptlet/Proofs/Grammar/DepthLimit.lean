import Scriptlet.Grammar.Parse
import Scriptlet.Proofs.Grammar.Building
import Scriptlet.Proofs.Grammar.Guard
import Scriptlet.Proofs.Grammar.Reading
import Scriptlet.Proofs.Outcome

/-!
The limit on the depth of a tree is exact. A builder with a limit checks each node when it makes
it, long before the tree is complete. It refuses a tree exactly when the whole of it, as the builder
without a limit makes it, is too deep: a part is never deeper than what is made of it, a minus that
disappears into a number included.
-/

namespace Scriptlet

open Grammar

namespace Grammar

variable {limit : Nat} {α β : Type}

/-- How a computation with a limit stands to the one without: it has the same result unless that
is too deep, and it does not recover from an error. -/
structure Capped (limit : Nat) (depth : α → Nat) (free bounded : Except BuildError α) : Prop where
  ok : ∀ a, free = .ok a → bounded = if depth a ≤ limit then .ok a else .error (.tooDeep limit)
  error : ∀ err, free = .error err → bounded = .error err ∨ bounded = .error (.tooDeep limit)

theorem Capped.of_ok {depth : α → Nat} {free bounded : Except BuildError α} {a : α}
    (h : Capped limit depth free bounded) (hbounded : bounded = .ok a) :
    free = .ok a ∧ depth a ≤ limit := by
  cases hfree : free with
  | error err =>
      rcases h.error err hfree with herror | herror <;> rw [hbounded] at herror <;> cases herror
  | ok b =>
      have hok := h.ok b hfree
      rw [hbounded] at hok
      split at hok
      · next hdepth =>
          obtain rfl := Except.ok.inj hok
          exact ⟨rfl, hdepth⟩
      · cases hok

theorem capped_self {depth : α → Nat} {r : Except BuildError α}
    (h : ∀ a, r = .ok a → depth a ≤ limit) : Capped limit depth r r where
  ok a ha := by rw [ha, if_pos (h a ha)]
  error _ herr := .inl herr

/-- What is too deep already is too deep for whatever is made of it. -/
theorem Capped.bind {depth : α → Nat} {depth' : β → Nat} {free bounded : Except BuildError α}
    {f g : α → Except BuildError β} (h : Capped limit depth free bounded)
    (hnext : ∀ a, depth a ≤ limit → Capped limit depth' (f a) (g a))
    (hgrows : ∀ a b, f a = .ok b → depth a ≤ depth' b) :
    Capped limit depth' (free >>= f) (bounded >>= g) := by
  cases hfree : free with
  | error err =>
      refine ⟨fun b hb => (by cases hb), fun err' herr' => ?_⟩
      obtain rfl : err = err' := Except.error.inj herr'
      rcases h.error err hfree with hbounded | hbounded
      · exact .inl (by rw [hbounded]; rfl)
      · exact .inr (by rw [hbounded]; rfl)
  | ok a =>
      have hbounded := h.ok a hfree
      by_cases hdepth : depth a ≤ limit
      · rw [if_pos hdepth] at hbounded
        rw [hbounded]
        exact hnext a hdepth
      · rw [if_neg hdepth] at hbounded
        rw [hbounded]
        refine ⟨fun b hb => ?_, fun _ _ => .inr rfl⟩
        have hgrown := hgrows a b hb
        rw [if_neg (by omega)]
        rfl

theorem capped_ok {depth : α → Nat} {a : α} (h : depth a ≤ limit) :
    Capped limit depth (.ok a) (.ok a) :=
  capped_self fun b hb => by
    obtain rfl := Except.ok.inj hb
    exact h

/-- A node that is checked against its own depth. -/
theorem capped_node {node : Expr} {depth : Nat} (h : depth = node.height) :
    Capped limit Expr.height (checkDepth none depth >>= fun _ => .ok node)
      (checkDepth (some limit) depth >>= fun _ => .ok node) where
  ok e he := by
    obtain rfl : node = e := Except.ok.inj he
    rw [checkDepth]
    by_cases hdepth : depth ≤ limit
    · rw [if_neg (Nat.not_lt.mpr hdepth), if_pos (h ▸ hdepth)]
      rfl
    · rw [if_pos (Nat.not_le.mp hdepth), if_neg (h ▸ hdepth)]
      rfl
  error err herr := by cases herr

/-- A node of two parts, which are built one after the other. -/
theorem Capped.node {depth : α → Nat} {depth' : β → Nat} {free bounded : Except BuildError α}
    {free' bounded' : Except BuildError β} (h : Capped limit depth free bounded)
    (h' : Capped limit depth' free' bounded') {make : α → β → Expr} {made : α → β → Nat}
    (hmade : ∀ a b, made a b = (make a b).height)
    (hgrows : ∀ a b, depth a ≤ (make a b).height ∧ depth' b ≤ (make a b).height) :
    Capped limit Expr.height
      (free >>= fun a => free' >>= fun b =>
        checkDepth none (made a b) >>= fun _ => .ok (make a b))
      (bounded >>= fun a => bounded' >>= fun b =>
        checkDepth (some limit) (made a b) >>= fun _ => .ok (make a b)) := by
  refine h.bind (fun a _ => h'.bind (fun b _ => capped_node (hmade a b)) ?_) ?_
  · intro b e he
    obtain rfl : make a b = e := Except.ok.inj he
    exact (hgrows a b).2
  · intro a e he
    obtain ⟨b, _, he⟩ := bind_eq_ok.mp he
    obtain rfl : make a b = e := Except.ok.inj he
    exact (hgrows a b).1

/-! ### Signs -/

theorem applySigns_cons (limit : Option Nat) (op : UnaryOp) (ops : List UnaryOp) (e : Expr) :
    applySigns limit (op :: ops) e = applySigns limit ops e >>= applySigns limit [op] := rfl

/-- A sign makes a node, unless it is a minus that a number takes up. -/
theorem applySigns_single (op : UnaryOp) (e : Expr) :
    (∀ limit, applySigns limit [op] e =
        checkDepth limit (e.depth + 1) >>= fun _ => .ok (.unary op e)) ∨
      ∃ number : Expr, e.height = 1 ∧ number.height = 1 ∧
        ∀ limit, applySigns limit [op] e = .ok number := by
  cases op with
  | not => exact .inl fun _ => rfl
  | neg =>
      cases e with
      | int n =>
          by_cases hleast : n = Int64.minValue
          · refine .inl fun _ => ?_
            simp only [applySigns, bind, Except.bind, if_pos hleast]
          · refine .inr ⟨.int (-n), rfl, rfl, fun _ => ?_⟩
            simp only [applySigns, bind, Except.bind, if_neg hleast]
      | float x => exact .inr ⟨.float (-x), rfl, rfl, fun _ => rfl⟩
      | _ => exact .inl fun _ => rfl

theorem height_le_applySigns {ops : List UnaryOp} {e signed : Expr}
    (h : applySigns none ops e = .ok signed) : e.height ≤ signed.height := by
  induction ops generalizing signed with
  | nil =>
      obtain rfl := Except.ok.inj h
      exact Nat.le_refl _
  | cons op ops ih =>
      rw [applySigns_cons] at h
      obtain ⟨inner, hinner, hsigned⟩ := bind_eq_ok.mp h
      have hle := ih hinner
      rcases applySigns_single op inner with hnode | ⟨number, hone, hnumber, hfold⟩
      · rw [hnode] at hsigned
        obtain rfl : Expr.unary op inner = signed := Except.ok.inj hsigned
        rw [Expr.height]
        omega
      · rw [hfold] at hsigned
        obtain rfl := Except.ok.inj hsigned
        omega

theorem capped_applySigns (ops : List UnaryOp) {e : Expr} (h : e.height ≤ limit) :
    Capped limit Expr.height (applySigns none ops e) (applySigns (some limit) ops e) := by
  induction ops with
  | nil => exact capped_ok h
  | cons op ops ih =>
      rw [applySigns_cons, applySigns_cons]
      refine ih.bind (fun inner hinner => ?_) fun _ _ => height_le_applySigns
      rcases applySigns_single op inner with hnode | ⟨number, hone, hnumber, hfold⟩
      · rw [hnode, hnode]
        refine capped_node ?_
        rw [Expr.depth_height, Expr.height, Nat.add_comm]
      · rw [hfold, hfold]
        exact capped_ok (by omega)

/-! ### Trees -/

theorem capped_integer (hlimit : 1 ≤ limit) (negative : Bool) (digits : List Char) :
    Capped limit Expr.height (buildInteger negative digits) (buildInteger negative digits) := by
  refine capped_self fun e he => ?_
  unfold buildInteger at he
  split at he
  · obtain rfl := Except.ok.inj he
    exact hlimit
  · cases he

theorem capped_signed (hlimit : 1 ≤ limit) (signs : List UnaryOp) (operand : Phrase)
    (h : Capped limit Expr.height (operand.build none) (operand.build (some limit))) :
    Capped limit Expr.height ((Phrase.signed signs operand).build none)
      ((Phrase.signed signs operand).build (some limit)) := by
  by_cases hbare : ∃ digits, signs.getLast? = some .neg ∧ operand = .integer digits
  · obtain ⟨digits, hlast, rfl⟩ := hbare
    rw [build_signed_integer hlast, build_signed_integer hlast]
    exact (capped_integer hlimit true digits).bind (fun _ => capped_applySigns _)
      fun _ _ => height_le_applySigns
  · have hother : ∀ digits, signs.getLast? = some .neg → operand ≠ .integer digits :=
      fun digits hlast hinteger => hbare ⟨digits, hlast, hinteger⟩
    rw [build_signed hother, build_signed hother]
    exact h.bind (fun _ => capped_applySigns _) fun _ _ => height_le_applySigns

mutual

/-- A builder with a limit refuses exactly the trees that are too deep. -/
theorem capped_build (hlimit : 1 ≤ limit) (p : Phrase) :
    Capped limit Expr.height (p.build none) (p.build (some limit)) := by
  match p with
  | .null | .bool _ | .float _ | .string _ | .name _ =>
      rw [Phrase.build, Phrase.build]
      exact capped_ok hlimit
  | .integer digits =>
      rw [Phrase.build, Phrase.build]
      exact capped_integer hlimit false digits
  | .group inner =>
      rw [Phrase.build, Phrase.build]
      exact capped_build hlimit inner
  | .list items =>
      rw [Phrase.build, Phrase.build]
      refine (capped_buildItems hlimit items).bind (fun items _ => ?_) fun items e he => ?_
      · exact capped_node (Expr.depth_height _)
      · obtain rfl : Expr.list items = e := Except.ok.inj he
        rw [Expr.height]
        omega
  | .member object property =>
      rw [Phrase.build, Phrase.build]
      refine (capped_build hlimit object).bind (fun object _ => ?_) fun object e he => ?_
      · refine capped_node ?_
        rw [Expr.depth_height, Expr.height, Nat.add_comm]
      · obtain rfl : Expr.member object property = e := Except.ok.inj he
        rw [Expr.height]
        omega
  | .index object key =>
      rw [Phrase.build, Phrase.build]
      refine (capped_build hlimit object).node (capped_build hlimit key) (fun object key => ?_)
        fun object key => ?_
      · rw [Expr.depth_height, Expr.depth_height, Expr.height, Nat.add_comm]
      · rw [Expr.height]
        omega
  | .call callee args =>
      rw [Phrase.build, Phrase.build]
      refine (capped_build hlimit callee).node (capped_buildItems hlimit args)
        (fun callee args => ?_) fun callee args => ?_
      · rw [Expr.depth_height, Expr.foldl_max_depth, Nat.zero_max, Expr.height, Nat.add_comm]
      · rw [Expr.height]
        omega
  | .signed signs operand => exact capped_signed hlimit signs operand (capped_build hlimit operand)
  | .binary op left right =>
      rw [Phrase.build, Phrase.build]
      refine (capped_build hlimit left).node (capped_build hlimit right) (fun left right => ?_)
        fun left right => ?_
      · rw [Expr.depth_height, Expr.depth_height, Expr.height, Nat.add_comm]
      · rw [Expr.height]
        omega
  | .conditional test thenP elseP =>
      rw [Phrase.build, Phrase.build]
      refine (capped_build hlimit test).bind (fun test _ => ?_) fun test e he => ?_
      · refine (capped_build hlimit thenP).node (capped_build hlimit elseP)
          (fun thenE elseE => Expr.depth_height _) fun thenE elseE => ?_
        rw [Expr.height]
        omega
      · obtain ⟨thenE, _, he⟩ := bind_eq_ok.mp he
        obtain ⟨elseE, _, he⟩ := bind_eq_ok.mp he
        obtain rfl : Expr.conditional test thenE elseE = e := Except.ok.inj he
        rw [Expr.height]
        omega

theorem capped_buildItems (hlimit : 1 ≤ limit) (ps : List Phrase) :
    Capped limit Expr.greatestHeight (buildItems none ps) (buildItems (some limit) ps) := by
  match ps with
  | [] =>
      rw [buildItems, buildItems]
      exact capped_ok (Nat.zero_le _)
  | p :: more =>
      rw [buildItems, buildItems]
      refine (capped_build hlimit p).bind (fun e he => ?_) fun e es hes => ?_
      · refine (capped_buildItems hlimit more).bind (fun rest hrest => ?_) fun rest es hes => ?_
        · refine capped_ok ?_
          rw [Expr.greatestHeight]
          omega
        · obtain rfl := Except.ok.inj hes
          rw [Expr.greatestHeight]
          omega
      · obtain ⟨rest, _, hes⟩ := bind_eq_ok.mp hes
        obtain rfl := Except.ok.inj hes
        rw [Expr.greatestHeight]
        omega

end

end Grammar

/-! ### Sources -/

/-- The limit on depth is exact. A source whose tree, built without a limit, is deep at most as the
limit allows is parsed as that tree, and one whose tree is deeper is refused for it. So what is
parsed is never deeper than the limit, and it is what the builder without a limit makes. -/
theorem parse_depth (source : String) :
    (∀ phrase e, tooNested source = false → phrase? source = some phrase →
      phrase.build none = .ok e →
        parse source =
          if e.depth ≤ depthLimit then .ok e else .error (.build (.tooDeep depthLimit))) ∧
      ∀ e, parse source = .ok e →
        e.height ≤ depthLimit ∧
          ∃ phrase, phrase? source = some phrase ∧ phrase.build none = .ok e := by
  have hlimit : 1 ≤ depthLimit := by decide
  refine ⟨fun phrase e hnesting hphrase hbuild => ?_, fun e he => ?_⟩
  · have hcapped := (capped_build hlimit phrase).ok e hbuild
    simp only [parse, hnesting, hphrase, hcapped, Expr.depth_height, Bool.false_eq_true, if_false]
    by_cases hdepth : e.height ≤ depthLimit
    · simp only [if_pos hdepth]
    · simp only [if_neg hdepth]
  · unfold parse at he
    split at he
    · cases he
    · split at he
      · cases he
      · next phrase hphrase =>
          split at he
          · next built hbuilt =>
              obtain rfl : built = e := Except.ok.inj he
              obtain ⟨hfree, hdepth⟩ := (capped_build hlimit phrase).of_ok hbuilt
              exact ⟨hdepth, phrase, hphrase, hfree⟩
          · cases he

/-- A row of signs in front of a name. -/
def negations (n : Nat) : Phrase :=
  .signed (List.replicate n .not) (.name "x")

theorem negations_build (n : Nat) :
    (negations n).build none = .ok (Nat.repeat (.unary .not) n (.ident "x")) := by
  have hsigns : applySigns none (List.replicate n .not) (.ident "x") =
      .ok (Nat.repeat (.unary .not) n (.ident "x")) := by
    induction n with
    | zero => rfl
    | succ n ih =>
        rw [List.replicate_succ, applySigns_cons, ih]
        rfl
  rw [negations, build_signed (fun _ _ h => by cases h), Phrase.build]
  exact hsigns

theorem negations_height (n : Nat) :
    (Nat.repeat (.unary .not) n (.ident "x") : Expr).height = n + 1 := by
  induction n with
  | zero => rfl
  | succ n ih => rw [Nat.repeat, Expr.height, ih, Nat.add_comm]

theorem negations_phrase? {n : Nat} (h : n ≠ 0) :
    phrase? (String.ofList (negations n).text) = some (negations n) := by
  have hproper : (negations n).Proper := by
    refine ⟨fun hnil => h ((List.replicate_eq_nil_iff _).mp hnil), ?_, Nat.le_refl 9⟩
    exact ⟨⟨'x', [], rfl, by decide, by simp⟩, by decide⟩
  rw [phrase?, Phrase.lexemes_text _ hproper, Phrase.program_lexemes _ hproper]

theorem negations_nesting (n : Nat) :
    tooNested (String.ofList (negations n).text) = false := by
  have hquiet : ∀ c ∈ (negations n).text, isQuiet c = true := by
    intro c hc
    simp only [negations, Phrase.text, List.mem_append, List.mem_flatMap, List.mem_replicate] at hc
    rcases hc with ⟨op, ⟨_, rfl⟩, hc⟩ | hc
    · obtain rfl := List.mem_singleton.mp hc
      rfl
    · obtain rfl := List.mem_singleton.mp hc
      rfl
  rw [tooNested, String.toList_ofList, ← List.append_nil (negations n).text, exceeds_quiet hquiet]
  rfl

/-- A row of signs that reaches the limit and one that passes it. -/
theorem parse_depth_of_negations :
    (∃ e, parse (String.ofList (negations 255).text) = .ok e ∧ e.height = depthLimit) ∧
      parse (String.ofList (negations 256).text) = .error (.build (.tooDeep depthLimit)) := by
  have hlongest : parse (String.ofList (negations 255).text) =
      .ok (Nat.repeat (.unary .not) 255 (.ident "x")) := by
    have hparse := (parse_depth (String.ofList (negations 255).text)).1 _ _ (negations_nesting _)
      (negations_phrase? (by decide)) (negations_build 255)
    rwa [Expr.depth_height, negations_height, if_pos (by decide)] at hparse
  have hlonger : parse (String.ofList (negations 256).text) =
      .error (.build (.tooDeep depthLimit)) := by
    have hparse := (parse_depth (String.ofList (negations 256).text)).1 _ _ (negations_nesting _)
      (negations_phrase? (by decide)) (negations_build 256)
    rwa [Expr.depth_height, negations_height, if_neg (by decide)] at hparse
  have hwithin := ((parse_depth (String.ofList (negations 255).text)).2 _ hlongest).1
  refine ⟨⟨_, hlongest, Nat.le_antisymm hwithin ?_⟩, hlonger⟩
  rw [negations_height]
  exact Nat.le_refl 256

end Scriptlet
