import Scriptlet.Proofs.Grammar.Assembly

/-!
The grammar and the reader of lexemes derive the same, and the builder that trusts nothing makes of
the nodes what the phrase is built to. Inside of brackets and branches fewer lexemes are left, so
the rule for a whole expression agrees by induction on their number; around it, rule by rule, the
agreement of the parts is carried to the node.
-/

namespace Scriptlet.Grammar

variable {source cs : List Char}

/-! ### Items -/

/-- The rule for a whole expression agrees with the grammar where fewer lexemes are left. -/
def NestedAgrees (source : List Char) (nested : Rule Phrase) (bound : Nat) : Prop :=
  ∀ cs, AtLexeme cs → (tokens cs).length < bound →
    Agrees source (.rule .expression) cs (Stands .expression) (nested (tokens cs))

/-- The nodes of items. -/
def Items (items : List Phrase) (nodes : List Node) : Prop :=
  buildAll nodes = complaining (buildItems (some depthLimit) items)

theorem items_nil : Items [] [] := rfl

theorem Items.cons {p : Phrase} {name : Nonterminal} {front : List Node} {items : List Phrase}
    {nodes : List Node} (hfront : Stands name p front) (h : Items items nodes) :
    Items (p :: items) (front ++ nodes) := by
  obtain ⟨text, parts, rfl, hbuild⟩ := hfront
  unfold Items at h ⊢
  rw [List.singleton_append, buildAll, hbuild, h]
  simp only [buildItems, complaining_bind, complaining_ok, Phrase.complaining]

section Nested

variable {nested : Rule Phrase} {bound : Nat}

theorem agrees_item (h : NestedAgrees source nested bound) (hat : AtLexeme cs)
    (hbound : (tokens cs).length ≤ bound) :
    Agrees source (.next (.text [',']) (.rule .expression)) cs
      (InRow NoNode (Stands .expression)) (followed (markOf ',') nested (tokens cs)) :=
  (agrees_mark (by decide) hat).next fun rest hrest hlt => h rest hrest (by omega)

theorem reads_furtherItems (h : NestedAgrees source nested bound) {turns : Nat}
    (hturns : (tokens cs).length ≤ turns) (hbound : (tokens cs).length ≤ bound) :
    ∃ nodes rest, Reads source .loose
        (.further (.next (.text [',']) (.rule .expression))) cs (some (nodes, rest)) ∧
      (tokens rest).length ≤ (tokens cs).length ∧
        (furtherItems nested turns (tokens cs)).2 = tokens rest ∧
          Items (furtherItems nested turns (tokens cs)).1 nodes := by
  induction turns generalizing cs with
  | zero =>
      have hempty : tokens cs = [] := List.length_eq_zero_iff.mp (Nat.le_zero.mp hturns)
      have hitem := agrees_item h (atLexeme_skipLayout cs) (by rwa [tokens_skipLayout])
      rw [tokens_skipLayout, hempty] at hitem
      cases hitem with
      | fails hread => exact ⟨[], cs, no_further hread, Nat.le_refl _, rfl, items_nil⟩
  | succ turns ih =>
      have hitem := agrees_item h (atLexeme_skipLayout cs) (by rwa [tokens_skipLayout])
      rw [tokens_skipLayout] at hitem
      rw [furtherItems_succ]
      generalize followed (markOf ',') nested (tokens cs) = result at hitem ⊢
      cases hitem with
      | fails hread => exact ⟨[], cs, no_further hread, Nat.le_refl _, rfl, items_nil⟩
      | @reads item front mid hread hlength hitem =>
          rw [tokens_skipLayout] at hlength
          obtain ⟨nodes, rest, hmore, hle, hrest, hitems⟩ := @ih mid (by omega) (by omega)
          exact ⟨front ++ nodes, rest, reads_further hread hmore, by omega, hrest,
            .cons (inRow_mark.mp hitem) hitems⟩

theorem reads_listed (h : NestedAgrees source nested bound) (hat : AtLexeme cs)
    {turns : Nat} (hturns : (tokens cs).length ≤ turns) (hbound : (tokens cs).length < bound) :
    ∃ nodes rest, Reads source .loose (.maybe Nonterminal.body.items) cs (some (nodes, rest)) ∧
      (tokens rest).length ≤ (tokens cs).length ∧
        (listed nested turns (tokens cs)).2 = tokens rest ∧
          Items (listed nested turns (tokens cs)).1 nodes := by
  have hfirst := h cs hat hbound
  unfold listed
  generalize nested (tokens cs) = result at hfirst ⊢
  cases hfirst with
  | fails hread => exact ⟨[], cs, no_maybe (no_next_first hread), Nat.le_refl _, rfl, items_nil⟩
  | @reads item front mid hread hlength hitem =>
      obtain ⟨nodes, rest, hmore, hle, hrest, hitems⟩ :=
        @reads_furtherItems _ mid _ _ h turns (by omega) (by omega)
      obtain ⟨rest', hread', hsame⟩ := reads_behind hread hmore
      exact ⟨front ++ nodes, rest', reads_maybe hread', by rw [hsame]; omega,
        hrest.trans hsame.symm, .cons hitem hitems⟩

theorem agrees_itemsUpTo (h : NestedAgrees source nested bound) (hat : AtLexeme cs) {close : Char}
    (hclose : IsMark close) {turns : Nat} (hturns : (tokens cs).length ≤ turns)
    (hbound : (tokens cs).length < bound) :
    Agrees source (.next (.maybe Nonterminal.body.items) (.text [close])) cs Items
      (itemsUpTo nested close turns (tokens cs)) := by
  obtain ⟨nodes, mid, hread, hle, hrest, hitems⟩ := reads_listed h hat hturns hbound
  have hmark := @agrees_mark source _ _ hclose (atLexeme_skipLayout mid)
  rw [itemsUpTo_eq, hrest]
  rw [tokens_skipLayout] at hmark
  generalize markOf close (tokens mid) = result at hmark ⊢
  cases hmark with
  | fails hread' => exact .fails (no_next_second hread hread')
  | reads hread' hlength hnone =>
      obtain rfl := hnone
      rw [tokens_skipLayout] at hlength
      have hnext := reads_next hread hread'
      rw [List.append_nil] at hnext
      exact .reads hnext (by omega) hitems

/-! ### Primaries -/

/-- A node that is built as a phrase, and is a literal of an integer if the phrase is one. -/
def Inner (p : Phrase) (nodes : List Node) : Prop :=
  ∃ node, nodes = [node] ∧ node.build = p.complaining ∧ Bare p node.literalDigits?

theorem build_list {items : List Phrase} {parts : List Node} (h : Items items parts)
    (text : List Char) : (Node.mk .list text parts).build = (Phrase.list items).complaining := by
  rw [Node.build, h, Phrase.complaining, Phrase.build]
  simp only [ensureDepth_bind, complaining_bind, complaining_ok]

theorem agrees_list (h : NestedAgrees source nested bound) (hat : AtLexeme cs) {turns : Nat}
    (hturns : (tokens cs).length ≤ turns) (hbound : (tokens cs).length ≤ bound) :
    Agrees source (.rule .list) cs Inner
      ((followed (markOf '[') (itemsUpTo nested ']' turns) (tokens cs)).map
        fun (items, rest) => (.list items.2, rest)) := by
  have hbody : Agrees source Nonterminal.list.body cs (InRow NoNode Items)
      (followed (markOf '[') (itemsUpTo nested ']' turns) (tokens cs)) :=
    (agrees_mark (by decide) hat).next fun rest hrest hlt =>
      agrees_itemsUpTo h hrest (by decide) (by omega) (by omega)
  have hrule : Agrees source (.rule .list) cs (fun items nodes => Inner (.list items.2) nodes)
      (followed (markOf '[') (itemsUpTo nested ']' turns) (tokens cs)) :=
    hbody.plain rfl fun items text parts hitems =>
      ⟨_, rfl, build_list (inRow_mark.mp hitems) text, rfl⟩
  exact hrule.map (fun items => Phrase.list items.2) fun _ _ hinner => hinner

theorem agrees_group (h : NestedAgrees source nested bound) (hat : AtLexeme cs)
    (hbound : (tokens cs).length ≤ bound) :
    Agrees source (.next (.text ['(']) (.next (.rule .expression) (.text [')']))) cs Inner
      ((followed (markOf '(') (followed nested (markOf ')')) (tokens cs)).map
        fun (inner, rest) => (.group inner.2.1, rest)) := by
  have hrow : Agrees source (.next (.text ['(']) (.next (.rule .expression) (.text [')']))) cs
      (InRow NoNode (InRow (Stands .expression) NoNode))
      (followed (markOf '(') (followed nested (markOf ')')) (tokens cs)) :=
    (agrees_mark (by decide) hat).next fun rest hrest hlt =>
      (h rest hrest (by omega)).next fun rest hrest _ => agrees_mark (by decide) hrest
  apply hrow.map (fun inner => Phrase.group inner.2.1)
  intro inner nodes hinner
  obtain ⟨text, parts, rfl, hbuild⟩ := inRow_markBehind.mp (inRow_mark.mp hinner)
  exact ⟨_, rfl, hbuild, rfl⟩

theorem agrees_primary (h : NestedAgrees source nested bound) (hat : AtLexeme cs) {turns : Nat}
    (hturns : (tokens cs).length ≤ turns) (hbound : (tokens cs).length ≤ bound) :
    Agrees source (.rule .primary) cs
      (fun p nodes => Stands .primary p nodes ∧
        Bare p (nodes.head?.bind fun primary => primary.parts.head?.bind Node.literalDigits?))
      (primary nested turns (tokens cs)) := by
  have hliteral : Agrees source (.rule .literal) cs Inner (literal (tokens cs)) := by
    apply (agrees_literal hat).imp
    intro p nodes hnodes
    obtain ⟨⟨text, parts, rfl, hbuild⟩, hdigits⟩ := hnodes
    exact ⟨_, rfl, hbuild, hdigits⟩
  have hleaf : ∀ name nodes, Names name nodes → Inner (.name name) nodes := by
    intro name nodes hnode
    refine ⟨_, hnode, ?_, rfl⟩
    rw [Node.build, String.ofList_toList]
    rfl
  have hname := (@agrees_identifier source cs hat).map Phrase.name hleaf
  have hbody : Agrees source Nonterminal.primary.body cs Inner
      (primary nested turns (tokens cs)) := by
    rw [primary_eq]
    exact hliteral.orElse ((agrees_list h hat hturns hbound).orElse
      (hname.orElse (agrees_group h hat hbound)))
  apply hbody.plain rfl
  intro p text parts hparts
  obtain ⟨node, rfl, hbuild, hdigits⟩ := hparts
  exact ⟨⟨text, [node], rfl, hbuild⟩, hdigits⟩

/-! ### Suffixes -/

/-- What has been built of a phrase goes on over the nodes of what makes it a longer one. -/
def Continues (step : Expr → Nat → List Node → Except Complaint Expr) (left p : Phrase)
    (nodes : List Node) : Prop :=
  ∀ more, (left.complaining >>= fun e => step e e.depth (nodes ++ more)) =
    p.complaining >>= fun e => step e e.depth more

section Continues

variable {step : Expr → Nat → List Node → Except Complaint Expr} {left p q : Phrase}
  {nodes more : List Node}

theorem continues_refl (step : Expr → Nat → List Node → Except Complaint Expr) (p : Phrase) :
    Continues step p p [] :=
  fun _ => rfl

theorem Continues.trans (h : Continues step left p nodes) (h' : Continues step p q more) :
    Continues step left q (nodes ++ more) := by
  intro rest
  rw [List.append_assoc, h, h']

end Continues

/-- Turns of a repetition, each of which makes a longer phrase of the one before. -/
theorem reads_run {turn : Nat → Phrase → Rule Phrase}
    {run : Nat → Phrase → List Lexeme → Phrase × List Lexeme} {peg : Peg}
    {Grows : Phrase → Phrase → List Node → Prop} (hrefl : ∀ p, Grows p p [])
    (htrans : ∀ left p q nodes more, Grows left p nodes → Grows p q more →
      Grows left q (nodes ++ more))
    (hzero : ∀ left s, run 0 left s = (left, s))
    (hsucc : ∀ turns left s, run (turns + 1) left s =
      match turn turns left s with
      | some (p, rest) => run turns p rest
      | none => (left, s))
    (h : ∀ turns left cs, AtLexeme cs → (tokens cs).length ≤ turns + 1 →
      (tokens cs).length ≤ bound →
        Agrees source peg cs (Grows left) (turn turns left (tokens cs)))
    {turns : Nat} (left : Phrase) (hturns : (tokens cs).length ≤ turns)
    (hbound : (tokens cs).length ≤ bound) :
    ∃ p nodes rest, Reads source .loose peg.further cs (some (nodes, rest)) ∧
      (tokens rest).length ≤ (tokens cs).length ∧
        run turns left (tokens cs) = (p, tokens rest) ∧ Grows left p nodes := by
  have hskip := tokens_skipLayout cs
  induction turns generalizing left cs with
  | zero =>
      have hturn := h 0 left _ (atLexeme_skipLayout cs) (by rw [hskip]; omega) (by rwa [hskip])
      rw [hzero]
      generalize turn 0 left (tokens (skipLayout false cs)) = result at hturn
      cases hturn with
      | reads _ hlength _ =>
          rw [hskip] at hlength
          omega
      | fails hread =>
          exact ⟨left, [], cs, no_further hread, Nat.le_refl _, rfl, hrefl left⟩
  | succ turns ih =>
      have hturn := h turns left _ (atLexeme_skipLayout cs) (by rwa [hskip]) (by rwa [hskip])
      rw [hskip] at hturn
      rw [hsucc]
      generalize turn turns left (tokens cs) = result at hturn ⊢
      cases hturn with
      | fails hread =>
          exact ⟨left, [], cs, no_further hread, Nat.le_refl _, rfl, hrefl left⟩
      | @reads p front mid hread hlength hfront =>
          rw [hskip] at hlength
          obtain ⟨q, nodes, rest, hmore, hle, hrest, hnodes⟩ :=
            ih p (by omega) (by omega) (tokens_skipLayout mid)
          exact ⟨q, front ++ nodes, rest, reads_further hread hmore, by omega, hrest,
            htrans _ _ _ _ _ hfront hnodes⟩

theorem continues_member (base : Phrase) (property : String) (text : List Char) :
    Continues buildSuffixes base (.member base property)
      [.mk .member text [.mk .identifier property.toList []]] := by
  intro more
  simp only [Phrase.complaining, Phrase.build, complaining_bind, complaining_ok, bind_assoc,
    List.singleton_append, buildSuffixes, ensureDepth_bind, Node.text, String.ofList_toList,
    ← depth_member _ property]
  rfl

theorem continues_index {key : Phrase} {parts : List Node} (h : Stands .expression key parts)
    (base : Phrase) (text : List Char) :
    Continues buildSuffixes base (.index base key) [.mk .index text parts] := by
  obtain ⟨_, _, rfl, hbuild⟩ := h
  intro more
  rw [Phrase.complaining] at hbuild
  simp only [Phrase.complaining, Phrase.build, complaining_bind, complaining_ok, bind_assoc,
    List.singleton_append, buildSuffixes, buildFirst, hbuild, ensureDepth_bind, ← depth_index]
  rfl

theorem continues_call {args : List Phrase} {parts : List Node} (h : Items args parts)
    (base : Phrase) (text : List Char) :
    Continues buildSuffixes base (.call base args) [.mk .call text parts] := by
  intro more
  rw [Items] at h
  simp only [Phrase.complaining, Phrase.build, complaining_bind, complaining_ok, bind_assoc,
    List.singleton_append, buildSuffixes, h, ensureDepth_bind, ← depth_call]
  rfl

/-- Suffixes make a longer phrase, and that is no integer. -/
def Suffixed (base p : Phrase) (nodes : List Node) : Prop :=
  Continues buildSuffixes base p nodes ∧
    (nodes = [] ∧ p = base ∨ nodes ≠ [] ∧ Bare p none)

theorem Suffixed.one {base p : Phrase} {node : Node} (h : Continues buildSuffixes base p [node])
    (hbare : Bare p none) : Suffixed base p [node] :=
  ⟨h, .inr ⟨List.cons_ne_nil node [], hbare⟩⟩

theorem Suffixed.trans {base p q : Phrase} {nodes more : List Node} (h : Suffixed base p nodes)
    (h' : Suffixed p q more) : Suffixed base q (nodes ++ more) := by
  refine ⟨h.1.trans h'.1, ?_⟩
  rcases h'.2 with ⟨rfl, rfl⟩ | ⟨hmore, hbare⟩
  · rw [List.append_nil]
    exact h.2
  · exact .inr ⟨List.append_ne_nil_of_right_ne_nil nodes hmore, hbare⟩

theorem agrees_suffix (h : NestedAgrees source nested bound) (hat : AtLexeme cs) (base : Phrase)
    {turns : Nat} (hturns : (tokens cs).length ≤ turns + 1) (hbound : (tokens cs).length ≤ bound) :
    Agrees source (.firstOf (.rule .member) [.rule .index, .rule .call]) cs (Suffixed base)
      (suffix nested base turns (tokens cs)) := by
  have hmemberBody : Agrees source Nonterminal.member.body cs (InRow NoNode Names)
      (followed (markOf '.') identifier (tokens cs)) :=
    (agrees_mark (by decide) hat).next fun rest hrest _ => agrees_identifier hrest
  have hindexBody : Agrees source Nonterminal.index.body cs
      (InRow NoNode (InRow (Stands .expression) NoNode))
      (followed (markOf '[') (followed nested (markOf ']')) (tokens cs)) :=
    (agrees_mark (by decide) hat).next fun rest hrest hlt =>
      (h rest hrest (by omega)).next fun rest hrest _ => agrees_mark (by decide) hrest
  have hcallBody : Agrees source Nonterminal.call.body cs (InRow NoNode Items)
      (followed (markOf '(') (itemsUpTo nested ')' turns) (tokens cs)) :=
    (agrees_mark (by decide) hat).next fun rest hrest hlt =>
      agrees_itemsUpTo h hrest (by decide) (by omega) (by omega)
  have hmember : Agrees source (.rule .member) cs
      (fun found nodes => Suffixed base (.member base found.2) nodes)
      (followed (markOf '.') identifier (tokens cs)) := by
    apply hmemberBody.plain rfl
    intro found text parts hparts
    obtain rfl := inRow_mark.mp hparts
    exact .one (continues_member base found.2 text) rfl
  have hindex : Agrees source (.rule .index) cs
      (fun found nodes => Suffixed base (.index base found.2.1) nodes)
      (followed (markOf '[') (followed nested (markOf ']')) (tokens cs)) :=
    hindexBody.plain rfl fun found text parts hparts =>
      .one (continues_index (inRow_markBehind.mp (inRow_mark.mp hparts)) base text) rfl
  have hcall : Agrees source (.rule .call) cs
      (fun found nodes => Suffixed base (.call base found.2) nodes)
      (followed (markOf '(') (itemsUpTo nested ')' turns) (tokens cs)) :=
    hcallBody.plain rfl fun found text parts hparts =>
      .one (continues_call (inRow_mark.mp hparts) base text) rfl
  rw [suffix_eq]
  exact (hmember.map (fun found => Phrase.member base found.2) fun _ _ h => h).orElse
    ((hindex.map (fun found => Phrase.index base found.2.1) fun _ _ h => h).orElse
      (hcall.map (fun found => Phrase.call base found.2) fun _ _ h => h))

theorem build_suffixed {base p : Phrase} {front nodes : List Node}
    (hfront : Stands .primary base front) (h : Continues buildSuffixes base p nodes)
    (text : List Char) : (Node.mk .suffixed text (front ++ nodes)).build = p.complaining := by
  obtain ⟨_, _, rfl, hbuild⟩ := hfront
  have hall := h []
  rw [List.append_nil] at hall
  rw [List.singleton_append, Node.build, hbuild, hall]
  simp only [buildSuffixes]
  cases p.complaining <;> rfl

/-- An operand with its suffixes, and what is found of an integer in its node. -/
def Operand (p : Phrase) (nodes : List Node) : Prop :=
  Stands .suffixed p nodes ∧ Bare p (nodes.head?.bind Node.integerLiteral?)

theorem agrees_suffixed (h : NestedAgrees source nested bound) (hat : AtLexeme cs) {turns : Nat}
    (hturns : (tokens cs).length ≤ turns) (hbound : (tokens cs).length ≤ bound) :
    Agrees source (.rule .suffixed) cs Operand (suffixed nested turns (tokens cs)) := by
  have hprimary := agrees_primary h hat hturns hbound
  unfold suffixed
  generalize primary nested turns (tokens cs) = result at hprimary ⊢
  cases hprimary with
  | fails hread => exact .fails (.no_rule (no_next_first hread))
  | @reads base front mid hread hlength hbase =>
      obtain ⟨hfront, hbare⟩ := hbase
      obtain ⟨p, nodes, rest, hmore, hle, hrun, hgrows, hkind⟩ :=
        @reads_run source mid bound (fun turns base => suffix nested base turns) (suffixes nested)
          (.firstOf (.rule .member) [.rule .index, .rule .call]) Suffixed
          (fun p => ⟨continues_refl buildSuffixes p, .inl ⟨rfl, rfl⟩⟩)
          (fun _ _ _ _ _ => Suffixed.trans) (fun _ _ => rfl) (fun _ _ _ => rfl)
          (fun turns base cs hat hturns hbound => agrees_suffix h hat base hturns hbound)
          turns base (by omega) (by omega)
      obtain ⟨rest', hread', hsame⟩ := reads_behind hread hmore
      dsimp only
      rw [hrun, ← hsame]
      refine .reads (.rule hread') (by rw [hsame]; omega) ⟨⟨_, _, rfl, ?_⟩, ?_⟩
      · exact build_suffixed hfront hgrows _
      · obtain ⟨text, parts, rfl, hbuild⟩ := hfront
        rcases hkind with ⟨rfl, rfl⟩ | ⟨hsome, hnone⟩
        · exact hbare
        · obtain ⟨node, more, rfl⟩ := List.exists_cons_of_ne_nil hsome
          exact hnone

/-! ### Signs and operators -/

theorem buildOperand_signs {signNodes : List Node} (h : ∀ node ∈ signNodes, node.rule = .unaryOp)
    {operand : Node} (hoperand : operand.rule = .suffixed) :
    buildOperand (signNodes ++ [operand]) = operand.build := by
  induction signNodes with
  | nil => simp [buildOperand, hoperand]
  | cons node more ih =>
      have hany : (more ++ [operand]).any (·.rule != .unaryOp) = true := by simp [hoperand]
      rw [List.cons_append, buildOperand, hany, Bool.true_or, if_pos rfl]
      exact ih fun node hnode => h node (List.mem_cons_of_mem _ hnode)

/-- The builder finds the signs and the operand among the parts. -/
theorem build_signs {signNodes : List Node} (h : ∀ node ∈ signNodes, node.rule = .unaryOp)
    {operand : Node} (hoperand : operand.rule = .suffixed) (text : List Char) :
    (Node.mk .unary text (signNodes ++ [operand])).build =
      match (signNodes.map Node.sign).getLast?, operand.integerLiteral? with
      | some .neg, some digits =>
          readInteger ('-' :: digits) >>= putSigns (signNodes.map Node.sign).dropLast
      | _, _ => operand.build >>= putSigns (signNodes.map Node.sign) := by
  have hsigns : (signNodes ++ [operand]).filter (·.rule == .unaryOp) = signNodes := by
    rw [List.filter_append, List.filter_eq_self.mpr fun node hnode => by simp [h node hnode]]
    simp [hoperand]
  have hlast : ((signNodes ++ [operand]).filter (·.rule != .unaryOp)).getLast? = some operand := by
    rw [List.filter_append, List.filter_eq_nil_iff.mpr fun node hnode => by simp [h node hnode]]
    simp [hoperand]
  rw [Node.build, hsigns, hlast, buildOperand_signs h hoperand]
  rfl

/-- An operand with the signs in front of it, if there are any. -/
def withSigns (ops : List UnaryOp) (p : Phrase) : Phrase :=
  if ops.isEmpty then p else .signed ops p

theorem putSigns_integer {ops : List UnaryOp} (hlast : ops.getLast? = some .neg)
    {digits : List Char} (hdigits : IsDigits digits) :
    readInteger ('-' :: digits) >>= putSigns ops.dropLast =
      (withSigns ops (.integer digits)).complaining := by
  have hsome : ops.isEmpty = false := by
    cases ops with
    | nil => cases hlast
    | cons => rfl
  have hread : readInteger ('-' :: digits) = complaining (buildInteger true digits) :=
    readInteger_digits true hdigits
  have hbuild : (Phrase.signed ops (.integer digits)).build (some depthLimit) =
      buildInteger true digits >>= applySigns (some depthLimit) ops.dropLast :=
    build_signed_integer hlast digits
  rw [withSigns, hsome, if_neg Bool.false_ne_true, Phrase.complaining, hbuild, complaining_bind,
    hread]
  exact bind_congr fun n => putSigns_eq ops.dropLast n

theorem putSigns_operand {ops : List UnaryOp} {p : Phrase}
    (hbare : ∀ digits, ops.getLast? = some .neg → p ≠ .integer digits) :
    p.complaining >>= putSigns ops = (withSigns ops p).complaining := by
  unfold withSigns
  split
  · next hempty =>
      obtain rfl := List.isEmpty_iff.mp hempty
      have hnothing : ∀ e, putSigns [] e = .ok e := fun e => putSigns_eq [] e
      rw [bind_congr hnothing]
      cases p.complaining <;> rfl
  · have hbuild : (Phrase.signed ops p).build (some depthLimit) =
        p.build (some depthLimit) >>= applySigns (some depthLimit) ops := build_signed hbare
    rw [Phrase.complaining, Phrase.complaining, hbuild, complaining_bind]
    exact bind_congr fun e => putSigns_eq ops e

theorem build_unary {signNodes : List Node} (h : ∀ node ∈ signNodes, node.rule = .unaryOp)
    {p : Phrase} {nodes : List Node} (hoperand : Operand p nodes) (text : List Char) :
    (Node.mk .unary text (signNodes ++ nodes)).build =
      (withSigns (signNodes.map Node.sign) p).complaining := by
  obtain ⟨⟨_, _, rfl, hbuild⟩, hbare⟩ := hoperand
  rw [build_signs h rfl, hbuild]
  split
  · next digits hlast hfound =>
      cases p with
      | integer digits' =>
          obtain ⟨hfound', hdigits⟩ := hbare
          obtain rfl := Option.some.inj (hfound.symm.trans hfound')
          exact putSigns_integer hlast hdigits
      | _ => cases hfound.symm.trans hbare
  · next hno =>
      apply putSigns_operand
      intro digits hlast
      rintro rfl
      exact hno digits hlast hbare.1

theorem agrees_unary (h : NestedAgrees source nested bound) (hat : AtLexeme cs) {turns : Nat}
    (hturns : (tokens cs).length ≤ turns) (hbound : (tokens cs).length ≤ bound) :
    Agrees source (.rule .unary) cs (Stands .unary) (unary nested turns (tokens cs)) := by
  obtain ⟨signNodes, mid, hsigns, hle, htokens, hall⟩ := @reads_signs source cs
  have hhere : Spacing.loose.skip cs = cs := hat
  have hmany := many_of_further hhere hsigns
  have hskip := tokens_skipLayout mid
  have hoperand := @agrees_suffixed source _ _ _ h (atLexeme_skipLayout mid) turns
    (by rw [hskip]; omega) (by rw [hskip]; omega)
  rw [hskip] at hoperand
  unfold unary
  rw [htokens]
  dsimp only
  generalize suffixed nested turns (tokens mid) = result at hoperand ⊢
  cases hoperand with
  | fails hread => exact .fails (.no_rule (no_next_second hmany hread))
  | reads hread hlength hnodes =>
      rw [hskip] at hlength
      exact .reads (.rule (reads_next hmany hread)) (by omega)
        ⟨_, _, rfl, build_unary hall hnodes _⟩

/-! ### Levels -/

/-- How a level goes on over the nodes behind its first operand. -/
def Level.step : Level → Expr → Nat → List Node → Except Complaint Expr
  | .coalesce => buildOperands .coalesce
  | .or => buildOperands .or
  | .and => buildOperands .and
  | .equality | .comparison | .additive | .multiplicative => buildPairs

/-- The rule of a level and that of its operands. -/
def Level.rule : Level → Nonterminal
  | .coalesce => .coalesce
  | .or => .orExpr
  | .and => .andExpr
  | .equality => .equality
  | .comparison => .comparison
  | .additive => .additive
  | .multiplicative => .multiplicative

def Level.operand : Level → Nonterminal
  | .coalesce => .orExpr
  | .or => .andExpr
  | .and => .equality
  | .equality => .comparison
  | .comparison => .additive
  | .additive => .multiplicative
  | .multiplicative => .unary

theorem body_level (level : Level) :
    level.rule.body = .next (.rule level.operand)
      (.many (.next level.symbol (.rule level.operand))) := by
  cases level <;> rfl

theorem step_nil (level : Level) (e : Expr) (depth : Nat) : level.step e depth [] = .ok e := by
  cases level <;> rfl

theorem build_level (level : Level) (first : Node) (more : List Node) (text : List Char) :
    (Node.mk level.rule text (first :: more)).build =
      first.build >>= fun e => level.step e e.depth more := by
  cases level <;> rfl

theorem operator_step {level : Level} {op : BinaryOp} (hlevel : op.level = level) (left : Expr)
    (depth : Nat) (node : Node) (more : List Node) :
    level.step left depth (level.symbolNodes op ++ node :: more) = (do
      let right ← node.build
      let depth ← ensureDepth (max depth right.depth + 1)
      level.step (.binary op left right) depth more) := by
  subst hlevel
  cases op <;> rfl

theorem continues_binary {level : Level} {op : BinaryOp} (hlevel : op.level = level)
    {right : Phrase} {name : Nonterminal} {nodes : List Node} (h : Stands name right nodes)
    (left : Phrase) :
    Continues level.step left (.binary op left right) (level.symbolNodes op ++ nodes) := by
  obtain ⟨_, _, rfl, hbuild⟩ := h
  intro more
  rw [Phrase.complaining] at hbuild
  simp only [List.append_assoc, List.singleton_append, operator_step hlevel, hbuild,
    Phrase.complaining, Phrase.build, complaining_bind, complaining_ok, bind_assoc,
    ensureDepth_bind, ← depth_binary op]
  rfl

/-- A rule agrees with the rule for its operands wherever not too many lexemes are left. -/
def AgreesBelow (source : List Char) (name : Nonterminal) (rule : Rule Phrase) (bound : Nat) :
    Prop :=
  ∀ cs, AtLexeme cs → (tokens cs).length ≤ bound →
    Agrees source (.rule name) cs (Stands name) (rule (tokens cs))

/-- One level of operators over its operands. -/
def chained (turns : Nat) (level : Level) (operand : Rule Phrase) : Rule Phrase := fun s =>
  match operand s with
  | some (left, rest) => some (chainFrom (operator level) operand turns left rest)
  | none => none

theorem chainFrom_succ (op : Rule BinaryOp) (operand : Rule Phrase) (turns : Nat) (left : Phrase)
    (s : List Lexeme) :
    chainFrom op operand (turns + 1) left s =
      match (followed op operand s).map
        fun (found, rest) => (.binary found.1 left found.2, rest) with
      | some (p, rest) => chainFrom op operand turns p rest
      | none => (left, s) := by
  rw [chainFrom, followed]
  cases op s with
  | none => rfl
  | some found =>
      obtain ⟨o, rest⟩ := found
      dsimp only
      cases operand rest <;> rfl

theorem build_chained {level : Level} {left p : Phrase} {front nodes : List Node}
    (hfront : Stands level.operand left front) (h : Continues level.step left p nodes)
    (text : List Char) : (Node.mk level.rule text (front ++ nodes)).build = p.complaining := by
  obtain ⟨_, _, rfl, hbuild⟩ := hfront
  have hall := h []
  rw [List.append_nil] at hall
  rw [List.singleton_append, build_level, hbuild, hall]
  simp only [step_nil]
  cases p.complaining <;> rfl

theorem agrees_chained (level : Level) {operand : Rule Phrase}
    (h : AgreesBelow source level.operand operand bound) {turns : Nat} (hturns : bound ≤ turns) :
    AgreesBelow source level.rule (chained turns level operand) bound := by
  intro cs hat hbound
  have hplain : level.rule.style = .plain := by cases level <;> rfl
  have hbody : Agrees source level.rule.body cs
      (fun p nodes => ∀ text, (Node.mk level.rule text nodes).build = p.complaining)
      (chained turns level operand (tokens cs)) := by
    have hfirst := h cs hat hbound
    rw [body_level]
    unfold chained
    generalize operand (tokens cs) = result at hfirst ⊢
    cases hfirst with
    | fails hread => exact .fails (no_next_first hread)
    | @reads left front mid hread hlength hfront =>
        have hturn : ∀ (turns : Nat) left cs, AtLexeme cs → (tokens cs).length ≤ turns + 1 →
            (tokens cs).length ≤ bound →
              Agrees source (.next level.symbol (.rule level.operand)) cs
                (Continues level.step left)
                ((followed (operator level) operand (tokens cs)).map
                  fun (found, rest) => (.binary found.1 left found.2, rest)) := by
          intro _ left cs hat _ hbound
          have hrow := (@agrees_operator source cs level hat).next fun rest hrest hlt =>
            h rest hrest (by omega)
          refine hrow.map (fun found => Phrase.binary found.1 left found.2)
            fun found nodes hnodes => ?_
          obtain ⟨front, back, rfl, ⟨hlevel, rfl⟩, hback⟩ := hnodes
          exact continues_binary hlevel hback left
        obtain ⟨p, nodes, rest, hmore, hle, hrun, hgrows⟩ :=
          @reads_run source mid bound _ (chainFrom (operator level) operand) _
            (Continues level.step) (continues_refl level.step) (fun _ _ _ _ _ => Continues.trans)
            (fun _ _ => rfl) (chainFrom_succ (operator level) operand) hturn turns left (by omega)
            (by omega)
        obtain ⟨rest', hread', hsame⟩ := reads_behind hread hmore
        dsimp only
        rw [hrun, ← hsame]
        exact .reads hread' (by rw [hsame]; omega) (build_chained hfront hgrows)
  exact hbody.plain hplain fun p text parts hbuild => ⟨text, parts, rfl, hbuild text⟩

theorem agrees_binary (h : NestedAgrees source nested bound) {turns : Nat}
    (hturns : bound ≤ turns) :
    AgreesBelow source .coalesce (binary nested turns Level.all) bound := by
  have hunary : AgreesBelow source .unary (unary nested turns) bound :=
    fun cs hat hbound => agrees_unary h hat (by omega) hbound
  have hmultiplicative := agrees_chained .multiplicative hunary hturns
  have hadditive := agrees_chained .additive hmultiplicative hturns
  have hcomparison := agrees_chained .comparison hadditive hturns
  have hequality := agrees_chained .equality hcomparison hturns
  have hand := agrees_chained .and hequality hturns
  have hor := agrees_chained .or hand hturns
  exact agrees_chained .coalesce hor hturns

/-! ### Whole expressions -/

theorem agrees_branches (h : NestedAgrees source nested bound) (hat : AtLexeme cs)
    (hbound : (tokens cs).length ≤ bound) :
    Agrees source (.next (.text ['?']) (.next (.rule .expression)
        (.next (.text [':']) (.rule .expression)))) cs
      (InRow NoNode (InRow (Stands .expression) (InRow NoNode (Stands .expression))))
      (branches nested (tokens cs)) :=
  (agrees_mark (by decide) hat).next fun rest hrest hlt =>
    (h rest hrest (by omega)).next fun rest hrest _ =>
      (agrees_mark (by decide) hrest).next fun rest hrest _ => h rest hrest (by omega)

theorem build_conditional {test thenP elseP : Phrase} {name : Nonterminal}
    {front middle back : List Node} (htest : Stands name test front)
    (hthen : Stands .expression thenP middle) (helse : Stands .expression elseP back)
    (text : List Char) :
    (Node.mk .conditional text (front ++ (middle ++ back))).build =
      (Phrase.conditional test thenP elseP).complaining := by
  obtain ⟨_, _, rfl, htest⟩ := htest
  obtain ⟨_, _, rfl, hthen⟩ := hthen
  obtain ⟨_, _, rfl, helse⟩ := helse
  rw [Phrase.complaining] at htest hthen helse
  rw [List.singleton_append, List.singleton_append, Node.build]
  simp only [buildFirst, htest, hthen, helse, Phrase.complaining, Phrase.build, complaining_bind,
    complaining_ok, ensureDepth_bind]

theorem build_test {test : Phrase} {name : Nonterminal} {front : List Node}
    (h : Stands name test front) (text : List Char) :
    (Node.mk .conditional text front).build = test.complaining := by
  obtain ⟨_, _, rfl, htest⟩ := h
  rw [Node.build, htest]
  cases test.complaining <;> rfl

theorem agrees_conditional (h : NestedAgrees source nested bound) {turns : Nat}
    (hturns : bound ≤ turns) :
    AgreesBelow source .conditional (conditional nested turns) bound := by
  intro cs hat hbound
  have hbody : Agrees source Nonterminal.conditional.body cs
      (fun p nodes => ∀ text, (Node.mk .conditional text nodes).build = p.complaining)
      (conditional nested turns (tokens cs)) := by
    have htest := agrees_binary h hturns cs hat hbound
    rw [conditional_eq]
    generalize binary nested turns Level.all (tokens cs) = result at htest ⊢
    cases htest with
    | fails hread => exact .fails (no_next_first hread)
    | @reads test front mid hread hlength hfront =>
        have hskip := tokens_skipLayout mid
        have hbranches := @agrees_branches source _ _ _ h (atLexeme_skipLayout mid)
          (by rw [hskip]; omega)
        rw [hskip] at hbranches
        rw [Option.map_some]
        dsimp only
        generalize branches nested (tokens mid) = result at hbranches ⊢
        cases hbranches with
        | fails hread' =>
            have hrest := reads_next hread (no_maybe hread')
            rw [List.append_nil] at hrest
            rw [← hskip] at hlength ⊢
            exact .reads hrest hlength (build_test hfront)
        | reads hread' hlength' hnodes =>
            rw [hskip] at hlength'
            obtain ⟨middle, back, rfl, hthen, helse⟩ := inRow_mark.mp hnodes
            exact .reads (reads_next hread (reads_maybe hread')) (by omega)
              (build_conditional hfront hthen (inRow_mark.mp helse))
  exact hbody.plain rfl fun p text parts hbuild => ⟨text, parts, rfl, hbuild text⟩

end Nested

theorem agrees_expression (source : List Char) (depth : Nat) :
    NestedAgrees source (expression depth) depth := by
  induction depth with
  | zero => exact fun cs _ hlt => absurd hlt (Nat.not_lt_zero _)
  | succ depth ih =>
      intro cs hat hlt
      refine (agrees_conditional ih (Nat.le_succ depth) cs hat (by omega)).plain rfl
        fun p text parts hparts => ?_
      obtain ⟨inner, more, rfl, hbuild⟩ := hparts
      exact ⟨text, _, rfl, hbuild⟩

/-! ### Whole sources -/

theorem tokens_eq_nil_iff : tokens cs = [] ↔ skipLayout false cs = [] := by
  rw [tokens_eq]
  cases skipLayout false cs <;> simp

/-- What may stand behind the expression of a source. -/
def Closes (s : List Lexeme) : Prop :=
  s = [] ∨ ∃ glued, s = [.mark ';' glued]

theorem reads_ending (h : tokens cs = []) :
    Reads source .loose .ending (Spacing.loose.skip cs) (some ([.mk .ending [] []], [])) := by
  have hend : Spacing.loose.skip cs = [] := tokens_eq_nil_iff.mp h
  rw [hend]
  exact .ending

theorem no_ending (h : tokens cs ≠ []) :
    Reads source .loose .ending (Spacing.loose.skip cs) none := by
  obtain ⟨c, rest, hcons⟩ := List.exists_cons_of_ne_nil (mt tokens_eq_nil_iff.mpr h)
  have hmore : Spacing.loose.skip cs = c :: rest := hcons
  rw [hmore]
  exact .no_ending c rest

theorem closes_or_not (hat : AtLexeme cs) :
    Closes (tokens cs) ∧ Reads source .loose (.next (.maybe (.text [';'])) .ending) cs
        (some ([.mk .ending [] []], [])) ∨
      ¬ Closes (tokens cs) ∧
        Reads source .loose (.next (.maybe (.text [';'])) .ending) cs none := by
  rcases @mark_or_not cs ';' (by decide) hat with ⟨rest, glued, rfl, htokens⟩ | ⟨hhead, hno⟩
  · have hmark : Reads source .loose (.maybe (.text [';'])) (';' :: rest) (some ([], rest)) :=
      reads_maybe (.text [';'] rest)
    rw [htokens]
    by_cases hrest : tokens rest = []
    · exact .inl ⟨.inr ⟨glued, by rw [hrest]⟩, reads_next hmark (reads_ending hrest)⟩
    · refine .inr ⟨?_, no_next_second hmark (no_ending hrest)⟩
      rintro (hnil | ⟨glued', hone⟩)
      · cases hnil
      · exact hrest (List.cons.inj hone).2
  · have hmark : Reads source .loose (.maybe (.text [';'])) cs (some ([], cs)) := by
      refine no_maybe (.no_text ?_)
      rintro ⟨rest, rfl⟩
      exact hhead rfl
    by_cases hnil : tokens cs = []
    · exact .inl ⟨.inl hnil, reads_next hmark (reads_ending hnil)⟩
    · refine .inr ⟨?_, no_next_second hmark (no_ending hnil)⟩
      rintro (hnil' | ⟨glued, hone⟩)
      · exact hnil hnil'
      · exact hno glued [] hone

theorem program_of_closes {s rest : List Lexeme} {p : Phrase}
    (hread : expression (s.length + 1) s = some (p, rest)) (h : Closes rest) :
    program s = some p := by
  rw [program, hread]
  rcases h with rfl | ⟨glued, rfl⟩ <;> rfl

theorem program_eq_none {s : List Lexeme}
    (h : ∀ p rest, expression (s.length + 1) s = some (p, rest) → ¬ Closes rest) :
    program s = none := by
  unfold program
  split
  · next p hread => exact absurd (.inl rfl) (h p _ hread)
  · next p glued hread => exact absurd (.inr ⟨glued, rfl⟩) (h p _ hread)
  · rfl

/-- What the grammar makes of a source. The builder that trusts nothing has nothing against it but
what the builder of phrases has. -/
theorem reads_program (source : List Char) :
    (∃ phrase tree, program (tokens source) = some phrase ∧
      Reads source .loose (.rule .program) source (some ([tree], [])) ∧
        buildProgram [tree] = phrase.complaining) ∨
      program (tokens source) = none ∧ Reads source .loose (.rule .program) source none := by
  have hskip := tokens_skipLayout source
  have hexpression := agrees_expression source ((tokens source).length + 1)
    (skipLayout false source) (atLexeme_skipLayout source) (by rw [hskip]; exact Nat.lt_succ_self _)
  rw [hskip] at hexpression
  generalize hresult : expression ((tokens source).length + 1) (tokens source) = result
    at hexpression
  cases hexpression with
  | fails hread =>
      refine .inr ⟨program_eq_none fun p rest h => ?_,
        .no_rule (no_next_second .beginning (no_next_first hread))⟩
      cases hresult.symm.trans h
  | @reads phrase nodes mid hread _ hnodes =>
      obtain ⟨text, parts, rfl, hbuild⟩ := hnodes
      rcases @closes_or_not source _ (atLexeme_skipLayout mid) with ⟨hcloses, hend⟩ | ⟨hno, hend⟩
      · rw [tokens_skipLayout] at hcloses
        have hbody : Reads source .loose Nonterminal.program.body source
            (some ([.mk .expression text parts, .mk .ending [] []], [])) :=
          reads_next .beginning (reads_next hread hend)
        exact .inl ⟨phrase, _, program_of_closes hresult hcloses, .rule hbody, hbuild⟩
      · rw [tokens_skipLayout] at hno
        refine .inr ⟨program_eq_none fun p rest h => ?_,
          .no_rule (no_next_second .beginning (no_next_second hread hend))⟩
        obtain ⟨_, rfl⟩ := Prod.mk.inj (Option.some.inj (hresult.symm.trans h))
        exact hno

end Scriptlet.Grammar
