import Mathlib.Data.List.Forall2
import Scriptlet.Evaluation

/-!
Length and positions of texts and lists. What `Length`, `Count`, `List.Count`, an index, a list
literal and `+` say of a text or a list is all said of one row, the values at its positions: the
items of a list, and the texts of one character each of a text.

A length is a 64-bit integer, so it is taken that the row has fewer than `2^63` positions, as every
row that a machine can hold.
-/

namespace Scriptlet

/-- What stands at the positions of a text or a list. -/
def Value.positions? : Value → Option (List Value)
  | .string s => some (s.toList.map fun c => .string (String.singleton c))
  | .list items => some items
  | _ => none

/-- How an index that is not a position is refused. -/
def Value.outOfRange (v : Value) (i : Int64) : Fault :=
  match v with
  | .list items => .listIndex i items.length
  | _ => .stringIndex i

/-- An expression that has a value, wherever it stands. -/
def Expr.Denotes (around : Surroundings) (context : Value) (e : Expr) (v : Value) : Prop :=
  ∀ site, e.eval around context site = .ok v

/-- The elements at the first `n` positions, `e[0], e[1], …`. -/
def Expr.elements (e : Expr) (n : Nat) : List Expr :=
  (List.range n).map fun i => .index e (.int (Int64.ofNat i))

/-- A row of expressions joined by `+`; of an empty row, the empty text. -/
def Expr.concatenated : List Expr → Expr
  | [] => .string ""
  | e :: es => es.foldl (.binary .add) e

variable {around : Surroundings} {context : Value} {e : Expr} {v : Value} {row : List Value}

/-! ### Values -/

namespace Value

theorem nth?_map {α β : Type} (f : α → β) (items : List α) (i : Int64) :
    nth? (items.map f) i = (nth? items i).map f := by
  unfold nth?
  split
  · rw [List.getElem?_map]
  · rfl

theorem nth?_ofNat {α : Type} (items : List α) {i : Nat} (h : i < 0x8000000000000000) :
    nth? items (Int64.ofNat i) = items[i]? := by
  rw [nth?, Int64.toInt_ofNat_of_lt h, if_pos (Int.natCast_nonneg i), Int.toNat_natCast]

theorem isSome_nth?_iff {α : Type} (items : List α) (i : Int64) :
    (nth? items i).isSome = true ↔ 0 ≤ i.toInt ∧ i.toInt < items.length := by
  unfold nth?
  split
  · rw [Option.isSome_iff_ne_none, ne_eq, List.getElem?_eq_none_iff]
    omega
  · simp only [Option.isSome_none, Bool.false_eq_true, false_iff]
    omega

theorem index_int (h : v.positions? = some row) (i : Int64) :
    v.index (.int i) = (nth? row i).elim (.error (v.outOfRange i)) .ok := by
  cases v with
  | string s =>
      obtain rfl := Option.some.inj h
      rw [index, nth?_map]
      cases nth? s.toList i <;> rfl
  | list items =>
      obtain rfl := Option.some.inj h
      rw [index]
      cases nth? items i <;> rfl
  | _ => cases h

theorem member_length (h : v.positions? = some row) :
    v.member "Length" = .ok (.int (Int64.ofInt row.length)) := by
  cases v with
  | string s =>
      obtain rfl := Option.some.inj h
      rw [member, if_pos rfl, List.length_map, String.length_toList]
  | list items =>
      obtain rfl := Option.some.inj h
      rfl
  | _ => cases h

end Value

/-! ### Expressions -/

namespace Expr.Denotes

theorem member_length (he : e.Denotes around context v) (h : v.positions? = some row) :
    (Expr.member e "Length").Denotes around context (.int (Int64.ofInt row.length)) := by
  intro site
  rw [Expr.eval, he]
  exact v.member_length h

theorem index (he : e.Denotes around context v) (i : Int64) (site : Site) :
    (Expr.index e (.int i)).eval around context site = v.index (.int i) := by
  rw [Expr.eval, he, Expr.eval]
  rfl

/-- The elements of a row are at its positions. -/
theorem elements (he : e.Denotes around context v) (h : v.positions? = some row)
    (hlength : row.length < 0x8000000000000000) :
    List.Forall₂ (Expr.Denotes around context) (e.elements row.length) row := by
  rw [Expr.elements, List.forall₂_map_left_iff, List.forall₂_iff_get]
  refine ⟨List.length_range, fun i hrange hrow site => ?_⟩
  rw [List.get_eq_getElem, List.get_eq_getElem, List.getElem_range, he.index,
    Value.index_int h, Value.nth?_ofNat row (Nat.lt_trans hrow hlength),
    List.getElem?_eq_getElem hrow, Option.elim_some]

theorem evalItems {es : List Expr} (h : List.Forall₂ (Expr.Denotes around context) es row)
    (site : Site) (i : Nat) : evalItems around context site i es = .ok row := by
  induction h generalizing i with
  | nil => rfl
  | cons he _ ih =>
      rw [Scriptlet.evalItems, he, ih]
      rfl

theorem list {es : List Expr} (h : List.Forall₂ (Expr.Denotes around context) es row) :
    (Expr.list es).Denotes around context (.list row) := by
  intro site
  rw [Expr.eval, evalItems h]
  rfl

theorem add {l r : Expr} {a b : String} (hl : l.Denotes around context (.string a))
    (hr : r.Denotes around context (.string b)) :
    (Expr.binary .add l r).Denotes around context (.string (a ++ b)) := by
  intro site
  simp only [Expr.eval, hl (0 :: site), hr (1 :: site)]
  rfl

/-- Joining the characters of a text to what stands in front of them. -/
theorem foldl_add {cs : List Char} {es : List Expr} {start : Expr} {text : String}
    (hstart : start.Denotes around context (.string text))
    (h : List.Forall₂ (Expr.Denotes around context) es
      (cs.map fun c => .string (String.singleton c))) :
    (es.foldl (.binary .add) start).Denotes around context
      (.string (text ++ String.ofList cs)) := by
  induction cs generalizing es start text with
  | nil =>
      cases h with
      | nil => rwa [String.ofList_nil, String.append_empty]
  | cons c cs ih =>
      cases h with
      | cons he hes =>
          rw [List.foldl_cons, String.ofList_cons, ← String.append_assoc]
          exact ih (hstart.add he) hes

theorem concatenated {s : String} {es : List Expr}
    (h : List.Forall₂ (Expr.Denotes around context) es
      (s.toList.map fun c => .string (String.singleton c))) :
    (Expr.concatenated es).Denotes around context (.string s) := by
  obtain ⟨cs, rfl⟩ : ∃ cs, s = String.ofList cs := ⟨s.toList, String.ofList_toList.symm⟩
  rw [String.toList_ofList] at h
  cases cs with
  | nil =>
      cases h with
      | nil => exact fun site => rfl
  | cons c cs =>
      cases h with
      | cons he hes =>
          rw [String.ofList_cons]
          exact foldl_add he hes

theorem count {items : List Value} (he : e.Denotes around context (.list items)) :
    (Expr.member e "Count").Denotes around context (.int (Int64.ofInt items.length)) ∧
      (Expr.call (.member (.ident "List") "Count") [e]).Denotes around context
        (.int (Int64.ofInt items.length)) := by
  constructor
  · intro site
    rw [Expr.eval, he]
    rfl
  · intro site
    rw [Expr.eval, evalItems (List.Forall₂.cons he .nil)]
    rfl

end Expr.Denotes

/-- The length of a text or a list counts the positions that an index reaches: an index gives a
value from zero up to the length and a fault elsewhere. For a list, `Count` and `List.Count` are the
length as well, and the elements at the positions make up the list; for a text, the elements joined
by `+` make up the text. -/
theorem positions_make_up_sequence (he : e.Denotes around context v)
    (hrow : v.positions? = some row) (hlength : row.length < 0x8000000000000000) :
    (∃ length : Int64, length.toInt = row.length ∧
      (Expr.member e "Length").Denotes around context (.int length) ∧
      (∀ (i : Int64) (site : Site),
        ((∃ w, (Expr.index e (.int i)).eval around context site = .ok w) ↔ 0 ≤ i ∧ i < length) ∧
        (¬ (0 ≤ i ∧ i < length) →
          (Expr.index e (.int i)).eval around context site = .error (v.outOfRange i))) ∧
      ∀ items, v = .list items →
        (Expr.member e "Count").Denotes around context (.int length) ∧
        (Expr.call (.member (.ident "List") "Count") [e]).Denotes around context (.int length)) ∧
    (∀ items, v = .list items →
      (Expr.list (e.elements row.length)).Denotes around context v) ∧
    (∀ s, v = .string s →
      (Expr.concatenated (e.elements row.length)).Denotes around context v) := by
  have hexact : (Int64.ofInt row.length).toInt = row.length :=
    Int64.toInt_ofInt_of_le (by omega) (by omega)
  have helements := he.elements hrow hlength
  refine ⟨⟨Int64.ofInt row.length, hexact, he.member_length hrow, fun i site => ?_, ?_⟩, ?_, ?_⟩
  · have hposition : (Value.nth? row i).isSome = true ↔ 0 ≤ i ∧ i < Int64.ofInt row.length := by
      rw [Value.isSome_nth?_iff, Int64.le_iff_toInt_le, Int64.lt_iff_toInt_lt, hexact,
        Int64.toInt_zero]
    rw [← hposition, he.index, Value.index_int hrow]
    cases Value.nth? row i with
    | none => simp
    | some w => simp
  · rintro items rfl
    obtain rfl := Option.some.inj hrow
    exact he.count
  · rintro items rfl
    obtain rfl := Option.some.inj hrow
    exact .list helements
  · rintro s rfl
    obtain rfl := Option.some.inj hrow
    exact .concatenated helements

/-- A text whose characters take one to four bytes, and the index behind its end. -/
theorem positions_make_up_sequence_of_widths :
    let around : Surroundings := ⟨fun _ => "", fun _ => "", fun _ => 0⟩
    let context : Value := .object [("Name", .string "aß€😀")]
    let e : Expr := .ident "Name"
    let row : List Value := ['a', 'ß', '€', '😀'].map fun c => .string (String.singleton c)
    e.Denotes around context (.string "aß€😀") ∧
      (Value.string "aß€😀").positions? = some row ∧ row.length < 0x8000000000000000 ∧
      (Expr.concatenated [.index e (.int 0), .index e (.int 1), .index e (.int 2),
        .index e (.int 3)]).Denotes around context (.string "aß€😀") ∧
      ∀ site, (Expr.index e (.int 4)).eval around context site = .error (.stringIndex 4) := by
  intro around context e row
  have he : e.Denotes around context (.string "aß€😀") := fun site => rfl
  have hrow : (Value.string "aß€😀").positions? = some row := by
    have hchars : "aß€😀".toList = ['a', 'ß', '€', '😀'] := by decide
    rw [Value.positions?, hchars]
  have hlength : row.length < 0x8000000000000000 := by decide
  obtain ⟨⟨length, hexact, -, hindex, -⟩, -, htext⟩ :=
    positions_make_up_sequence he hrow hlength
  refine ⟨he, hrow, hlength, htext _ rfl, fun site => (hindex 4 site).2 ?_⟩
  rintro ⟨-, hlt⟩
  rw [Int64.lt_iff_toInt_lt, hexact] at hlt
  exact absurd hlt (by decide)

end Scriptlet
