import Mathlib.Order.Basic
import Scriptlet.Number.Binary

/-!
Floats in a row. The bits of a float without its sign, read as a number, say how far it stands
from zero: the exponent comes first, and a mantissa that is full carries into it. So a float has a
place among the integers, and off NaN two floats compare as their places do.
-/

namespace Scriptlet.Number

open Float.Model
open Float.Model.UnpackedFloat hiding unpack pack

/-- Mantissa and exponent are those that the bits of a float hold. -/
def Canonical : UnpackedFloat → Prop
  | .finite _ mantissa exponent _ =>
      mantissa < 0x20000000000000 ∧ -1074 ≤ exponent ∧ exponent ≤ 971 ∧
        (exponent = -1074 ∨ 0x10000000000000 ≤ mantissa)
  | _ => True

/-- How far from zero a mantissa with its exponent stands. -/
def distance (mantissa : Nat) (exponent : Int) : Int :=
  (exponent + 1074) * 0x10000000000000 + mantissa

def place : UnpackedFloat → Int
  | .notANumber | .zero _ => 0
  | .infinity sign => sign.apply (2047 * 0x10000000000000)
  | .finite sign mantissa exponent _ => sign.apply (distance mantissa exponent)

variable {sign sign' : Sign} {m n : Nat} {e f : Int} {hm : 0 < m} {hn : 0 < n}

theorem distance_bounds (h : Canonical (.finite sign m e hm)) :
    0 < distance m e ∧ distance m e < 2047 * 0x10000000000000 := by
  obtain ⟨hmantissa, hleast, hgreatest, _⟩ := h
  unfold distance
  omega

/-- Finite floats stand between the infinities. -/
theorem place_bounds (h : Canonical (.finite sign m e hm)) :
    -(2047 * 0x10000000000000) < place (.finite sign m e hm) ∧
      place (.finite sign m e hm) < 2047 * 0x10000000000000 := by
  have hbounds := distance_bounds h
  cases sign with
  | positive =>
      change _ < distance m e ∧ distance m e < _
      omega
  | negative =>
      change _ < -distance m e ∧ -distance m e < _
      omega

/-- First the exponents decide and then the mantissas. -/
theorem compare_distance (h : Canonical (.finite sign m e hm))
    (h' : Canonical (.finite sign' n f hn)) :
    (compare e f).then (compare m n) = compare (distance m e) (distance n f) := by
  obtain ⟨hm, he, _, hfull⟩ := h
  obtain ⟨hn, hf, _, hfull'⟩ := h'
  rcases Int.lt_trichotomy e f with hlt | rfl | hgt
  · have hdistance : distance m e < distance n f := by
      unfold distance
      omega
    rw [Int.compare_eq_lt.mpr hlt, Int.compare_eq_lt.mpr hdistance]
    rfl
  · have hsame : compare e e = .eq := Int.compare_eq_eq.mpr rfl
    rw [hsame]
    rcases Nat.lt_trichotomy m n with hmn | rfl | hmn
    · have hdistance : distance m e < distance n e := by
        unfold distance
        omega
      rw [Nat.compare_eq_lt.mpr hmn, Int.compare_eq_lt.mpr hdistance]
      rfl
    · rw [Nat.compare_eq_eq.mpr rfl, Int.compare_eq_eq.mpr rfl]
      rfl
    · have hdistance : distance n e < distance m e := by
        unfold distance
        omega
      rw [Nat.compare_eq_gt.mpr hmn, Int.compare_eq_gt.mpr hdistance]
      rfl
  · have hdistance : distance n f < distance m e := by
      unfold distance
      omega
    rw [Int.compare_eq_gt.mpr hgt, Int.compare_eq_gt.mpr hdistance]
    rfl

theorem compare_neg_neg (a b : Int) : compare (-a) (-b) = (compare a b).swap := by
  rcases Int.lt_trichotomy a b with hlt | rfl | hgt
  · rw [Int.compare_eq_lt.mpr hlt, Int.compare_eq_gt.mpr (Int.neg_lt_neg hlt)]
    rfl
  · rw [Int.compare_eq_eq.mpr rfl, Int.compare_eq_eq.mpr rfl]
    rfl
  · rw [Int.compare_eq_gt.mpr hgt, Int.compare_eq_lt.mpr (Int.neg_lt_neg hgt)]
    rfl

theorem some_lt {a b : Int} (h : a < b) : some Ordering.lt = some (compare a b) :=
  congrArg some (Int.compare_eq_lt.mpr h).symm

theorem some_gt {a b : Int} (h : b < a) : some Ordering.gt = some (compare a b) :=
  congrArg some (Int.compare_eq_gt.mpr h).symm

/-- Off NaN two floats compare as their places do. -/
theorem compare_eq_place {a b : UnpackedFloat} (ha : Canonical a) (hb : Canonical b)
    (hnumber : a.isNaN = false) (hnumber' : b.isNaN = false) :
    a.compare b = some (compare (place a) (place b)) := by
  cases a with
  | notANumber => cases hnumber
  | infinity sign =>
      cases b with
      | notANumber => cases hnumber'
      | infinity sign' => cases sign <;> cases sign' <;> rfl
      | zero sign' => cases sign <;> rfl
      | finite sign' n f hn =>
          obtain ⟨hlow, hhigh⟩ := place_bounds hb
          cases sign with
          | positive => exact some_gt hhigh
          | negative => exact some_lt hlow
  | zero sign =>
      cases b with
      | notANumber => cases hnumber'
      | infinity sign' => cases sign' <;> rfl
      | zero sign' => rfl
      | finite sign' n f hn =>
          have hnear := (distance_bounds hb).1
          cases sign' with
          | positive => exact some_lt hnear
          | negative => exact some_gt (Int.neg_neg_of_pos hnear)
  | finite sign m e hm =>
      cases b with
      | notANumber => cases hnumber'
      | infinity sign' =>
          obtain ⟨hlow, hhigh⟩ := place_bounds ha
          cases sign' with
          | positive => cases sign <;> exact some_lt hhigh
          | negative => cases sign <;> exact some_gt hlow
      | zero sign' =>
          have hnear := (distance_bounds ha).1
          cases sign with
          | positive => exact some_gt hnear
          | negative => exact some_lt (Int.neg_neg_of_pos hnear)
      | finite sign' n f hn =>
          have hnear := (distance_bounds ha).1
          have hnear' := (distance_bounds hb).1
          have hsame := compare_distance ha hb
          cases sign with
          | positive =>
              cases sign' with
              | positive => exact congrArg some hsame
              | negative => exact some_gt (show -distance n f < distance m e by omega)
          | negative =>
              cases sign' with
              | positive => exact some_lt (show -distance m e < distance n f by omega)
              | negative =>
                  have hswap := (congrArg Ordering.swap hsame).trans (compare_neg_neg _ _).symm
                  exact congrArg some hswap

/-! ### Unpacking -/

theorem toNat_one_append (v : BitVec 52) : (1#1 ++ v).toNat = 0x10000000000000 + v.toNat := by
  rw [BitVec.toNat_append, ← Nat.shiftLeft_add_eq_or_of_lt v.isLt]
  rfl

theorem unpack_canonical (b : BitVec 64) : Canonical (UnpackedFloat.unpack .binary64 b) := by
  unfold UnpackedFloat.unpack
  dsimp only
  have hbias : ((Format.binary64.exponentBias : Nat) : Int) = 1023 := rfl
  have hwidth : ((Format.binary64.mantissaBitsWithoutImplicit : Nat) : Int) = 52 := rfl
  have hmantissa : (@unpackMantissa .binary64 b).toNat < 0x10000000000000 :=
    (@unpackMantissa .binary64 b).isLt
  have hfield : (@unpackExponent .binary64 b).toNat < 2048 :=
    (@unpackExponent .binary64 b).isLt
  by_cases hones : @unpackExponent .binary64 b = -1#11
  · rw [if_pos hones]
    split <;> trivial
  · rw [if_neg hones]
    by_cases hzero : @unpackExponent .binary64 b = 0#11
    · have hexponent : (@unpackExponent .binary64 b).toNat = 0 := by
        rw [hzero]
        rfl
      rw [if_pos hzero]
      by_cases hnone : @unpackMantissa .binary64 b = 0#52
      · rw [dif_pos hnone]
        trivial
      · rw [dif_neg hnone]
        refine ⟨?_, ?_, ?_, Or.inl ?_⟩ <;> omega
    · have hlow : (@unpackExponent .binary64 b).toNat ≠ 0 :=
        fun heq => hzero (BitVec.eq_of_toNat_eq heq)
      have hhigh : (@unpackExponent .binary64 b).toNat ≠ 2047 :=
        fun heq => hones (BitVec.eq_of_toNat_eq heq)
      have happend := toNat_one_append (@unpackMantissa .binary64 b)
      rw [if_neg hzero]
      refine ⟨?_, ?_, ?_, Or.inr ?_⟩ <;> omega

theorem unpackSign_pack (sign : Sign) (field : BitVec 11) (fraction : BitVec 52) :
    Sign.ofBitVec (@unpackSign .binary64 (packComponents .binary64 sign field fraction)) =
      sign := by
  have hbit : @unpackSign .binary64 (packComponents .binary64 sign field fraction) =
      sign.toBitVec := by
    apply BitVec.eq_of_getLsbD_eq
    intro i hi
    obtain rfl : i = 0 := Nat.lt_one_iff.mp hi
    change ((packComponents .binary64 sign field fraction).extractLsb 63 63).getLsbD 0 = _
    rw [BitVec.getLsbD_extractLsb]
    change (_ && (sign.toBitVec ++ field ++ fraction).getLsbD 63) = _
    rw [BitVec.getLsbD_append, BitVec.getLsbD_append]
    rfl
  rw [hbit]
  cases sign <;> rfl

theorem unpack_normal (sign : Sign) {field : BitVec 11} {fraction : BitVec 52}
    (hones : field ≠ -1#11) (hzero : field ≠ 0#11) (hpos : 0 < (1#1 ++ fraction).toNat) :
    UnpackedFloat.unpack .binary64 (packComponents .binary64 sign field fraction) =
      .finite sign (1#1 ++ fraction).toNat (field.toNat - 1075) hpos := by
  have hsign := unpackSign_pack sign field fraction
  have hfield : @unpackExponent .binary64 (packComponents .binary64 sign field fraction) =
      field := unpackExponent_packComponents
  have hfraction : @unpackMantissa .binary64 (packComponents .binary64 sign field fraction) =
      fraction := unpackMantissa_packComponents
  generalize packComponents .binary64 sign field fraction = b at *
  subst hsign hfield hfraction
  unfold UnpackedFloat.unpack
  dsimp only
  rw [if_neg hones, if_neg hzero]
  rfl

theorem unpack_subnormal (sign : Sign) {fraction : BitVec 52} (hzero : fraction ≠ 0#52)
    (hpos : 0 < fraction.toNat) :
    UnpackedFloat.unpack .binary64 (packComponents .binary64 sign 0#11 fraction) =
      .finite sign fraction.toNat (-1074) hpos := by
  have hones : 0#11 ≠ -1#11 := by decide
  have hsign := unpackSign_pack sign 0#11 fraction
  have hfield : @unpackExponent .binary64 (packComponents .binary64 sign 0#11 fraction) =
      0#11 := unpackExponent_packComponents
  have hfraction : @unpackMantissa .binary64 (packComponents .binary64 sign 0#11 fraction) =
      fraction := unpackMantissa_packComponents
  generalize packComponents .binary64 sign 0#11 fraction = b at *
  subst hsign hfraction
  unfold UnpackedFloat.unpack
  dsimp only
  rw [hfield, if_neg hones, if_pos rfl, dif_neg hzero]
  rfl

theorem pack_finite (h : Canonical (.finite sign m e hm)) :
    UnpackedFloat.pack .binary64 (.finite sign m e hm) =
      if m.log2 + 1 = 53 then
        packComponents .binary64 sign (BitVec.ofNat 11 (e + 1075).toNat) (BitVec.ofNat 52 m)
      else packComponents .binary64 sign 0#11 (BitVec.ofNat 52 m) := by
  obtain ⟨_, _, hgreatest, _⟩ := h
  have hbiased : e + 1023 + 52 = e + 1075 := by omega
  have hfits : ¬ 2048 ≤ (e + 1075).toNat + 1 := by omega
  change (if 2048 ≤ (e + 1023 + 52).toNat + 1 then packedInfinity .binary64 sign
    else if m.log2 + 1 = 53 then
      packComponents .binary64 sign (BitVec.ofNat 11 (e + 1023 + 52).toNat) (BitVec.ofNat 52 m)
    else packComponents .binary64 sign 0#11 (BitVec.ofNat 52 m)) = _
  rw [hbiased, if_neg hfits]

theorem log2_eq_iff (hm : 0 < m) (hmantissa : m < 0x20000000000000) :
    m.log2 + 1 = 53 ↔ 0x10000000000000 ≤ m := by
  have hlow : 52 ≤ m.log2 ↔ 0x10000000000000 ≤ m := Nat.le_log2 (Nat.ne_of_gt hm)
  have hhigh : m.log2 < 53 := (Nat.log2_lt (Nat.ne_of_gt hm)).mpr hmantissa
  omega

theorem finite_congr (hmantissa : m = n) (hexponent : e = f) :
    UnpackedFloat.finite sign m e hm = .finite sign n f hn := by
  subst hmantissa hexponent
  rfl

/-- What is canonical is packed without loss. -/
theorem unpack_pack {u : UnpackedFloat} (h : Canonical u) :
    UnpackedFloat.unpack .binary64 (UnpackedFloat.pack .binary64 u) = u := by
  cases u with
  | notANumber => rfl
  | infinity sign => cases sign <;> rfl
  | zero sign => cases sign <;> rfl
  | finite sign m e hm =>
      have hlog := log2_eq_iff hm h.1
      rw [pack_finite h]
      obtain ⟨hmantissa, hleast, hgreatest, hfull⟩ := h
      by_cases hnormal : 0x10000000000000 ≤ m
      · have hfield : (BitVec.ofNat 11 (e + 1075).toNat).toNat = (e + 1075).toNat := by
          rw [BitVec.toNat_ofNat]
          exact Nat.mod_eq_of_lt (by omega)
        have hones : BitVec.ofNat 11 (e + 1075).toNat ≠ -1#11 := by
          intro heq
          have hnat : (BitVec.ofNat 11 (e + 1075).toNat).toNat = 2047 := by rw [heq]; rfl
          omega
        have hzero : BitVec.ofNat 11 (e + 1075).toNat ≠ 0#11 := by
          intro heq
          have hnat : (BitVec.ofNat 11 (e + 1075).toNat).toNat = 0 := by rw [heq]; rfl
          omega
        have hfraction : (1#1 ++ BitVec.ofNat 52 m).toNat = m := by
          rw [toNat_one_append, BitVec.toNat_ofNat]
          omega
        have hexponent : ((e + 1075).toNat : Int) - 1075 = e := by omega
        rw [if_pos (hlog.mpr hnormal), unpack_normal sign hones hzero (by omega)]
        refine finite_congr hfraction ?_
        rw [hfield, hexponent]
      · have hfraction : (BitVec.ofNat 52 m).toNat = m := by
          rw [BitVec.toNat_ofNat]
          exact Nat.mod_eq_of_lt (Nat.lt_of_not_le hnormal)
        have hnonzero : BitVec.ofNat 52 m ≠ 0#52 := by
          intro heq
          rw [heq] at hfraction
          exact Nat.ne_of_gt hm hfraction.symm
        obtain rfl : e = -1074 := hfull.resolve_right hnormal
        rw [if_neg (mt hlog.mp hnormal), unpack_subnormal sign hnonzero (by omega)]
        exact finite_congr hfraction rfl

theorem place_neg (u : UnpackedFloat) : place u.neg = -place u := by
  cases u with
  | notANumber => rfl
  | infinity sign => cases sign <;> rfl
  | zero sign => rfl
  | finite sign m e hm =>
      cases sign with
      | positive => rfl
      | negative => exact (Int.neg_neg _).symm

theorem canonical_neg {u : UnpackedFloat} (h : Canonical u) : Canonical u.neg := by
  cases u <;> exact h

/-! ### Floats -/

/-- The place of a float among the integers. -/
def position (x : Float) : Int :=
  place x.toModel.unpack

theorem unpack_neg (x : Float) : (-x).toModel.unpack = x.toModel.unpack.neg :=
  unpack_pack (canonical_neg (unpack_canonical _))

theorem position_neg (x : Float) : position (-x) = -position x := by
  rw [position, unpack_neg, place_neg]
  rfl

theorem isNaN_neg (x : Float) : (-x).isNaN = x.isNaN := by
  change (-x).toModel.unpack.isNaN = x.toModel.unpack.isNaN
  rw [unpack_neg]
  cases x.toModel.unpack <;> rfl

theorem isNaN_of_isFinite {x : Float} (h : x.isFinite = true) : x.isNaN = false := by
  change x.toModel.unpack.isFinite = true at h
  change x.toModel.unpack.isNaN = false
  generalize x.toModel.unpack = u at h ⊢
  cases u with
  | notANumber => cases h
  | _ => rfl

variable {x y : Float}

theorem model_compare (hx : x.isNaN = false) (hy : y.isNaN = false) :
    x.toModel.unpack.compare y.toModel.unpack = some (compare (position x) (position y)) :=
  compare_eq_place (unpack_canonical _) (unpack_canonical _) hx hy

theorem lt_iff_position (hx : x.isNaN = false) (hy : y.isNaN = false) :
    x < y ↔ position x < position y := by
  change decide (x.toModel.unpack.lt y.toModel.unpack = true) = true ↔ _
  rw [decide_eq_true_iff, UnpackedFloat.lt, model_compare hx hy, beq_iff_eq, Option.some.injEq,
    Int.compare_eq_lt]

theorem le_iff_position (hx : x.isNaN = false) (hy : y.isNaN = false) :
    x ≤ y ↔ position x ≤ position y := by
  change decide (x.toModel.unpack.le y.toModel.unpack = true) = true ↔ _
  rw [decide_eq_true_iff, UnpackedFloat.le, model_compare hx hy, Option.any_some,
    Int.isLE_compare]

theorem beq_iff_position (hx : x.isNaN = false) (hy : y.isNaN = false) :
    (x == y) = true ↔ position x = position y := by
  change (x.toModel.unpack.compare y.toModel.unpack == some .eq) = true ↔ _
  rw [model_compare hx hy, beq_iff_eq, Option.some.injEq, Int.compare_eq_eq]

/-- Off NaN any two floats compare, and as their places do. -/
theorem compare?_eq (hx : x.isNaN = false) (hy : y.isNaN = false) :
    compare? x y = some (compare (position x) (position y)) := by
  unfold compare?
  rcases Int.lt_trichotomy (position x) (position y) with hlt | heq | hgt
  · rw [if_pos ((lt_iff_position hx hy).mpr hlt), Int.compare_eq_lt.mpr hlt]
  · have hnot : ¬ x < y := fun h => Int.ne_of_lt ((lt_iff_position hx hy).mp h) heq
    rw [if_neg hnot, if_pos ((beq_iff_position hx hy).mpr heq), Int.compare_eq_eq.mpr heq]
  · have hnot : ¬ x < y := fun h => Int.lt_asymm hgt ((lt_iff_position hx hy).mp h)
    have hne : ¬ (x == y) = true := fun h => Int.ne_of_gt hgt ((beq_iff_position hx hy).mp h)
    rw [if_neg hnot, if_neg hne, if_pos ((lt_iff_position hy hx).mpr hgt),
      Int.compare_eq_gt.mpr hgt]

/-! ### NaN -/

theorem compare_of_isNaN {a b : UnpackedFloat} (h : a.isNaN = true ∨ b.isNaN = true) :
    a.compare b = none := by
  rcases h with h | h
  · cases a with
    | notANumber => rfl
    | _ => cases h
  · cases b with
    | notANumber => cases a <;> rfl
    | _ => cases h

theorem beq_of_isNaN (h : x.isNaN = true ∨ y.isNaN = true) : (x == y) = false := by
  change (x.toModel.unpack.compare y.toModel.unpack == some .eq) = false
  rw [compare_of_isNaN h]
  rfl

theorem not_lt_of_isNaN (h : x.isNaN = true ∨ y.isNaN = true) : ¬ x < y := by
  intro hlt
  change decide (x.toModel.unpack.lt y.toModel.unpack = true) = true at hlt
  rw [decide_eq_true_iff, UnpackedFloat.lt, compare_of_isNaN h] at hlt
  cases hlt

/-- NaN compares with nothing, on either side. -/
theorem compare?_of_isNaN (h : x.isNaN = true ∨ y.isNaN = true) : compare? x y = none := by
  have hne : ¬ (x == y) = true := by
    rw [beq_of_isNaN h]
    decide
  unfold compare?
  rw [if_neg (not_lt_of_isNaN h), if_neg hne, if_neg (not_lt_of_isNaN h.symm)]

/-- Two floats are equal when neither is NaN and they have one place. -/
theorem beq_iff :
    (x == y) = true ↔ x.isNaN = false ∧ y.isNaN = false ∧ position x = position y := by
  constructor
  · intro h
    have hx : x.isNaN = false := by
      apply Bool.eq_false_iff.mpr
      intro hnan
      rw [beq_of_isNaN (.inl hnan)] at h
      cases h
    have hy : y.isNaN = false := by
      apply Bool.eq_false_iff.mpr
      intro hnan
      rw [beq_of_isNaN (.inr hnan)] at h
      cases h
    exact ⟨hx, hy, (beq_iff_position hx hy).mp h⟩
  · rintro ⟨hx, hy, hplace⟩
    exact (beq_iff_position hx hy).mpr hplace

end Scriptlet.Number
