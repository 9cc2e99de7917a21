import Mathlib.Algebra.GroupWithZero.Nat
import Scriptlet.Number.Binary

/-!
An integer of 64 bits is finite as a float. Widening rounds its digits to those that fit and packs
the result; the exponent stays far below the one that stands for infinities and NaN. The bounds
are coarse, for all that is asked of them is this distance.
-/

namespace Scriptlet.Number

open Float.Model
open Float.Model.UnpackedFloat hiding unpack pack

/-- Neither infinite nor NaN, and small enough to stay so when it is packed. -/
def FitsDouble : UnpackedFloat → Prop
  | .zero _ => True
  | .finite _ _ exponent _ => exponent ≤ 971
  | _ => False

theorem fitsDouble_dite (sign : Sign) {mantissa : Nat} {exponent : Int} (h : exponent ≤ 971) :
    FitsDouble (if hzero : mantissa = 0 then .zero sign
      else .finite sign mantissa exponent (Nat.pos_of_ne_zero hzero)) := by
  by_cases hzero : mantissa = 0
  · rw [dif_pos hzero]
    trivial
  · rw [dif_neg hzero]
    exact h

theorem unpackExponent_pack {f : UnpackedFloat} (h : FitsDouble f) :
    unpackExponent (UnpackedFloat.pack .binary64 f) ≠ -1#11 := by
  cases f with
  | infinity sign => exact h.elim
  | notANumber => exact h.elim
  | zero sign =>
      change unpackExponent (packComponents .binary64 sign 0 0) ≠ _
      rw [unpackExponent_packComponents]
      decide
  | finite sign mantissa exponent hpos =>
      have hexponent : exponent ≤ 971 := h
      have hbiased : (exponent + 1023 + 52).toNat + 1 < 2048 := by omega
      change unpackExponent (if 2048 ≤ (exponent + 1023 + 52).toNat + 1 then _ else _) ≠ _
      rw [if_neg (Nat.not_le.mpr hbiased)]
      split
      · rw [unpackExponent_packComponents]
        intro hfield
        have hnat := congrArg BitVec.toNat hfield
        rw [BitVec.toNat_ofNat] at hnat
        change (exponent + 1023 + 52).toNat % 2048 = 2047 at hnat
        omega
      · rw [unpackExponent_packComponents]
        decide

theorem isFinite_unpack_pack {f : UnpackedFloat} (h : FitsDouble f) :
    (UnpackedFloat.unpack .binary64 (UnpackedFloat.pack .binary64 f)).isFinite = true := by
  unfold UnpackedFloat.unpack
  dsimp only
  rw [if_neg (unpackExponent_pack h)]
  by_cases hexponent : unpackExponent (UnpackedFloat.pack .binary64 f) = 0#11
  · rw [if_pos hexponent]
    by_cases hmantissa : unpackMantissa (UnpackedFloat.pack .binary64 f) = 0#52
    · rw [dif_pos hmantissa]
      rfl
    · rw [dif_neg hmantissa]
      rfl
  · rw [if_neg hexponent]
    rfl

theorem mantissa_shiftRight (em : ExtendedMantissa) (n : Nat) :
    (em >>> n).mantissa = em.mantissa / 2 ^ n := by
  change (n.repeat ExtendedMantissa.shiftRightOne em).mantissa = em.mantissa / 2 ^ n
  induction n with
  | zero => exact (Nat.div_one _).symm
  | succ n ih =>
      change (n.repeat ExtendedMantissa.shiftRightOne em).mantissa / 2 = _
      rw [ih, Nat.div_div_eq_div_mul, Nat.pow_succ]

theorem mantissa_shiftRight_le (em : ExtendedMantissa) (n : Nat) :
    (em >>> n).mantissa ≤ em.mantissa := by
  rw [mantissa_shiftRight]
  exact Nat.div_le_self _ _

theorem roundedMantissa_le (em : ExtendedMantissa) : em.roundedMantissa ≤ em.mantissa + 1 := by
  have hparity := Nat.mod_lt em.mantissa (show 0 < 2 by decide)
  unfold ExtendedMantissa.roundedMantissa Accuracy.roundToNearestEven
  split <;> omega

theorem shiftToTargetExponent_le {mantissa bits : Nat} {exponent bound : Int}
    (accuracy : Accuracy) (hmantissa : mantissa < 2 ^ (bits + 1)) (hexponent : exponent ≤ bound)
    (hbound : bits + exponent - 52 ≤ bound) (hleast : -1074 ≤ bound) :
    (shiftToTargetExponent .binary64 mantissa exponent accuracy).1.mantissa ≤ mantissa ∧
      (shiftToTargetExponent .binary64 mantissa exponent accuracy).2 ≤ bound := by
  have hlog : mantissa.log2 ≤ bits := by
    by_cases hzero : mantissa = 0
    · subst hzero
      exact Nat.zero_le _
    · exact Nat.le_of_lt_succ ((Nat.log2_lt hzero).mpr hmantissa)
  have htarget : Format.targetExponent .binary64 (totalExponent mantissa exponent) ≤ bound := by
    change max ((mantissa.log2 : Int) + 1 + exponent - 53) (-1074) ≤ bound
    omega
  refine ⟨Nat.le_trans (mantissa_shiftRight_le _ _) ?_, ?_⟩
  · unfold ExtendedMantissa.ofMantissaAndAccuracy
    split <;> exact Nat.le_refl _
  · change exponent + ((Format.targetExponent .binary64 (totalExponent mantissa exponent) -
      exponent).toNat : Int) ≤ bound
    omega

/-- Rounding may carry into one more bit, and then shifts once more. -/
theorem fitsDouble_roundWithAccuracy {mantissa bits : Nat} {exponent : Int} (sign : Sign)
    (accuracy : Accuracy) (hmantissa : mantissa < 2 ^ (bits + 1)) (hbits : bits ≤ 200)
    (hexponent : exponent ≤ 0) :
    FitsDouble (roundWithAccuracy .binary64 sign mantissa exponent accuracy) := by
  have hfirst := shiftToTargetExponent_le accuracy hmantissa (show exponent ≤ 200 by omega)
    (by omega) (by decide)
  have hrounded := roundedMantissa_le
    (shiftToTargetExponent .binary64 mantissa exponent accuracy).1
  have hcarry : (shiftToTargetExponent .binary64 mantissa exponent accuracy).1.roundedMantissa <
      2 ^ (bits + 1 + 1) := by
    have hpow : 2 ^ (bits + 1 + 1) = 2 * 2 ^ (bits + 1) := by rw [Nat.pow_succ, Nat.mul_comm]
    omega
  have hsecond := shiftToTargetExponent_le .exact hcarry (Int.le_trans hfirst.2 (by decide))
    (show _ ≤ (971 : Int) by omega) (by decide)
  exact fitsDouble_dite sign hsecond.2

theorem isFinite_toFloat (n : UInt64) : n.toFloat.isFinite = true := by
  have hlt : n.toNat < 2 ^ 64 := n.toNat_lt
  refine isFinite_unpack_pack ?_
  change FitsDouble (UnpackedFloat.normalize .binary64 (n.toNat : Int) 0 .positive)
  unfold UnpackedFloat.normalize
  split
  · next hneg =>
      have := Int.compare_eq_lt.mp hneg
      omega
  · trivial
  · -- the digits that do not fill the format are shifted up first, by less than its width
    let target := Format.targetExponent .binary64 (totalExponent n.toNat 0)
    have htarget : -52 ≤ target := by
      change -52 ≤ max ((n.toNat.log2 : Int) + 1 + 0 - 53) (-1074)
      omega
    have hshift : (0 - target).toNat ≤ 52 := by omega
    have hdigits : n.toNat <<< (0 - target).toNat < 2 ^ (115 + 1) := by
      rw [Nat.shiftLeft_eq]
      calc n.toNat * 2 ^ (0 - target).toNat
          < 2 ^ 64 * 2 ^ (0 - target).toNat :=
            Nat.mul_lt_mul_of_pos_right hlt (Nat.two_pow_pos _)
        _ ≤ 2 ^ 64 * 2 ^ 52 := Nat.mul_le_mul_left _ (Nat.pow_le_pow_right (by decide) hshift)
        _ = 2 ^ (115 + 1) := by decide
    exact fitsDouble_roundWithAccuracy .positive .exact hdigits (by decide) (by omega)

end Scriptlet.Number
