import Scriptlet.Proofs.Values.FloatOrder
import Scriptlet.Proofs.Values.Widening

/-!
Widening keeps the order of integers, though not strictly. The digits of an integer that do not
fit are shifted out one by one and leave a round bit and a sticky bit behind. Read as two more
digits these make a number, and shifting and rounding are monotone on that number.
-/

namespace Scriptlet.Number

open Float.Model
open Float.Model.UnpackedFloat hiding unpack pack

/-- A mantissa with its round bit and its sticky bit as two more digits. -/
def weight (em : ExtendedMantissa) : Nat :=
  4 * em.mantissa + 2 * em.roundBit.toNat + em.stickyBit.toNat

theorem weight_shiftRightOne (em : ExtendedMantissa) :
    weight em.shiftRightOne = 2 * (weight em / 4) + min 1 (weight em % 4) := by
  obtain ⟨m, roundBit, stickyBit⟩ := em
  have hparity : (m % 2 != 0).toNat = m % 2 := by
    rcases Nat.mod_two_eq_zero_or_one m with h | h <;> simp [h]
  cases roundBit <;> cases stickyBit <;>
    simp only [weight, ExtendedMantissa.shiftRightOne, hparity, Bool.or_false, Bool.or_true,
      Bool.toNat_true, Bool.toNat_false] <;> omega

theorem weight_shiftRight_mono {a b : ExtendedMantissa} (h : weight a ≤ weight b) (n : Nat) :
    weight (a >>> n) ≤ weight (b >>> n) := by
  change weight (n.repeat ExtendedMantissa.shiftRightOne a) ≤
    weight (n.repeat ExtendedMantissa.shiftRightOne b)
  induction n with
  | zero => exact h
  | succ n ih =>
      simp only [Nat.repeat, weight_shiftRightOne]
      omega

theorem roundedMantissa_mono {a b : ExtendedMantissa} (h : weight a ≤ weight b) :
    a.roundedMantissa ≤ b.roundedMantissa := by
  obtain ⟨m, roundBit, stickyBit⟩ := a
  obtain ⟨n, roundBit', stickyBit'⟩ := b
  cases roundBit <;> cases stickyBit <;> cases roundBit' <;> cases stickyBit' <;>
    simp only [weight, Bool.toNat_true, Bool.toNat_false] at h <;>
    simp only [ExtendedMantissa.roundedMantissa, ExtendedMantissa.accuracy,
      Accuracy.roundToNearestEven] <;> omega

theorem le_roundedMantissa (em : ExtendedMantissa) : em.mantissa ≤ em.roundedMantissa := by
  unfold ExtendedMantissa.roundedMantissa Accuracy.roundToNearestEven
  split <;> omega

/-! ### The digits of an integer -/

/-- The leading digits of an integer, filled up with zeros or rounded to the width of a float. -/
def leadingDigits (n : Nat) : Nat :=
  ((⟨n * 2 ^ (52 - n.log2), false, false⟩ : ExtendedMantissa) >>> (n.log2 - 52)).roundedMantissa

theorem leadingDigits_mono {m n : Nat} (hlog : m.log2 = n.log2) (hle : m ≤ n) :
    leadingDigits m ≤ leadingDigits n := by
  have hweight : weight ⟨m * 2 ^ (52 - n.log2), false, false⟩ ≤
      weight ⟨n * 2 ^ (52 - n.log2), false, false⟩ := by
    have hscaled := Nat.mul_le_mul_right (2 ^ (52 - n.log2)) hle
    simp only [weight]
    omega
  rw [leadingDigits, leadingDigits, hlog]
  exact roundedMantissa_mono (weight_shiftRight_mono hweight _)

theorem leadingDigits_bounds {n : Nat} (hn : 0 < n) :
    0x10000000000000 ≤ leadingDigits n ∧ leadingDigits n ≤ 0x20000000000000 := by
  have hlow : 2 ^ n.log2 ≤ n := Nat.log2_self_le (Nat.ne_of_gt hn)
  have hhigh : n < 2 ^ (n.log2 + 1) := Nat.lt_log2_self
  have hmantissa : 2 ^ 52 ≤ n * 2 ^ (52 - n.log2) / 2 ^ (n.log2 - 52) ∧
      n * 2 ^ (52 - n.log2) / 2 ^ (n.log2 - 52) < 2 ^ 53 := by
    have hpos := Nat.two_pow_pos (n.log2 - 52)
    rw [Nat.le_div_iff_mul_le hpos, Nat.div_lt_iff_lt_mul hpos, ← Nat.pow_add, ← Nat.pow_add]
    have hsplit : 52 + (n.log2 - 52) = n.log2 + (52 - n.log2) := by omega
    have hsplit' : 53 + (n.log2 - 52) = n.log2 + 1 + (52 - n.log2) := by omega
    rw [hsplit, hsplit', Nat.pow_add, Nat.pow_add]
    exact ⟨Nat.mul_le_mul_right _ hlow,
      Nat.mul_lt_mul_of_pos_right hhigh (Nat.two_pow_pos _)⟩
  have hleast := le_roundedMantissa
    ((⟨n * 2 ^ (52 - n.log2), false, false⟩ : ExtendedMantissa) >>> (n.log2 - 52))
  have hmost := roundedMantissa_le
    ((⟨n * 2 ^ (52 - n.log2), false, false⟩ : ExtendedMantissa) >>> (n.log2 - 52))
  rw [mantissa_shiftRight] at hleast hmost
  exact ⟨Nat.le_trans hmantissa.1 hleast, Nat.le_trans hmost hmantissa.2⟩

/-! ### Where a widened integer stands -/

theorem log2_mul_two_pow {n : Nat} (hn : 0 < n) (k : Nat) : (n * 2 ^ k).log2 = n.log2 + k := by
  have hlow : 2 ^ n.log2 ≤ n := Nat.log2_self_le (Nat.ne_of_gt hn)
  have hhigh : n < 2 ^ (n.log2 + 1) := Nat.lt_log2_self
  have hpos := Nat.two_pow_pos k
  refine (Nat.log2_eq_iff (Nat.ne_of_gt (Nat.mul_pos hn hpos))).mpr ⟨?_, ?_⟩
  · rw [Nat.pow_add]
    exact Nat.mul_le_mul_right _ hlow
  · rw [Nat.add_right_comm, Nat.pow_add]
    exact Nat.mul_lt_mul_of_pos_right hhigh hpos

theorem shiftToTargetExponent_exact (m : Nat) (e : Int) {s : Nat} {t : Int}
    (hshift : (max ((m.log2 : Int) + 1 + e - 53) (-1074) - e).toNat = s) (hexponent : e + s = t) :
    shiftToTargetExponent .binary64 m e .exact =
      ((⟨m, false, false⟩ : ExtendedMantissa) >>> s, t) := by
  subst hshift hexponent
  rfl

/-- Digits that rounding has carried over the width lose the last one, which is zero. -/
theorem distance_shiftToTargetExponent {digits : Nat} {e : Int}
    (hleast : 0x10000000000000 ≤ digits) (hmost : digits ≤ 0x20000000000000) (he : -1074 ≤ e) :
    ∃ m f, (shiftToTargetExponent .binary64 digits e .exact).1.mantissa = m ∧
      (shiftToTargetExponent .binary64 digits e .exact).2 = f ∧
      0x10000000000000 ≤ m ∧ m < 0x20000000000000 ∧ e ≤ f ∧ f ≤ e + 1 ∧
      distance m f = distance digits e := by
  rcases Nat.lt_or_eq_of_le hmost with hfits | rfl
  · have hlog := (log2_eq_iff (by omega) hfits).mpr hleast
    rw [shiftToTargetExponent_exact digits e (s := 0) (t := e) (by omega) (by omega)]
    exact ⟨digits, e, rfl, rfl, hleast, hfits, by omega, by omega, rfl⟩
  · have hlog : Nat.log2 0x20000000000000 = 53 := Nat.log2_two_pow (n := 53)
    rw [shiftToTargetExponent_exact 0x20000000000000 e (s := 1) (t := e + 1) (by omega) rfl]
    refine ⟨0x10000000000000, e + 1, rfl, rfl, by omega, by omega, by omega, by omega, ?_⟩
    unfold distance
    omega

theorem roundWithAccuracy_eq {sign : Sign} {m m' : Nat} {e f g : Int} {em : ExtendedMantissa}
    (hfirst : shiftToTargetExponent .binary64 m e .exact = (em, f))
    (hm : (shiftToTargetExponent .binary64 em.roundedMantissa f .exact).1.mantissa = m')
    (hg : (shiftToTargetExponent .binary64 em.roundedMantissa f .exact).2 = g) (hpos : 0 < m') :
    roundWithAccuracy .binary64 sign m e .exact = .finite sign m' g hpos := by
  subst hm hg
  unfold roundWithAccuracy
  rw [hfirst]
  exact dif_neg (Nat.ne_of_gt hpos)

/-- Where an integer without its sign stands once it is widened. -/
def magnitudePlace (n : Nat) : Int :=
  if n = 0 then 0 else distance (leadingDigits n) (n.log2 - 52)

theorem round_magnitude {n : Nat} (hn : 0 < n) (hlt : n < 2 ^ 64) :
    Canonical (UnpackedFloat.round .binary64 .positive n 0) ∧
      place (UnpackedFloat.round .binary64 .positive n 0) = magnitudePlace n := by
  have hlog : n.log2 < 64 := (Nat.log2_lt (Nat.ne_of_gt hn)).mpr hlt
  have htarget : Format.targetExponent .binary64 (totalExponent n 0) = (n.log2 : Int) - 52 := by
    change max ((n.log2 : Int) + 1 + 0 - 53) (-1074) = _
    omega
  have hfilled : (0 - ((n.log2 : Int) - 52)).toNat = 52 - n.log2 := by omega
  have hfirst : shiftToTargetExponent .binary64 (n * 2 ^ (52 - n.log2)) (0 - ↑(52 - n.log2))
      .exact = ((⟨n * 2 ^ (52 - n.log2), false, false⟩ : ExtendedMantissa) >>> (n.log2 - 52),
        (n.log2 : Int) - 52) :=
    shiftToTargetExponent_exact _ _ (by rw [log2_mul_two_pow hn]; omega) (by omega)
  obtain ⟨hleast, hmost⟩ := leadingDigits_bounds hn
  obtain ⟨m, f, hm, hf, hlow, hhigh, hf₁, hf₂, hplace⟩ :=
    distance_shiftToTargetExponent (e := (n.log2 : Int) - 52) hleast hmost (by omega)
  have hround : UnpackedFloat.round .binary64 .positive n 0 =
      .finite .positive m f (by omega) := by
    unfold UnpackedFloat.round UnpackedFloat.decreaseExponent
    dsimp only
    rw [htarget, hfilled, Nat.shiftLeft_eq]
    exact roundWithAccuracy_eq hfirst hm hf _
  rw [hround]
  refine ⟨⟨hhigh, by omega, by omega, Or.inr hlow⟩, ?_⟩
  rw [magnitudePlace, if_neg (Nat.ne_of_gt hn)]
  exact hplace

theorem magnitudePlace_nonneg (n : Nat) : 0 ≤ magnitudePlace n := by
  unfold magnitudePlace distance
  split <;> omega

/-- An integer with no more digits than a float holds keeps them all. -/
theorem leadingDigits_of_lt {n : Nat} (hn : 0 < n) (h : n < 0x20000000000000) :
    leadingDigits n = n * 2 ^ (52 - n.log2) ∧ leadingDigits n < 0x20000000000000 := by
  have hlog : n.log2 < 53 := (Nat.log2_lt (Nat.ne_of_gt hn)).mpr h
  have hshift : n.log2 - 52 = 0 := by omega
  have hdigits : leadingDigits n = n * 2 ^ (52 - n.log2) := by
    rw [leadingDigits, hshift]
    rfl
  have hscaled : (n * 2 ^ (52 - n.log2)).log2 < 53 := by
    rw [log2_mul_two_pow hn]
    omega
  have hpos : n * 2 ^ (52 - n.log2) ≠ 0 :=
    Nat.ne_of_gt (Nat.mul_pos hn (Nat.two_pow_pos _))
  rw [hdigits]
  exact ⟨rfl, (Nat.log2_lt hpos).mp hscaled⟩

theorem magnitudePlace_mono {m n : Nat} (h : m ≤ n) : magnitudePlace m ≤ magnitudePlace n := by
  by_cases hm : m = 0
  · subst hm
    exact magnitudePlace_nonneg n
  · have hn : n ≠ 0 := by omega
    have hlog : m.log2 ≤ n.log2 := (Nat.le_log2 hn).mpr (Nat.le_trans (Nat.log2_self_le hm) h)
    have hmost := (leadingDigits_bounds (Nat.pos_of_ne_zero hm)).2
    have hleast := (leadingDigits_bounds (Nat.pos_of_ne_zero hn)).1
    rw [magnitudePlace, magnitudePlace, if_neg hm, if_neg hn]
    unfold distance
    rcases Nat.lt_or_eq_of_le hlog with hlt | heq
    · omega
    · have hdigits := leadingDigits_mono heq h
      omega

theorem magnitudePlace_lt {m n : Nat} (h : m < n) (hn : n ≤ 0x20000000000000) :
    magnitudePlace m < magnitudePlace n := by
  have hleast := (leadingDigits_bounds (n := n) (by omega)).1
  rw [magnitudePlace, magnitudePlace, if_neg (Nat.ne_of_gt (Nat.zero_lt_of_lt h))]
  by_cases hm : m = 0
  · rw [if_pos hm]
    unfold distance
    omega
  · have hlog : m.log2 ≤ n.log2 :=
      (Nat.le_log2 (by omega)).mpr (Nat.le_trans (Nat.log2_self_le hm) (Nat.le_of_lt h))
    obtain ⟨hdigits, hmost⟩ := leadingDigits_of_lt (Nat.pos_of_ne_zero hm) (by omega)
    rw [if_neg hm]
    unfold distance
    rcases Nat.lt_or_eq_of_le hlog with hlt | heq
    · omega
    · have hfits : n < 0x20000000000000 := by
        have hbelow : m.log2 < 53 := (Nat.log2_lt hm).mpr (by omega)
        exact (Nat.log2_lt (by omega)).mp (heq ▸ hbelow)
      have hdigits' := (leadingDigits_of_lt (n := n) (by omega) hfits).1
      have hscaled : leadingDigits m < leadingDigits n := by
        rw [hdigits, hdigits', heq]
        exact Nat.mul_lt_mul_of_pos_right h (Nat.two_pow_pos _)
      omega

theorem position_toFloat (n : UInt64) : position n.toFloat = magnitudePlace n.toNat := by
  change place (UnpackedFloat.unpack .binary64 (UnpackedFloat.pack .binary64
    (UnpackedFloat.normalize .binary64 (n.toNat : Int) 0 .positive))) = _
  unfold UnpackedFloat.normalize
  split
  · next hneg =>
      have := Int.compare_eq_lt.mp hneg
      omega
  · next hzero =>
      have hn : n.toNat = 0 := by
        have := Int.compare_eq_eq.mp hzero
        omega
      rw [unpack_pack (u := .zero .positive) trivial, hn]
      rfl
  · next hpos =>
      have hn : 0 < n.toNat := by
        have := Int.compare_eq_gt.mp hpos
        omega
      obtain ⟨hcanonical, hplace⟩ := round_magnitude hn n.toNat_lt
      rw [Int.toNat_natCast, unpack_pack hcanonical, hplace]

/-- The place of an integer that is widened. -/
def integerPlace (n : Int) : Int :=
  if n < 0 then -magnitudePlace n.natAbs else magnitudePlace n.natAbs

theorem integerPlace_mono {m n : Int} (h : m ≤ n) : integerPlace m ≤ integerPlace n := by
  have hm := magnitudePlace_nonneg m.natAbs
  have hn := magnitudePlace_nonneg n.natAbs
  unfold integerPlace
  by_cases hneg : n < 0
  · have hle := magnitudePlace_mono (m := n.natAbs) (n := m.natAbs) (by omega)
    rw [if_pos hneg, if_pos (by omega)]
    omega
  · by_cases hneg' : m < 0
    · rw [if_neg hneg, if_pos hneg']
      omega
    · have hle := magnitudePlace_mono (m := m.natAbs) (n := n.natAbs) (by omega)
      rw [if_neg hneg, if_neg hneg']
      exact hle

/-- Up to the width of a float no two integers fall together. -/
theorem integerPlace_lt {m n : Int} (h : m < n) (hm : m.natAbs ≤ 0x20000000000000)
    (hn : n.natAbs ≤ 0x20000000000000) : integerPlace m < integerPlace n := by
  have hm' := magnitudePlace_nonneg m.natAbs
  have hn' := magnitudePlace_nonneg n.natAbs
  unfold integerPlace
  by_cases hneg : n < 0
  · have hlt := magnitudePlace_lt (m := n.natAbs) (n := m.natAbs) (by omega) hm
    rw [if_pos hneg, if_pos (by omega)]
    omega
  · by_cases hneg' : m < 0
    · have hlt := magnitudePlace_lt (m := 0) (n := m.natAbs) (by omega) hm
      have hzero := magnitudePlace_nonneg 0
      rw [if_neg hneg, if_pos hneg']
      omega
    · have hlt := magnitudePlace_lt (m := m.natAbs) (n := n.natAbs) (by omega) hn
      rw [if_neg hneg, if_neg hneg']
      exact hlt

theorem position_ofInt64 (n : Int64) : position (ofInt64 n) = integerPlace n.toInt := by
  have hbounds := n.toInt_lt
  have hbounds' := n.le_toInt
  have hmagnitude : (n.toInt.natAbs.toUInt64).toNat = n.toInt.natAbs := by
    rw [Nat.toUInt64_eq, UInt64.toNat_ofNat']
    exact Nat.mod_eq_of_lt (by omega)
  have hsign : n < 0 ↔ n.toInt < 0 := Int64.lt_iff_toInt_lt
  unfold ofInt64 ofMagnitude signed integerPlace
  by_cases hneg : n < 0
  · rw [if_pos (decide_eq_true hneg), if_pos (hsign.mp hneg), position_neg, position_toFloat,
      hmagnitude]
  · rw [if_neg (by simpa using hneg), if_neg (mt hsign.mpr hneg), position_toFloat, hmagnitude]

/-- Widening keeps the order, though not strictly. -/
theorem position_ofInt64_mono {m n : Int64} (h : m.toInt ≤ n.toInt) :
    position (ofInt64 m) ≤ position (ofInt64 n) := by
  rw [position_ofInt64, position_ofInt64]
  exact integerPlace_mono h

theorem isNaN_ofInt64 (n : Int64) : (ofInt64 n).isNaN = false := by
  have hmagnitude := isNaN_of_isFinite (isFinite_toFloat n.toInt.natAbs.toUInt64)
  unfold ofInt64 ofMagnitude signed
  split
  · rw [isNaN_neg, hmagnitude]
  · exact hmagnitude

end Scriptlet.Number
