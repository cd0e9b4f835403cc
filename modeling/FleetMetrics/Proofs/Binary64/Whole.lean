import Mathlib
import FleetMetrics.Proofs.Binary64

/-!
# Whole numbers as binary64 numbers

A literal or a weight may arrive as a whole number of up to 64 bits and is kept as a binary64
number. Were the conversion able to overflow, a request that was read could not be written again:
what is not finite is written as null. It cannot, by a wide margin. The conversion rounds twice
along the way, once from the digits of the number to 53 bits and once more after shifting them
back, and rounding may carry into the next power of two; what bounds all of it is the exponent.

`Within` is the invariant: a number in parts is zero, or has at most 53 bits and an exponent below
a limit. Rounding keeps it (`within_round`), and so does packing into 64 bits and taking apart
again (`within_unpack_pack`).

Main results:

* `within_mul` — the product of two numbers, rounded.
* `within_ofNat` — a number of up to 64 bits, on the fast and on the slow path.
* `isFinite_ofInt` — a whole number of up to 64 bits, with either sign, is finite.
-/

namespace FleetMetrics.Binary64

open Float.Model Float.Model.UnpackedFloat

/-- A number in parts is zero, or finite with an exponent up to a limit. -/
def Within (limit : Int) : UnpackedFloat → Prop
  | .zero _ => True
  | .finite _ mantissa exponent _ => mantissa < 2 ^ 53 ∧ exponent ≤ limit
  | _ => False

/-- What stays within a limit is finite. -/
theorem isFinite_of_within {limit : Int} {u : UnpackedFloat} (within : Within limit u) :
    u.isFinite = true := by
  cases u with
  | zero | finite => rfl
  | notANumber | infinity => exact within.elim

/-! ## Packing -/

/-- What bits stand for is bounded by their exponent field. -/
theorem within_unpack {limit : Int} (low : -1074 ≤ limit) (b : BitVec Format.binary64.numBits)
    (ordinary : unpackExponent b ≠ -1#_)
    (field : ((unpackExponent b).toNat : Int) ≤ limit + 1075) :
    Within limit (UnpackedFloat.unpack Format.binary64 b) := by
  have hShift : (Format.binary64.exponentBias : Int) +
      Format.binary64.mantissaBitsWithoutImplicit = 1075 := rfl
  unfold UnpackedFloat.unpack
  simp only [if_neg ordinary, hShift]
  split
  · next hZero =>
    split
    · trivial
    · have hField : ((unpackExponent b).toNat : Int) = 0 := by rw [hZero]; rfl
      exact ⟨(unpackMantissa b).isLt.trans (by decide), by omega⟩
  · exact ⟨(1#1 ++ unpackMantissa b).isLt, by omega⟩

/-- The largest exponent field is kept for what is not finite. -/
theorem ofNat_ne_allOnes {n : Nat} (small : n < 2047) : BitVec.ofNat 11 n ≠ -1#11 := by
  intro hAll
  have hNat : n % 2048 = 2047 := by simpa using congrArg BitVec.toNat hAll
  omega

/-- What is packed and taken apart again has no greater exponent. -/
theorem within_unpack_pack {limit : Int} (low : -1074 ≤ limit) (high : limit ≤ 970) {s : Sign}
    {m : Nat} {e : Int} (pos : 0 < m) (he : e ≤ limit) :
    Within limit (pack (.finite s m e pos)).unpack := by
  have hBias : Format.binary64.exponentBias = 1023 := rfl
  change Within limit (UnpackedFloat.unpack Format.binary64
    (UnpackedFloat.pack Format.binary64 (.finite s m e pos)))
  rw [UnpackedFloat.pack]
  simp only [hBias]
  split
  · next hBig => omega
  · next hBig =>
    split
    · refine within_unpack low _ ?_ ?_
      · rw [unpackExponent_packComponents]
        exact ofNat_ne_allOnes (by omega)
      · rw [unpackExponent_packComponents, BitVec.toNat_ofNat]
        exact (Int.ofNat_le.mpr (Nat.mod_le _ _)).trans (by omega)
    · refine within_unpack low _ ?_ ?_
      · rw [unpackExponent_packComponents]
        exact ofNat_ne_allOnes (n := 0) (by decide)
      · rw [unpackExponent_packComponents]
        have hNone : ((0#11).toNat : Int) ≤ limit + 1075 := by
          rw [BitVec.toNat_zero]
          omega
        exact hNone

/-! ## Rounding -/

/-- Shifting halves the mantissa each time. -/
theorem shiftRight_mantissa (em : ExtendedMantissa) (n : Nat) :
    (em >>> n).mantissa = em.mantissa / 2 ^ n := by
  change (n.repeat ExtendedMantissa.shiftRightOne em).mantissa = _
  induction n with
  | zero => simp [Nat.repeat]
  | succ n ih =>
    rw [Nat.repeat, ExtendedMantissa.shiftRightOne, ih, Nat.div_div_eq_div_mul, Nat.pow_succ]

/-- Rounding adds one at most. -/
theorem roundedMantissa_le (em : ExtendedMantissa) : em.roundedMantissa ≤ em.mantissa + 1 := by
  obtain ⟨m, r, s⟩ := em
  cases r <;> cases s <;>
    simp only [ExtendedMantissa.roundedMantissa, ExtendedMantissa.accuracy,
      Accuracy.roundToNearestEven] <;> omega

/-- Rounding after a shift may carry into one more bit. -/
theorem log2_roundedMantissa_le (m k : Nat) (em : ExtendedMantissa)
    (shifted : em.mantissa = m / 2 ^ k) : em.roundedMantissa.log2 ≤ m.log2 + 1 - k := by
  have hQuotient : m / 2 ^ k < 2 ^ (m.log2 + 1 - k) := by
    rw [Nat.div_lt_iff_lt_mul (Nat.two_pow_pos k), ← Nat.pow_add]
    exact Nat.lt_log2_self.trans_le (Nat.pow_le_pow_right (by decide) (by omega))
  have hRounded : em.roundedMantissa ≤ 2 ^ (m.log2 + 1 - k) :=
    (roundedMantissa_le em).trans (shifted ▸ hQuotient)
  by_cases hZero : em.roundedMantissa = 0
  · rw [hZero]
    exact Nat.zero_le _
  · refine Nat.le_of_lt_succ ((Nat.log2_lt hZero).mpr (hRounded.trans_lt ?_))
    exact Nat.pow_lt_pow_succ (by decide)

/-- A number is shifted to the exponent that it should have, never to the left. -/
theorem shiftToTargetExponent_spec (m : Nat) (e : Int) :
    ∃ k em, shiftToTargetExponent Format.binary64 m e .exact = (em, e + (k : Nat)) ∧
      em.mantissa = m / 2 ^ k ∧ e + k = max e (max (m.log2 + e - 52) (-1074)) := by
  refine ⟨_, _, rfl, shiftRight_mantissa _ _, ?_⟩
  simp only [Format.targetExponent, totalExponent, Format.mantissaBits, Format.minExponent]
  omega

/-- A number that is below a limit with all of its bits is rounded to one below the limit. -/
theorem within_round {limit : Int} (low : 0 ≤ limit) (high : limit ≤ 970) {m : Nat} {e : Int}
    (he : e ≤ limit) (hm : m.log2 + e ≤ limit) (s : Sign) :
    Within limit (pack (roundWithAccuracy Format.binary64 s m e .exact)).unpack := by
  obtain ⟨k, em, hFirst, hShifted, hExponent⟩ := shiftToTargetExponent_spec m e
  have hLog := log2_roundedMantissa_le m k em hShifted
  -- a carry makes the mantissa too long by one bit, so it is shifted a second time
  obtain ⟨k', em', hSecond, -, hExponent'⟩ :=
    shiftToTargetExponent_spec em.roundedMantissa (e + k)
  unfold roundWithAccuracy
  simp only [hFirst, hSecond]
  split
  · cases s <;> trivial
  · next hPos => exact within_unpack_pack (by omega) high (Nat.pos_of_ne_zero hPos) (by omega)

/-- A product stays within a limit if its bits and its exponent do. -/
theorem within_mul {limit : Int} (low : 0 ≤ limit) (high : limit ≤ 970) {s₁ s₂ : Sign}
    {m₁ m₂ bits : Nat} {e₁ e₂ : Int} (pos₁ : 0 < m₁) (pos₂ : 0 < m₂)
    (size : m₁ * m₂ < 2 ^ bits) (he : e₁ + e₂ ≤ limit) (hm : bits + (e₁ + e₂) ≤ limit) :
    Within limit (pack (UnpackedFloat.mul Format.binary64 (.finite s₁ m₁ e₁ pos₁)
      (.finite s₂ m₂ e₂ pos₂))).unpack := by
  have hLog := (Nat.log2_lt (Nat.mul_pos pos₁ pos₂).ne').mpr size
  exact within_round low high he (by omega) _

/-! ## Conversion -/

/-- A word is converted by shifting it to the left as far as it goes, and rounding. -/
theorem within_ofInt {n : Nat} (small : n < 2 ^ 64) :
    Within 64 (Float.Model.ofInt n).unpack := by
  unfold Float.Model.ofInt UnpackedFloat.ofInt UnpackedFloat.normalize
  rcases Nat.eq_zero_or_pos n with rfl | hPos
  · trivial
  · rw [Int.compare_eq_gt.mpr (by omega)]
    simp only [Int.toNat_natCast, UnpackedFloat.round, decreaseExponent]
    generalize (0 - Format.binary64.targetExponent (totalExponent n 0)).toNat = k
    have hShifted : n <<< k < 2 ^ (64 + k) := by
      rw [Nat.shiftLeft_eq, Nat.pow_add]
      exact Nat.mul_lt_mul_of_pos_right small (Nat.two_pow_pos k)
    have hLog := (Nat.log2_lt (Nat.shiftLeft_pos_iff.mpr hPos).ne').mpr hShifted
    exact within_round (by decide) (by decide) (by omega) (by omega) _

theorem unpack_one : (Float.ofBits 0x3FF0000000000000).toModel.unpack =
    .finite .positive (2 ^ 52) (-52) (by decide) := rfl

/-- A whole number of 64 bits is far from the largest number. -/
theorem within_ofNat {n : Nat} (small : n ≤ 2 ^ 64) :
    Within 970 (Float.ofNat n).toModel.unpack := by
  change Within 970 (Float.ofScientific n false 0).toModel.unpack
  unfold Float.ofScientific
  split
  · next hFast =>
    -- the conversion of a word, times one
    have hWord : n.toUInt64.toNat = n := Nat.mod_eq_of_lt (by omega)
    have hWithin : Within 64 n.toUInt64.toFloat.toModel.unpack := by
      change Within 64 (Float.Model.ofInt n.toUInt64.toNat).unpack
      rw [hWord]
      exact within_ofInt (by omega)
    change Within 970 (pack (UnpackedFloat.mul Format.binary64
      n.toUInt64.toFloat.toModel.unpack (Float.ofBits 0x3FF0000000000000).toModel.unpack)).unpack
    rw [unpack_one]
    cases hParts : n.toUInt64.toFloat.toModel.unpack with
    | zero s => cases s <;> trivial
    | finite s m e pos =>
      rw [hParts] at hWithin
      obtain ⟨hMantissa, hExponent⟩ := hWithin
      have hSize : m * 2 ^ 52 < 2 ^ 105 := by omega
      exact within_mul (by decide) (by decide) pos (by decide) hSize (by omega) (by omega)
    | notANumber | infinity =>
      rw [hParts] at hWithin
      exact hWithin.elim
  · next hSlow =>
    -- the digits, shifted to the left and back
    change Within 970 (pack (UnpackedFloat.ofScientific Format.binary64 n 0)).unpack
    unfold UnpackedFloat.ofScientific
    split
    · trivial
    · next hPos =>
      have hSize : n <<< 53 * 10 ^ 0 < 2 ^ 118 := by
        rw [Nat.shiftLeft_eq]
        omega
      have hLow : ¬ (0 : Int) < -(2 ^ 11 + n.log2) := by omega
      rw [if_neg (by decide), if_neg hLow, if_pos (Int.le_refl 0)]
      exact within_mul (by decide) (by decide) _ _ hSize (by decide) (by decide)

/-- **Whole numbers.** A whole number of at most 64 bits converts to a finite number. -/
theorem isFinite_ofInt {i : Int} (low : -2 ^ 64 ≤ i) (high : i ≤ 2 ^ 64) :
    (Float.ofInt i).isFinite = true := by
  cases i with
  | ofNat n => exact isFinite_of_within (within_ofNat (Int.ofNat_le.mp high))
  | negSucc n =>
    have hWithin := within_ofNat (n := n + 1) (by omega)
    change (pack (Float.ofNat (n + 1)).toModel.unpack.neg).unpack.isFinite = true
    cases hParts : (Float.ofNat (n + 1)).toModel.unpack with
    | zero s => cases s <;> rfl
    | finite s m e pos =>
      rw [hParts] at hWithin
      exact isFinite_of_within (within_unpack_pack (by decide) (by decide) pos hWithin.2)
    | notANumber | infinity =>
      rw [hParts] at hWithin
      exact hWithin.elim

end FleetMetrics.Binary64
