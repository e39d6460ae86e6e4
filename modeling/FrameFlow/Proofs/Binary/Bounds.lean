/-
# How great a number can get

A magnitude is counted in steps of one exponent. What is rounded is bounded in the steps that its
quotient takes (`Binary.magnitude_ofRatio_le`), and a bounded word has a bounded ratio
(`Binary.ratio_lt`), so a quotient of words is bounded by a few steps more than what is divided
(`Binary.magnitude_div_le`). A written number is at most 2 ^ 64 before it is divided, and what it
is multiplied to is looked at, so no number that is read is infinite.

Key theorems: `Binary.nearest_le`, `Binary.magnitude_div_le`, `Double.isFinite_ofDigits?`,
`Binary.isNaN_convert`.
-/
import FrameFlow.Binary.Reading
import Mathlib

namespace FrameFlow
namespace Binary

variable {f : Layout}

/-! ### Rounding -/

/-- The power of two that is taken is the last one before the quotient. -/
theorem lt_logRatio {shift num den : Nat} (pos : 0 < den) :
    num * 2 ^ shift < den * 2 ^ (logRatio shift num den + 1) := by
  have low : 2 ^ den.log2 ≤ den := Nat.log2_self_le (Nat.ne_of_gt pos)
  have high : num * 2 ^ shift < 2 ^ ((num * 2 ^ shift).log2 + 1) := Nat.lt_log2_self
  unfold logRatio
  simp only [Nat.pow_eq]
  generalize num * 2 ^ shift = raised at high ⊢
  split
  · calc raised < 2 ^ (raised.log2 + 1) := high
      _ ≤ 2 ^ (den.log2 + (raised.log2 - den.log2 + 1)) :=
        Nat.pow_le_pow_right (by decide) (by omega)
      _ = 2 ^ den.log2 * 2 ^ (raised.log2 - den.log2 + 1) := Nat.pow_add ..
      _ ≤ den * 2 ^ (raised.log2 - den.log2 + 1) := Nat.mul_le_mul_right _ low
  · next beyond =>
    calc raised < den * 2 ^ (raised.log2 - den.log2) := Nat.lt_of_not_le beyond
      _ ≤ den * 2 ^ (raised.log2 - den.log2 - 1 + 1) :=
        Nat.mul_le_mul_left _ (Nat.pow_le_pow_right (by decide) (by omega))

theorem logRatio_le {shift num den n : Nat} (small : num * 2 ^ shift < den * 2 ^ (n + 1)) :
    logRatio shift num den ≤ n := by
  have high : den < 2 ^ (den.log2 + 1) := Nat.lt_log2_self
  unfold logRatio
  simp only [Nat.pow_eq]
  generalize num * 2 ^ shift = raised at small ⊢
  split
  · next below =>
    have less : den * 2 ^ (raised.log2 - den.log2) < den * 2 ^ (n + 1) := below.trans_lt small
    have := (Nat.pow_lt_pow_iff_right (by decide)).mp (Nat.lt_of_mul_lt_mul_left less)
    omega
  · by_cases none : raised = 0
    · simp [none]
    have total : raised < 2 ^ (den.log2 + 1 + (n + 1)) := by
      rw [Nat.pow_add]
      exact small.trans_le (Nat.mul_le_mul_right _ high.le)
    have := (Nat.log2_lt none).mpr total
    omega

/-- A quotient that is not below one has as many powers of two below it as are asked for. -/
theorem mul_logRatio_le {shift num den : Nat} (large : den ≤ num) :
    den * 2 ^ logRatio shift num den ≤ num * 2 ^ shift := by
  have high : den < 2 ^ (den.log2 + 1) := Nat.lt_log2_self
  have raised_le : den ≤ num * 2 ^ shift :=
    large.trans (Nat.le_mul_of_pos_right _ (Nat.two_pow_pos _))
  unfold logRatio
  simp only [Nat.pow_eq]
  generalize num * 2 ^ shift = raised at raised_le ⊢
  split
  · assumption
  · next beyond =>
    have some : raised.log2 - den.log2 ≠ 0 := by
      intro none
      rw [none] at beyond
      omega
    have filled : raised ≠ 0 := by
      rintro rfl
      simp at some
    calc den * 2 ^ (raised.log2 - den.log2 - 1) ≤
          2 ^ (den.log2 + 1) * 2 ^ (raised.log2 - den.log2 - 1) := Nat.mul_le_mul_right _ high.le
      _ = 2 ^ raised.log2 := by
          rw [← Nat.pow_add]
          congr 1
          omega
      _ ≤ raised := Nat.log2_self_le filled

theorem le_logRatio {shift num den : Nat} (pos : 0 < den) (large : den ≤ num) :
    shift ≤ logRatio shift num den := by
  have last : den * 2 ^ shift < den * 2 ^ (logRatio shift num den + 1) :=
    (Nat.mul_le_mul_right _ large).trans_lt (lt_logRatio pos)
  exact Nat.le_of_lt_succ
    ((Nat.pow_lt_pow_iff_right (by decide)).mp (Nat.lt_of_mul_lt_mul_left last))

theorem roundQuotient_le (num den : Nat) : roundQuotient num den ≤ num / den + 1 := by
  unfold roundQuotient
  simp only
  split
  · omega
  · split
    · omega
    · split <;> omega

theorem roundQuotient_le_of_lt {num den m : Nat} (small : num < den * m) :
    roundQuotient num den ≤ m :=
  (roundQuotient_le num den).trans (Nat.div_lt_of_lt_mul small)

theorem le_roundQuotient {num den m : Nat} (pos : 0 < den) (large : den * m ≤ num) :
    m ≤ roundQuotient num den := by
  have quotient : m ≤ num / den := (Nat.le_div_iff_mul_le pos).mpr (by rwa [Nat.mul_comm])
  unfold roundQuotient
  simp only
  split
  · exact quotient
  · split
    · omega
    · split <;> omega

/-- What is nearest to a quotient is at most two steps beyond its exponent. -/
theorem nearest_le (f : Layout) {num den : Nat} (pos : 0 < den) :
    nearest f num den ≤
      (logRatio f.unitShift num den - f.fractionBits + 2) * f.fractions := by
  have last : num * 2 ^ f.unitShift < den * 2 ^ (logRatio f.unitShift num den + 1) :=
    lt_logRatio pos
  have double : 2 ^ (f.fractionBits + 1) = 2 * f.fractions := by
    rw [Nat.pow_succ', Layout.fractions, Nat.pow_eq]
  unfold nearest
  simp only [Nat.pow_eq]
  generalize logRatio f.unitShift num den = top at last ⊢
  have steps : num * 2 ^ f.unitShift <
      den * 2 ^ (f.fractionBits + 1) * 2 ^ (top - f.fractionBits) := by
    rw [Nat.mul_assoc, ← Nat.pow_add]
    exact last.trans_le (Nat.mul_le_mul_left _ (Nat.pow_le_pow_right (by decide) (by omega)))
  have significand : (if top - f.fractionBits ≤ f.unitShift then
      roundQuotient (num * 2 ^ (f.unitShift - (top - f.fractionBits))) den
      else roundQuotient num (den * 2 ^ (top - f.fractionBits - f.unitShift))) ≤
        2 ^ (f.fractionBits + 1) := by
    split
    · next fits =>
      refine roundQuotient_le_of_lt
        (Nat.lt_of_mul_lt_mul_right (a := 2 ^ (top - f.fractionBits)) ?_)
      rw [Nat.mul_assoc, ← Nat.pow_add, Nat.sub_add_cancel fits]
      exact steps
    · next beyond =>
      refine roundQuotient_le_of_lt (Nat.lt_of_mul_lt_mul_right (a := 2 ^ f.unitShift) ?_)
      have split : 2 ^ (top - f.fractionBits) =
          2 ^ (top - f.fractionBits - f.unitShift) * 2 ^ f.unitShift := by
        rw [← Nat.pow_add, Nat.sub_add_cancel (by omega)]
      refine steps.trans_le (Nat.le_of_eq ?_)
      rw [split]
      ring
  rw [Nat.add_mul, ← double]
  exact Nat.add_le_add_left significand _

/-- What is nearest to a quotient that is not below one is not below one. -/
theorem le_nearest (f : Layout) {num den : Nat} (pos : 0 < den) (large : den ≤ num) :
    (f.unitShift - f.fractionBits + 1) * f.fractions ≤ nearest f num den := by
  have first : den * 2 ^ logRatio f.unitShift num den ≤ num * 2 ^ f.unitShift :=
    mul_logRatio_le large
  have top : f.unitShift ≤ logRatio f.unitShift num den := le_logRatio pos large
  have wide : f.fractionBits ≤ f.unitShift := Nat.le_add_left ..
  have fractions : f.fractions = 2 ^ f.fractionBits := rfl
  unfold nearest
  simp only [Nat.pow_eq]
  generalize logRatio f.unitShift num den = top' at first top ⊢
  have steps : den * 2 ^ f.fractionBits * 2 ^ (top' - f.fractionBits) ≤ num * 2 ^ f.unitShift := by
    rwa [Nat.mul_assoc, ← Nat.pow_add, Nat.add_sub_cancel' (by omega)]
  rw [Nat.add_mul, Nat.one_mul, fractions]
  refine Nat.add_le_add (Nat.mul_le_mul_right _ (by omega)) ?_
  split
  · next fits =>
    refine le_roundQuotient pos
      (Nat.le_of_mul_le_mul_right ?_ (Nat.two_pow_pos (top' - f.fractionBits)))
    rw [Nat.mul_assoc num, ← Nat.pow_add, Nat.sub_add_cancel fits]
    exact steps
  · next beyond =>
    refine le_roundQuotient (Nat.mul_pos pos (Nat.two_pow_pos _))
      (Nat.le_of_mul_le_mul_right ?_ (Nat.two_pow_pos f.unitShift))
    have split : 2 ^ (top' - f.fractionBits) =
        2 ^ (top' - f.fractionBits - f.unitShift) * 2 ^ f.unitShift := by
      rw [← Nat.pow_add, Nat.sub_add_cancel (by omega)]
    refine (Nat.le_of_eq ?_).trans steps
    rw [split]
    ring

/-- A quotient below a power of two is rounded to a word that is bounded in steps. -/
theorem magnitude_ofRatio_le (negative : Bool) {num den n : Nat} (pos : 0 < den)
    (small : num * 2 ^ f.unitShift < den * 2 ^ (n + 1)) :
    (ofRatio negative num den : Binary f).magnitude ≤ (n - f.fractionBits + 2) * f.fractions := by
  refine (Nat.min_le_left ..).trans ((nearest_le f pos).trans (Nat.mul_le_mul_right _ ?_))
  have := logRatio_le small
  omega

/-! ### Words -/

variable {x y : Binary f} {steps : Nat}

theorem ratio_pos (x : Binary f) : 0 < x.ratio.2 := by
  unfold ratio
  split
  · exact Nat.one_pos
  · exact Nat.two_pow_pos _

/-- A bounded word has a bounded ratio. -/
theorem ratio_lt (bound : x.magnitude ≤ steps * f.fractions) :
    x.ratio.1 * 2 ^ f.unitShift < x.ratio.2 * 2 ^ (steps + f.fractionBits + 1) := by
  have exponent : x.exponentField ≤ steps := by
    rw [exponentField, ← Nat.mul_div_cancel steps f.fractions_pos]
    exact Nat.div_le_div_right bound
  have significand : x.significand < 2 ^ (f.fractionBits + 1) := by
    have double : 2 ^ (f.fractionBits + 1) = 2 * f.fractions := by
      rw [Nat.pow_succ', Layout.fractions, Nat.pow_eq]
    have below := Nat.mod_lt x.magnitude f.fractions_pos
    rw [double, Binary.significand]
    split
    · next least =>
      have := (Nat.div_eq_zero_iff_lt f.fractions_pos).mp least
      omega
    · omega
  have scaled : x.significand * 2 ^ x.scale < 2 ^ (steps + f.fractionBits + 1) := by
    calc x.significand * 2 ^ x.scale < 2 ^ (f.fractionBits + 1) * 2 ^ x.scale :=
          Nat.mul_lt_mul_of_pos_right significand (Nat.two_pow_pos _)
      _ = 2 ^ (f.fractionBits + 1 + x.scale) := (Nat.pow_add ..).symm
      _ ≤ 2 ^ (steps + f.fractionBits + 1) :=
          Nat.pow_le_pow_right (by decide) (by unfold scale; omega)
  unfold ratio
  simp only [Nat.pow_eq]
  split
  · next above =>
    rw [Nat.one_mul, Nat.mul_assoc, ← Nat.pow_add, Nat.sub_add_cancel above]
    exact scaled
  · next below =>
    have split : 2 ^ f.unitShift = 2 ^ x.scale * 2 ^ (f.unitShift - x.scale) := by
      rw [← Nat.pow_add, Nat.add_sub_cancel' (by omega)]
    rw [split, ← Nat.mul_assoc, Nat.mul_comm (2 ^ (f.unitShift - x.scale))]
    exact Nat.mul_lt_mul_of_pos_right scaled (Nat.two_pow_pos _)

/-- A word is not below one that is not below the steps of one. -/
theorem ratio_le (bound : (f.unitShift - f.fractionBits + 1) * f.fractions ≤ x.magnitude) :
    x.ratio.2 ≤ x.ratio.1 := by
  have exponent : f.unitShift - f.fractionBits + 1 ≤ x.exponentField :=
    (Nat.le_div_iff_mul_le f.fractions_pos).mpr bound
  have significand : 2 ^ f.fractionBits ≤ x.significand := by
    rw [Binary.significand, if_neg (by omega)]
    exact Nat.le_add_left ..
  unfold ratio
  simp only [Nat.pow_eq]
  split
  · exact Nat.mul_pos ((Nat.two_pow_pos _).trans_le significand) (Nat.two_pow_pos _)
  · refine (Nat.pow_le_pow_right (by decide) ?_).trans significand
    unfold scale
    omega

/-- A quotient by something not less than one is at most two steps beyond what is divided. -/
theorem magnitude_div_le (bound : x.magnitude ≤ steps * f.fractions)
    (large : y.ratio.2 ≤ y.ratio.1) : (x.div y).magnitude ≤ (steps + 2) * f.fractions := by
  have pos : 0 < x.ratio.2 * y.ratio.1 :=
    Nat.mul_pos x.ratio_pos (y.ratio_pos.trans_le large)
  have small : x.ratio.1 * y.ratio.2 * 2 ^ f.unitShift <
      x.ratio.2 * y.ratio.1 * 2 ^ (steps + f.fractionBits + 1) := by
    calc x.ratio.1 * y.ratio.2 * 2 ^ f.unitShift = x.ratio.1 * 2 ^ f.unitShift * y.ratio.2 :=
          Nat.mul_right_comm ..
      _ < x.ratio.2 * 2 ^ (steps + f.fractionBits + 1) * y.ratio.2 :=
          Nat.mul_lt_mul_of_pos_right (ratio_lt bound) y.ratio_pos
      _ ≤ x.ratio.2 * 2 ^ (steps + f.fractionBits + 1) * y.ratio.1 := Nat.mul_le_mul_left _ large
      _ = x.ratio.2 * y.ratio.1 * 2 ^ (steps + f.fractionBits + 1) := Nat.mul_right_comm ..
  have bounded := magnitude_ofRatio_le (x.negative != y.negative) pos small
  rwa [Nat.add_sub_cancel] at bounded

/-- A word is finite that is bounded by fewer steps than there are exponents. -/
theorem isFinite_of_magnitude_le (bound : x.magnitude ≤ steps * f.fractions)
    (few : steps + 1 < f.exponents) : x.isFinite := by
  refine decide_eq_true (bound.trans_lt ?_)
  exact Nat.mul_lt_mul_of_pos_right (by omega) f.fractions_pos

/-! ### Words that are no number -/

theorem isNaN_clamp (negative : Bool) (magnitude : Nat) :
    (clamp negative magnitude : Binary f).isNaN = false :=
  decide_eq_false (Nat.not_lt.mpr (Nat.min_le_right ..))

/-- Nothing that is a number becomes what is none in another format. -/
theorem isNaN_convert {g : Layout} (number : x.isNaN = false) :
    (x.convert : Binary g).isNaN = false := by
  unfold convert
  rw [number, if_neg (by decide)]
  split
  · exact isNaN_clamp _ _
  · exact isNaN_clamp _ _

end Binary

/-! ### Written numbers -/

namespace Double

variable {x : Double}

theorem whole_lt {n : Nat} (small : n ≤ 2 ^ 64) (shift : Nat) :
    n * 2 ^ shift < 1 * 2 ^ (shift + 64 + 1) := by
  rw [Nat.one_mul, Nat.add_assoc, Nat.add_comm shift, Nat.pow_add]
  exact Nat.mul_lt_mul_of_pos_right (small.trans_lt (by decide)) (Nat.two_pow_pos shift)

/-- A whole number of 64 bits. -/
theorem magnitude_ofRatio_whole (negative : Bool) {n : Nat} (small : n ≤ 2 ^ 64) :
    (Binary.ofRatio negative n 1 : Double).magnitude ≤ 1088 * Layout.double.fractions := by
  have steps : Layout.double.unitShift + 64 - Layout.double.fractionBits + 2 = 1088 := by decide
  have bound := Binary.magnitude_ofRatio_le negative Nat.one_pos
    (whole_lt small Layout.double.unitShift)
  rwa [steps] at bound

theorem isFinite_ofInt {i : Int} (small : i.natAbs ≤ 2 ^ 64) : (Binary.ofInt i : Double).isFinite :=
  Binary.isFinite_of_magnitude_le (magnitude_ofRatio_whole _ small) (by decide)

/-- Powers of ten are not less than one. -/
theorem tenTo_large (n : Nat) : (tenTo n).ratio.2 ≤ (tenTo n).ratio.1 := by
  refine Binary.ratio_le (Nat.le_min.mpr ⟨?_, by decide⟩)
  exact Binary.le_nearest .double Nat.one_pos (Nat.pow_pos (by decide))

theorem isFinite_shiftedDown (bound : x.magnitude ≤ 1088 * Layout.double.fractions)
    (places : Nat) : (shiftedDown x places).isFinite := by
  unfold shiftedDown
  split
  · exact Binary.isFinite_of_magnitude_le (Binary.magnitude_div_le bound (tenTo_large _))
      (by decide)
  · split
    · -- either division adds two steps at most
      have once := Binary.magnitude_div_le bound (tenTo_large greatestPower)
      have twice := Binary.magnitude_div_le once (tenTo_large (places - greatestPower))
      exact Binary.isFinite_of_magnitude_le twice (by decide)
    · cases x.negative <;> decide

theorem isFinite_scaled? {negative : Bool} {significand : Nat} {exponent : Int}
    (small : significand ≤ 2 ^ 64) (found : scaled? negative significand exponent = some x) :
    x.isFinite := by
  have bound := magnitude_ofRatio_whole negative small
  unfold scaled? at found
  simp only at found
  split at found
  · cases found
    exact Binary.isFinite_of_magnitude_le bound (by decide)
  · split at found
    · cases found
      exact isFinite_shiftedDown bound _
    · split at found
      · exact (Option.filter_eq_some_iff.mp found).2
      · cases found

theorem appendDigits_lt {n : Nat} (small : n < 2 ^ 64) (ds : List Char) :
    (appendDigits n ds).1 < 2 ^ 64 := by
  induction ds generalizing n with
  | nil => exact small
  | cons d ds ih =>
    unfold appendDigits
    split
    · next fits => exact ih fits
    · exact small

/-- A number that is read is not infinite. -/
theorem isFinite_ofDigits? {negative : Bool} {whole fraction : List Char} {exponent : Int}
    (found : ofDigits? negative whole fraction exponent = some x) : x.isFinite := by
  unfold ofDigits? at found
  exact isFinite_scaled? (appendDigits_lt (appendDigits_lt (by decide) _) _).le found

end Double
end FrameFlow
