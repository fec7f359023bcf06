import Mathlib.Tactic.FieldSimp
import Mathlib.Tactic.Linarith
import Mathlib.Tactic.NormNum
import Mathlib.Tactic.Positivity
import Mathlib.Tactic.Ring
import NovelRalph.Base.Binary64

/-!
# Rounding to doubles

What can be relied on when numbers are rounded to doubles: rounding is monotone,
a number on the grid of doubles is its own double, and a number that is closer to
a point of its grid than half a step does not round beyond it. Between two doubles
nothing rounds to the outside, so a comparison of rounded numbers is decided by
exact ones wherever a double fits in between.
-/

namespace NovelRalph

/-! ## Halves to even -/

section Halves

variable {numerator denominator other below : Nat}

/-- Rounding never passes a whole number that is nearer. -/
theorem roundHalfEven_le (positive : 0 < denominator) {whole : Nat}
    (near : 2 * numerator < (2 * whole + 1) * denominator) :
    roundHalfEven numerator denominator ≤ whole := by
  have split := Nat.div_add_mod numerator denominator
  have quotient : numerator / denominator ≤ whole := by
    by_contra beyond
    have further : denominator * (whole + 1) ≤ denominator * (numerator / denominator) :=
      Nat.mul_le_mul_left denominator (not_le.mp beyond)
    have within := Nat.mul_div_le numerator denominator
    nlinarith
  unfold roundHalfEven
  dsimp only
  rcases quotient.lt_or_eq with less | same
  · split_ifs <;> omega
  · have rest : 2 * (numerator % denominator) < denominator := by
      rw [← same] at near
      nlinarith
    rw [if_pos rest]
    exact quotient

theorem le_roundHalfEven (positive : 0 < denominator) {whole : Nat}
    (reached : whole * denominator ≤ numerator) : whole ≤ roundHalfEven numerator denominator := by
  have quotient : whole ≤ numerator / denominator := (Nat.le_div_iff_mul_le positive).mpr reached
  unfold roundHalfEven
  dsimp only
  split_ifs <;> omega

/-- A fraction is rounded by half at most. -/
theorem roundHalfEven_near (positive : 0 < denominator) :
    2 * numerator ≤ (2 * roundHalfEven numerator denominator + 1) * denominator ∧
      2 * (roundHalfEven numerator denominator * denominator) ≤ 2 * numerator + denominator := by
  have split := Nat.div_add_mod numerator denominator
  have small := Nat.mod_lt numerator positive
  unfold roundHalfEven
  dsimp only
  generalize numerator / denominator = quotient at split ⊢
  generalize numerator % denominator = rest at split small ⊢
  split_ifs <;> constructor <;> nlinarith

/-- Rounding fractions is monotone. -/
theorem roundHalfEven_mono (positive : 0 < denominator) (positive' : 0 < below)
    (le : numerator * below ≤ other * denominator) :
    roundHalfEven numerator denominator ≤ roundHalfEven other below := by
  have split := Nat.div_add_mod numerator denominator
  have split' := Nat.div_add_mod other below
  have small := Nat.mod_lt numerator positive
  have small' := Nat.mod_lt other positive'
  have quotients : numerator / denominator ≤ other / below := by
    rw [Nat.le_div_iff_mul_le positive']
    by_contra beyond
    have lower : numerator / denominator * denominator ≤ numerator := Nat.div_mul_le_self _ _
    have first := Nat.mul_le_mul_right below lower
    have second := (Nat.mul_lt_mul_right positive).mpr (not_le.mp beyond)
    nlinarith
  unfold roundHalfEven
  dsimp only
  rcases quotients.lt_or_eq with less | same
  · split_ifs <;> omega
  · rw [same] at split ⊢
    generalize other / below = quotient at split split' ⊢
    generalize numerator % denominator = rest at split small ⊢
    generalize other % below = rest' at split' small' ⊢
    have rests : rest * below ≤ rest' * denominator := by
      rw [← split, ← split'] at le
      nlinarith
    by_cases tie : 2 * rest < denominator
    · rw [if_pos tie]
      split_ifs <;> omega
    · -- the later rest is at least a half too, and more than a half with the earlier one
      have half : ¬ 2 * rest' < below := by
        intro less
        nlinarith
      rw [if_neg tie, if_neg half]
      by_cases more : denominator < 2 * rest
      · have more' : below < 2 * rest' := by
          by_contra less
          nlinarith
        rw [if_pos more, if_pos more']
      · rw [if_neg more]
        split_ifs <;> omega

end Halves

/-! ## The magnitude -/

/-- A positive number lies between two powers of two. -/
theorem log2_bounds {number : Nat} (positive : 0 < number) :
    (2 : ℚ) ^ (number.log2 : Int) ≤ number ∧ (number : ℚ) < 2 ^ ((number.log2 : Int) + 1) := by
  constructor
  · rw [zpow_natCast]
    exact_mod_cast Nat.log2_self_le positive.ne'
  · have above : number < 2 ^ (number.log2 + 1) := Nat.lt_log2_self
    have whole : ((number.log2 : Int) + 1) = ((number.log2 + 1 : Nat) : Int) := by push_cast; ring
    rw [whole, zpow_natCast]
    exact_mod_cast above

/-- A fraction is below a power of two exactly when the multiplied out numbers say so. -/
theorem below_iff (numerator denominator : Nat) (guess : Int) :
    ((if 0 ≤ guess then decide (numerator < denominator * 2 ^ guess.toNat)
      else decide (numerator * 2 ^ (-guess).toNat < denominator)) = true) ↔
      (numerator : ℚ) < 2 ^ guess * denominator := by
  split
  · next nonneg =>
      obtain ⟨power, rfl⟩ := Int.eq_ofNat_of_zero_le nonneg
      rw [decide_eq_true_iff, Int.toNat_natCast, zpow_natCast, mul_comm]
      exact_mod_cast Iff.rfl
  · next negative =>
      obtain ⟨power, spelled⟩ := Int.eq_ofNat_of_zero_le (by omega : 0 ≤ -guess)
      have same : guess = -(power : Int) := by omega
      rw [decide_eq_true_iff, spelled, Int.toNat_natCast, same, zpow_neg, zpow_natCast]
      have positive : (0 : ℚ) < 2 ^ power := by positivity
      rw [inv_mul_eq_div, lt_div_iff₀ positive]
      exact_mod_cast Iff.rfl

/-- The power of two below a positive fraction, and the one above it. -/
theorem magnitude_spec {numerator denominator : Nat} (positive : 0 < numerator)
    (positive' : 0 < denominator) :
    (2 : ℚ) ^ magnitude numerator denominator * denominator ≤ numerator ∧
      (numerator : ℚ) < 2 ^ (magnitude numerator denominator + 1) * denominator := by
  obtain ⟨above, below⟩ := log2_bounds positive
  obtain ⟨above', below'⟩ := log2_bounds positive'
  have decides := below_iff numerator denominator ((numerator.log2 : Int) - denominator.log2)
  unfold magnitude
  dsimp only
  generalize (numerator.log2 : Int) = upper at above below decides ⊢
  generalize (denominator.log2 : Int) = lower at above' below' decides ⊢
  have power : ∀ exponent : Int, (0 : ℚ) < 2 ^ exponent := fun exponent => zpow_pos (by norm_num) _
  by_cases less : (numerator : ℚ) < 2 ^ (upper - lower) * denominator
  · rw [if_pos (decides.mpr less), sub_add_cancel]
    refine ⟨?_, less⟩
    calc (2 : ℚ) ^ (upper - lower - 1) * denominator
        ≤ 2 ^ (upper - lower - 1) * 2 ^ (lower + 1) :=
          mul_le_mul_of_nonneg_left below'.le (power _).le
      _ = 2 ^ upper := by
          rw [← zpow_add₀ (by norm_num)]
          congr 1
          ring
      _ ≤ numerator := above
  · rw [if_neg fun holds => less (decides.mp holds)]
    refine ⟨not_lt.mp less, ?_⟩
    calc (numerator : ℚ) < 2 ^ (upper + 1) := below
      _ = 2 ^ (upper - lower + 1) * 2 ^ lower := by
          rw [← zpow_add₀ (by norm_num)]
          congr 1
          ring
      _ ≤ 2 ^ (upper - lower + 1) * denominator :=
          mul_le_mul_of_nonneg_left above' (power _).le

/-! ## The grid of doubles -/

section Grid

variable {exact other : ℚ} {exponent : Int}

/-- The exponent of the grid a number is rounded on. -/
def gridExponent (exact : ℚ) : Int :=
  max (magnitude exact.num.natAbs exact.den - 52) (-1074)

/-- The point of a grid that is nearest to a number, ties to even. -/
def gridPoint (exponent : Int) (exact : ℚ) : Nat :=
  if 0 ≤ exponent then roundHalfEven exact.num.natAbs (exact.den * 2 ^ exponent.toNat)
  else roundHalfEven (exact.num.natAbs * 2 ^ (-exponent).toNat) exact.den

/-- The nearest double of a number, whatever its size. -/
def nearest (exact : ℚ) : ℚ := gridPoint (gridExponent exact) exact * 2 ^ gridExponent exact

theorem power_pos (exponent : Int) : (0 : ℚ) < 2 ^ exponent := zpow_pos (by norm_num) _

/-- A number that is not negative, in the units of a grid. -/
theorem gridPoint_fraction (nonneg : 0 ≤ exact) (exponent : Int) :
    ∃ numerator denominator, 0 < denominator ∧
      gridPoint exponent exact = roundHalfEven numerator denominator ∧
      (numerator : ℚ) * 2 ^ exponent = exact * denominator := by
  have whole : ((exact.num.natAbs : Nat) : ℚ) = exact * exact.den := by
    have positive : (0 : ℚ) < exact.den := by exact_mod_cast exact.den_pos
    have sign : ((exact.num.natAbs : Nat) : Int) = exact.num :=
      Int.natAbs_of_nonneg (Rat.num_nonneg.mpr nonneg)
    rw [← Int.cast_natCast, sign]
    exact (Rat.mul_den_eq_num exact).symm
  unfold gridPoint
  split
  · next nonneg' =>
      obtain ⟨power, rfl⟩ := Int.eq_ofNat_of_zero_le nonneg'
      refine ⟨_, _, by positivity, rfl, ?_⟩
      rw [whole, Int.toNat_natCast, zpow_natCast]
      push_cast
      ring
  · next negative =>
      obtain ⟨power, spelled⟩ := Int.eq_ofNat_of_zero_le (by omega : 0 ≤ -exponent)
      have same : exponent = -(power : Int) := by omega
      refine ⟨_, _, exact.den_pos, rfl, ?_⟩
      rw [spelled, Int.toNat_natCast, same, zpow_neg, zpow_natCast]
      push_cast
      rw [whole]
      have positive : (2 : ℚ) ^ power ≠ 0 := by positivity
      field_simp

/-- A number is not rounded beyond a point of the grid that it is nearer to than half a step. -/
theorem gridPoint_le (nonneg : 0 ≤ exact) {point : Nat}
    (near : exact < (point + 1 / 2) * 2 ^ exponent) : gridPoint exponent exact ≤ point := by
  obtain ⟨numerator, denominator, positive, rounded, spelled⟩ := gridPoint_fraction nonneg exponent
  rw [rounded]
  refine roundHalfEven_le positive ?_
  have positive' : (0 : ℚ) < denominator := by exact_mod_cast positive
  have scaled : (numerator : ℚ) * 2 ^ exponent < (point + 1 / 2) * denominator * 2 ^ exponent := by
    rw [spelled]
    have := mul_lt_mul_of_pos_right near positive'
    linarith
  have cancelled := lt_of_mul_lt_mul_right scaled (power_pos exponent).le
  have doubled : (2 * numerator : ℚ) < (2 * point + 1) * denominator := by linarith
  exact_mod_cast doubled

theorem le_gridPoint (nonneg : 0 ≤ exact) {point : Nat} (reached : point * 2 ^ exponent ≤ exact) :
    point ≤ gridPoint exponent exact := by
  obtain ⟨numerator, denominator, positive, rounded, spelled⟩ := gridPoint_fraction nonneg exponent
  rw [rounded]
  refine le_roundHalfEven positive ?_
  have positive' : (0 : ℚ) < denominator := by exact_mod_cast positive
  have scaled : (point * denominator : ℚ) * 2 ^ exponent ≤ numerator * 2 ^ exponent := by
    rw [spelled]
    have := mul_le_mul_of_nonneg_right reached positive'.le
    linarith
  have cancelled := le_of_mul_le_mul_right scaled (power_pos exponent)
  exact_mod_cast cancelled

theorem gridPoint_mono (nonneg : 0 ≤ exact) (le : exact ≤ other) :
    gridPoint exponent exact ≤ gridPoint exponent other := by
  obtain ⟨numerator, denominator, positive, rounded, spelled⟩ := gridPoint_fraction nonneg exponent
  obtain ⟨numerator', denominator', positive', rounded', spelled'⟩ :=
    gridPoint_fraction (nonneg.trans le) exponent
  rw [rounded, rounded']
  refine roundHalfEven_mono positive positive' ?_
  have both : (0 : ℚ) < denominator * denominator' := by
    exact_mod_cast Nat.mul_pos positive positive'
  have scaled : (numerator * denominator' : ℚ) * 2 ^ exponent ≤
      numerator' * denominator * 2 ^ exponent := by
    calc (numerator * denominator' : ℚ) * 2 ^ exponent
        = numerator * 2 ^ exponent * denominator' := by ring
      _ = exact * (denominator * denominator') := by rw [spelled]; ring
      _ ≤ other * (denominator * denominator') := mul_le_mul_of_nonneg_right le both.le
      _ = numerator' * 2 ^ exponent * denominator := by rw [spelled']; ring
      _ = numerator' * denominator * 2 ^ exponent := by ring
  have cancelled := le_of_mul_le_mul_right scaled (power_pos exponent)
  exact_mod_cast cancelled

/-- Where a positive number stands on its grid. -/
theorem gridExponent_spec (positive : 0 < exact) :
    exact < 2 ^ (gridExponent exact + 53) ∧
      (gridExponent exact = -1074 ∨ 2 ^ (gridExponent exact + 52) ≤ exact) ∧
      -1074 ≤ gridExponent exact := by
  have numerator : 0 < exact.num.natAbs := Int.natAbs_pos.mpr (Rat.num_pos.mpr positive).ne'
  obtain ⟨above, below⟩ := magnitude_spec numerator exact.den_pos
  have denominator : (0 : ℚ) < exact.den := by exact_mod_cast exact.den_pos
  have whole : ((exact.num.natAbs : Nat) : ℚ) = exact * exact.den := by
    have sign : ((exact.num.natAbs : Nat) : Int) = exact.num :=
      Int.natAbs_of_nonneg (Rat.num_nonneg.mpr positive.le)
    rw [← Int.cast_natCast, sign]
    exact (Rat.mul_den_eq_num exact).symm
  rw [whole] at above below
  have above' := le_of_mul_le_mul_right above denominator
  have below' := lt_of_mul_lt_mul_right below denominator.le
  unfold gridExponent
  generalize magnitude exact.num.natAbs exact.den = size at above' below' ⊢
  refine ⟨below'.trans_le (zpow_le_zpow_right₀ (by norm_num) (by omega)), ?_, by omega⟩
  rcases le_total (size - 52) (-1074) with small | large
  · exact Or.inl (by omega)
  · refine Or.inr ?_
    rw [max_eq_left large, sub_add_cancel]
    exact above'

/-- Greater numbers have coarser grids. -/
theorem gridExponent_mono (positive : 0 < exact) (le : exact ≤ other) :
    gridExponent exact ≤ gridExponent other := by
  obtain ⟨-, reached, -⟩ := gridExponent_spec positive
  obtain ⟨below, -, least⟩ := gridExponent_spec (positive.trans_le le)
  rcases reached with smallest | reached
  · rw [smallest]
    exact least
  · have powers := (reached.trans le).trans_lt below
    have exponents := (zpow_lt_zpow_iff_right₀ (by norm_num : (1 : ℚ) < 2)).mp powers
    omega

theorem nearest_nonneg (exact : ℚ) : 0 ≤ nearest exact :=
  mul_nonneg (Nat.cast_nonneg _) (power_pos _).le

theorem nearest_zero : nearest 0 = 0 := by decide +kernel

/-- Rounding to doubles is monotone. -/
theorem nearest_mono (nonneg : 0 ≤ exact) (le : exact ≤ other) : nearest exact ≤ nearest other := by
  rcases nonneg.eq_or_lt with rfl | positive
  · rw [nearest_zero]
    exact nearest_nonneg other
  unfold nearest
  rcases (gridExponent_mono positive le).eq_or_lt with same | coarser
  · rw [same]
    have points : (gridPoint (gridExponent other) exact : ℚ) ≤ gridPoint (gridExponent other) other := by
      exact_mod_cast gridPoint_mono nonneg le
    exact mul_le_mul_of_nonneg_right points (power_pos _).le
  · -- the coarser grid starts where the finer one ends
    obtain ⟨below, -, least⟩ := gridExponent_spec positive
    obtain ⟨-, reached, -⟩ := gridExponent_spec (positive.trans_le le)
    have reached := reached.resolve_left (by omega)
    generalize gridExponent exact = fine at below least coarser ⊢
    generalize gridExponent other = coarse at reached coarser ⊢
    have most : gridPoint fine exact ≤ 2 ^ 53 := by
      refine gridPoint_le nonneg (below.trans ?_)
      rw [zpow_add₀ (by norm_num), mul_comm]
      exact mul_lt_mul_of_pos_right (by norm_num) (power_pos fine)
    have few : 2 ^ 52 ≤ gridPoint coarse other := by
      refine le_gridPoint (nonneg.trans le) (le_trans (le_of_eq ?_) reached)
      rw [zpow_add₀ (by norm_num), mul_comm]
      norm_num
    calc (gridPoint fine exact : ℚ) * 2 ^ fine
        ≤ 2 ^ 53 * 2 ^ fine :=
          mul_le_mul_of_nonneg_right (by exact_mod_cast most) (power_pos fine).le
      _ = 2 ^ 52 * 2 ^ (fine + 1) := by
          rw [zpow_add₀ (by norm_num)]
          ring
      _ ≤ 2 ^ 52 * 2 ^ coarse :=
          mul_le_mul_of_nonneg_left (zpow_le_zpow_right₀ (by norm_num) (by omega)) (by norm_num)
      _ ≤ gridPoint coarse other * 2 ^ coarse :=
          mul_le_mul_of_nonneg_right (by exact_mod_cast few) (power_pos coarse).le

/-- A number is rounded by half a step of its grid at most. -/
theorem gridPoint_near (nonneg : 0 ≤ exact) (exponent : Int) :
    exact ≤ (gridPoint exponent exact + 1 / 2) * 2 ^ exponent ∧
      (gridPoint exponent exact - 1 / 2) * 2 ^ exponent ≤ exact := by
  obtain ⟨numerator, denominator, positive, rounded, spelled⟩ := gridPoint_fraction nonneg exponent
  obtain ⟨above, below⟩ := @roundHalfEven_near numerator denominator positive
  rw [rounded]
  generalize roundHalfEven numerator denominator = point at above below ⊢
  have positive' : (0 : ℚ) < denominator := by exact_mod_cast positive
  have above' : (2 * numerator : ℚ) ≤ (2 * point + 1) * denominator := by exact_mod_cast above
  have below' : (2 * (point * denominator) : ℚ) ≤ 2 * numerator + denominator := by
    exact_mod_cast below
  have step := power_pos exponent
  constructor
  · refine le_of_mul_le_mul_right ?_ positive'
    rw [← spelled]
    have scaled := mul_le_mul_of_nonneg_right above' step.le
    linarith
  · refine le_of_mul_le_mul_right ?_ positive'
    rw [← spelled]
    have scaled := mul_le_mul_of_nonneg_right below' step.le
    linarith

/-- A number that is not too small is rounded by a small part of itself at most. -/
theorem nearest_near (large : 2 ^ (-1000 : Int) ≤ exact) :
    exact * (1 - 1 / 2 ^ 53) ≤ nearest exact ∧ nearest exact ≤ exact * (1 + 1 / 2 ^ 53) := by
  have positive : 0 < exact := (power_pos _).trans_le large
  obtain ⟨below, reached, -⟩ := gridExponent_spec positive
  obtain ⟨above', below'⟩ := gridPoint_near positive.le (gridExponent exact)
  have normal : 2 ^ (gridExponent exact + 52) ≤ exact := by
    refine reached.resolve_left fun smallest => ?_
    rw [smallest] at below
    have exponents := (zpow_lt_zpow_iff_right₀ (by norm_num : (1 : ℚ) < 2)).mp
      (large.trans_lt below)
    omega
  have half : (2 : ℚ) ^ gridExponent exact * (1 / 2) ≤ exact * (1 / 2 ^ 53) := by
    rw [zpow_add₀ (by norm_num)] at normal
    have power : (2 : ℚ) ^ (52 : Int) = 2 ^ 52 := rfl
    rw [power] at normal
    linarith
  unfold nearest
  constructor <;> linarith

/-- A number that is a double, whatever its size. -/
def OnGrid (exact : ℚ) : Prop :=
  ∃ (point : Nat) (exponent : Int), point < 2 ^ 53 ∧ -1074 ≤ exponent ∧ exact = point * 2 ^ exponent

/-- A double is its own double. -/
theorem OnGrid.nearest_eq (onGrid : OnGrid exact) : nearest exact = exact := by
  obtain ⟨point, exponent, small, least, rfl⟩ := onGrid
  rcases Nat.eq_zero_or_pos point with rfl | some
  · rw [Nat.cast_zero, zero_mul, nearest_zero]
  have some' : (0 : ℚ) < point := by exact_mod_cast some
  have positive : (0 : ℚ) < point * 2 ^ exponent := mul_pos some' (power_pos exponent)
  obtain ⟨-, reached, -⟩ := gridExponent_spec positive
  -- the number is a point of the grid it is rounded on
  have finer : gridExponent (point * 2 ^ exponent) ≤ exponent := by
    rcases reached with smallest | reached
    · rw [smallest]
      exact least
    · have small' : (point : ℚ) < 2 ^ (53 : Int) := by exact_mod_cast small
      have powers := reached.trans_lt (mul_lt_mul_of_pos_right small' (power_pos exponent))
      rw [← zpow_add₀ (by norm_num)] at powers
      have exponents := (zpow_lt_zpow_iff_right₀ (by norm_num : (1 : ℚ) < 2)).mp powers
      omega
  unfold nearest
  generalize gridExponent (point * 2 ^ exponent) = fine at finer ⊢
  obtain ⟨steps, spelled⟩ := Int.eq_ofNat_of_zero_le (by omega : 0 ≤ exponent - fine)
  have same : (point : ℚ) * 2 ^ exponent = (point * 2 ^ steps : Nat) * 2 ^ fine := by
    have split : exponent = steps + fine := by omega
    rw [split, zpow_add₀ (by norm_num), zpow_natCast]
    push_cast
    ring
  have rounded : gridPoint fine (point * 2 ^ exponent) = point * 2 ^ steps := by
    refine le_antisymm (gridPoint_le positive.le ?_) (le_gridPoint positive.le same.ge)
    rw [same]
    exact mul_lt_mul_of_pos_right (by norm_num) (power_pos fine)
  rw [rounded, same]

/-- Nothing rounds beyond a double. -/
theorem nearest_le (nonneg : 0 ≤ exact) (onGrid : OnGrid other) (le : exact ≤ other) :
    nearest exact ≤ other := by
  rw [← onGrid.nearest_eq]
  exact nearest_mono nonneg le

theorem le_nearest (nonneg : 0 ≤ exact) (onGrid : OnGrid exact) (le : exact ≤ other) :
    exact ≤ nearest other := by
  rw [← onGrid.nearest_eq]
  exact nearest_mono nonneg le

theorem onGrid_natCast {number : Nat} (small : number < 2 ^ 53) : OnGrid number :=
  ⟨number, 0, small, by norm_num, by simp⟩

/-- A fraction of a power of two with few digits is a double. -/
theorem onGrid_dyadic {number power : Nat} (small : number < 2 ^ 53) (few : power ≤ 1074) :
    OnGrid (number / 2 ^ power) := by
  refine ⟨number, -(power : Int), small, by omega, ?_⟩
  rw [zpow_neg, zpow_natCast, div_eq_mul_inv]

/-- What exceeds a whole number by so little rounds to it at most. -/
theorem nearest_le_natCast {number : Nat} (small : number < 2 ^ 52) (nonneg : 0 ≤ exact)
    (close : exact ≤ number * (1 + 1 / 2 ^ 54)) : nearest exact ≤ number := by
  rcases nonneg.eq_or_lt with rfl | positive
  · rw [nearest_zero]
    exact Nat.cast_nonneg _
  obtain ⟨below, reached, -⟩ := gridExponent_spec positive
  have small' : (number : ℚ) < 2 ^ 52 := by exact_mod_cast small
  have fine : gridExponent exact ≤ 0 := by
    rcases reached with smallest | reached
    · omega
    · have bound : exact < 2 ^ (53 : Int) := by
        have double : (number : ℚ) * (1 + 1 / 2 ^ 54) ≤ number * 2 :=
          mul_le_mul_of_nonneg_left (by norm_num) (Nat.cast_nonneg _)
        have power : (2 : ℚ) ^ (53 : Int) = 2 ^ 52 * 2 := by norm_num
        linarith
      have exponents := (zpow_lt_zpow_iff_right₀ (by norm_num : (1 : ℚ) < 2)).mp
        (reached.trans_lt bound)
      omega
  unfold nearest
  generalize gridExponent exact = exponent at below fine ⊢
  obtain ⟨steps, spelled⟩ := Int.eq_ofNat_of_zero_le (by omega : 0 ≤ -exponent)
  have onPoint : (number : ℚ) = (number * 2 ^ steps : Nat) * 2 ^ exponent := by
    have same : exponent = -(steps : Int) := by omega
    rw [same, zpow_neg, zpow_natCast]
    push_cast
    have positive : (2 : ℚ) ^ steps ≠ 0 := by positivity
    field_simp
  have points : gridPoint exponent exact ≤ number * 2 ^ steps := by
    refine gridPoint_le nonneg ?_
    rw [add_mul, ← onPoint]
    by_cases passed : exact ≤ number
    · have half := power_pos exponent
      linarith
    · -- the excess is less than half a step of the grid
      have excess : (number : ℚ) * (1 / 2 ^ 54) < 1 / 2 * 2 ^ exponent := by
        rw [zpow_add₀ (by norm_num)] at below
        norm_num at below passed ⊢
        linarith
      linarith
  calc (gridPoint exponent exact : ℚ) * 2 ^ exponent
      ≤ (number * 2 ^ steps : Nat) * 2 ^ exponent :=
        mul_le_mul_of_nonneg_right (by exact_mod_cast points) (power_pos exponent).le
    _ = number := onPoint.symm

/-- The value of a grid point, as `binary64` spells it. -/
theorem gridPoint_value (exact : ℚ) (exponent : Int) :
    (if 0 ≤ exponent then
        ((roundHalfEven exact.num.natAbs (exact.den * 2 ^ exponent.toNat) * 2 ^ exponent.toNat : Nat) : ℚ)
      else mkRat (roundHalfEven (exact.num.natAbs * 2 ^ (-exponent).toNat) exact.den)
        (2 ^ (-exponent).toNat)) = gridPoint exponent exact * 2 ^ exponent := by
  unfold gridPoint
  split
  · next nonneg =>
      obtain ⟨power, rfl⟩ := Int.eq_ofNat_of_zero_le nonneg
      rw [Int.toNat_natCast, zpow_natCast]
      push_cast
      rfl
  · next negative =>
      obtain ⟨power, spelled⟩ := Int.eq_ofNat_of_zero_le (by omega : 0 ≤ -exponent)
      have same : exponent = -(power : Int) := by omega
      rw [spelled, Int.toNat_natCast, same, zpow_neg, zpow_natCast, Rat.mkRat_eq_div, div_eq_mul_inv]
      push_cast
      rfl

/-- A number that is not negative rounds to its double, unless that is too large. -/
theorem binary64_eq (nonneg : 0 ≤ exact) :
    binary64 exact = if ((2 ^ 1024 : Nat) : ℚ) ≤ nearest exact then none else some (nearest exact) := by
  have large : (0 : ℚ) < (2 ^ 1024 : Nat) := by positivity
  unfold binary64
  generalize ((2 ^ 1024 : Nat) : ℚ) = limit at large ⊢
  by_cases zero : exact = 0
  · subst zero
    rw [nearest_zero, if_pos rfl, if_neg (not_le.mpr large)]
  · have value := gridPoint_value exact (gridExponent exact)
    unfold gridExponent at value
    rw [if_neg zero]
    dsimp only
    rw [value, if_neg (not_lt.mpr nonneg)]
    rfl

/-- Up to a double below the limit, rounding does not overflow. -/
theorem binary64_of_le (nonneg : 0 ≤ exact) (onGrid : OnGrid other) (le : exact ≤ other)
    (fits : ¬ ((2 ^ 1024 : Nat) : ℚ) ≤ other) : binary64 exact = some (nearest exact) :=
  (binary64_eq nonneg).trans (if_neg fun large => fits (large.trans (nearest_le nonneg onGrid le)))

/-- What is at most a double of at most 53 digits does not overflow. -/
theorem binary64_small (nonneg : 0 ≤ exact) (small : exact ≤ 2 ^ 52) :
    binary64 exact = some (nearest exact) := by
  have onGrid : OnGrid ((2 ^ 52 : Nat) : ℚ) := onGrid_natCast (by norm_num)
  refine binary64_of_le nonneg onGrid (small.trans_eq (by norm_num)) fun large => ?_
  have powers : 2 ^ 1024 ≤ 2 ^ 52 := by exact_mod_cast large
  exact absurd ((Nat.pow_le_pow_iff_right Nat.one_lt_two).mp powers) (by norm_num)

/-- A whole number of at most 52 digits is its own double. -/
theorem binary64_whole {number : Int} (nonneg : 0 ≤ number) (small : number ≤ 2 ^ 52) :
    binary64 number = some (number : ℚ) := by
  obtain ⟨natural, rfl⟩ := Int.eq_ofNat_of_zero_le nonneg
  have small' : natural < 2 ^ 53 := by omega
  have onGrid : OnGrid ((natural : Int) : ℚ) := by
    rw [Int.cast_natCast]
    exact onGrid_natCast small'
  rw [binary64_small (by exact_mod_cast nonneg) (by exact_mod_cast small), onGrid.nearest_eq]

end Grid

end NovelRalph
