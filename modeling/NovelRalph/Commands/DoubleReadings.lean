import NovelRalph.Base.Rounding
import NovelRalph.Commands.GateReadings

/-!
# The knitting gates in doubles

The program divides word counts and multiplies thresholds in doubles. Up to 2^49
words of a target this loses nothing: the ratio of two word counts rounds below a
threshold exactly when it is below it, and the words to the next gate are the exact
ones. So the readings of the geometry that agree in exact arithmetic agree in doubles.
-/

namespace NovelRalph

section Readings

variable {current target : Int} {gate : KnittingGate}

/-- The thresholds are the doubles nearest to their literals. -/
theorem threshold_doubles (gate : KnittingGate) :
    RatioArithmetic.doubles.threshold gate = nearest gate.literal := by
  cases gate <;> decide +kernel

/-- The last double below a threshold. -/
def KnittingGate.short : KnittingGate → ℚ
  | .done30 => 5404319552844594 / 2 ^ 54
  | .done50 => 9007199254740991 / 2 ^ 54
  | .done80 => 7205759403792793 / 2 ^ 53

theorem KnittingGate.short_onGrid (gate : KnittingGate) : OnGrid gate.short := by
  cases gate
  · exact @onGrid_dyadic 5404319552844594 54 (by norm_num) (by norm_num)
  · exact @onGrid_dyadic 9007199254740991 54 (by norm_num) (by norm_num)
  · exact @onGrid_dyadic 7205759403792793 53 (by norm_num) (by norm_num)

theorem KnittingGate.short_lt (gate : KnittingGate) : gate.short < nearest gate.literal := by
  cases gate <;> decide +kernel

/-- Every threshold is a number of tenths. -/
theorem KnittingGate.literal_tenths (gate : KnittingGate) :
    ∃ tenths : Int, 0 < tenths ∧ tenths ≤ 8 ∧ gate.literal = tenths / 10 := by
  cases gate
  · exact ⟨3, by norm_num, by norm_num, by decide +kernel⟩
  · exact ⟨5, by norm_num, by norm_num, by decide +kernel⟩
  · exact ⟨8, by norm_num, by norm_num, by decide +kernel⟩

/-- A number of words below a threshold is a tenth of a word below it, at least. -/
theorem below_by_tenth (below : (current : ℚ) < gate.literal * target) :
    (current : ℚ) + 1 / 10 ≤ gate.literal * target := by
  obtain ⟨tenths, -, -, spelled⟩ := gate.literal_tenths
  rw [spelled] at below ⊢
  have scaled : (10 * current : ℚ) < tenths * target := by linarith
  have whole : 10 * current + 1 ≤ tenths * target := by exact_mod_cast scaled
  have whole' : (10 * current + 1 : ℚ) ≤ tenths * target := by exact_mod_cast whole
  linarith

/-- Up to 2^49 words, a ratio below a threshold does not pass the last double below it. -/
theorem ratio_le_short (positive : 0 < target) (bounded : target ≤ 2 ^ 49)
    (below : (current : ℚ) / target < gate.literal) : (current : ℚ) / target ≤ gate.short := by
  have positive' : (0 : ℚ) < target := by exact_mod_cast positive
  have bounded' : (target : ℚ) ≤ 2 ^ 49 := by exact_mod_cast bounded
  rw [div_lt_iff₀ positive'] at below
  have tenth := below_by_tenth below
  have step : gate.literal - gate.short ≤ 1 / 10 / 2 ^ 49 := by cases gate <;> decide +kernel
  have share : (gate.literal - gate.short) * target ≤ 1 / 10 := by
    calc (gate.literal - gate.short) * target ≤ 1 / 10 / 2 ^ 49 * target :=
          mul_le_mul_of_nonneg_right step positive'.le
      _ ≤ 1 / 10 / 2 ^ 49 * 2 ^ 49 := mul_le_mul_of_nonneg_left bounded' (by norm_num)
      _ = 1 / 10 := by norm_num
  rw [div_le_iff₀ positive']
  linarith

/-- Up to 2^49 words, a ratio rounds below a threshold exactly when it is below it. -/
theorem nearest_lt_threshold_iff (positive : 0 < target) (bounded : target ≤ 2 ^ 49)
    (drafted : 0 ≤ current) :
    nearest ((current : ℚ) / target) < nearest gate.literal ↔ (current : ℚ) / target < gate.literal := by
  have positive' : (0 : ℚ) < target := by exact_mod_cast positive
  have nonneg : (0 : ℚ) ≤ current / target :=
    div_nonneg (by exact_mod_cast drafted) positive'.le
  constructor
  · intro less
    by_contra reached
    have literal : (0 : ℚ) ≤ gate.literal := by cases gate <;> decide +kernel
    exact absurd (nearest_mono literal (not_lt.mp reached)) (not_le.mpr less)
  · intro below
    have short := nearest_le nonneg gate.short_onGrid (ratio_le_short positive bounded below)
    exact short.trans_lt gate.short_lt

/-- The words of a threshold, rounded up. -/
def KnittingGate.words (gate : KnittingGate) (target : Int) : Int := (gate.literal * target).ceil

theorem KnittingGate.words_spec (gate : KnittingGate) (positive : 0 < target) :
    (gate.words target : ℚ) - 9 / 10 ≤ gate.literal * target ∧
      gate.literal * target ≤ gate.words target ∧ 1 ≤ gate.words target ∧
      gate.words target ≤ target := by
  have positive' : (0 : ℚ) < target := by exact_mod_cast positive
  have literal : (0 : ℚ) < gate.literal ∧ gate.literal ≤ 1 := by cases gate <;> decide +kernel
  have above : gate.literal * target ≤ gate.words target := Rat.ceil_le_iff.mp le_rfl
  have below : ((gate.words target - 1 : Int) : ℚ) < gate.literal * target :=
    Rat.lt_ceil_iff.mp (by unfold KnittingGate.words; omega)
  have tenth := below_by_tenth below
  push_cast at tenth
  refine ⟨by linarith, above, ?_, ?_⟩
  · exact Rat.lt_ceil_iff.mpr (by exact_mod_cast mul_pos literal.1 positive')
  · refine Rat.ceil_le_iff.mpr ?_
    have most := mul_le_mul_of_nonneg_right literal.2 positive'.le
    linarith

/-- The product of a threshold and a target rounds to the last word of the threshold, at most. -/
theorem product_rounds (positive : 0 < target) (bounded : target ≤ 2 ^ 49) :
    binary64 (nearest gate.literal * target) = some (nearest (nearest gate.literal * target)) ∧
      (gate.words target : ℚ) - 1 + 1 / 16 ≤ nearest (nearest gate.literal * target) ∧
      nearest (nearest gate.literal * target) ≤ gate.words target := by
  obtain ⟨below, above, one, most⟩ := gate.words_spec positive
  have positive' : (0 : ℚ) < target := by exact_mod_cast positive
  have bounded' : (target : ℚ) ≤ 2 ^ 49 := by exact_mod_cast bounded
  have lower : gate.literal - 1 / 2 ^ 56 ≤ nearest gate.literal := by cases gate <;> decide +kernel
  have upper : nearest gate.literal ≤ gate.literal * (1 + 1 / 2 ^ 54) := by
    cases gate <;> decide +kernel
  have one' : (1 : ℚ) ≤ gate.words target := by exact_mod_cast one
  have most' : (gate.words target : ℚ) ≤ target := by exact_mod_cast most
  have under : nearest gate.literal * target ≤ gate.words target * (1 + 1 / 2 ^ 54) := by
    calc nearest gate.literal * target ≤ gate.literal * (1 + 1 / 2 ^ 54) * target :=
          mul_le_mul_of_nonneg_right upper positive'.le
      _ = gate.literal * target * (1 + 1 / 2 ^ 54) := by ring
      _ ≤ gate.words target * (1 + 1 / 2 ^ 54) := mul_le_mul_of_nonneg_right above (by norm_num)
  have past : (gate.words target : ℚ) - 1 + 1 / 16 ≤ nearest gate.literal * target := by
    have scaled := mul_le_mul_of_nonneg_right lower positive'.le
    have small : (1 / 2 ^ 56 : ℚ) * target ≤ 1 / 128 := by
      calc (1 / 2 ^ 56 : ℚ) * target ≤ 1 / 2 ^ 56 * 2 ^ 49 :=
            mul_le_mul_of_nonneg_left bounded' (by norm_num)
        _ = 1 / 128 := by norm_num
    linarith
  have nonneg : 0 ≤ nearest gate.literal * target := mul_nonneg (nearest_nonneg _) positive'.le
  obtain ⟨words, spelled⟩ := Int.eq_ofNat_of_zero_le (by omega : 0 ≤ gate.words target)
  have spelled' : (gate.words target : ℚ) = (words : ℚ) := by rw [spelled, Int.cast_natCast]
  have few : words ≤ 2 ^ 49 := by omega
  refine ⟨binary64_small nonneg ?_, ?_, ?_⟩
  · refine under.trans ?_
    linarith
  · -- a sixteenth past a whole number is a double
    have onGrid : OnGrid ((16 * (words - 1) + 1 : Nat) / 2 ^ 4) :=
      onGrid_dyadic (by omega) (by norm_num)
    have value : (((16 * (words - 1) + 1 : Nat) : ℚ) / 2 ^ 4) = gate.words target - 1 + 1 / 16 := by
      rw [spelled']
      have least : 1 ≤ words := by omega
      push_cast [Nat.cast_sub least]
      ring
    rw [← value] at past ⊢
    exact le_nearest (by positivity) onGrid past
  · rw [spelled'] at under ⊢
    exact nearest_le_natCast (by omega) nonneg under

/-- Short of a threshold, the words to go are the exact ones. -/
theorem wordsToGo_doubles (positive : 0 < target) (bounded : target ≤ 2 ^ 49) (drafted : 0 ≤ current)
    (below : (current : ℚ) / target < gate.literal) :
    wordsToGo .doubles (nearest gate.literal) current target =
      some (gate.literal * target - current).ceil := by
  have positive' : (0 : ℚ) < target := by exact_mod_cast positive
  have bounded' : (target : ℚ) ≤ 2 ^ 49 := by exact_mod_cast bounded
  rw [div_lt_iff₀ positive'] at below
  obtain ⟨-, above, -, most⟩ := gate.words_spec positive
  obtain ⟨rounds, past, under⟩ := @product_rounds target gate positive bounded
  have short : current + 1 ≤ gate.words target := by
    have less : (current : ℚ) < gate.words target := below.trans_le above
    exact_mod_cast less
  generalize nearest (nearest gate.literal * target) = product at rounds past under
  have short' : (current : ℚ) + 1 ≤ gate.words target := by exact_mod_cast short
  have most' : (gate.words target : ℚ) ≤ target := by exact_mod_cast most
  have drafted' : (0 : ℚ) ≤ current := by exact_mod_cast drafted
  have nonneg : 0 ≤ product - current := by linarith
  obtain ⟨left, spelled⟩ := Int.eq_ofNat_of_zero_le (by omega : 0 ≤ gate.words target - 1 - current)
  have spelled' : (gate.words target : ℚ) - 1 - current = (left : ℚ) := by
    exact_mod_cast congrArg (Int.cast : Int → ℚ) spelled
  -- the difference lies in the last word before the threshold, and rounds into it
  have most'' : nearest (product - current) ≤ (left + 1 : Nat) := by
    refine nearest_le nonneg (onGrid_natCast (by omega)) ?_
    push_cast
    linarith
  have least : ((16 * left + 1 : Nat) : ℚ) / 2 ^ 4 ≤ nearest (product - current) := by
    refine le_nearest (by positivity) (onGrid_dyadic (by omega) (by norm_num)) ?_
    push_cast
    linarith
  have words : (nearest (product - current)).ceil = (gate.literal * target - current).ceil := by
    have ceiling : ∀ value : ℚ, (left : ℚ) < value → value ≤ left + 1 → value.ceil = (left : Int) + 1 := by
      intro value past within
      refine le_antisymm (Rat.ceil_le_iff.mpr (by exact_mod_cast within)) ?_
      exact Rat.lt_ceil_iff.mpr (by exact_mod_cast past)
    obtain ⟨last, -, -, -⟩ := gate.words_spec positive
    push_cast at most'' least
    rw [ceiling _ (by linarith) most'', ceiling _ (by linarith) (by linarith)]
  have fits : binary64 (product - current) = some (nearest (product - current)) :=
    binary64_small nonneg (by linarith)
  have target' : FloatArithmetic.doubles.rounded target = some (target : ℚ) :=
    binary64_whole positive.le (by omega)
  have current' : FloatArithmetic.doubles.rounded current = some (current : ℚ) :=
    binary64_whole drafted (by omega)
  have product' : FloatArithmetic.doubles.rounded (nearest gate.literal * target) = some product :=
    rounds
  have difference : FloatArithmetic.doubles.rounded (product - current) =
      some (nearest (product - current)) := fits
  unfold wordsToGo
  rw [target']
  simp only [bind, Option.bind, product', current', difference, words]
  rfl

/-- A quotient of word counts that does not overflow is the nearest double of their ratio. -/
theorem quotient_doubles (positive : 0 < target) (drafted : 0 ≤ current)
    (finite : RatioArithmetic.doubles.quotient current target ≠ none) :
    RatioArithmetic.doubles.quotient current target = some (nearest ((current : ℚ) / target)) := by
  have nonneg : (0 : ℚ) ≤ current / target :=
    div_nonneg (by exact_mod_cast drafted) (by exact_mod_cast positive.le)
  have same : RatioArithmetic.doubles.quotient current target = binary64 ((current : ℚ) / target) :=
    congrArg binary64 (Option.some.inj (quotient_exact current positive))
  rw [same, binary64_eq nonneg] at finite ⊢
  split at finite
  · exact absurd rfl finite
  · next fits => exact if_neg fits

/-- In doubles a quotient reaches a threshold exactly when the ratio does. -/
theorem reached_doubles (positive : 0 < target) (bounded : target ≤ 2 ^ 49) (drafted : 0 ≤ current)
    (gate : KnittingGate) :
    RatioArithmetic.doubles.threshold gate ≤ nearest ((current : ℚ) / target) ↔
      gate.literal ≤ (current : ℚ) / target := by
  rw [threshold_doubles, ← not_lt, nearest_lt_threshold_iff positive bounded drafted, not_lt]

/-- The geometry in doubles is the exact one, unless the ratio overflows. -/
theorem gateGeometry_doubles (positive : 0 < target) (bounded : target ≤ 2 ^ 49)
    (drafted : 0 ≤ current) (finite : RatioArithmetic.doubles.quotient current target ≠ none) :
    gateGeometry .doubles current target = gateGeometry .exact current target := by
  have divided : FloatArithmetic.doubles.quotient current target =
      some (nearest ((current : ℚ) / target)) := quotient_doubles positive drafted finite
  have divided' : FloatArithmetic.exact.quotient current target = some ((current : ℚ) / target) :=
    quotient_exact current positive
  have reaches : ∀ gate, FloatArithmetic.doubles.threshold gate ≤ nearest ((current : ℚ) / target) ↔
      gate.literal ≤ (current : ℚ) / target := reached_doubles positive bounded drafted
  have short : ∀ gate, nearest ((current : ℚ) / target) < FloatArithmetic.doubles.threshold gate ↔
      (current : ℚ) / target < gate.literal := fun gate => by
    rw [← not_le, reaches, not_le]
  have literal (gate : KnittingGate) : FloatArithmetic.exact.threshold gate = gate.literal := rfl
  have rounded : ∀ gate, FloatArithmetic.doubles.threshold gate = nearest gate.literal :=
    threshold_doubles
  unfold gateGeometry
  rw [if_neg (not_le.mpr positive), if_neg (not_le.mpr positive), divided, divided']
  simp only [reaches, short, literal]
  cases found : KnittingGate.all.find? fun gate => decide ((current : ℚ) / target < gate.literal) with
  | none => rfl
  | some next =>
      have unreached := List.find?_some found
      have below : (current : ℚ) / target < next.literal := of_decide_eq_true unreached
      dsimp only
      rw [rounded, wordsToGo_doubles positive bounded drafted below]
      rfl

end Readings

/-! ## Agreement -/

section State

variable {state : State}

/-- In doubles too the three readings agree: the report has the geometry it should have, the
verdict is about the gates that differ from its triggers, and so is the advice. -/
theorem double_readings_agree (positive : 0 < state.wordCounts.target)
    (bounded : state.wordCounts.target ≤ 2 ^ 49) (drafted : 0 ≤ state.wordCounts.draftedTotal)
    (finite : RatioArithmetic.doubles.quotient state.wordCounts.draftedTotal
      state.wordCounts.target ≠ none) :
    ∃ triggers nextGate distance,
      gateGeometry .doubles state.wordCounts.draftedTotal state.wordCounts.target =
        .ok (triggers, nextGate, distance) ∧
      Knits state.wordCounts.draftedTotal state.wordCounts.target triggers nextGate distance ∧
      (∃ verdict, validateState .doubles state = .ok verdict ∧
        ((∀ violation ∈ verdict, violation.invariant ≠ InvariantName.gateRatioConsistent) ↔
          ∀ gate, state.gates.knitting.flag gate = triggers gate)) ∧
      remedyGates .doubles state = differingGates state.gates.knitting triggers := by
  obtain ⟨triggers, nextGate, distance, geometry, knits⟩ :=
    gateGeometry_knits positive state.wordCounts.draftedTotal
  have triggered : triggers = fun gate => decide (gate.literal ≤
      (state.wordCounts.draftedTotal : ℚ) / state.wordCounts.target) := by
    funext gate
    rw [Bool.eq_iff_iff, decide_eq_true_iff]
    exact knits.reached gate
  have divided := quotient_doubles positive drafted finite
  have reached : ∀ gate, decide (RatioArithmetic.doubles.threshold gate ≤
      nearest ((state.wordCounts.draftedTotal : ℚ) / state.wordCounts.target)) = triggers gate := by
    intro gate
    rw [triggered, decide_eq_decide]
    exact reached_doubles positive bounded drafted gate
  exact ⟨triggers, nextGate, distance,
    (gateGeometry_doubles positive bounded drafted finite).trans geometry, knits,
    verdict_of_quotient positive divided reached, remedyGates_of_quotient positive divided reached⟩

end State

/-- Three words of ten reach the first gate in doubles too, and the next is two words away. -/
theorem double_readings_agree_three_of_ten :
    ∃ triggers nextGate distance, gateGeometry .doubles 3 10 = .ok (triggers, nextGate, distance) ∧
      Knits 3 10 triggers nextGate distance := by
  obtain ⟨triggers, nextGate, distance, geometry, knits, -⟩ := @double_readings_agree
    { initialState "Title" "slug" 10 "2024-01-01T00:00:00Z" with
      wordCounts := { target := 10, current := 3, byChapter := Dict.ofPairs [("01", 3)] } }
    (by decide) (by decide) (by decide) (by decide +kernel)
  exact ⟨triggers, nextGate, distance, geometry, knits⟩

/-- Beyond, doubles differ: one word short of 3/10 of 10^18 words, the first gate triggers. -/
example : RatioArithmetic.doubles.quotient (3 * 10 ^ 17 - 1) (10 ^ 18) =
    some (RatioArithmetic.doubles.threshold .done30) := by decide +kernel

end NovelRalph
