import NovelRalph.State.Validate

/-!
# Floats of the reports

The reports divide word counts and multiply thresholds, so beside the ratio
arithmetic of the validator they round integers and products, and a percentage or
a density of theirs can be infinite.
-/

namespace NovelRalph

/-- A float a report holds; none of them is ever a NaN. -/
inductive Float64 where
  | finite (value : ℚ)
  | infinite (negative : Bool)
  deriving DecidableEq

/-- The arithmetic of the reports. -/
structure FloatArithmetic extends RatioArithmetic where
  /-- The float nearest to a number; `none` when it overflows. -/
  rounded : ℚ → Option ℚ

/-- Doubles. -/
def FloatArithmetic.doubles : FloatArithmetic where
  toRatioArithmetic := .doubles
  rounded := binary64

/-- Exact arithmetic: nothing is rounded and nothing overflows. -/
def FloatArithmetic.exact : FloatArithmetic where
  toRatioArithmetic := .exact
  rounded := some

namespace Float64

/-- A rounded number, or the infinity of its sign. -/
def ofRounded (exact : ℚ) : Option ℚ → Float64
  | some value => finite value
  | none => infinite (exact < 0)

/-- `number <= bound` of a float and an integer. -/
def atMost (bound : Int) : Float64 → Bool
  | finite value => value ≤ bound
  | infinite negative => negative

/-- The text of a float with a fixed count of decimals. -/
def fixed (decimals : Nat) : Float64 → String
  | finite value => fixedText decimals value
  | infinite negative => if negative then "-inf" else "inf"

end Float64

end NovelRalph
