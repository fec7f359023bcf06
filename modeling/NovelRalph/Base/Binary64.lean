import Mathlib.Data.Rat.Defs
import Mathlib.Algebra.Order.Field.Rat

/-!
# Binary floating point

A finite double is known here by its exact rational value. `binary64` rounds a
rational to the nearest double, ties to even, which is what true division of two
integers and the reading of a decimal literal do; an overflowing result is
`none`. `fixedText` is the `.nf` format of a double's exact value.
-/

namespace NovelRalph

/-- The integer nearest to `numerator / denominator`, ties to even. -/
def roundHalfEven (numerator denominator : Nat) : Nat :=
  let quotient := numerator / denominator
  let remainder := numerator % denominator
  if 2 * remainder < denominator then quotient
  else if denominator < 2 * remainder then quotient + 1
  else if quotient % 2 = 0 then quotient
  else quotient + 1

/-- `⌊log₂ (numerator / denominator)⌋` of a positive rational. -/
def magnitude (numerator denominator : Nat) : Int :=
  let guess : Int := (numerator.log2 : Int) - denominator.log2
  let below : Bool :=
    if 0 ≤ guess then numerator < denominator * 2 ^ guess.toNat
    else numerator * 2 ^ (-guess).toNat < denominator
  if below then guess - 1 else guess

/-- The double nearest to a rational; `none` when it overflows. -/
def binary64 (exact : ℚ) : Option ℚ :=
  if exact = 0 then some 0
  else
    let numerator := exact.num.natAbs
    let exponent := max (magnitude numerator exact.den - 52) (-1074)
    let scaled : ℚ :=
      if 0 ≤ exponent then
        (roundHalfEven numerator (exact.den * 2 ^ exponent.toNat) * 2 ^ exponent.toNat : Nat)
      else
        mkRat (roundHalfEven (numerator * 2 ^ (-exponent).toNat) exact.den)
          (2 ^ (-exponent).toNat)
    if (2 ^ 1024 : Nat) ≤ scaled then none
    else some (if exact < 0 then -scaled else scaled)

@[simp]
theorem binary64_zero : binary64 0 = some 0 := rfl

/-- A number with a fixed count of decimals, as the `f` format writes it. -/
def fixedText (decimals : Nat) (exact : ℚ) : String :=
  let scaled := roundHalfEven (exact.num.natAbs * 10 ^ decimals) exact.den
  let fraction := Nat.toDigits 10 (scaled % 10 ^ decimals)
  let sign := if exact < 0 then ['-'] else []
  String.ofList (sign ++ Nat.toDigits 10 (scaled / 10 ^ decimals) ++
    ['.'] ++ List.replicate (decimals - fraction.length) '0' ++ fraction)

/-- `f"{number:.0f}"` of a number that is not negative. -/
def wholeText (exact : ℚ) : String :=
  String.ofList (Nat.toDigits 10 (roundHalfEven exact.num.natAbs exact.den))

example : binary64 (mkRat 3 10) = some (mkRat 5404319552844595 (2 ^ 54)) := by decide +kernel

example : fixedText 4 (mkRat 1 3) = "0.3333" := by decide +kernel

end NovelRalph
