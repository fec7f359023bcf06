import NovelRalph.Commands.DoubleReadings
import NovelRalph.Loader.LedgerVerdict
import NovelRalph.Loader.PackChannels

/-!
# The verdict of a rule pack

A rule that counts per page divides twice in doubles: words by the page size, and
hits by the pages. Both quotients are rounded, and still the verdict is the one of
whole numbers, hits times page size against threshold times words, wherever these
differ. The verdict of a pack does not depend on the order of the chapters, and
fewer hits on more words never make a passing rule fail.
-/

namespace NovelRalph

/-! ## Densities in doubles -/

section Density

variable {hits : Nat} {words pageWords threshold : Int}

/-- The hits on a page, rounded as the detector rounds them. -/
def roundedDensity (hits : Nat) (words pageWords : Int) : ℚ :=
  nearest (nearest hits / nearest ((words : ℚ) / pageWords))

/-- What the detector asks of a rule that counts per page: no hits on no pages, else a density
that is finite and within the threshold. -/
def DensityPasses (threshold : Int) (hits : Nat) (words pageWords : Int) : Prop :=
  if nearest ((words : ℚ) / pageWords) = 0 then hits = 0
  else roundedDensity hits words pageWords < (2 ^ 1024 : Nat) ∧
    roundedDensity hits words pageWords ≤ threshold

theorem densityPasses_of_none (nonneg : 0 ≤ threshold) :
    DensityPasses threshold 0 words pageWords := by
  have nonneg' : (0 : ℚ) ≤ threshold := by exact_mod_cast nonneg
  unfold DensityPasses roundedDensity
  rw [Nat.cast_zero, nearest_zero, zero_div, nearest_zero]
  split_ifs
  · rfl
  · exact ⟨by positivity, nonneg'⟩

/-- A density that is at most a threshold of at most 52 digits is finite. -/
theorem densityPasses_of_le (nonneg : 0 ≤ threshold) (small : threshold ≤ 2 ^ 52)
    (pages : nearest ((words : ℚ) / pageWords) ≠ 0)
    (within : roundedDensity hits words pageWords ≤ threshold) :
    DensityPasses threshold hits words pageWords := by
  unfold DensityPasses
  rw [if_neg pages]
  refine ⟨within.trans_lt ?_, within⟩
  have powers : ∀ power, 52 < power → 2 ^ 52 < 2 ^ power := fun power more =>
    (Nat.pow_lt_pow_iff_right Nat.one_lt_two).mpr more
  have large := powers 1024 (by norm_num)
  generalize 2 ^ 1024 = limit at large ⊢
  have small' : threshold < limit := by omega
  exact_mod_cast small'

/-- Hits of at most 52 digits are their own doubles. -/
theorem nearest_hits (small : hits ≤ 2 ^ 52) : nearest (hits : ℚ) = hits :=
  (onGrid_natCast (by omega)).nearest_eq

/-- Fewer hits than the threshold allows pass: rounding does not lift them over it. -/
theorem densityPasses_of_lt (nonneg : 0 ≤ threshold) (paged : 0 < pageWords) (worded : 0 ≤ words)
    (bounded : threshold * words ≤ 2 ^ 50) (below : hits * pageWords < threshold * words) :
    DensityPasses threshold hits words pageWords := by
  rcases Nat.eq_zero_or_pos hits with rfl | some
  · exact densityPasses_of_none nonneg
  have some' : (1 : Int) ≤ hits := by exact_mod_cast some
  have page : pageWords ≤ hits * pageWords := le_mul_of_one_le_left paged.le some'
  have hit : (hits : Int) ≤ hits * pageWords := le_mul_of_one_le_right (by omega) paged
  have word : 0 < words := by
    by_contra none
    have zero : words = 0 := by omega
    rw [zero, mul_zero] at below
    omega
  have limit : threshold ≤ threshold * words := le_mul_of_one_le_right nonneg word
  have paged' : (0 : ℚ) < pageWords := by exact_mod_cast paged
  have word' : (1 : ℚ) ≤ words := by exact_mod_cast word
  have nonneg' : (0 : ℚ) ≤ threshold := by exact_mod_cast nonneg
  have large : 2 ^ (-1000 : Int) ≤ (words : ℚ) / pageWords := by
    have few : (pageWords : ℚ) ≤ 2 ^ 50 := by exact_mod_cast (by omega : pageWords ≤ 2 ^ 50)
    rw [le_div_iff₀ paged']
    calc (2 : ℚ) ^ (-1000 : Int) * pageWords ≤ 2 ^ (-1000 : Int) * 2 ^ (50 : Int) :=
          mul_le_mul_of_nonneg_left few (power_pos _).le
      _ = 2 ^ (-950 : Int) := by rw [← zpow_add₀ (by norm_num)]; rfl
      _ ≤ 1 := zpow_le_one_of_nonpos₀ (by norm_num) (by norm_num)
      _ ≤ words := word'
  obtain ⟨least, -⟩ := nearest_near large
  generalize pagesEq : nearest ((words : ℚ) / pageWords) = pages at least
  have pages' : 0 < pages := by
    refine lt_of_lt_of_le (mul_pos ((power_pos _).trans_le large) (by norm_num)) least
  refine densityPasses_of_le nonneg (by omega) (by rw [pagesEq]; exact pages'.ne') ?_
  unfold roundedDensity
  rw [pagesEq, nearest_hits (by omega)]
  obtain ⟨bound, rfl⟩ := Int.eq_ofNat_of_zero_le nonneg
  rw [Int.cast_natCast]
  refine nearest_le_natCast (by omega) (by positivity) ?_
  rw [div_le_iff₀ pages']
  -- one hit short of the threshold outweighs both roundings
  have gap : ((hits : Int) * pageWords + 1 : ℚ) ≤ bound * words := by exact_mod_cast below
  have bounded' : (bound * words : ℚ) ≤ 2 ^ 50 := by exact_mod_cast bounded
  have scaled : (bound : ℚ) * (1 + 1 / 2 ^ 54) * (words / pageWords * (1 - 1 / 2 ^ 53)) ≤
      bound * (1 + 1 / 2 ^ 54) * pages :=
    mul_le_mul_of_nonneg_left least (by positivity)
  refine le_trans ?_ scaled
  have same : (bound : ℚ) * (1 + 1 / 2 ^ 54) * (words / pageWords * (1 - 1 / 2 ^ 53)) =
      bound * words * ((1 + 1 / 2 ^ 54) * (1 - 1 / 2 ^ 53)) / pageWords := by ring
  rw [same, le_div_iff₀ paged']
  push_cast at gap
  linarith

/-- More hits than the threshold allows fail, if the words have at most 50 digits. -/
theorem not_densityPasses_of_gt (nonneg : 0 ≤ threshold) (paged : 0 < pageWords)
    (worded : 0 ≤ words) (few : words ≤ 2 ^ 50) (bounded : threshold * words ≤ 2 ^ 50)
    (beyond : threshold * words < hits * pageWords) :
    ¬ DensityPasses threshold hits words pageWords := by
  have some : hits ≠ 0 := by
    rintro rfl
    have zero : 0 ≤ threshold * words := mul_nonneg nonneg worded
    omega
  have paged' : (0 : ℚ) < pageWords := by exact_mod_cast paged
  unfold DensityPasses
  split_ifs with noPages
  · exact some
  rintro ⟨-, within⟩
  have ratio : (0 : ℚ) ≤ words / pageWords := div_nonneg (by exact_mod_cast worded) paged'.le
  have pages : 0 < nearest ((words : ℚ) / pageWords) :=
    lt_of_le_of_ne (nearest_nonneg _) (Ne.symm noPages)
  have word : 1 ≤ words := by
    by_contra none
    have zero : words = 0 := by omega
    rw [zero, Int.cast_zero, zero_div, nearest_zero] at pages
    exact lt_irrefl 0 pages
  have word' : (1 : ℚ) ≤ words := by exact_mod_cast word
  -- rounding leaves the hits above the threshold
  have rounded : (threshold * words + 1 : ℚ) ≤ nearest hits * pageWords := by
    by_cases small : hits ≤ 2 ^ 52
    · rw [nearest_hits small]
      exact_mod_cast beyond
    · have large : ((2 ^ 52 : Nat) : ℚ) ≤ nearest hits :=
        le_nearest (by positivity) (onGrid_natCast (by norm_num)) (by exact_mod_cast (by omega))
      have bounded' : (threshold * words : ℚ) ≤ 2 ^ 50 := by exact_mod_cast bounded
      have page' : (1 : ℚ) ≤ pageWords := by exact_mod_cast paged
      have more := le_mul_of_one_le_right (nearest_nonneg (hits : ℚ)) page'
      push_cast at large
      linarith
  obtain ⟨bound, rfl⟩ := Int.eq_ofNat_of_zero_le nonneg
  obtain ⟨count, rfl⟩ := Int.eq_ofNat_of_zero_le worded
  rw [Int.cast_natCast, Int.cast_natCast] at *
  -- a double between the threshold and the density
  obtain ⟨power, lower, upper, few'⟩ : ∃ power, 2 ^ power ≤ 4 * count ∧ 2 * count ≤ 2 ^ power ∧
      power ≤ 1074 := by
    have least := Nat.log2_self_le (by omega : count ≠ 0)
    have most := @Nat.lt_log2_self count
    have digits : count.log2 < 51 := (Nat.log2_lt (by omega)).mpr (by omega)
    refine ⟨count.log2 + 2, ?_, ?_, by omega⟩
    · rw [pow_add]
      omega
    · rw [pow_succ] at most
      rw [pow_add]
      omega
  have product : bound * count ≤ 2 ^ 50 := by exact_mod_cast bounded
  have fits : bound * 2 ^ power + 1 < 2 ^ 53 := by
    have scaled := Nat.mul_le_mul_left bound lower
    have same : bound * (4 * count) = 4 * (bound * count) := by ring
    omega
  have step : OnGrid ((bound * 2 ^ power + 1 : Nat) / 2 ^ power) := onGrid_dyadic fits few'
  have scale : (0 : ℚ) < 2 ^ power := by positivity
  have value : ((bound * 2 ^ power + 1 : Nat) : ℚ) / 2 ^ power = bound + 1 / 2 ^ power := by
    push_cast
    field_simp
  have share : (count : ℚ) * (1 / 2 ^ power) ≤ 1 / 2 := by
    have upper' : (2 * count : ℚ) ≤ 2 ^ power := by exact_mod_cast upper
    rw [mul_one_div, div_le_iff₀ scale]
    linarith
  rw [value] at step
  have part : (0 : ℚ) < 1 / 2 ^ power := by positivity
  generalize (1 / 2 ^ power : ℚ) = least at step share part
  have product' : (bound * count : ℚ) ≤ 2 ^ 50 := by exact_mod_cast product
  have reached : (bound + least) * nearest ((count : ℚ) / pageWords) ≤ nearest hits := by
    rcases le_total (2 ^ (-1000 : Int)) ((count : ℚ) / pageWords) with large | small
    · have most := (nearest_near large).2
      have scaled := mul_le_mul_of_nonneg_left most (by positivity : (0 : ℚ) ≤ bound + least)
      refine scaled.trans ?_
      have same : (bound + least) * ((count : ℚ) / pageWords * (1 + 1 / 2 ^ 53)) =
          (bound * count + count * least) * (1 + 1 / 2 ^ 53) / pageWords := by ring
      rw [same, div_le_iff₀ paged']
      linarith
    · have onGrid : OnGrid (2 ^ (-1000 : Int)) := ⟨1, -1000, by norm_num, by norm_num, by simp⟩
      have most := nearest_le ratio onGrid small
      have one : ((1 : Nat) : ℚ) ≤ nearest hits :=
        le_nearest (by positivity) (onGrid_natCast (by norm_num))
          (by exact_mod_cast Nat.one_le_iff_ne_zero.mpr some)
      have limit : (bound : ℚ) ≤ bound * count :=
        le_mul_of_one_le_right (by positivity) word'
      have half : least ≤ count * least := le_mul_of_one_le_left part.le word'
      calc (bound + least) * nearest ((count : ℚ) / pageWords)
          ≤ 2 ^ (51 : Int) * 2 ^ (-1000 : Int) :=
            mul_le_mul (by norm_num; linarith) most (nearest_nonneg _) (by positivity)
        _ = 2 ^ (-949 : Int) := by rw [← zpow_add₀ (by norm_num)]; rfl
        _ ≤ 1 := zpow_le_one_of_nonpos₀ (by norm_num) (by norm_num)
        _ ≤ nearest hits := by exact_mod_cast one
  have dense : (bound : ℚ) + least ≤ roundedDensity hits count pageWords :=
    le_nearest (by positivity) step ((le_div_iff₀ pages).mpr reached)
  linarith

/-- On whole pages the verdict is exact at the threshold too. -/
theorem densityPasses_iff_of_dvd (nonneg : 0 ≤ threshold) (paged : 0 < pageWords)
    (worded : 0 ≤ words) (few : words ≤ 2 ^ 50) (bounded : threshold * words ≤ 2 ^ 50)
    (whole : pageWords ∣ words) :
    DensityPasses threshold hits words pageWords ↔ hits * pageWords ≤ threshold * words := by
  rcases lt_trichotomy (hits * pageWords) (threshold * words) with less | same | more
  · exact iff_of_true (densityPasses_of_lt nonneg paged worded bounded less) less.le
  · refine iff_of_true ?_ same.le
    obtain ⟨pages, rfl⟩ := whole
    have paged' : (pageWords : ℚ) ≠ 0 := by exact_mod_cast paged.ne'
    have counted : (hits : Int) = threshold * pages := by
      refine mul_right_cancel₀ paged.ne' (same.trans ?_)
      ring
    have ratio : ((pageWords * pages : Int) : ℚ) / pageWords = pages := by
      push_cast
      field_simp
    rcases hits.eq_zero_or_pos with rfl | some
    · exact densityPasses_of_none nonneg
    have counts : 0 < threshold * pages := by omega
    have page : 0 < pages := pos_of_mul_pos_right counts nonneg
    have rest : pages ≤ pageWords * pages := le_mul_of_one_le_left page.le paged
    have limit : threshold ≤ threshold * (pageWords * pages) :=
      le_mul_of_one_le_right nonneg (by omega)
    have page' : (0 : ℚ) < pages := by exact_mod_cast page
    have rounded : nearest (pages : ℚ) = pages := by
      obtain ⟨number, rfl⟩ := Int.eq_ofNat_of_zero_le page.le
      rw [Int.cast_natCast]
      exact (onGrid_natCast (by omega)).nearest_eq
    have hit : (hits : Int) ≤ hits * pageWords := le_mul_of_one_le_right (by omega) paged
    refine densityPasses_of_le nonneg (by omega) ?_ ?_
    · rw [ratio, rounded]
      exact page'.ne'
    · have hits' : (hits : ℚ) = threshold * pages := by exact_mod_cast counted
      unfold roundedDensity
      rw [ratio, rounded, nearest_hits (by omega), hits', mul_div_cancel_right₀ _ page'.ne']
      obtain ⟨number, rfl⟩ := Int.eq_ofNat_of_zero_le nonneg
      rw [Int.cast_natCast, (onGrid_natCast (by omega)).nearest_eq]
  · refine iff_of_false ?_ (not_le.mpr more)
    exact not_densityPasses_of_gt nonneg paged worded few bounded more

/-- Fewer hits on more words pass where more hits on fewer words do. -/
theorem DensityPasses.mono {fewer : Nat} {more : Int} (nonneg : 0 ≤ threshold)
    (paged : 0 < pageWords) (worded : 0 ≤ words) (hitsLe : fewer ≤ hits) (wordsLe : words ≤ more)
    (passes : DensityPasses threshold hits words pageWords) :
    DensityPasses threshold fewer more pageWords := by
  have paged' : (0 : ℚ) < pageWords := by exact_mod_cast paged
  have ratio : (0 : ℚ) ≤ words / pageWords := div_nonneg (by exact_mod_cast worded) paged'.le
  have ratios : (words : ℚ) / pageWords ≤ more / pageWords :=
    div_le_div_of_nonneg_right (by exact_mod_cast wordsLe) paged'.le
  have pages := nearest_mono ratio ratios
  rcases fewer.eq_zero_or_pos with rfl | some
  · exact densityPasses_of_none nonneg
  unfold DensityPasses at passes ⊢
  split at passes
  · omega
  next noPages =>
    have positive : 0 < nearest ((words : ℚ) / pageWords) :=
      lt_of_le_of_ne (nearest_nonneg _) (Ne.symm noPages)
    have less : roundedDensity fewer more pageWords ≤ roundedDensity hits words pageWords := by
      refine nearest_mono (div_nonneg (nearest_nonneg _) (nearest_nonneg _)) ?_
      exact div_le_div₀ (nearest_nonneg _)
        (nearest_mono (by positivity) (by exact_mod_cast hitsLe)) positive pages
    rw [if_neg (positive.trans_le pages).ne']
    exact ⟨less.trans_lt passes.1, less.trans passes.2⟩

end Density

/-! ## What a finding says -/

section Findings

variable {engine : RegexEngine} {arith : FloatArithmetic} {pack : RulePack engine}
  {chapters : List ScannedChapter} {report : DetectionReport} {rule : Rule engine}
  {finding : RuleFinding}

/-- The results of a mapping stand in the order of its items. -/
theorem forall₂_of_mapM {ε α β : Type} {step : α → Except ε β} {items : List α} {results : List β} :
    items.mapM step = .ok results ↔
      List.Forall₂ (fun item result => step item = .ok result) items results := by
  induction items generalizing results with
  | nil =>
      rw [List.forall₂_nil_left_iff]
      exact ⟨fun runs => by cases runs; rfl, fun empty => by rw [empty]; rfl⟩
  | cons first rest inductionHypothesis =>
      rw [List.mapM_cons, except_bind_eq_ok, List.forall₂_cons_left_iff]
      constructor
      · rintro ⟨head, stepped, runs⟩
        obtain ⟨tail, continued, returned⟩ := except_bind_eq_ok.mp runs
        cases returned
        exact ⟨head, tail, stepped, inductionHypothesis.mp continued, rfl⟩
      · rintro ⟨head, tail, stepped, continued, rfl⟩
        rw [inductionHypothesis.mpr continued]
        exact ⟨head, stepped, rfl⟩

/-- The finding of a rule over some chapters. -/
def ruleFindingOver (arith : FloatArithmetic) (chapters : List ScannedChapter) (rule : Rule engine) :
    Except Fault RuleFinding :=
  ruleFinding arith rule (scanPattern engine rule.compiled chapters).1
    (scanPattern engine rule.compiled chapters).2 (scannedWords chapters)

theorem scannedWords_nonneg (chapters : List ScannedChapter) : 0 ≤ scannedWords chapters :=
  List.sum_nonneg fun words member => by
    obtain ⟨chapter, -, rfl⟩ := List.mem_map.mp member
    exact Int.natCast_nonneg _

/-- A report holds one finding for each rule, in the order of the rules, and passes if they do. -/
theorem detect_eq_ok : detect arith pack chapters = .ok report ↔
    report.pack = pack.pack ∧ report.totalWords = scannedWords chapters ∧
      List.Forall₂ (fun rule finding => ruleFindingOver arith chapters rule = .ok finding)
        pack.rules.list report.findings ∧
      report.passed = report.findings.all RuleFinding.passed := by
  unfold detect
  rw [except_bind_eq_ok]
  constructor
  · rintro ⟨findings, found, returned⟩
    cases returned
    exact ⟨rfl, rfl, forall₂_of_mapM.mp found, rfl⟩
  · rintro ⟨named, total, found, passed⟩
    refine ⟨report.findings, forall₂_of_mapM.mpr found, ?_⟩
    obtain ⟨name, words, findings, passes⟩ := report
    dsimp only at named total passed ⊢
    subst named total passed
    rfl

/-- What a finding has of its rule and the scan. -/
theorem ruleFindingOver_eq_ok (found : ruleFindingOver arith chapters rule = .ok finding) :
    ∃ density, finding = { finding with
      ruleId := rule.id
      pattern := rule.pattern
      count := totalHits rule.compiled chapters
      threshold := rule.threshold
      basis := rule.basis
      pageWords := rule.pageWords
      lines := (scanPattern engine rule.compiled chapters).2
      density } ∧
    ruleMeasure arith rule (totalHits rule.compiled chapters) (scannedWords chapters) =
      .ok (density, finding.passed) := by
  unfold ruleFindingOver ruleFinding at found
  obtain ⟨⟨density, passed⟩, measured, returned⟩ := except_bind_eq_ok.mp found
  cases returned
  rw [scanPattern_totalHits] at measured ⊢
  exact ⟨density, rfl, measured⟩

/-- A density that was rounded is within a threshold as `DensityPasses` says. -/
theorem atMost_ofRounded {value : ℚ} {bound : Int} (nonneg : 0 ≤ value) :
    (Float64.ofRounded value (binary64 value)).atMost bound = true ↔
      nearest value < (2 ^ 1024 : Nat) ∧ nearest value ≤ bound := by
  rw [binary64_eq nonneg]
  split
  · next large =>
      refine iff_of_false ?_ fun fits => absurd large (not_le.mpr fits.1)
      show ¬ decide (value < 0) = true
      rw [decide_eq_true_iff]
      exact not_lt.mpr nonneg
  · next fits =>
      show decide (nearest value ≤ bound) = true ↔ _
      rw [decide_eq_true_iff]
      exact (and_iff_right (not_le.mp fits)).symm

/-- A number that rounds without overflow rounds to its double. -/
theorem eq_nearest {value rounded : ℚ} (nonneg : 0 ≤ value) (rounds : binary64 value = some rounded) :
    rounded = nearest value := by
  rw [binary64_eq nonneg] at rounds
  split at rounds
  · cases rounds
  · exact (Option.some.inj rounds).symm

/-- The measure of a rule that counts per page, in doubles. -/
theorem pageDensity_doubles {count : Nat} {words pageWords : Int} {density : Float64} {passed : Bool}
    (worded : 0 ≤ words) (paged : 0 < pageWords) (sized : rule.pageWords = some pageWords)
    (measured : pageDensity .doubles rule count words = .ok (density, passed)) :
    passed = true ↔ DensityPasses rule.threshold count words pageWords := by
  unfold pageDensity at measured
  rw [sized, Option.getD_some] at measured
  dsimp only at measured
  rw [if_neg paged.ne'] at measured
  obtain ⟨pages, divides⟩ : ∃ pages, FloatArithmetic.doubles.quotient words pageWords = some pages := by
    cases divides : FloatArithmetic.doubles.quotient words pageWords with
    | none =>
        rw [divides] at measured
        cases measured
    | some pages => exact ⟨pages, rfl⟩
  rw [divides] at measured
  dsimp only [bind, Except.bind] at measured
  have same : pages = nearest ((words : ℚ) / pageWords) := by
    have divides' : RatioArithmetic.doubles.quotient words pageWords = some pages := divides
    have rounded := quotient_doubles paged worded (by rw [divides']; exact Option.some_ne_none _)
    exact Option.some.inj (divides'.symm.trans rounded)
  unfold DensityPasses
  rw [← same]
  split at measured
  · next positive =>
      rw [if_neg positive.ne']
      split at measured
      · cases measured
      · next hits rounds =>
          have hits' : hits = nearest count := eq_nearest (by positivity) rounds
          cases measured
          unfold roundedDensity
          rw [← same, ← hits']
          refine atMost_ofRounded (div_nonneg ?_ positive.le)
          rw [hits']
          exact nearest_nonneg _
  · next noPages =>
      have zero : pages = 0 := le_antisymm (not_lt.mp noPages) (same ▸ nearest_nonneg _)
      rw [if_pos zero]
      cases measured
      rw [decide_eq_true_iff, Nat.le_zero]

/-- What doubles make of the matches of a rule. -/
theorem ruleMeasure_doubles {count : Nat} {words : Int} {density : Option Float64} {passed : Bool}
    (worded : 0 ≤ words) (measured : ruleMeasure .doubles rule count words = .ok (density, passed)) :
    (rule.basis = .manuscript → (passed = true ↔ (count : Int) ≤ rule.threshold)) ∧
      ∀ pageWords, rule.pageWords = some pageWords →
        0 < pageWords ∧ (passed = true ↔ DensityPasses rule.threshold count words pageWords) := by
  have fits := rule.pageWords_fit
  unfold ruleMeasure at measured
  cases basis : rule.basis with
  | manuscript =>
      rw [basis] at measured fits
      cases measured
      refine ⟨fun _ => decide_eq_true_iff, fun pageWords sized => ?_⟩
      have unsized : rule.pageWords = none := fits
      rw [unsized] at sized
      cases sized
  | perPage =>
      rw [basis] at measured fits
      refine ⟨fun manuscript => RuleBasis.noConfusion manuscript, fun pageWords sized => ?_⟩
      rw [sized] at fits
      dsimp only at measured
      cases found : pageDensity .doubles rule count words with
      | error fault =>
          rw [found] at measured
          cases measured
      | ok result =>
          rw [found] at measured
          cases measured
          exact ⟨fits, pageDensity_doubles worded fits sized found⟩

/-- A finding is what its rule says of the matches in some chapters. -/
structure Tallied (chapters : List ScannedChapter) (rule : Rule engine) (finding : RuleFinding) :
    Prop where
  named : finding.ruleId = rule.id ∧ finding.pattern = rule.pattern
  count : finding.count = totalHits rule.compiled chapters
  manuscript : rule.basis = .manuscript →
    (finding.passed = true ↔ (totalHits rule.compiled chapters : Int) ≤ rule.threshold)
  perPage : ∀ pageWords, rule.pageWords = some pageWords →
    scannedWords chapters ≤ 2 ^ 50 → rule.threshold * scannedWords chapters ≤ 2 ^ 50 →
    (totalHits rule.compiled chapters * pageWords < rule.threshold * scannedWords chapters →
      finding.passed = true) ∧
    (rule.threshold * scannedWords chapters < totalHits rule.compiled chapters * pageWords →
      finding.passed = false) ∧
    (pageWords ∣ scannedWords chapters →
      (finding.passed = true ↔
        totalHits rule.compiled chapters * pageWords ≤ rule.threshold * scannedWords chapters))

theorem tallied_of_found (found : ruleFindingOver .doubles chapters rule = .ok finding) :
    Tallied chapters rule finding := by
  obtain ⟨density, same, measured⟩ := ruleFindingOver_eq_ok found
  have worded := scannedWords_nonneg chapters
  obtain ⟨manuscript, perPage⟩ := ruleMeasure_doubles worded measured
  refine ⟨?_, ?_, manuscript, fun pageWords sized few bounded => ?_⟩
  · rw [same]
    exact ⟨rfl, rfl⟩
  · rw [same]
  · obtain ⟨paged, verdict⟩ := perPage pageWords sized
    have nonneg := rule.threshold_nonneg
    refine ⟨fun less => ?_, fun more => ?_, fun whole => ?_⟩
    · exact verdict.mpr (densityPasses_of_lt nonneg paged worded bounded less)
    · have fails := not_densityPasses_of_gt nonneg paged worded few bounded more
      rw [← verdict, Bool.not_eq_true] at fails
      exact fails
    · exact verdict.trans (densityPasses_iff_of_dvd nonneg paged worded few bounded whole)

/-- A finding of a rule that differs from another in the order of its lines, and in nothing else. -/
structure RuleReordered (finding other : RuleFinding) : Prop where
  lines : finding.lines.Perm other.lines
  rest : { finding with lines := other.lines } = other

variable {permuted edited cut : List ScannedChapter} {after : RuleFinding}

theorem scannedWords_perm (perm : chapters.Perm permuted) :
    scannedWords chapters = scannedWords permuted :=
  (perm.map _).sum_eq

/-- The order of the chapters shows in the order of the lines only. -/
theorem ruleReordered_of_perm (perm : chapters.Perm permuted)
    (found : ruleFindingOver arith chapters rule = .ok finding) :
    ∃ other, ruleFindingOver arith permuted rule = .ok other ∧ RuleReordered finding other := by
  have lines := scanPattern_perm rule.compiled perm
  have counts : (scanPattern engine rule.compiled chapters).1 =
      (scanPattern engine rule.compiled permuted).1 := lines.length_eq
  unfold ruleFindingOver ruleFinding at found ⊢
  rw [← scannedWords_perm perm, ← counts]
  obtain ⟨⟨density, passed⟩, measured, returned⟩ := except_bind_eq_ok.mp found
  rw [measured]
  cases returned
  exact ⟨_, rfl, lines, rfl⟩

/-- A rule that passes still passes with fewer matches among more words. -/
theorem passed_of_fewer (found : ruleFindingOver .doubles chapters rule = .ok finding)
    (found' : ruleFindingOver .doubles edited rule = .ok after)
    (more : scannedWords chapters ≤ scannedWords edited) (fewer : after.count ≤ finding.count)
    (passed : finding.passed = true) : after.passed = true := by
  obtain ⟨density, same, measured⟩ := ruleFindingOver_eq_ok found
  obtain ⟨density', same', measured'⟩ := ruleFindingOver_eq_ok found'
  have worded := scannedWords_nonneg chapters
  obtain ⟨manuscript, perPage⟩ := ruleMeasure_doubles worded measured
  obtain ⟨manuscript', perPage'⟩ := ruleMeasure_doubles (worded.trans more) measured'
  rw [same, same'] at fewer
  dsimp only at fewer
  cases basis : rule.basis with
  | manuscript =>
      have within := (manuscript basis).mp passed
      exact (manuscript' basis).mpr (by omega)
  | perPage =>
      have fits := rule.pageWords_fit
      rw [basis] at fits
      cases sized : rule.pageWords with
      | none =>
          rw [sized] at fits
          exact False.elim fits
      | some pageWords =>
          obtain ⟨paged, verdict⟩ := perPage pageWords sized
          exact (perPage' pageWords sized).2.mpr
            ((verdict.mp passed).mono rule.threshold_nonneg paged worded fewer more)

/-- A rule that counts over the manuscript still passes when lines are deleted. -/
theorem rule_passed_of_shortened (found : ruleFindingOver .doubles chapters rule = .ok finding)
    (found' : ruleFindingOver .doubles cut rule = .ok after) (shortened : Shortened cut chapters)
    (basis : finding.basis = .manuscript) (passed : finding.passed = true) : after.passed = true := by
  obtain ⟨density, same, -⟩ := ruleFindingOver_eq_ok found
  rw [same] at basis
  have within := ((tallied_of_found found).manuscript basis).mp passed
  have fewer := @Shortened.totalHits_le engine rule.compiled chapters cut shortened
  exact ((tallied_of_found found').manuscript basis).mpr (by omega)

/-- Findings of the same rules, related rule by rule. -/
theorem forall₂_findings {found other : Rule engine → RuleFinding → Prop}
    {related : RuleFinding → RuleFinding → Prop} {rules : List (Rule engine)}
    {findings others : List RuleFinding} (first : List.Forall₂ found rules findings)
    (second : List.Forall₂ other rules others)
    (relates : ∀ rule finding after, found rule finding → other rule after → related finding after) :
    List.Forall₂ related findings others := by
  induction first generalizing others with
  | nil =>
      cases second
      exact .nil
  | cons here later inductionHypothesis =>
      cases second with
      | cons here' later' => exact .cons (relates _ _ _ here here') (inductionHypothesis later')

/-- Findings of the same rules on other chapters, each related to the one before. -/
theorem exists_findings {found other : Rule engine → RuleFinding → Prop}
    {related : RuleFinding → RuleFinding → Prop} {rules : List (Rule engine)}
    {findings : List RuleFinding} (first : List.Forall₂ found rules findings)
    (next : ∀ rule finding, found rule finding → ∃ after, other rule after ∧ related finding after) :
    ∃ others, List.Forall₂ other rules others ∧ List.Forall₂ related findings others := by
  induction first with
  | nil => exact ⟨[], .nil, .nil⟩
  | cons here later inductionHypothesis =>
      obtain ⟨after, here', relates⟩ := next _ _ here
      obtain ⟨others, later', related'⟩ := inductionHypothesis
      exact ⟨after :: others, .cons here' later', .cons relates related'⟩

/-- Reordered findings pass together. -/
theorem all_passed_of_reordered {findings others : List RuleFinding}
    (reordered : List.Forall₂ RuleReordered findings others) :
    others.all RuleFinding.passed = findings.all RuleFinding.passed := by
  induction reordered with
  | nil => rfl
  | cons here later inductionHypothesis =>
      have same := congrArg RuleFinding.passed here.rest
      dsimp only at same
      rw [List.all_cons, List.all_cons, same, inductionHypothesis]

/-- The verdict of a rule pack in doubles: exact off the threshold and on whole pages, blind to the
order of the chapters, and kept by edits that leave fewer matches among more words. -/
theorem pack_verdict_exact (detected : detect .doubles pack chapters = .ok report) :
    List.Forall₂ (Tallied chapters) pack.rules.list report.findings ∧
    (report.passed = true ↔ ∀ finding ∈ report.findings, finding.passed = true) ∧
    (∀ permuted, chapters.Perm permuted → ∃ other, detect .doubles pack permuted = .ok other ∧
      List.Forall₂ RuleReordered report.findings other.findings ∧
      other.totalWords = report.totalWords ∧ other.passed = report.passed) ∧
    (∀ edited other, detect .doubles pack edited = .ok other →
      scannedWords chapters ≤ scannedWords edited →
      List.Forall₂ (fun before after : RuleFinding => after.count ≤ before.count →
        before.passed = true → after.passed = true) report.findings other.findings) ∧
    ∀ cut other, detect .doubles pack cut = .ok other → Shortened cut chapters →
      List.Forall₂ (fun before after : RuleFinding => before.basis = .manuscript →
        before.passed = true → after.passed = true) report.findings other.findings := by
  obtain ⟨named, total, found, passes⟩ := detect_eq_ok.mp detected
  refine ⟨found.imp fun _ _ => tallied_of_found, ?_, fun permuted perm => ?_,
    fun edited other detected' more => ?_, fun cut other detected' shortened => ?_⟩
  · rw [passes, List.all_eq_true]
  · obtain ⟨others, found', reordered⟩ := exists_findings found fun _ _ => ruleReordered_of_perm perm
    have same := all_passed_of_reordered reordered
    exact ⟨{ report with findings := others, passed := others.all RuleFinding.passed },
      detect_eq_ok.mpr ⟨named, total.trans (scannedWords_perm perm), found', rfl⟩, reordered, rfl,
      same.trans passes.symm⟩
  · obtain ⟨-, -, found', -⟩ := detect_eq_ok.mp detected'
    exact forall₂_findings found found' fun _ _ _ here here' => passed_of_fewer here here' more
  · obtain ⟨-, -, found', -⟩ := detect_eq_ok.mp detected'
    exact forall₂_findings found found' fun _ _ _ here here' =>
      rule_passed_of_shortened here here' shortened

end Findings

/-- At most one dash a page of two words. -/
def dashPack : RulePack literalEngine where
  schemaVersion := rulepackSchemaVersion
  pack := "dashes"
  rules := ⟨[{
    id := "dash"
    pattern := "-"
    compiled := "-"
    threshold := 1
    basis := .perPage
    pageWords := some 2
    compiles := rfl
    threshold_nonneg := by decide
    pageWords_fit := (by decide : (0 : Int) < 2) }], by simp, by simp⟩
  supported := rfl

/-- Two dashes among four words pass. -/
theorem pack_verdict_exact_dashes :
    ∃ report, detect .doubles dashPack [⟨1, "- a\n- b"⟩] = .ok report ∧ report.passed = true ∧
      List.Forall₂ (Tallied [⟨1, "- a\n- b"⟩]) dashPack.rules.list report.findings := by
  have passes : ((detect .doubles dashPack [⟨1, "- a\n- b"⟩]).map DetectionReport.passed).toOption =
      some true := by decide +kernel
  cases detected : detect .doubles dashPack [⟨1, "- a\n- b"⟩] with
  | error fault =>
      rw [detected] at passes
      cases passes
  | ok report =>
      rw [detected] at passes
      exact ⟨report, rfl, Option.some.inj passes, (pack_verdict_exact detected).1⟩

/-- At the threshold doubles may differ: one hit on one word of a 49 word page is a density of 49,
and the detector makes it more. -/
example : roundedDensity 1 1 49 = 49 + 1 / 2 ^ 47 := by decide +kernel

end NovelRalph
