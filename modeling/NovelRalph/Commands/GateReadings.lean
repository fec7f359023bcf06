import NovelRalph.Commands.Init
import NovelRalph.Commands.Recount
import NovelRalph.Commands.Wordcount
import Mathlib.Tactic.FieldSimp
import Mathlib.Tactic.Linarith
import Mathlib.Tactic.NormNum

/-!
# Three readings of the knitting gates

`wordcount` reports triggers and the distance to the next gate, the validator
compares the recorded flags with the drafted ratio, and `recount` prints advice.
In exact arithmetic the three agree, and the distance is the least number of
words that reaches the next gate.
-/

namespace NovelRalph

open InvariantName

/-! ## The geometry -/

section Geometry

variable {current target : Int}

/-- A positive target makes the quotient a plain fraction. -/
theorem quotient_exact (current : Int) (positive : 0 < target) :
    RatioArithmetic.exact.quotient current target = some ((current : ℚ) / target) := by
  have whole : ((target.toNat : Nat) : ℚ) = target := by
    have same := Int.toNat_of_nonneg positive.le
    exact_mod_cast congrArg (Int.cast : Int → ℚ) same
  show some (mkRat current target.toNat) = _
  rw [Rat.mkRat_eq_div, whole]

/-- The gates stand in the order of their thresholds. -/
theorem KnittingGate.all_ascending :
    KnittingGate.all.Pairwise fun lower upper => lower.literal < upper.literal := by
  decide +kernel

theorem KnittingGate.literal_injective : Function.Injective KnittingGate.literal := by
  intro left right same
  cases left <;> cases right
  all_goals first | rfl | (exfalso; revert same; decide +kernel)

/-- The first gate a ratio has not reached is the lowest of these. -/
theorem least_of_find {ratio : ℚ} {gate : KnittingGate}
    (found : (KnittingGate.all.find? fun gate => decide (ratio < gate.literal)) = some gate) :
    IsLeast {threshold | ∃ other : KnittingGate, ratio < other.literal ∧ other.literal = threshold}
      gate.literal := by
  obtain ⟨unreached, before, after, split, passed⟩ := List.find?_eq_some_iff_append.mp found
  refine ⟨⟨gate, of_decide_eq_true unreached, rfl⟩, ?_⟩
  rintro threshold ⟨other, beyond, rfl⟩
  have ascending := KnittingGate.all_ascending
  have listed := KnittingGate.mem_all other
  rw [split] at ascending listed
  rcases List.mem_append.mp listed with earlier | listed
  · have reached := passed other earlier
    simp [beyond] at reached
  · rcases List.mem_cons.mp listed with rfl | later
    · exact le_refl _
    · exact ((List.pairwise_cons.mp (List.pairwise_append.mp ascending).2.1).1 other later).le

/-- The words to the next threshold, rounded up, are the least that reach it. -/
theorem least_words (positive : 0 < target) (threshold : ℚ) :
    IsLeast {more : ℤ | threshold ≤ ((current + more : ℤ) : ℚ) / target}
      (threshold * target - current).ceil := by
  have reaches : ∀ more : ℤ, threshold ≤ ((current + more : ℤ) : ℚ) / target ↔
      (threshold * target - current).ceil ≤ more := by
    intro more
    have positive' : (0 : ℚ) < target := by exact_mod_cast positive
    rw [le_div_iff₀ positive', Rat.ceil_le_iff, Int.cast_add]
    constructor
    · intro enough
      linarith
    · intro enough
      linarith
  exact ⟨(reaches _).mpr le_rfl, fun more enough => (reaches more).mp enough⟩

/-- The gate triggers, the next gate and the distance to it, as they should be for a ratio. -/
structure Knits (current target : Int) (triggers : KnittingGate → Bool)
    (nextGate : Option KnittingGate) (distance : Option Int) : Prop where
  reached : ∀ gate, triggers gate = true ↔ gate.literal ≤ (current : ℚ) / target
  /-- A gate that triggers has every lower gate triggered. -/
  downward : ∀ lower upper : KnittingGate, lower.literal ≤ upper.literal →
    triggers upper = true → triggers lower = true
  next_least : ∀ gate, nextGate = some gate ↔
    IsLeast {threshold | ∃ other, triggers other = false ∧ other.literal = threshold} gate.literal
  next_none : nextGate = none ↔ KnittingGate.done80.literal ≤ (current : ℚ) / target
  distance_least : ∀ gate, nextGate = some gate → ∃ words, distance = some words ∧ 1 ≤ words ∧
    IsLeast {more : ℤ | gate.literal ≤ ((current + more : ℤ) : ℚ) / target} words
  distance_none : nextGate = none → distance = none

/-- The next gate and the distance to it, read off the triggers of a ratio. -/
theorem Knits.of_ratio (positive : 0 < target) {distance : Option Int}
    {nextGate : Option KnittingGate}
    (next : nextGate = KnittingGate.all.find? fun gate => decide ((current : ℚ) / target < gate.literal))
    (ahead : ∀ gate, nextGate = some gate →
      distance = some (max 0 (gate.literal * target - current).ceil))
    (past : nextGate = none → distance = none) :
    Knits current target (fun gate => decide (gate.literal ≤ (current : ℚ) / target)) nextGate
      distance := by
  have least : ∀ gate, nextGate = some gate → IsLeast {threshold | ∃ other : KnittingGate,
      (current : ℚ) / target < other.literal ∧ other.literal = threshold} gate.literal :=
    fun gate found => least_of_find (next.symm.trans found)
  have all_reached : nextGate = none →
      ∀ gate : KnittingGate, gate.literal ≤ (current : ℚ) / target := by
    intro none gate
    have passed := List.find?_eq_none.mp (next.symm.trans none) gate (KnittingGate.mem_all gate)
    exact not_lt.mp (fun beyond => passed (decide_eq_true beyond))
  have unreached : ∀ other : KnittingGate,
      decide (other.literal ≤ (current : ℚ) / target) = false ↔
        (current : ℚ) / target < other.literal := by
    intro other
    rw [decide_eq_false_iff_not, not_le]
  refine ⟨fun gate => decide_eq_true_iff, fun lower upper order reached => ?_, fun gate => ?_, ?_, ?_,
    past⟩
  · exact decide_eq_true (order.trans (of_decide_eq_true reached))
  · simp only [unreached]
    refine ⟨least gate, fun isLeast => ?_⟩
    cases found : nextGate with
    | none =>
        obtain ⟨other, beyond, -⟩ := isLeast.1
        exact absurd (all_reached found other) (not_le.mpr beyond)
    | some other =>
        rw [KnittingGate.literal_injective ((least other found).unique isLeast)]
  · refine ⟨fun none => all_reached none _, fun reached => ?_⟩
    cases found : nextGate with
    | none => rfl
    | some gate =>
        obtain ⟨other, beyond, -⟩ := (least gate found).1
        have below : other.literal ≤ KnittingGate.done80.literal := by
          cases other <;> decide +kernel
        exact absurd (below.trans reached) (not_le.mpr beyond)
  · intro gate found
    have words := @least_words current target positive gate.literal
    obtain ⟨other, beyond, same⟩ := (least gate found).1
    have positive' : (0 : ℚ) < target := by exact_mod_cast positive
    have short : (0 : ℚ) < gate.literal * target - current := by
      rw [same, div_lt_iff₀ positive'] at beyond
      linarith
    have further : 0 < (gate.literal * target - current).ceil :=
      Rat.lt_ceil_iff.mpr (by exact_mod_cast short)
    refine ⟨_, ahead gate found, ?_, ?_⟩
    · exact le_max_of_le_right further
    · rw [max_eq_right further.le]
      exact words

/-- In exact arithmetic the geometry of a positive target is as it should be. -/
theorem gateGeometry_knits (positive : 0 < target) (current : Int) :
    ∃ triggers nextGate distance,
      gateGeometry .exact current target = .ok (triggers, nextGate, distance) ∧
      Knits current target triggers nextGate distance := by
  have divided : FloatArithmetic.exact.quotient current target = some ((current : ℚ) / target) :=
    quotient_exact current positive
  have words : ∀ gate : KnittingGate, wordsToGo .exact gate.literal current target =
      some (gate.literal * target - current).ceil := fun _ => rfl
  have beyond (gate : KnittingGate) : FloatArithmetic.exact.threshold gate = gate.literal := rfl
  unfold gateGeometry
  rw [if_neg (not_le.mpr positive), divided]
  simp only [beyond]
  cases found : KnittingGate.all.find? fun gate => decide ((current : ℚ) / target < gate.literal) with
  | none =>
      refine ⟨_, _, _, rfl, Knits.of_ratio positive found.symm ?_ fun _ => rfl⟩
      intro gate none
      cases none
  | some next =>
      dsimp only
      rw [words next]
      refine ⟨_, _, _, rfl, Knits.of_ratio positive found.symm (fun gate same => ?_) ?_⟩
      · cases same
        rfl
      · intro none
        cases none

/-- Exact percentages are never refused. -/
theorem percent_exact (numerator denominator : Int) :
    ∃ share, percent .exact numerator denominator = .ok share := by
  unfold percent
  split
  · exact ⟨none, rfl⟩
  · exact ⟨_, rfl⟩

/-- Nor are the rows of the report. -/
theorem chapterReports_exact (manifest : List ChapterEntry) (byChapter : Dict String Int) :
    ∃ rows, chapterReports .exact manifest byChapter = .ok rows := by
  unfold chapterReports
  induction sortedChapters manifest with
  | nil => exact ⟨[], rfl⟩
  | cons entry rest inductionHypothesis =>
      obtain ⟨rows, later⟩ := inductionHypothesis
      obtain ⟨share, share'⟩ := percent_exact
        ((byChapter.get? (padTwo entry.number)).getD 0) entry.targetWords
      obtain ⟨row, first⟩ : ∃ row, chapterReport .exact byChapter entry = .ok row :=
        ⟨_, except_bind_eq_ok.mpr ⟨share, share', rfl⟩⟩
      rw [List.mapM_cons, first, later]
      exact ⟨_, rfl⟩

/-- The report carries the geometry of the drafted total. -/
theorem buildReport_exact {triggers : KnittingGate → Bool} {nextGate : Option KnittingGate}
    {distance : Option Int} {byChapter : Dict String Int}
    (geometry : gateGeometry .exact byChapter.values.sum target = .ok (triggers, nextGate, distance))
    (manifest : List ChapterEntry) :
    ∃ report, buildReport .exact target manifest byChapter = .ok report ∧
      report.cumulative.gateTriggered = triggers ∧ report.cumulative.nextGate = nextGate ∧
      report.cumulative.nextGateDistance = distance := by
  obtain ⟨share, share'⟩ := percent_exact byChapter.values.sum target
  obtain ⟨rows, rows'⟩ := chapterReports_exact manifest byChapter
  let cumulative : CumulativeReport := {
    current := byChapter.values.sum
    target
    percentOfTarget := share
    gateTriggered := triggers
    nextGate
    nextGateDistance := distance }
  refine ⟨⟨rows, cumulative⟩, except_bind_eq_ok.mpr ⟨_, geometry, ?_⟩, rfl, rfl, rfl⟩
  exact except_bind_eq_ok.mpr ⟨share, share', except_bind_eq_ok.mpr ⟨rows, rows', rfl⟩⟩

/-- A target that is not positive has no geometry. -/
theorem gateGeometry_targetless (targetless : target ≤ 0) (current : Int) :
    gateGeometry .exact current target = .ok (fun _ => false, none, none) :=
  if_pos targetless

end Geometry

/-! ## The verdict and the advice -/

section State

variable {arith : RatioArithmetic} {state : State}

/-- The verdict holds what the gate predicate answers, and nothing else under its name. -/
theorem mem_validateState_gate {gate : Option Violation}
    (answer : checkGateRatioConsistent arith state = .ok gate) :
    ∃ verdict, validateState arith state = .ok verdict ∧ ∀ violation : Violation,
      violation.invariant = gateRatioConsistent → (violation ∈ verdict ↔ gate = some violation) := by
  have verdict : validateState arith state = .ok ([checkPhaseInEnum state.phase,
      checkCompletedPrefix state.phase, checkByChapterSum state, checkConsecutiveCleanWithinTarget state,
      checkConvergenceTargetAtLeastOne state, checkConsecutiveCleanWithinDrafted state,
      checkCursorCoherent state, gate].filterMap id) := by
    simp [validateState, purePredicates, answer, bind, Except.bind, pure, Except.pure]
  refine ⟨_, verdict, fun violation name => ⟨fun reported => ?_, fun same => ?_⟩⟩
  · have fires := checkGate_of_reported verdict reported name
    rw [answer, Except.ok.injEq] at fires
    exact fires
  · subst same
    exact List.mem_filterMap.mpr ⟨_, by simp, rfl⟩

/-- The gates a flag and a trigger disagree on. -/
def differingGates (knitting : KnittingGates) (triggers : KnittingGate → Bool) : List KnittingGate :=
  KnittingGate.all.filter fun gate => knitting.flag gate != triggers gate

section Quotient

variable {ratio : ℚ} {triggers : KnittingGate → Bool}

/-- A quotient that does not overflow has a verdict, on the gates that differ from its triggers. -/
theorem verdict_of_quotient (positive : 0 < state.wordCounts.target)
    (divided : arith.quotient state.wordCounts.draftedTotal state.wordCounts.target = some ratio)
    (reached : ∀ gate, decide (arith.threshold gate ≤ ratio) = triggers gate) :
    ∃ verdict, validateState arith state = .ok verdict ∧
      ((∀ violation ∈ verdict, violation.invariant ≠ gateRatioConsistent) ↔
        ∀ gate, state.gates.knitting.flag gate = triggers gate) := by
  obtain ⟨gate, answer, named⟩ : ∃ gate, checkGateRatioConsistent arith state = .ok gate ∧
      ∀ violation, gate = some violation → violation.invariant = gateRatioConsistent := by
    unfold checkGateRatioConsistent
    rw [if_neg (not_le.mpr positive), divided]
    dsimp only
    split
    · exact ⟨none, rfl, fun _ none => by cases none⟩
    · exact ⟨_, rfl, fun violation same => by cases same; rfl⟩
  obtain ⟨verdict, validated, reports⟩ := mem_validateState_gate answer
  have silent : gate = none ↔ ∀ gate, state.gates.knitting.flag gate = triggers gate := by
    have passes : gate = none ↔ checkGateRatioConsistent arith state = .ok none := by
      rw [answer, Except.ok.injEq]
    rw [passes, checkGateRatioConsistent_eq_none, divided]
    simp [positive, reached]
  refine ⟨verdict, validated, ?_⟩
  rw [← silent]
  constructor
  · intro unreported
    cases gate with
    | none => rfl
    | some violation =>
        have name := named violation rfl
        exact absurd name (unreported violation ((reports violation name).mpr rfl))
  · rintro rfl violation reported name
    cases (reports violation name).mp reported

/-- The gates the remedy is about are those that differ from the triggers. -/
theorem remedyGates_of_quotient (positive : 0 < state.wordCounts.target)
    (divided : arith.quotient state.wordCounts.draftedTotal state.wordCounts.target = some ratio)
    (reached : ∀ gate, decide (arith.threshold gate ≤ ratio) = triggers gate) :
    remedyGates arith state = differingGates state.gates.knitting triggers := by
  unfold remedyGates disagreeingGates differingGates
  rw [divided, if_neg (not_le.mpr positive)]
  simp only [reached]

end Quotient

/-- The verdict on a state and the advice about it, against some triggers. -/
structure Reads (state : State) (triggers : KnittingGate → Bool) : Prop where
  verdict : ∃ verdict, validateState .exact state = .ok verdict ∧
    ((∀ violation ∈ verdict, violation.invariant ≠ gateRatioConsistent) ↔
      ∀ gate, state.gates.knitting.flag gate = triggers gate)
  /-- One line for every gate that differs, in order. -/
  advice : gateRatioRemedy .exact state = (differingGates state.gates.knitting triggers).map
    (remedyLine .exact ((state.wordCounts.draftedTotal : ℚ) / state.wordCounts.target))

/-- Against the triggers of the drafted ratio, the verdict and the advice are what they should be. -/
theorem reads_of_ratio (positive : 0 < state.wordCounts.target) {triggers : KnittingGate → Bool}
    (reached : ∀ gate, triggers gate = true ↔
      gate.literal ≤ (state.wordCounts.draftedTotal : ℚ) / state.wordCounts.target) :
    Reads state triggers := by
  have divided := quotient_exact state.wordCounts.draftedTotal positive
  have triggered : ∀ gate, decide (RatioArithmetic.exact.threshold gate ≤
      (state.wordCounts.draftedTotal : ℚ) / state.wordCounts.target) = triggers gate := by
    intro gate
    rw [Bool.eq_iff_iff, decide_eq_true_iff]
    exact (reached gate).symm
  refine ⟨verdict_of_quotient positive divided triggered, ?_⟩
  unfold gateRatioRemedy
  rw [divided]
  exact congrArg (List.map _) (remedyGates_of_quotient positive divided triggered)

/-- Without a target there is no violation and no advice. -/
theorem targetless_silent (targetless : state.wordCounts.target ≤ 0) :
    (∃ verdict, validateState .exact state = .ok verdict ∧
      ∀ violation ∈ verdict, violation.invariant ≠ gateRatioConsistent) ∧
    gateRatioRemedy .exact state = [] := by
  constructor
  · have answer : checkGateRatioConsistent .exact state = .ok none := if_pos targetless
    obtain ⟨verdict, validated, reports⟩ := mem_validateState_gate answer
    refine ⟨verdict, validated, fun violation reported name => ?_⟩
    cases (reports violation name).mp reported
  · unfold gateRatioRemedy remedyGates
    rw [if_pos targetless]
    rfl

end State

/-! ## Agreement -/

/-- The three readings agree on every count, and on every state whose table adds up. -/
theorem gate_readings_agree :
    (∀ current target : Int, 0 < target → 0 ≤ current → ∃ triggers nextGate distance,
      gateGeometry .exact current target = .ok (triggers, nextGate, distance) ∧
      Knits current target triggers nextGate distance) ∧
    (∀ state : State, state.wordCounts.draftedTotal = state.wordCounts.current →
      0 < state.wordCounts.target → ∃ report,
        buildReport .exact state.wordCounts.target state.chapters state.wordCounts.byChapter =
          .ok report ∧
        Knits state.wordCounts.current state.wordCounts.target report.cumulative.gateTriggered
          report.cumulative.nextGate report.cumulative.nextGateDistance ∧
        Reads state report.cumulative.gateTriggered) ∧
    (∀ current target : Int, target ≤ 0 →
      gateGeometry .exact current target = .ok (fun _ => false, none, none)) ∧
    (∀ state : State, state.wordCounts.target ≤ 0 →
      (∃ verdict, validateState .exact state = .ok verdict ∧
        ∀ violation ∈ verdict, violation.invariant ≠ gateRatioConsistent) ∧
      gateRatioRemedy .exact state = []) := by
  refine ⟨fun current target positive _ => gateGeometry_knits positive current, ?_,
    fun current target targetless => gateGeometry_targetless targetless current,
    fun state targetless => targetless_silent targetless⟩
  intro state summed positive
  obtain ⟨triggers, nextGate, distance, geometry, knits⟩ :=
    gateGeometry_knits positive state.wordCounts.current
  rw [← summed] at geometry
  obtain ⟨report, built, rfl, rfl, rfl⟩ := buildReport_exact geometry state.chapters
  refine ⟨report, built, knits, reads_of_ratio positive fun gate => ?_⟩
  rw [summed]
  exact knits.reached gate

/-- Three words of ten reach the first gate exactly, and the next is two words away. -/
theorem gate_readings_agree_three_of_ten :
    (∃ triggers nextGate distance, gateGeometry .exact 3 10 = .ok (triggers, nextGate, distance) ∧
      Knits 3 10 triggers nextGate distance ∧ nextGate = some .done50 ∧ distance = some 2) ∧
    ∃ report, buildReport .exact 10 [] (Dict.ofPairs [("01", 3)]) = .ok report ∧
      Reads { initialState "Title" "slug" 10 "2024-01-01T00:00:00Z" with
        wordCounts := { target := 10, current := 3, byChapter := Dict.ofPairs [("01", 3)] } }
        report.cumulative.gateTriggered := by
  constructor
  · obtain ⟨triggers, nextGate, distance, geometry, knits⟩ :=
      gate_readings_agree.1 3 10 (by decide) (by decide)
    have evaluated : (gateGeometry .exact 3 10).map (fun parts => (parts.2.1, parts.2.2)) =
        .ok (some .done50, some 2) := by decide +kernel
    rw [geometry] at evaluated
    obtain ⟨same, same'⟩ := Prod.mk.inj (Except.ok.inj evaluated)
    exact ⟨triggers, nextGate, distance, geometry, knits, same, same'⟩
  · obtain ⟨report, built, -, reads⟩ := gate_readings_agree.2.1
      { initialState "Title" "slug" 10 "2024-01-01T00:00:00Z" with
        wordCounts := { target := 10, current := 3, byChapter := Dict.ofPairs [("01", 3)] } }
      (by decide +kernel) (by decide)
    exact ⟨report, built, reads⟩

end NovelRalph
