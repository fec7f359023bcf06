import NovelRalph.Base.Binary64
import NovelRalph.Base.Text
import NovelRalph.Contract.Outcome
import NovelRalph.State.Schema

/-!
# The pure-state validator

`validateState` decides whether a parsed state contradicts itself. Each predicate
returns at most one named violation, and the verdict lists them in a fixed order.
Only the gate predicate can raise there: it divides two integers of unbounded
size. `spelledVerdict` is what the commands call; it raises, too, where the detail
of a violation spells a number of too many digits.

`Coherent` states the eight rules as propositions; `validateState_eq_nil` says
that an empty verdict is exactly that.
-/

namespace NovelRalph

/-- The invariant names, those of the validator first, then those of the disk detector. -/
inductive InvariantName where
  | phaseInEnum
  | completedPrefix
  | byChapterSum
  | consecutiveCleanWithinTarget
  | convergenceTargetAtLeastOne
  | consecutiveCleanWithinDrafted
  | cursorCoherent
  | gateRatioConsistent
  | manifestDiskBijection
  | cursorPlanPresent
  | doneFlagWithoutDraft
  | compiledMatchesDrafts
  | pendingTurnCleared
  | wordCountsMatchDrafts
  | logPresent
  | wordCountsCoverDrafts
  deriving DecidableEq, Repr

namespace InvariantName

/-- The text an invariant is reported under. -/
def text : InvariantName → String
  | phaseInEnum => "phase-in-enum"
  | completedPrefix => "completed-prefix"
  | byChapterSum => "by-chapter-sum"
  | consecutiveCleanWithinTarget => "consecutive-clean-within-target"
  | convergenceTargetAtLeastOne => "convergence-target-at-least-one"
  | consecutiveCleanWithinDrafted => "consecutive-clean-within-drafted"
  | cursorCoherent => "cursor-coherent"
  | gateRatioConsistent => "gate-ratio-consistent"
  | manifestDiskBijection => "manifest-disk-bijection"
  | cursorPlanPresent => "cursor-plan-present"
  | doneFlagWithoutDraft => "done-flag-without-draft"
  | compiledMatchesDrafts => "compiled-matches-drafts"
  | pendingTurnCleared => "pending-turn-cleared"
  | wordCountsMatchDrafts => "word-counts-match-drafts"
  | logPresent => "log-present"
  | wordCountsCoverDrafts => "word-counts-cover-drafts"

end InvariantName

/-- One named breach with its prose. -/
structure Violation where
  invariant : InvariantName
  detail : String
  deriving DecidableEq, Repr

/-- The three knitting gates, in `GATE_THRESHOLDS` order. -/
inductive KnittingGate where
  | done30
  | done50
  | done80
  deriving DecidableEq, Repr

namespace KnittingGate

/-- The three gates in order. -/
def all : List KnittingGate := [done30, done50, done80]

/-- `_KNITTING_GATE_NAMES`. -/
def name : KnittingGate → String
  | done30 => "done_30"
  | done50 => "done_50"
  | done80 => "done_80"

/-- The decimal literal of a gate in `GATE_THRESHOLDS`. -/
def literal : KnittingGate → ℚ
  | done30 => mkRat 30 100
  | done50 => mkRat 50 100
  | done80 => mkRat 80 100

theorem mem_all (gate : KnittingGate) : gate ∈ all := by
  cases gate <;> decide

end KnittingGate

/-- The recorded flag of a gate. -/
def KnittingGates.flag (knitting : KnittingGates) : KnittingGate → Bool
  | .done30 => knitting.done30
  | .done50 => knitting.done50
  | .done80 => knitting.done80

/-- How the interpreter divides word counts and reads the gate thresholds. -/
structure RatioArithmetic where
  /-- True division of two integers; `none` is an `OverflowError`. -/
  quotient : Int → Int → Option ℚ
  /-- Multiplication by 100; `none` is an infinity. -/
  hundredfold : ℚ → Option ℚ
  threshold : KnittingGate → ℚ
  quotient_zero : ∀ target, 0 < target → quotient 0 target = some 0
  threshold_pos : ∀ gate, 0 < threshold gate

/-- Doubles: correctly rounded division and thresholds. -/
def RatioArithmetic.doubles : RatioArithmetic where
  quotient numerator denominator := binary64 (mkRat numerator denominator.toNat)
  hundredfold factor := binary64 (factor * 100)
  threshold gate := (binary64 gate.literal).getD 0
  quotient_zero target positive := by
    rw [Rat.zero_mkRat]
    exact binary64_zero
  threshold_pos gate := by
    cases gate <;> decide +kernel

/-- Exact rational arithmetic, with no rounding at all. -/
def RatioArithmetic.exact : RatioArithmetic where
  quotient numerator denominator := some (mkRat numerator denominator.toNat)
  hundredfold factor := some (factor * 100)
  threshold := KnittingGate.literal
  quotient_zero target positive := by rw [Rat.zero_mkRat]
  threshold_pos gate := by cases gate <;> decide +kernel

section Predicates

/-- `_kebab_tuple`. -/
def kebabTuple (members : List Phase) : String :=
  "(" ++ String.intercalate ", " (members.map Phase.value) ++ ")"

/-- `_check_phase_in_enum`. -/
def checkPhaseInEnum (phase : PhaseState) : Option Violation :=
  if phase.current ∈ Phase.order then none
  else some {
    invariant := .phaseInEnum
    detail := "phase.current " ++ phase.current.value ++ " is not a Phase member" }

/-- `_check_completed_prefix`. -/
def checkCompletedPrefix (phase : PhaseState) : Option Violation :=
  if phase.current ∉ Phase.order then none
  else
    let expected := Phase.order.take phase.current.index
    if phase.completed = expected then none
    else some {
      invariant := .completedPrefix
      detail := "phase.completed " ++ kebabTuple phase.completed ++
        " is not the in-order prefix " ++ kebabTuple expected ++ " for current " ++
        phase.current.value }

/-- `sum(by_chapter.values())`. -/
def WordCounts.draftedTotal (counts : WordCounts) : Int := counts.byChapter.values.sum

/-- `_check_by_chapter_sum`. -/
def checkByChapterSum (state : State) : Option Violation :=
  if state.wordCounts.draftedTotal = state.wordCounts.current then none
  else some {
    invariant := .byChapterSum
    detail := "sum(by_chapter) " ++ intText state.wordCounts.draftedTotal ++ " != current " ++
      intText state.wordCounts.current }

/-- `_check_consecutive_clean_within_target`. -/
def checkConsecutiveCleanWithinTarget (state : State) : Option Violation :=
  let clean := state.drafting.critic.consecutiveClean
  let target := state.drafting.critic.convergenceTarget
  if 0 ≤ clean ∧ clean ≤ target then none
  else some {
    invariant := .consecutiveCleanWithinTarget
    detail := "consecutive_clean " ++ intText clean ++ " is outside [0, convergence_target " ++
      intText target ++ "]" }

/-- `_check_convergence_target_at_least_one`. -/
def checkConvergenceTargetAtLeastOne (state : State) : Option Violation :=
  let target := state.drafting.critic.convergenceTarget
  if 1 ≤ target then none
  else some {
    invariant := .convergenceTargetAtLeastOne
    detail := "convergence_target " ++ intText target ++ " is below 1" }

/-- The number of chapters with a positive recorded count. -/
def WordCounts.draftedChapters (counts : WordCounts) : Nat :=
  counts.byChapter.values.countP fun words => 0 < words

/-- `_check_consecutive_clean_within_drafted`. -/
def checkConsecutiveCleanWithinDrafted (state : State) : Option Violation :=
  let clean := state.drafting.critic.consecutiveClean
  let drafted := state.wordCounts.draftedChapters
  if clean ≤ drafted then none
  else some {
    invariant := .consecutiveCleanWithinDrafted
    detail := "consecutive_clean " ++ intText clean ++ " exceeds the " ++ intText drafted ++
      " drafted chapters" }

/-- The cursor rule of `_check_cursor_coherent`, on the triple it is about. -/
def cursorCoherent (chapter scene beat : Int) (chapters : Nat) : Bool :=
  let bounded := 0 ≤ chapter && chapter ≤ chapters && 0 ≤ scene && 0 ≤ beat
  let sceneBeatPastChapter := chapter == 0 && (scene != 0 || beat != 0)
  bounded && !sceneBeatPastChapter

/-- `_check_cursor_coherent`. -/
def checkCursorCoherent (state : State) : Option Violation :=
  let drafting := state.drafting
  if cursorCoherent drafting.currentChapter drafting.currentScene drafting.currentBeat
      state.chapters.length then none
  else some {
    invariant := .cursorCoherent
    detail := "cursor (chapter=" ++ intText drafting.currentChapter ++ ", scene=" ++
      intText drafting.currentScene ++ ", beat=" ++ intText drafting.currentBeat ++
      ") is incoherent for " ++ intText state.chapters.length ++ " manifest chapters" }

variable (arith : RatioArithmetic)

/-- `_gate_ratio_disagreement`. -/
def gateRatioDisagreement (gate : KnittingGate) (flag : Bool) (ratio : ℚ) : String :=
  let direction := if arith.threshold gate ≤ ratio then "above" else "below"
  gate.name ++ "=" ++ (if flag then "True" else "False") ++ " but drafted ratio " ++
    fixedText 4 ratio ++ " is " ++ direction ++ " threshold " ++ fixedText 2 (arith.threshold gate)

/-- The gates whose flag is not what the ratio says. -/
def disagreeingGates (knitting : KnittingGates) (ratio : ℚ) : List KnittingGate :=
  KnittingGate.all.filter fun gate => knitting.flag gate != decide (arith.threshold gate ≤ ratio)

/-- `_check_gate_ratio_consistent`. -/
def checkGateRatioConsistent (state : State) : Except Fault (Option Violation) :=
  if state.wordCounts.target ≤ 0 then .ok none
  else
    match arith.quotient state.wordCounts.draftedTotal state.wordCounts.target with
    | none => .error .overflowError
    | some ratio =>
        let disagreements := disagreeingGates arith state.gates.knitting ratio
        if disagreements = [] then .ok none
        else .ok (some {
          invariant := .gateRatioConsistent
          detail := "knitting gates disagree with the drafted ratio: " ++
            String.intercalate "; " (disagreements.map fun gate =>
              gateRatioDisagreement arith gate (state.gates.knitting.flag gate) ratio) })

/-- `_PREDICATES`. -/
def purePredicates : List (State → Except Fault (Option Violation)) :=
  [fun state => .ok (checkPhaseInEnum state.phase),
   fun state => .ok (checkCompletedPrefix state.phase),
   fun state => .ok (checkByChapterSum state),
   fun state => .ok (checkConsecutiveCleanWithinTarget state),
   fun state => .ok (checkConvergenceTargetAtLeastOne state),
   fun state => .ok (checkConsecutiveCleanWithinDrafted state),
   fun state => .ok (checkCursorCoherent state),
   checkGateRatioConsistent arith]

/-- The verdict of `validate_state`, were every number of its details spelled. -/
def validateState (state : State) : Except Fault (List Violation) := do
  let found ← (purePredicates arith).mapM fun predicate => predicate state
  return found.filterMap id

/-- The numbers that the details of the breaches spell. -/
def breachNumbers (state : State) : List Int :=
  let critic := state.drafting.critic
  (if (checkByChapterSum state).isSome then
    [state.wordCounts.draftedTotal, state.wordCounts.current] else []) ++
  (if (checkConsecutiveCleanWithinTarget state).isSome then
    [critic.consecutiveClean, critic.convergenceTarget] else []) ++
  (if (checkConvergenceTargetAtLeastOne state).isSome then [critic.convergenceTarget] else []) ++
  (if (checkConsecutiveCleanWithinDrafted state).isSome then [critic.consecutiveClean] else []) ++
  (if (checkCursorCoherent state).isSome then
    [state.drafting.currentChapter, state.drafting.currentScene, state.drafting.currentBeat]
    else [])

/-- `validate_state`. The gates come last, and their detail spells no integer. -/
def spelledVerdict (state : State) : Except Fault (List Violation) := do
  spelled (breachNumbers state)
  validateState arith state

end Predicates

/-- The rules of the validator as propositions. -/
structure Coherent (arith : RatioArithmetic) (state : State) : Prop where
  completed : state.phase.completed = Phase.order.take state.phase.current.index
  sum : state.wordCounts.draftedTotal = state.wordCounts.current
  clean_nonneg : 0 ≤ state.drafting.critic.consecutiveClean
  clean_le_target : state.drafting.critic.consecutiveClean ≤ state.drafting.critic.convergenceTarget
  target_pos : 1 ≤ state.drafting.critic.convergenceTarget
  clean_le_drafted : state.drafting.critic.consecutiveClean ≤ state.wordCounts.draftedChapters
  cursor : cursorCoherent state.drafting.currentChapter state.drafting.currentScene
    state.drafting.currentBeat state.chapters.length = true
  gates : 0 < state.wordCounts.target →
    ∃ ratio, arith.quotient state.wordCounts.draftedTotal state.wordCounts.target = some ratio ∧
      ∀ gate, state.gates.knitting.flag gate = decide (arith.threshold gate ≤ ratio)

section Verdict

variable {arith : RatioArithmetic} {state : State}

@[simp]
theorem checkPhaseInEnum_eq_none (phase : PhaseState) : checkPhaseInEnum phase = none := by
  simp [checkPhaseInEnum, Phase.mem_order]

/-- No gate disagrees exactly when every flag is what the ratio says. -/
theorem disagreeingGates_eq_nil {knitting : KnittingGates} {ratio : ℚ} :
    disagreeingGates arith knitting ratio = [] ↔
      ∀ gate, knitting.flag gate = decide (arith.threshold gate ≤ ratio) := by
  unfold disagreeingGates
  rw [List.filter_eq_nil_iff]
  constructor
  · intro none gate
    simpa using none gate (KnittingGate.mem_all gate)
  · intro agrees gate _
    simp [agrees gate]

/-- The gate predicate passes exactly when the flags are what the ratio says. -/
theorem checkGateRatioConsistent_eq_none :
    checkGateRatioConsistent arith state = .ok none ↔
      (0 < state.wordCounts.target →
        ∃ ratio, arith.quotient state.wordCounts.draftedTotal state.wordCounts.target = some ratio ∧
          ∀ gate, state.gates.knitting.flag gate = decide (arith.threshold gate ≤ ratio)) := by
  unfold checkGateRatioConsistent
  by_cases positive : state.wordCounts.target ≤ 0
  · simp [positive, Int.not_lt.mpr positive]
  · rw [if_neg positive]
    cases divided : arith.quotient state.wordCounts.draftedTotal state.wordCounts.target with
    | none => simp [Int.not_le.mp positive]
    | some ratio =>
        by_cases agree : disagreeingGates arith state.gates.knitting ratio = []
        · simpa [agree] using fun _ => disagreeingGates_eq_nil.mp agree
        · simpa [agree, Int.not_le.mp positive] using mt disagreeingGates_eq_nil.mpr agree

/-- An empty verdict is coherence. -/
theorem validateState_eq_nil : validateState arith state = .ok [] ↔ Coherent arith state := by
  have verdict : validateState arith state = .ok [] ↔
      checkCompletedPrefix state.phase = none ∧ checkByChapterSum state = none ∧
      checkConsecutiveCleanWithinTarget state = none ∧
      checkConvergenceTargetAtLeastOne state = none ∧
      checkConsecutiveCleanWithinDrafted state = none ∧ checkCursorCoherent state = none ∧
      checkGateRatioConsistent arith state = .ok none := by
    unfold validateState purePredicates
    cases gates : checkGateRatioConsistent arith state with
    | error fault => simp [gates, bind, Except.bind]
    | ok gate => simp [gates, bind, Except.bind, pure, Except.pure]
  rw [verdict, checkGateRatioConsistent_eq_none]
  simp only [checkCompletedPrefix, Phase.mem_order, not_true_eq_false, if_false, checkByChapterSum,
    checkConsecutiveCleanWithinTarget, checkConvergenceTargetAtLeastOne,
    checkConsecutiveCleanWithinDrafted, checkCursorCoherent, ite_eq_left_iff, reduceCtorEq,
    imp_false, not_not]
  constructor
  · rintro ⟨completed, sum, ⟨nonneg, within⟩, atLeast, drafted, cursor, gates⟩
    exact ⟨completed, sum, nonneg, within, atLeast, drafted, cursor, gates⟩
  · intro coherent
    exact ⟨coherent.completed, coherent.sum, ⟨coherent.clean_nonneg, coherent.clean_le_target⟩,
      coherent.target_pos, coherent.clean_le_drafted, coherent.cursor, coherent.gates⟩

/-- A coherent state has no breach to spell. -/
theorem Coherent.breachNumbers (coherent : Coherent arith state) : breachNumbers state = [] := by
  obtain ⟨completed, sum, nonneg, within, atLeast, drafted, cursor, gates⟩ := coherent
  simp [NovelRalph.breachNumbers, checkByChapterSum, checkConsecutiveCleanWithinTarget,
    checkConvergenceTargetAtLeastOne, checkConsecutiveCleanWithinDrafted, checkCursorCoherent, sum,
    nonneg, within, atLeast, drafted, cursor]

/-- With or without the limit, an empty verdict is coherence. -/
theorem spelledVerdict_eq_nil : spelledVerdict arith state = .ok [] ↔ Coherent arith state := by
  rw [← validateState_eq_nil]
  constructor
  · intro validated
    obtain ⟨_, -, verdict⟩ := except_bind_eq_ok.mp validated
    exact verdict
  · intro verdict
    unfold spelledVerdict
    rw [(validateState_eq_nil.mp verdict).breachNumbers]
    exact verdict

/-- The validator raises only when a ratio overflows. -/
theorem overflow_of_validateState_error {fault : Fault}
    (raises : validateState arith state = .error fault) : fault = .overflowError := by
  cases gates : checkGateRatioConsistent arith state with
  | ok gate =>
      simp [validateState, purePredicates, gates, bind, Except.bind, pure, Except.pure] at raises
  | error other =>
      have same : other = fault := by
        simpa [validateState, purePredicates, gates, bind, Except.bind, pure, Except.pure] using raises
      subst same
      unfold checkGateRatioConsistent at gates
      split at gates
      · cases gates
      · split at gates
        · cases gates
          rfl
        · dsimp only at gates
          split at gates <;> cases gates

/-- Only the gate predicate reports under the name of the gate rule. -/
theorem checkGate_of_reported {verdict : List Violation}
    (validated : validateState arith state = .ok verdict) {violation : Violation}
    (reported : violation ∈ verdict) (name : violation.invariant = .gateRatioConsistent) :
    checkGateRatioConsistent arith state = .ok (some violation) := by
  obtain ⟨found, ran, returned⟩ := except_bind_eq_ok.mp validated
  cases returned
  obtain ⟨option, listed, rfl⟩ := List.mem_filterMap.mp reported
  cases gates : checkGateRatioConsistent arith state with
  | error fault => simp [purePredicates, gates, bind, Except.bind] at ran
  | ok gate =>
      have others : found = [checkPhaseInEnum state.phase, checkCompletedPrefix state.phase,
          checkByChapterSum state, checkConsecutiveCleanWithinTarget state,
          checkConvergenceTargetAtLeastOne state, checkConsecutiveCleanWithinDrafted state,
          checkCursorCoherent state] ++ [gate] := by
        simpa [purePredicates, gates, bind, Except.bind, pure, Except.pure, eq_comm] using ran
      rw [others, List.mem_append] at listed
      rcases listed with other | own
      · exfalso
        simp only [List.mem_cons, List.not_mem_nil, or_false] at other
        rcases other with same | same | same | same | same | same | same <;>
          simp only [checkPhaseInEnum, checkCompletedPrefix, checkByChapterSum,
            checkConsecutiveCleanWithinTarget, checkConvergenceTargetAtLeastOne,
            checkConsecutiveCleanWithinDrafted, checkCursorCoherent] at same <;>
          grind
      · rw [← List.mem_singleton.mp own]

/-- The gate predicate fires on a positive target whose ratio some flag disagrees with. -/
theorem disagreement_of_checkGate {violation : Violation}
    (fires : checkGateRatioConsistent arith state = .ok (some violation)) :
    0 < state.wordCounts.target ∧ ∃ ratio,
      arith.quotient state.wordCounts.draftedTotal state.wordCounts.target = some ratio ∧
      disagreeingGates arith state.gates.knitting ratio ≠ [] := by
  unfold checkGateRatioConsistent at fires
  by_cases positive : state.wordCounts.target ≤ 0
  · simp [positive] at fires
  · rw [if_neg positive] at fires
    refine ⟨by omega, ?_⟩
    cases divided : arith.quotient state.wordCounts.draftedTotal state.wordCounts.target with
    | none => simp [divided] at fires
    | some ratio =>
        refine ⟨ratio, rfl, fun agree => ?_⟩
        simp [divided, agree] at fires

end Verdict

end NovelRalph
