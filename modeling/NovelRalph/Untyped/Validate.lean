import NovelRalph.State.Validate
import NovelRalph.Untyped.Parse

/-!
# The validator on any state

The eight predicates of `validate_state`, on a state whose cast fields hold
decoded values of any type. A comparison of a value that is no number raises, and
so does a breach whose detail spells an integer that is too long.
-/

namespace NovelRalph.Untyped

/-- `by_chapter.values()`. -/
def WordCounts.counts (wordCounts : WordCounts) : List Value := wordCounts.byChapter.map Prod.snd

/-- The recorded flag of a gate. -/
def KnittingGates.flag (knitting : KnittingGates) : KnittingGate → Value
  | .done30 => knitting.done30
  | .done50 => knitting.done50
  | .done80 => knitting.done80

/-- The literal of a gate in `GATE_THRESHOLDS`. -/
def thresholdLiteral : KnittingGate → String
  | .done30 => "0.30"
  | .done50 => "0.50"
  | .done80 => "0.80"

section Predicates

variable (interp : Interpreter) (state : State)

/-- `_check_by_chapter_sum`. -/
def checkByChapterSum : Except Fault (Option Violation) := do
  let current := state.wordCounts.current
  let draftedTotal ← interp.sum state.wordCounts.counts
  if interp.equalsNumber draftedTotal current then return none
  else do
    let total ← interp.strNumber draftedTotal
    let recorded ← interp.str current
    return some {
      invariant := .byChapterSum
      detail := "sum(by_chapter) " ++ total ++ " != current " ++ recorded }

/-- `0 <= clean <= target`. -/
def withinRange (clean target : Value) : Except Fault Bool := do
  if ← interp.lessEqual (.int 0) clean then interp.lessEqual clean target else return false

/-- `_check_consecutive_clean_within_target`. -/
def checkConsecutiveCleanWithinTarget : Except Fault (Option Violation) := do
  let clean := state.drafting.critic.consecutiveClean
  let target := state.drafting.critic.convergenceTarget
  if ← withinRange interp clean target then return none
  else do
    let cleanText ← interp.str clean
    let targetText ← interp.str target
    return some {
      invariant := .consecutiveCleanWithinTarget
      detail := "consecutive_clean " ++ cleanText ++ " is outside [0, convergence_target " ++
        targetText ++ "]" }

/-- `_check_convergence_target_at_least_one`. -/
def checkConvergenceTargetAtLeastOne : Except Fault (Option Violation) := do
  let target := state.drafting.critic.convergenceTarget
  if ← interp.lessEqual (.int 1) target then return none
  else do
    let targetText ← interp.str target
    return some {
      invariant := .convergenceTargetAtLeastOne
      detail := "convergence_target " ++ targetText ++ " is below 1" }

/-- `sum(1 for words in by_chapter.values() if words > 0)`. -/
def draftedChapters (counts : List Value) : Except Fault Nat := do
  let positive ← counts.mapM fun words => interp.less (.int 0) words
  return positive.count true

/-- `_check_consecutive_clean_within_drafted`. -/
def checkConsecutiveCleanWithinDrafted : Except Fault (Option Violation) := do
  let clean := state.drafting.critic.consecutiveClean
  let drafted ← draftedChapters interp state.wordCounts.counts
  if ← interp.lessEqual clean (.int drafted) then return none
  else do
    let cleanText ← interp.str clean
    return some {
      invariant := .consecutiveCleanWithinDrafted
      detail := "consecutive_clean " ++ cleanText ++ " exceeds the " ++ intText drafted ++
        " drafted chapters" }

/-- The bounds of the cursor, each looked at when those before it hold. -/
def cursorBounded (chapter scene beat : Value) (chapters : Nat) : Except Fault Bool := do
  if ← withinRange interp chapter (.int chapters) then
    if ← interp.lessEqual (.int 0) scene then interp.lessEqual (.int 0) beat else return false
  else return false

/-- The cursor names a scene or a beat of no chapter. -/
def sceneBeatPastChapter (chapter scene beat : Value) : Bool :=
  interp.equals chapter (.int 0) &&
    (!interp.equals scene (.int 0) || !interp.equals beat (.int 0))

/-- `_check_cursor_coherent`. -/
def checkCursorCoherent : Except Fault (Option Violation) := do
  let drafting := state.drafting
  let chapters := state.chapters.length
  let bounded ← cursorBounded interp drafting.currentChapter drafting.currentScene
    drafting.currentBeat chapters
  if bounded && !sceneBeatPastChapter interp drafting.currentChapter drafting.currentScene
      drafting.currentBeat then return none
  else do
    let chapter ← interp.str drafting.currentChapter
    let scene ← interp.str drafting.currentScene
    let beat ← interp.str drafting.currentBeat
    return some {
      invariant := .cursorCoherent
      detail := "cursor (chapter=" ++ chapter ++ ", scene=" ++ scene ++ ", beat=" ++ beat ++
        ") is incoherent for " ++ intText chapters ++ " manifest chapters" }

/-- `ratio >= threshold`. -/
def reached (ratio : interp.Double) (gate : KnittingGate) : Bool :=
  interp.atMost (.float (interp.double (thresholdLiteral gate))) (.float ratio)

/-- The gates whose flag is not what the ratio says. -/
def disagreeingGates (knitting : KnittingGates) (ratio : interp.Double) : List KnittingGate :=
  KnittingGate.all.filter fun gate =>
    !interp.equals (knitting.flag gate) (.bool (reached interp ratio gate))

/-- `_gate_ratio_disagreement`. -/
def gateRatioDisagreement (gate : KnittingGate) (flag : Value) (ratio : interp.Double) :
    Except Fault String := do
  let direction := if reached interp ratio gate then "above" else "below"
  let recorded ← interp.str flag
  return gate.name ++ "=" ++ recorded ++ " but drafted ratio " ++ interp.fixed 4 ratio ++ " is " ++
    direction ++ " threshold " ++ interp.fixed 2 (interp.double (thresholdLiteral gate))

/-- `_check_gate_ratio_consistent`. -/
def checkGateRatioConsistent : Except Fault (Option Violation) := do
  let target := state.wordCounts.target
  if ← interp.lessEqual target (.int 0) then return none
  else do
    let draftedTotal ← interp.sum state.wordCounts.counts
    match interp.number? target with
    | none => .error .typeError
    | some divisor =>
        match interp.quotient draftedTotal divisor with
        | none => .error .overflowError
        | some ratio =>
            let disagreeing := disagreeingGates interp state.gates.knitting ratio
            let disagreements ← disagreeing.mapM fun gate =>
              gateRatioDisagreement interp gate (state.gates.knitting.flag gate) ratio
            if disagreements = [] then return none
            else return some {
              invariant := .gateRatioConsistent
              detail := "knitting gates disagree with the drafted ratio: " ++
                String.intercalate "; " disagreements }

/-- `_PREDICATES`. -/
def purePredicates : List (State → Except Fault (Option Violation)) :=
  [fun state => .ok (checkPhaseInEnum state.phase),
   fun state => .ok (checkCompletedPrefix state.phase),
   checkByChapterSum interp,
   checkConsecutiveCleanWithinTarget interp,
   checkConvergenceTargetAtLeastOne interp,
   checkConsecutiveCleanWithinDrafted interp,
   checkCursorCoherent interp,
   checkGateRatioConsistent interp]

/-- `validate_state`. -/
def validateState : Except Fault (List Violation) := do
  let found ← (purePredicates interp).mapM fun predicate => predicate state
  return found.filterMap id

end Predicates

end NovelRalph.Untyped
