import NovelRalph.Commands.Mutators

/-!
# The gate and drafting mutators

`set-gate`, `complete-final-pass`, `set-fangirl` and `set-critic-pass`: four
single-file mutators, each editing only the fields its arguments name.
-/

namespace NovelRalph

/-- `GateSelection`: the optional flags of `set-gate`. -/
structure GateSelection where
  knitting30 : Option Bool
  knitting50 : Option Bool
  knitting80 : Option Bool
  final : Option Bool
  deriving DecidableEq, Repr

namespace GateSelection

variable (selection : GateSelection)

/-- Whether at least one flag was supplied. -/
def anySet : Bool :=
  selection.knitting30.isSome || selection.knitting50.isSome || selection.knitting80.isSome ||
    selection.final.isSome

/-- The flag supplied for a knitting gate. -/
def knitting : KnittingGate → Option Bool
  | .done30 => selection.knitting30
  | .done50 => selection.knitting50
  | .done80 => selection.knitting80

/-- The knitting edits of `_apply_gate_edits`, in `_KNITTING_KEYS` order. -/
def knittingChanged : List (KnittingGate × Bool) :=
  KnittingGate.all.filterMap fun gate => (selection.knitting gate).map fun flag => (gate, flag)

/-- The edits of `_apply_gate_edits`. -/
def edits : List Edit :=
  (selection.knittingChanged.map fun change => setGate "knitting" change.1.name change.2) ++
    selection.final.toList.map fun flag => setGate "final" "final_pass_complete" flag

/-- The result of `_apply_gate_edits`. -/
def result : Table :=
  let knitting :=
    if selection.knittingChanged = [] then []
    else [("knitting", Value.table (selection.knittingChanged.map fun change =>
      (change.1.name, Value.bool change.2)))]
  let final := selection.final.toList.map fun flag =>
    ("final", Value.table [("final_pass_complete", .bool flag)])
  [("gates", .table (knitting ++ final))]

/-- The gates once the supplied flags are asserted. -/
def apply (gates : Gates) : Gates where
  knitting := {
    done30 := selection.knitting30.getD gates.knitting.done30
    done50 := selection.knitting50.getD gates.knitting.done50
    done80 := selection.knitting80.getD gates.knitting.done80 }
  final := { finalPassComplete := selection.final.getD gates.final.finalPassComplete }

end GateSelection

section Commands

variable {toml : Tomlkit} (arith : RatioArithmetic)

/-- The plan of `_set_gate`. -/
def gatesPlan {View : Type} (selection : GateSelection) : MutationPlan View where
  edits := selection.edits
  context := "set-gate"
  remedy := noRemedy
  outcome := {
    code := .success
    result := selection.result
    messages := ["gate flags asserted to their ratio-mandated value"] }

/-- `_set_gate`. -/
def assertGates (selection : GateSelection) : Command toml CommandOutcome :=
  mutateState arith fun _ _ => .ok (gatesPlan selection)

/-- The outcome of a `set-gate` without flags. -/
def noFlagOutcome : CommandOutcome where
  code := .usageError
  result := []
  messages := ["set-gate requires at least one flag"]

/-- `_set_gate_or_usage`; a call without flags is a usage error. -/
def setGateCommand (selection : GateSelection) : Command toml CommandOutcome :=
  if selection.anySet then assertGates arith selection else pure noFlagOutcome

/-- The plan of `_complete_final_pass`. -/
def finalPassPlan {View : Type} : MutationPlan View where
  edits := [setGate "final" "final_pass_complete" true]
  context := "complete-final-pass"
  remedy := noRemedy
  outcome := {
    code := .success
    result := [("gates", .table [("final", .table [("final_pass_complete", .bool true)])])]
    messages := ["final pass marked complete"] }

/-- `_complete_final_pass`. -/
def completeFinalPass : Command toml CommandOutcome :=
  mutateState arith fun _ _ => .ok finalPassPlan

/-- The plan of `_set_fangirl`. -/
def fangirlPlan {View : Type} (chapterCount : Nat) (lastChapter : Int) :
    Except Fault (MutationPlan View) := do
  spelled [lastChapter]
  if 0 ≤ lastChapter ∧ lastChapter ≤ chapterCount then
    return {
      edits := [setDraftingBelow "fangirl" "last_chapter_passed" lastChapter]
      context := "set-fangirl"
      remedy := noRemedy
      outcome := {
        code := .success
        result := [("drafting", .table [("fangirl", .table
          [("last_chapter_passed", .int lastChapter)])])]
        messages := ["fangirl last chapter passed set to " ++ intText lastChapter] } }
  else
    throw (.stateInputError
      ["set-fangirl refuses an out-of-manifest chapter: fangirl-chapter-in-manifest",
       "last_chapter=" ++ intText lastChapter ++ " is outside [0, " ++ intText chapterCount ++
         "] for the current manifest"])

/-- `_set_fangirl`. -/
def setFangirl (lastChapter : Int) : Command toml CommandOutcome :=
  mutateState arith fun _ prior => fangirlPlan prior.chapters.length lastChapter

/-- The plan of `_set_critic_pass`. -/
def criticPassPlan {View : Type} (passNumber : Int) : Except Fault (MutationPlan View) := do
  spelled [passNumber]
  if passNumber < 1 then
    throw (.stateInputError
      ["set-critic-pass refuses a pass below 1: critic-pass-at-least-one",
       "pass=" ++ intText passNumber ++ " is below the minimum of 1"])
  else
    return {
      edits := [setDraftingBelow "critic" "pass" passNumber]
      context := "set-critic-pass"
      remedy := noRemedy
      outcome := {
        code := .success
        result := [("drafting", .table [("critic", .table [("pass", .int passNumber)])])]
        messages := ["critic pass set to " ++ intText passNumber] } }

/-- `_set_critic_pass`. -/
def setCriticPass (passNumber : Int) : Command toml CommandOutcome :=
  mutateState arith fun _ _ => criticPassPlan passNumber

end Commands

/-- Asserting the selected flags is what the edits do to the typed view. -/
theorem GateSelection.parse_edits {raw : Table} {state : State} (selection : GateSelection)
    (parsed : parseState raw = .ok state) :
    parseState (selection.edits.foldl Table.edit raw) =
      .ok { state with gates := selection.apply state.gates } := by
  obtain ⟨first, second, third, last⟩ := selection
  have one : ∃ raw', (first.toList.map fun flag => setGate "knitting" "done_30" flag).foldl
      Table.edit raw = raw' ∧ parseState raw' = .ok { state with gates := { state.gates with
        knitting := { state.gates.knitting with
          done30 := first.getD state.gates.knitting.done30 } } } := by
    cases first with
    | none => exact ⟨_, rfl, parsed⟩
    | some flag => exact ⟨_, rfl, parse_setDone30 parsed flag⟩
  obtain ⟨raw₁, edited₁, parsed₁⟩ := one
  have two : ∃ raw', (second.toList.map fun flag => setGate "knitting" "done_50" flag).foldl
      Table.edit raw₁ = raw' ∧ parseState raw' = .ok { state with gates := { state.gates with
        knitting := { state.gates.knitting with
          done30 := first.getD state.gates.knitting.done30
          done50 := second.getD state.gates.knitting.done50 } } } := by
    cases second with
    | none => exact ⟨_, rfl, parsed₁⟩
    | some flag => exact ⟨_, rfl, parse_setDone50 parsed₁ flag⟩
  obtain ⟨raw₂, edited₂, parsed₂⟩ := two
  have three : ∃ raw', (third.toList.map fun flag => setGate "knitting" "done_80" flag).foldl
      Table.edit raw₂ = raw' ∧ parseState raw' = .ok { state with gates := { state.gates with
        knitting := {
          done30 := first.getD state.gates.knitting.done30
          done50 := second.getD state.gates.knitting.done50
          done80 := third.getD state.gates.knitting.done80 } } } := by
    cases third with
    | none => exact ⟨_, rfl, parsed₂⟩
    | some flag => exact ⟨_, rfl, parse_setDone80 parsed₂ flag⟩
  obtain ⟨raw₃, edited₃, parsed₃⟩ := three
  have edits : (GateSelection.mk first second third last).edits =
      (first.toList.map fun flag => setGate "knitting" "done_30" flag) ++
      (second.toList.map fun flag => setGate "knitting" "done_50" flag) ++
      (third.toList.map fun flag => setGate "knitting" "done_80" flag) ++
      last.toList.map fun flag => setGate "final" "final_pass_complete" flag := by
    cases first <;> cases second <;> cases third <;> rfl
  rw [edits, List.foldl_append, List.foldl_append, List.foldl_append, edited₁, edited₂, edited₃]
  cases last with
  | none => exact parsed₃
  | some flag => exact parse_setFinalPassComplete parsed₃ flag

end NovelRalph
