import NovelRalph.Commands.Mutators

/-!
# `recount`

Re-derive `[word_counts]` from the chapter drafts. A recount that would breach a
rule of the validator is refused, and when knitting gates are the breach the
refusal prints one line of advice for each of them.
-/

namespace NovelRalph

section Remedy

variable (arith : RatioArithmetic)

/-- The `set-gate` flag that repairs a gate, from `_KNITTING_GATE_REPAIRS`. -/
def KnittingGate.repairFlag : KnittingGate → String
  | .done30 => "--knitting-30"
  | .done50 => "--knitting-50"
  | .done80 => "--knitting-80"

/-- `f"{ratio * 100:.1f}"`. -/
def percentText (ratio : ℚ) : String :=
  match arith.hundredfold ratio with
  | some percent => fixedText 1 percent
  | none => if ratio < 0 then "-inf" else "inf"

/-- `int(threshold * 100)`. -/
def gatePercent (gate : KnittingGate) : Int :=
  ((arith.hundredfold (arith.threshold gate)).getD 0).floor

/-- The advice on a gate that was crossed, or left, at some percentage of the target. -/
def gateAdvice (crossed : Bool) (gatePercent : Int) (percent : String) (gate : KnittingGate) :
    String :=
  if crossed then
    "recount crossed the " ++ intText gatePercent ++
      "% knitting threshold (drafts now at " ++ percent ++
      "% of target) but gate " ++ gate.name ++ " is still false: integrate the pending knitting " ++
      "pass and log it, then run `novel-state set-gate " ++ gate.repairFlag ++
      "`. Do not hand-edit [gates]."
  else
    "recount left drafting below the " ++ intText gatePercent ++
      "% knitting threshold (drafts now at " ++ percent ++
      "% of target) but gate " ++ gate.name ++ " is recorded true: the recorded gate no longer " ++
      "matches the drafts. Adjudicate — restore the drafts or clear the gate — and re-derive. " ++
      "Do not hand-edit [gates] to silence this."

/-- One line of `_gate_ratio_remedy`. -/
def remedyLine (ratio : ℚ) (gate : KnittingGate) : String :=
  gateAdvice (decide (arith.threshold gate ≤ ratio)) (gatePercent arith gate)
    (percentText arith ratio) gate

/-- The gates `_gate_ratio_remedy` has a line for. -/
def remedyGates (state : State) : List KnittingGate :=
  if state.wordCounts.target ≤ 0 then []
  else
    match arith.quotient state.wordCounts.draftedTotal state.wordCounts.target with
    | none => []
    | some ratio => disagreeingGates arith state.gates.knitting ratio

/-- `_gate_ratio_remedy`; the validator has already divided, so no division overflows here. -/
def gateRatioRemedy (state : State) : List String :=
  match arith.quotient state.wordCounts.draftedTotal state.wordCounts.target with
  | none => []
  | some ratio => (remedyGates arith state).map (remedyLine arith ratio)

end Remedy

section Command

variable {toml : Tomlkit} (arith : RatioArithmetic)

/-- The plan of `recount`, for the counts of the drafts. -/
def recountPlan {View : Type} (remedy : View → List String) (current : Int)
    (byChapter : Dict String Int) : MutationPlan View where
  edits := [setCurrent current, setByChapter byChapter]
  context := "recount"
  remedy
  outcome := {
    code := .success
    result := [("current", .int current), ("by_chapter", buildInlineTable byChapter)]
    messages := ["recounted " ++ intText current ++ " words across " ++
      intText byChapter.entries.length ++ " chapters"] }

theorem recountPlan_edits {View : Type} (remedy : View → List String) (current : Int)
    (byChapter : Dict String Int) :
    (recountPlan remedy current byChapter).edits = [setCurrent current, setByChapter byChapter] := rfl

/-- `recount`, with `_recount_or_state_error`. -/
def recount : Command toml CommandOutcome :=
  mutateState arith fun world prior => do
    let (current, byChapter) ←
      guardStateInput draftReadError (world.disk.recountWords prior.chapters)
    return recountPlan (gateRatioRemedy arith) current byChapter

end Command

/-- The state a recount proposes. -/
def State.recounted (state : State) (byChapter : Dict String Int) : State :=
  { state with
    wordCounts := { state.wordCounts with current := byChapter.values.sum, byChapter } }

/-- The recount's two edits in the typed view. -/
theorem parse_recounted {raw : Table} {state : State} (parsed : parseState raw = .ok state)
    (byChapter : Dict String Int) :
    parseState ([setCurrent byChapter.values.sum, setByChapter byChapter].foldl Table.edit raw) =
      .ok (state.recounted byChapter) :=
  parse_setByChapter (parse_setCurrent parsed _) byChapter

end NovelRalph
