import NovelRalph.Commands.Check
import NovelRalph.Untyped.Reconcile
import NovelRalph.Untyped.Validate

/-!
# `check` on any document

`novel-state check` on whatever `state.toml` decodes to.
-/

namespace NovelRalph.Untyped

section Command

variable {toml : Tomlkit} (interp : Interpreter)

/-- `load_or_state_error`. -/
def loadOrStateError : Command toml State :=
  .observe fun world => guardStateInput (stateInputErrorAt world) do
    let document ← openDocument world
    parseState interp document.body

/-- What `check` computes before it builds its outcome. -/
structure CheckReport where
  verdict : List Violation
  reconciliation : Option (Reconciliation Value)

/-- The verdict of `_check` and the reconciliation it attaches. -/
def checkReport : Command toml CheckReport := do
  let state ← loadOrStateError interp
  let pureState ← Prog.observe fun _ => validateState interp state
  let diskEvidence ← Prog.observe fun world =>
    guardStateInput draftReadError (checkDiskEvidence interp state world.disk true)
  let verdict := pureState ++ diskEvidence
  if diskEvidence = [] then return { verdict, reconciliation := none }
  else do
    let reconciliation ← Prog.observe fun world => deriveReconciliation interp state world.disk
    return { verdict, reconciliation := some reconciliation }

/-- `_check`. -/
def check : Command toml CommandOutcome := do
  let report ← checkReport interp
  let attached := report.reconciliation.toList.map fun reconciliation =>
    ("reconciliation", Value.table (reconciliationPayload reconciliation))
  return {
    code := if report.verdict = [] then .success else .actionableFinding
    result := ("violations", .array (report.verdict.map fun violation =>
      .str violation.invariant.text)) :: attached
    messages := if report.verdict = [] then ["state is coherent"]
      else report.verdict.map Violation.detail }

end Command

end NovelRalph.Untyped
