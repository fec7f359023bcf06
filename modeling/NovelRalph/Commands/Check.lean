import NovelRalph.Commands.Mutators
import NovelRalph.State.Reconcile

/-!
# `check`

The read-only verdict: the validator and the relaxed disk detector, and beside
them the reconciliation that the strict detector implies.
-/

namespace NovelRalph

section Command

variable {toml : Tomlkit} (arith : RatioArithmetic)

/-- `load_or_state_error`. -/
def loadOrStateError : Command toml State :=
  .observe fun world => guardStateInput (stateInputErrorAt world) do
    let document ← openDocument world
    documentToState document

/-- What `check` computes before it builds its outcome. -/
structure CheckReport where
  verdict : List Violation
  /-- The attached reconciliation; there is one exactly when disk evidence fired. -/
  reconciliation : Option (Reconciliation String)
  deriving DecidableEq

/-- The verdict of `_check` and the reconciliation it attaches. -/
def checkReport : Command toml CheckReport := do
  let state ← loadOrStateError
  let pureState ← Prog.observe fun _ => spelledVerdict arith state
  let diskEvidence ← Prog.observe fun world =>
    guardStateInput draftReadError (checkDiskEvidence state world.disk true)
  let verdict := pureState ++ diskEvidence
  if diskEvidence = [] then return { verdict, reconciliation := none }
  else do
    let reconciliation ← Prog.observe fun world => deriveReconciliation state world.disk
    return { verdict, reconciliation := some reconciliation }

/-- `_check`. -/
def check : Command toml CommandOutcome := do
  let report ← checkReport arith
  let attached := report.reconciliation.toList.map fun reconciliation =>
    ("reconciliation", Value.table (reconciliationPayload reconciliation))
  return {
    code := if report.verdict = [] then .success else .actionableFinding
    result := ("violations", .array (report.verdict.map fun violation =>
      .str violation.invariant.text)) :: attached
    messages := if report.verdict = [] then ["state is coherent"]
      else report.verdict.map Violation.detail }

end Command

section Load

variable {toml : Tomlkit} {world : World toml.Text} {state : State}

/-- A world that shows a state loads as that state. -/
theorem loadOrStateError_of_shows (shows : Shows world state) :
    loadOrStateError world = ⟨[], .ok state⟩ := by
  obtain ⟨document, opens, viewed⟩ := shows.opens
  have loads : (do
      let document ← openDocument world
      documentToState document) = .ok state := except_bind_eq_ok.mpr ⟨document, opens, viewed⟩
  unfold loadOrStateError
  rw [Prog.observe_apply, loads, guardStateInput_ok]

end Load

end NovelRalph
