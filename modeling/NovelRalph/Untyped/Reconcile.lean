import NovelRalph.State.Reconcile
import NovelRalph.Untyped.DiskEvidence

/-!
# Deriving the reconciliation of any state

`derive_reconciliation` on a state whose cast fields hold decoded values of any
type. Beside what the detector raises, it meets the declared paths of a record
for the first time: a path that is no text has no `removeprefix`, and the digits
of a chapter's directory need not be a numeral that is converted.
-/

namespace NovelRalph.Untyped

open InvariantName

/-- A declared path that is about to lose its prefix. -/
def asPath : Value → Except Fault String
  | .str path => .ok path
  | _ => .error .attributeError

/-- `_missing_declared_paths`. -/
def missingDeclaredPaths (paths : List Value) (disk : Disk) : Except Fault (List String) := do
  let declared ← paths.mapM asPath
  return NovelRalph.missingDeclaredPaths declared disk

section Derive

variable (interp : Interpreter) (state : State) (disk : Disk)

/-- `_set_chapters_turn_explains_bijection`. -/
def setChaptersTurnExplainsBijection (fired : List InvariantName) : Except Fault Bool :=
  match state.pendingTurn with
  | none => .ok false
  | some pending =>
      if !interp.equals pending.operation (.str setChaptersOperation) then .ok false
      else if (firedRefuse fired).toFinset ≠ {manifestDiskBijection} then .ok false
      else do
        let onDisk ← disk.onDiskChapterNumbers
        let broken ← classifyBijection interp state.numbers onDisk
        if broken.coherentSubset then
          let missing ← missingDeclaredPaths pending.paths disk
          match ← declaredChapterNumbers missing with
          | none => return false
          | some missingDeclared =>
              return broken.missing.all (heldBy interp missingDeclared) &&
                decide (∀ number ∈ missingDeclared, holds interp broken.missing number = true)
        else return false

/-- `_drafting_subset_cover_gap`. -/
def draftingSubsetCoverGap (fired : List InvariantName) : Except Fault Bool :=
  if state.pendingTurn.isSome then .ok false
  else if state.phase.current ≠ .drafting then .ok false
  else do
    let manifest ← interp.setOf state.numbers
    let onDisk ← disk.onDiskChapterNumbers
    if ← properCoherentSubset interp manifest onDisk then
      if (firedRefuse fired).toFinset ≠ {manifestDiskBijection} then return false
      else do
        let cover ← checkWordCountsCoverDrafts interp state disk true
        return cover.isSome
    else return false

/-- `_classify_pending_turn`. -/
def classifyPendingTurn (pending : PendingTurn) (discrepancies : List InvariantName) :
    Except Fault (Reconciliation Value) := do
  let missing ← missingDeclaredPaths pending.paths disk
  let operation ← interp.repr pending.operation
  return tornTurn pending.operation operation missing discrepancies

/-- `_complete_set_chapters_turn`. -/
def completeSetChaptersTurn (pending : PendingTurn) : Except Fault (Reconciliation Value) := do
  let missing ← missingDeclaredPaths pending.paths disk
  return tornSetChapters pending.operation missing

/-- `_recount`. -/
def deriveRecount (discrepancies : List InvariantName) : Except Fault (Reconciliation Value) := do
  let (current, byChapter) ← recountWords interp disk state.chapters
  return recountReconciliation discrepancies current byChapter

/-- `_scoped_precedence_exception`. -/
def scopedPrecedenceException (fired : List InvariantName) :
    Except Fault (Option (Reconciliation Value)) := do
  let explained ← setChaptersTurnExplainsBijection interp state disk fired
  match state.pendingTurn, explained with
  | some pending, true => return some (← completeSetChaptersTurn disk pending)
  | _, _ =>
      if ← draftingSubsetCoverGap interp state disk fired then
        return some (← deriveRecount interp state disk [wordCountsCoverDrafts])
      else return none

/-- The body of `derive_reconciliation` once the detector has named what fired. -/
def classifyFired (fired : List InvariantName) : Except Fault (Reconciliation Value) := do
  match ← scopedPrecedenceException interp state disk fired with
  | some exception => return exception
  | none =>
      let refuse := firedRefuse fired
      if refuse ≠ [] then return refuseReconciliation refuse
      match state.pendingTurn, decide (pendingTurnCleared ∈ fired) with
      | some pending, true => classifyPendingTurn interp disk pending [pendingTurnCleared]
      | _, _ =>
          if recountNames fired ≠ [] then deriveRecount interp state disk (recountNames fired)
          else if logPresent ∈ fired then return recreateLogReconciliation
          else return noReconciliation

/-- `derive_reconciliation`. -/
def deriveReconciliation : Except Fault (Reconciliation Value) := do
  let violations ← checkDiskEvidence interp state disk false
  classifyFired interp state disk (violations.map Violation.invariant)

end Derive

end NovelRalph.Untyped
