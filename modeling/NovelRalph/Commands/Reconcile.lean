import NovelRalph.Commands.SetChapters

/-!
# `reconcile`

Enact the derived reconciliation. The state-writing actions run through a
bracket: reconcile's own `[pending_turn]` record lands first, then the edit is
made, the receipt is appended to `log.md`, and a last replacement clears the
record. A refusal appends a receipt alone.
-/

namespace NovelRalph

/-- `_RECONCILE_OPERATION`. -/
def reconcileOperation : String := "reconcile"

/-- `_RECONCILE_PATHS`. -/
def reconcilePaths : List String := ["state.toml", "log.md"]

section Actions

variable {toml : Tomlkit} {View Operation : Type}

/-- `_append_recovery_entry`. -/
def appendRecoveryEntry (now line : String) : Command toml Unit :=
  appendLine ("- " ++ now ++ " reconcile: " ++ line ++ "\n")

/-- `_run_reconcile_bracket`. -/
def runReconcileBracket (now : String) (edit : Document toml → Command toml (Document toml))
    (logLine : String) : Command toml Unit := do
  let document ← loadDocumentOrStateError
  let opened := document.edit (openPendingTurn reconcileOperation reconcilePaths)
  writeDocumentAtomically opened
  let edited ← edit opened
  appendRecoveryEntry now logLine
  writeDocumentAtomically (edited.edit clearPendingTurn)

/-- Rewrite `[word_counts]` and refuse an incoherent result, for a way to view a document. -/
def rewriteCounts (view : Document toml → Except Fault View)
    (validate : View → Except Fault (List Violation)) (document : Document toml) (current : Int)
    (byChapter : Dict String Int) (context : String) : Command toml (Document toml) := do
  let edited := document.editAll [setCurrent current, setByChapter byChapter]
  let proposed ← stateViewOrStateError view edited
  Prog.observe fun _ => refuseIfIncoherent validate proposed context noRemedy
  return edited

/-- `_recount_edit`; building the edit raises when the counts are missing. -/
def recountEdit
    (rewrite : Document toml → Int → Dict String Int → String → Command toml (Document toml))
    (reconciliation : Reconciliation Operation) :
    Except Fault (Document toml → Command toml (Document toml)) :=
  match reconciliation.recountedCurrent, reconciliation.recountedByChapter with
  | some current, some byChapter =>
      .ok fun document => rewrite document current byChapter "reconcile recount"
  | _, _ => .error .valueError

/-- `_create_missing_chapter_dirs`. -/
def createMissingChapterDirs (reconciliation : Reconciliation Operation) : Command toml Unit :=
  Prog.forEach reconciliation.missingPaths fun path => makeDirs (declaredPath path)

/-- Whether a missing declared path ends in `state.toml`. -/
def writesState (reconciliation : Reconciliation Operation) : Bool :=
  reconciliation.missingPaths.any fun path => endsWith path "state.toml"

/-- `_pending_turn_edit`, given whether a turn of `set-chapters` is being completed and how the
counts are recomputed. -/
def turnEdit (completes : Bool) (recompute : Document toml → Command toml (Document toml))
    (reconciliation : Reconciliation Operation) (document : Document toml) :
    Command toml (Document toml) :=
  if completes then do
    createMissingChapterDirs reconciliation
    return document
  else if !writesState reconciliation then return document
  else recompute document

/-- `_write_outcome`. -/
def writeOutcome (reconciliation : Reconciliation Operation) : CommandOutcome where
  code := .success
  result := reconciliationPayload reconciliation
  messages := [reconciliation.detail]

/-- `_refuse_outcome`. -/
def refuseOutcome (now : String) (reconciliation : Reconciliation Operation) :
    Command toml CommandOutcome := do
  appendRecoveryEntry now ("refuse: " ++ reconciliation.detail)
  return {
    code := .actionableFinding
    result := reconciliationPayload reconciliation
    messages := [reconciliation.detail] }

/-- The dispatch of `reconcile` on a derived reconciliation, given the edits of a recount and of a
pending turn. -/
def dispatchAction (recount : Except Fault (Document toml → Command toml (Document toml)))
    (turn : Document toml → Command toml (Document toml)) (now : String)
    (reconciliation : Reconciliation Operation) : Command toml CommandOutcome :=
  match reconciliation.action with
  | .none => return writeOutcome reconciliation
  | .refuse => refuseOutcome now reconciliation
  | .recreateLog => do
      appendRecoveryEntry now ("recreate-log: " ++ reconciliation.detail)
      return writeOutcome reconciliation
  | .recount => do
      let edit ← Prog.observe fun _ => recount
      runReconcileBracket now edit ("recount: " ++ reconciliation.detail)
      return writeOutcome reconciliation
  | .completePendingTurn | .rollbackPendingTurn => do
      runReconcileBracket now turn (reconciliation.action.text ++ ": " ++ reconciliation.detail)
      return writeOutcome reconciliation

/-- `reconcile`, for a way to view a document and to derive and enact from a view. -/
def reconcileView (view : Document toml → Except Fault View)
    (derive : View → Disk → Except Fault (Reconciliation Operation))
    (enact : Reconciliation Operation → Command toml CommandOutcome) :
    Command toml CommandOutcome := do
  let document ← loadDocumentOrStateError
  let state ← stateViewOrStateError view document
  let reconciliation ← Prog.observe fun world => derive state world.disk
  enact reconciliation

end Actions

section Command

variable {toml : Tomlkit} (arith : RatioArithmetic)

/-- Rewrite `[word_counts]` and refuse an incoherent result. -/
def rewriteWordCounts : Document toml → Int → Dict String Int → String →
    Command toml (Document toml) :=
  rewriteCounts documentToState (spelledVerdict arith)

/-- Whether the pending turn being completed is one of `set-chapters`. -/
def completesSetChapters (reconciliation : Reconciliation String) : Bool :=
  reconciliation.action = .completePendingTurn &&
    reconciliation.operation = some setChaptersOperation

/-- The recomputed counts of `_pending_turn_edit`. -/
def recomputeCounts (document : Document toml) : Command toml (Document toml) := do
  let view ← stateViewOrStateError documentToState document
  let (current, byChapter) ← Prog.observe fun world => world.disk.recountWords view.chapters
  rewriteWordCounts arith document current byChapter "reconcile complete-pending-turn"

/-- `_pending_turn_edit`. -/
def pendingTurnEdit (reconciliation : Reconciliation String) :
    Document toml → Command toml (Document toml) :=
  turnEdit (completesSetChapters reconciliation) (recomputeCounts arith) reconciliation

/-- The dispatch of `reconcile` on a derived reconciliation. -/
def enactReconciliation (now : String) (reconciliation : Reconciliation String) :
    Command toml CommandOutcome :=
  dispatchAction (recountEdit (rewriteWordCounts arith) reconciliation)
    (pendingTurnEdit arith reconciliation) now reconciliation

/-- `reconcile`. -/
def reconcile (now : String) : Command toml CommandOutcome :=
  reconcileView documentToState deriveReconciliation (enactReconciliation arith now)

theorem completesSetChapters_iff {reconciliation : Reconciliation String} :
    completesSetChapters reconciliation = true ↔
      reconciliation.action = .completePendingTurn ∧
        reconciliation.operation = some setChaptersOperation := by
  unfold completesSetChapters
  rw [Bool.and_eq_true_iff, decide_eq_true_iff, decide_eq_true_iff]

/-- Completing and rolling back run the same bracket. -/
theorem enactReconciliation_of_turn (now : String) {reconciliation : Reconciliation String}
    (turn : reconciliation.action = .rollbackPendingTurn ∨
      reconciliation.action = .completePendingTurn) :
    (enactReconciliation arith now reconciliation : Command toml CommandOutcome) = (do
      runReconcileBracket now (pendingTurnEdit arith reconciliation)
        (reconciliation.action.text ++ ": " ++ reconciliation.detail)
      return writeOutcome reconciliation) := by
  rcases turn with turn | turn <;> simp only [enactReconciliation, dispatchAction, turn]

end Command

end NovelRalph
