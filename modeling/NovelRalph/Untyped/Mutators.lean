import NovelRalph.System.Runs
import NovelRalph.Untyped.Document
import NovelRalph.Untyped.Reconcile
import NovelRalph.Untyped.Validate

/-!
# The nine commands on any document

The load-edit-rewrite commands, on whatever `state.toml` decodes to. The shape of
each command, its edits and its texts are those of the typed commands; what differs
is how the document is viewed, how the view is validated, and what a pending turn
can hold as its operation.
-/

namespace NovelRalph.Untyped

section Commands

variable {toml : Tomlkit} (interp : Interpreter)

/-- The single-file mutators. -/
def mutateState
    (plan : World toml.Text → Document toml → State → Except Fault (MutationPlan State)) :
    Command toml CommandOutcome :=
  mutateView (documentToState interp) (validateState interp) plan

/-- `set_cursor`. -/
def setCursor (chapter scene beat : Int) : Command toml CommandOutcome :=
  mutateState interp fun _ _ _ => cursorPlan chapter scene beat

/-- `document["phase"]["completed"].append`: an array takes one item, a table a key and an item, and
nothing else has the method. -/
def appendCompleted (document : Document toml) : Except Fault Unit := do
  let phase ← readTable document.body "phase"
  match ← subscript phase "completed" with
  | .array _ => return ()
  | .table _ => throw .typeError
  | _ => throw .attributeError

/-- `advance_phase`. -/
def advancePhase : Command toml CommandOutcome :=
  mutateState interp fun _ document prior => do
    refuseIfIncoherent (validateState interp) prior "advance-phase from an incoherent state" noRemedy
    let planned ← advancePlan prior.phase prior.chapters.isEmpty
    appendCompleted document
    return planned

/-- `set_chapters`. -/
def setChaptersCommand (now : String) (chapters : List ChapterPlanEntry) :
    Command toml CommandOutcome := do
  let document ← loadDocumentOrStateError
  let prior ← stateViewOrStateError (documentToState interp) document
  if prior.chapters.isEmpty then
    populateChapters (documentToState interp) (validateState interp) now chapters document
  else Prog.raise populatedManifest

/-- `_set_gate_or_usage`. -/
def setGateCommand (selection : GateSelection) : Command toml CommandOutcome :=
  if selection.anySet then mutateState interp fun _ _ _ => .ok (gatesPlan selection)
  else pure noFlagOutcome

/-- `_complete_final_pass`. -/
def completeFinalPass : Command toml CommandOutcome :=
  mutateState interp fun _ _ _ => .ok finalPassPlan

/-- `_set_fangirl`. -/
def setFangirl (lastChapter : Int) : Command toml CommandOutcome :=
  mutateState interp fun _ _ prior => fangirlPlan prior.chapters.length lastChapter

/-- `_set_critic_pass`. -/
def setCriticPass (passNumber : Int) : Command toml CommandOutcome :=
  mutateState interp fun _ _ _ => criticPassPlan passNumber

/-! ## `recount` -/

/-- The drafted ratio of a state with a positive target. -/
def draftedRatio? (state : State) : Option interp.Double :=
  match interp.lessEqual state.wordCounts.target (.int 0), interp.sum state.wordCounts.counts,
      interp.number? state.wordCounts.target with
  | .ok false, .ok total, some divisor => interp.quotient total divisor
  | _, _, _ => none

/-- `_gate_ratio_remedy`; the validator has compared, added and divided already, so nothing here
raises. -/
def gateRatioRemedy (state : State) : List String :=
  match draftedRatio? interp state with
  | none => []
  | some ratio =>
      (disagreeingGates interp state.gates.knitting ratio).map fun gate =>
        gateAdvice (reached interp ratio gate)
          (interp.truncate (interp.hundredfold (interp.double (thresholdLiteral gate))))
          (interp.fixed 1 (interp.hundredfold ratio)) gate

/-- `recount`, with `_recount_or_state_error`. -/
def recount : Command toml CommandOutcome :=
  mutateState interp fun world _ prior => do
    let (current, byChapter) ←
      guardStateInput draftReadError (recountWords interp world.disk prior.chapters)
    return recountPlan (gateRatioRemedy interp) current byChapter

/-! ## `reconcile` -/

/-- Rewrite `[word_counts]` and refuse an incoherent result. -/
def rewriteWordCounts : Document toml → Int → Dict String Int → String →
    Command toml (Document toml) :=
  rewriteCounts (documentToState interp) (validateState interp)

/-- Whether the pending turn being completed is one of `set-chapters`. -/
def completesSetChapters (reconciliation : Reconciliation Value) : Bool :=
  reconciliation.action = .completePendingTurn &&
    reconciliation.operation.any fun operation => interp.equals operation (.str setChaptersOperation)

/-- The recomputed counts of `_pending_turn_edit`. -/
def recomputeCounts (document : Document toml) : Command toml (Document toml) := do
  let view ← stateViewOrStateError (documentToState interp) document
  let (current, byChapter) ← Prog.observe fun world => recountWords interp world.disk view.chapters
  rewriteWordCounts interp document current byChapter "reconcile complete-pending-turn"

/-- `_pending_turn_edit`. -/
def pendingTurnEdit (reconciliation : Reconciliation Value) :
    Document toml → Command toml (Document toml) :=
  turnEdit (completesSetChapters interp reconciliation) (recomputeCounts interp) reconciliation

/-- The dispatch of `reconcile` on a derived reconciliation. -/
def enactReconciliation (now : String) (reconciliation : Reconciliation Value) :
    Command toml CommandOutcome :=
  dispatchAction (recountEdit (rewriteWordCounts interp) reconciliation)
    (pendingTurnEdit interp reconciliation) now reconciliation

/-- `reconcile`. -/
def reconcile (now : String) : Command toml CommandOutcome :=
  reconcileView (documentToState interp) (deriveReconciliation interp)
    (enactReconciliation interp now)

/-- The command body an invocation runs, with the clock it reads. -/
def run (now : String) : Invocation → Command toml CommandOutcome
  | .setCursor chapter scene beat => setCursor interp chapter scene beat
  | .advancePhase => advancePhase interp
  | .setChapters chapters => setChaptersCommand interp now chapters
  | .recount => recount interp
  | .reconcile => reconcile interp now
  | .setGate selection => setGateCommand interp selection
  | .completeFinalPass => completeFinalPass interp
  | .setFangirl lastChapter => setFangirl interp lastChapter
  | .setCriticPass pass => setCriticPass interp pass

end Commands

end NovelRalph.Untyped
