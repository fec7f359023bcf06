import NovelRalph.State.DiskEvidence

/-!
# Deriving the reconciliation

`deriveReconciliation` classifies a state and the working tree into the one
action disk evidence calls for. Its precedence is: a torn `set-chapters` turn
that explains a bijection break, a coverage gap in a drafting subset, the
refuse class, the pending turn, the recount, the missing log, nothing.

`Derivation` says the same on a readable tree as one rule for each outcome, and
`deriveReconciliation_iff` connects the two; everything later is proved from the
rules.
-/

namespace NovelRalph

open InvariantName

/-- `_REFUSE_CLASS`. -/
def refuseClass : List InvariantName :=
  [manifestDiskBijection, doneFlagWithoutDraft, compiledMatchesDrafts, cursorPlanPresent]

/-- `_RECOMPUTABLE_BASENAMES`. -/
def recomputableBasenames : List String := ["state.toml", "log.md"]

/-- `_RECOUNT_TRIGGERS`. -/
def recountTriggers : List InvariantName := [wordCountsMatchDrafts, wordCountsCoverDrafts]

/-- `DISK_EVIDENCE_INVARIANT_NAMES`. -/
def diskEvidenceInvariantNames : List InvariantName :=
  [manifestDiskBijection, cursorPlanPresent, doneFlagWithoutDraft, compiledMatchesDrafts,
   pendingTurnCleared, wordCountsMatchDrafts, logPresent, wordCountsCoverDrafts]

/-- `ReconcileAction`. -/
inductive ReconcileAction where
  | none
  | recount
  | recreateLog
  | completePendingTurn
  | rollbackPendingTurn
  | refuse
  deriving DecidableEq, Repr

namespace ReconcileAction

/-- The `str` of an action. -/
def text : ReconcileAction → String
  | none => "none"
  | recount => "recount"
  | recreateLog => "recreate-log"
  | completePendingTurn => "complete-pending-turn"
  | rollbackPendingTurn => "rollback-pending-turn"
  | refuse => "refuse"

end ReconcileAction

/-- `Reconciliation`, over what a record can hold as its operation. -/
structure Reconciliation (Operation : Type) where
  action : ReconcileAction
  discrepancies : List InvariantName
  detail : String
  recountedCurrent : Option Int
  recountedByChapter : Option (Dict String Int)
  operation : Option Operation
  missingPaths : List String
  deriving DecidableEq, Repr

section Outcomes

variable {Operation : Type}

/-- `reconciliation_payload`. -/
def reconciliationPayload (reconciliation : Reconciliation Operation) : Table :=
  [("action", .str reconciliation.action.text),
   ("discrepancies", .array (reconciliation.discrepancies.map fun name => .str name.text)),
   ("detail", .str reconciliation.detail)] ++
  match reconciliation.recountedByChapter with
  | none => []
  | some byChapter =>
      [("current", .int (reconciliation.recountedCurrent.getD 0)),
       ("by_chapter", .table (byChapter.entries.map fun entry => (entry.1, .int entry.2)))]

/-- `_refuse`. -/
def refuseReconciliation (discrepancies : List InvariantName) : Reconciliation Operation where
  action := .refuse
  discrepancies
  detail := "disk evidence refuses repair: " ++
    String.intercalate ", " (discrepancies.map InvariantName.text)
  recountedCurrent := none
  recountedByChapter := none
  operation := none
  missingPaths := []

/-- The missing declared paths that cannot be recomputed. -/
def unrecoverablePaths (missing : List String) : List String :=
  missing.filter fun path => (PosixPath.parse path).name ∉ recomputableBasenames

/-- `_classify_pending_turn`, given the text of the operation and the missing declared paths. -/
def tornTurn (operation : Operation) (text : String) (missing : List String)
    (discrepancies : List InvariantName) : Reconciliation Operation :=
  let unrecoverable := unrecoverablePaths missing
  if unrecoverable ≠ [] then {
    action := .rollbackPendingTurn
    discrepancies
    detail := "rolling back torn turn " ++ text ++ ": unrecoverable artefact(s) " ++
      reprList reprText unrecoverable ++ " did not land"
    recountedCurrent := none
    recountedByChapter := none
    operation := some operation
    missingPaths := missing }
  else {
    action := .completePendingTurn
    discrepancies
    detail := "completing torn turn " ++ text ++
      ": writing the remaining recomputable artefact(s) " ++ reprList reprText missing
    recountedCurrent := none
    recountedByChapter := none
    operation := some operation
    missingPaths := missing }

/-- `_complete_set_chapters_turn`, given the missing declared paths. -/
def tornSetChapters (operation : Operation) (missing : List String) : Reconciliation Operation where
  action := .completePendingTurn
  discrepancies := [manifestDiskBijection]
  detail := "completing torn " ++ reprText setChaptersOperation ++
    " turn: creating the missing chapter directories " ++ reprList reprText missing ++
    " the persisted manifest declares"
  recountedCurrent := none
  recountedByChapter := none
  operation := some operation
  missingPaths := missing

/-- `_recount`, from the recounted table. -/
def recountReconciliation (discrepancies : List InvariantName) (current : Int)
    (byChapter : Dict String Int) : Reconciliation Operation where
  action := .recount
  discrepancies
  detail := "recounting [word_counts] from the drafts: current " ++ intText current ++ " across " ++
    intText byChapter.entries.length ++ " chapters"
  recountedCurrent := some current
  recountedByChapter := some byChapter
  operation := none
  missingPaths := []

/-- The reconciliation of a tree whose log alone is missing. -/
def recreateLogReconciliation : Reconciliation Operation where
  action := .recreateLog
  discrepancies := [logPresent]
  detail := "recreating the absent log.md receipt"
  recountedCurrent := none
  recountedByChapter := none
  operation := none
  missingPaths := []

/-- The reconciliation of a coherent tree. -/
def noReconciliation : Reconciliation Operation where
  action := .none
  discrepancies := []
  detail := "state is coherent against disk; nothing to reconcile"
  recountedCurrent := none
  recountedByChapter := none
  operation := none
  missingPaths := []

end Outcomes

/-- A declared path below the working tree. -/
def declaredPath (path : String) : PosixPath := PosixPath.parse (removeBeginning path "working/")

/-- The path of a chapter directory, as `set-chapters` declares it, is read back as that directory. -/
theorem declaredPath_chapter (value : Nat) : declaredPath ("working/manuscript/" ++ chapterDirName value) =
    ⟨"", ["manuscript", chapterDirName value]⟩ := by
  have spelled : "working/manuscript/" ++ chapterDirName value =
      "working/" ++ ("manuscript" ++ "/" ++ chapterDirName value) := by
    rw [← String.append_assoc, ← String.append_assoc]
    rfl
  unfold declaredPath
  rw [spelled, removeBeginning_append, parse_chapterDir]

/-- `_missing_declared_paths`. -/
def missingDeclaredPaths (paths : List String) (disk : Disk) : List String :=
  paths.filter fun path => !(declaredPath path).occupies disk.layout disk.working "working"

/-- The names of the refuse class among those that fired. -/
def firedRefuse (fired : List InvariantName) : List InvariantName :=
  fired.filter fun name => name ∈ refuseClass

section Derive

variable (state : State) (disk : Disk)

/-- `_set_chapters_turn_explains_bijection`. -/
def setChaptersTurnExplainsBijection (fired : List InvariantName) : Except Fault Bool :=
  match state.pendingTurn with
  | none => .ok false
  | some pending =>
      if pending.operation ≠ setChaptersOperation then .ok false
      else if (firedRefuse fired).toFinset ≠ {manifestDiskBijection} then .ok false
      else do
        let onDisk ← disk.onDiskChapterNumbers
        let broken := classifyBijection state.manifest onDisk
        if !broken.coherentSubset then return false
        match ← declaredChapterNumbers (missingDeclaredPaths pending.paths disk) with
        | none => return false
        | some missingDeclared => return decide (broken.missing = missingDeclared)

/-- `_drafting_subset_cover_gap`. -/
def draftingSubsetCoverGap (fired : List InvariantName) : Except Fault Bool :=
  if state.pendingTurn.isSome then .ok false
  else if state.phase.current ≠ .drafting then .ok false
  else do
    let onDisk ← disk.onDiskChapterNumbers
    if !properCoherentSubset state.manifest onDisk then return false
    if (firedRefuse fired).toFinset ≠ {manifestDiskBijection} then return false
    let cover ← checkWordCountsCoverDrafts state disk true
    return cover.isSome

/-- `_classify_pending_turn`. -/
def classifyPendingTurn (pending : PendingTurn) (discrepancies : List InvariantName) :
    Reconciliation String :=
  tornTurn pending.operation (reprText pending.operation) (missingDeclaredPaths pending.paths disk)
    discrepancies

/-- `_complete_set_chapters_turn`. -/
def completeSetChaptersTurn (pending : PendingTurn) : Reconciliation String :=
  tornSetChapters pending.operation (missingDeclaredPaths pending.paths disk)

/-- `_recount`. -/
def deriveRecount (discrepancies : List InvariantName) : Except Fault (Reconciliation String) := do
  let (current, byChapter) ← disk.recountWords state.chapters
  return recountReconciliation discrepancies current byChapter

/-- `_scoped_precedence_exception`. -/
def scopedPrecedenceException (fired : List InvariantName) :
    Except Fault (Option (Reconciliation String)) := do
  let explained ← setChaptersTurnExplainsBijection state disk fired
  match state.pendingTurn, explained with
  | some pending, true => return some (completeSetChaptersTurn disk pending)
  | _, _ =>
      if ← draftingSubsetCoverGap state disk fired then
        return some (← deriveRecount state disk [wordCountsCoverDrafts])
      else return none

/-- The recount triggers that fired, in detector order. -/
def recountNames (fired : List InvariantName) : List InvariantName :=
  diskEvidenceInvariantNames.filter fun name => name ∈ recountTriggers ∧ name ∈ fired

/-- The body of `derive_reconciliation` once the detector has named what fired. -/
def classifyFired (fired : List InvariantName) : Except Fault (Reconciliation String) := do
  match ← scopedPrecedenceException state disk fired with
  | some exception => return exception
  | none =>
      let refuse := firedRefuse fired
      if refuse ≠ [] then return refuseReconciliation refuse
      match state.pendingTurn, decide (pendingTurnCleared ∈ fired) with
      | some pending, true => return classifyPendingTurn disk pending [pendingTurnCleared]
      | _, _ =>
          if recountNames fired ≠ [] then deriveRecount state disk (recountNames fired)
          else if logPresent ∈ fired then return recreateLogReconciliation
          else return noReconciliation

/-- `derive_reconciliation`. -/
def deriveReconciliation : Except Fault (Reconciliation String) := do
  let violations ← checkDiskEvidence state disk false
  classifyFired state disk (violations.map Violation.invariant)

end Derive

/-! ## The form of what is derived, on any tree -/

section Form

variable {state : State} {disk : Disk}

/-- What a reconciliation derived from a state and a tree can look like. -/
inductive Derived (state : State) (disk : Disk) : Reconciliation String → Prop where
  | explained (pending : PendingTurn) (recorded : state.pendingTurn = some pending)
      (operation : pending.operation = setChaptersOperation) :
      Derived state disk (completeSetChaptersTurn disk pending)
  | refuse (names : List InvariantName) : Derived state disk (refuseReconciliation names)
  | pendingTurn (pending : PendingTurn) (recorded : state.pendingTurn = some pending) :
      Derived state disk (classifyPendingTurn disk pending [pendingTurnCleared])
  | recount (names : List InvariantName) (table : Dict String Int)
      (settled : state.pendingTurn = none)
      (counted : disk.recountWords state.chapters = .ok (table.values.sum, table)) :
      Derived state disk (recountReconciliation names table.values.sum table)
  | recreateLog (settled : state.pendingTurn = none) :
      Derived state disk recreateLogReconciliation
  | none (settled : state.pendingTurn = none) : Derived state disk noReconciliation

/-- A pending turn is always among what the detector reports. -/
theorem pending_mem_violations {relaxed : Bool} {violations : List Violation}
    (detected : checkDiskEvidence state disk relaxed = .ok violations)
    (recorded : state.pendingTurn.isSome) :
    pendingTurnCleared ∈ violations.map Violation.invariant := by
  obtain ⟨head, -, later⟩ := except_bind_eq_ok.mp detected
  obtain ⟨cover, -, later⟩ := except_bind_eq_ok.mp later
  obtain ⟨tail, consumed, returned⟩ := except_bind_eq_ok.mp later
  obtain ⟨pending, there⟩ := Option.isSome_iff_exists.mp recorded
  have listed : (fun state _ => .ok (checkPendingTurnCleared state)) ∈ tailPredicates := by
    simp [tailPredicates]
  obtain ⟨found, reported, answered⟩ := result_of_mapM consumed listed
  simp only [checkPendingTurnCleared, there, Option.map_some, Except.ok.injEq] at answered
  subst answered
  cases returned
  have kept := List.mem_append_left [cover] (List.mem_cons_of_mem head reported)
  exact List.mem_map.mpr ⟨_, List.mem_filterMap.mpr ⟨_, kept, rfl⟩, rfl⟩

theorem Derived.of_recount {names : List InvariantName} {reconciliation : Reconciliation String}
    (settled : state.pendingTurn = .none)
    (derived : deriveRecount state disk names = .ok reconciliation) :
    Derived state disk reconciliation := by
  obtain ⟨⟨current, table⟩, counted, returned⟩ := except_bind_eq_ok.mp derived
  have total : current = table.values.sum := Disk.recountWords_total counted
  cases returned
  subst total
  exact .recount names table settled counted

section Torn

variable {Operation : Type} (operation : Operation) (text : String) (missing : List String)
  (discrepancies : List InvariantName)

/-- A torn turn is rolled back or completed. -/
theorem action_tornTurn :
    (tornTurn operation text missing discrepancies).action = .rollbackPendingTurn ∨
      (tornTurn operation text missing discrepancies).action = .completePendingTurn := by
  unfold tornTurn
  by_cases lost : unrecoverablePaths missing ≠ []
  · left
    simp only [lost, ne_eq, not_false_eq_true, if_true]
  · right
    simp only [lost, if_false]

theorem operation_tornTurn :
    (tornTurn operation text missing discrepancies).operation = some operation := by
  unfold tornTurn
  dsimp only
  split <;> rfl

theorem missingPaths_tornTurn :
    (tornTurn operation text missing discrepancies).missingPaths = missing := by
  unfold tornTurn
  dsimp only
  split <;> rfl

theorem discrepancies_tornTurn :
    (tornTurn operation text missing discrepancies).discrepancies = discrepancies := by
  unfold tornTurn
  dsimp only
  split <;> rfl

/-- A torn turn is completed exactly when nothing unrecoverable is missing. -/
theorem completes_tornTurn :
    (tornTurn operation text missing discrepancies).action = .completePendingTurn ↔
      unrecoverablePaths missing = [] := by
  unfold tornTurn
  by_cases lost : unrecoverablePaths missing = []
  · simp only [lost, ne_eq, not_true_eq_false, if_false]
  · simp only [lost, ne_eq, not_false_eq_true, if_true, reduceCtorEq]

end Torn

/-- A pending turn is rolled back or completed. -/
theorem action_classifyPendingTurn (disk : Disk) (pending : PendingTurn)
    (discrepancies : List InvariantName) :
    (classifyPendingTurn disk pending discrepancies).action = .rollbackPendingTurn ∨
      (classifyPendingTurn disk pending discrepancies).action = .completePendingTurn :=
  action_tornTurn _ _ _ _

theorem operation_classifyPendingTurn (disk : Disk) (pending : PendingTurn)
    (discrepancies : List InvariantName) :
    (classifyPendingTurn disk pending discrepancies).operation = some pending.operation :=
  operation_tornTurn _ _ _ _

theorem missingPaths_classifyPendingTurn (disk : Disk) (pending : PendingTurn)
    (discrepancies : List InvariantName) :
    (classifyPendingTurn disk pending discrepancies).missingPaths =
      missingDeclaredPaths pending.paths disk :=
  missingPaths_tornTurn _ _ _ _

theorem discrepancies_classifyPendingTurn (disk : Disk) (pending : PendingTurn)
    (discrepancies : List InvariantName) :
    (classifyPendingTurn disk pending discrepancies).discrepancies = discrepancies :=
  discrepancies_tornTurn _ _ _ _

/-- A pending turn is completed exactly when nothing unrecoverable is missing. -/
theorem completes_classifyPendingTurn {disk : Disk} {pending : PendingTurn}
    {discrepancies : List InvariantName} :
    (classifyPendingTurn disk pending discrepancies).action = .completePendingTurn ↔
      unrecoverablePaths (missingDeclaredPaths pending.paths disk) = [] :=
  completes_tornTurn _ _ _ _

/-- Only a record of `set-chapters` explains a break. -/
theorem operation_of_explained {pending : PendingTurn} {fired : List InvariantName}
    (recorded : state.pendingTurn = some pending)
    (test : setChaptersTurnExplainsBijection state disk fired = .ok true) :
    pending.operation = setChaptersOperation := by
  unfold setChaptersTurnExplainsBijection at test
  rw [recorded] at test
  by_contra other
  simp [other] at test

/-- Only a state without a record has a coverage gap. -/
theorem settled_of_gap {fired : List InvariantName}
    (test : draftingSubsetCoverGap state disk fired = .ok true) : state.pendingTurn = .none := by
  unfold draftingSubsetCoverGap at test
  cases recorded : state.pendingTurn with
  | none => rfl
  | some pending => simp [recorded] at test

/-- Every reconciliation that is derived has one of the six forms. -/
theorem derived_of_derive {reconciliation : Reconciliation String}
    (derives : deriveReconciliation state disk = .ok reconciliation) :
    Derived state disk reconciliation := by
  obtain ⟨violations, detected, classified⟩ := except_bind_eq_ok.mp derives
  have reported := fun recorded => pending_mem_violations detected recorded
  generalize violations.map Violation.invariant = fired at classified reported
  obtain ⟨exception, excepted, classified⟩ := except_bind_eq_ok.mp classified
  cases exception with
  | some special =>
      cases classified
      obtain ⟨explained, test, excepted⟩ := except_bind_eq_ok.mp excepted
      split at excepted
      · next pending recorded =>
          cases excepted
          exact .explained pending recorded (operation_of_explained recorded test)
      · obtain ⟨gap, tested, excepted⟩ := except_bind_eq_ok.mp excepted
        cases gap
        · cases excepted
        · obtain ⟨counted, counts, returned⟩ := except_bind_eq_ok.mp excepted
          cases returned
          exact .of_recount (settled_of_gap tested) counts
  | none =>
      dsimp only at classified
      split at classified
      · cases classified
        exact .refuse _
      · split at classified
        · next pending recorded _ =>
            cases classified
            exact .pendingTurn pending recorded
        · next other =>
            have settled : state.pendingTurn = .none := by
              cases recorded : state.pendingTurn with
              | none => rfl
              | some pending =>
                  have fires := decide_eq_true (reported (by rw [recorded]; rfl))
                  exact absurd fires (other pending recorded)
            split at classified
            · exact .of_recount settled classified
            · split at classified
              · cases classified
                exact .recreateLog settled
              · cases classified
                exact .none settled

end Form

/-! ## The rules of the derivation -/

section Rules

variable (state : State) (disk : Disk)

/-- Some discrepancy of the refuse class other than the bijection is reported. -/
def otherRefusal : Bool :=
  cursorPlanMissing state disk || doneWithoutDraft state disk || compiledStale state disk

/-- Some discrepancy of the refuse class is reported. -/
def refusal : Bool := bijectionBroken state disk false || otherRefusal state disk

/-- A recount trigger is reported. -/
def drift : Bool := countsStale state disk || coverageBroken state disk false

/-- The bijection break is a coherent subset that a `set-chapters` record accounts for. -/
def Explains (pending : PendingTurn) : Prop :=
  pending.operation = setChaptersOperation ∧
  bijectionBroken state disk false = true ∧ otherRefusal state disk = false ∧
  (classifyBijection state.manifest disk.onDisk).coherentSubset = true ∧
  declaredChapterNumbers (missingDeclaredPaths pending.paths disk) =
    .ok (some (state.manifest \ disk.onDisk))

/-- A drafting subset, with no turn pending, lacks the key of a directory on disk. -/
def CoverGap : Prop :=
  state.pendingTurn = none ∧ state.phase.current = .drafting ∧
  bijectionBroken state disk false = true ∧ otherRefusal state disk = false ∧
  properCoherentSubset state.manifest disk.onDisk = true ∧
  (draftedSubsetCoverViolation state disk.onDisk).isSome = true

/-- The explanation test returns, whatever its answer. -/
def ExplanationReadable : Prop :=
  ∃ answer, setChaptersTurnExplainsBijection state disk (evidence state disk false) = .ok answer

/-- The rules of `deriveReconciliation` on a readable tree, one for each outcome. -/
inductive Derivation : Reconciliation String → Prop where
  | explained (pending : PendingTurn) (recorded : state.pendingTurn = some pending)
      (explains : Explains state disk pending) :
      Derivation (completeSetChaptersTurn disk pending)
  | coverGap (gap : CoverGap state disk) :
      Derivation (recountReconciliation [wordCountsCoverDrafts]
        (disk.recountTable state.chapters).values.sum (disk.recountTable state.chapters))
  | refuse (readable : ExplanationReadable state disk)
      (unexplained : ∀ pending, state.pendingTurn = some pending → ¬ Explains state disk pending)
      (noGap : ¬ CoverGap state disk) (refused : refusal state disk = true) :
      Derivation (refuseReconciliation (firedRefuse (evidence state disk false)))
  | pendingTurn (pending : PendingTurn) (recorded : state.pendingTurn = some pending)
      (agreed : refusal state disk = false) :
      Derivation (classifyPendingTurn disk pending [pendingTurnCleared])
  | recount (settled : state.pendingTurn = none) (agreed : refusal state disk = false)
      (stale : drift state disk = true) :
      Derivation (recountReconciliation (recountNames (evidence state disk false))
        (disk.recountTable state.chapters).values.sum (disk.recountTable state.chapters))
  | recreateLog (settled : state.pendingTurn = none) (agreed : refusal state disk = false)
      (current : drift state disk = false) (absent : disk.exists? disk.logFile = false) :
      Derivation recreateLogReconciliation
  | none (settled : state.pendingTurn = none) (agreed : refusal state disk = false)
      (current : drift state disk = false) (present : disk.exists? disk.logFile = true) :
      Derivation noReconciliation

end Rules

section Connection

variable {state : State} {disk : Disk}

/-- The first four questions of the detector are the refuse class. -/
theorem firedRefuse_evidence (relaxed : Bool) :
    firedRefuse (evidence state disk relaxed) =
      (([(manifestDiskBijection, bijectionBroken state disk relaxed),
         (cursorPlanPresent, cursorPlanMissing state disk),
         (doneFlagWithoutDraft, doneWithoutDraft state disk),
         (compiledMatchesDrafts, compiledStale state disk)].filter Prod.snd).map Prod.fst) := by
  have split : evidenceTable state disk relaxed =
      [(manifestDiskBijection, bijectionBroken state disk relaxed),
       (cursorPlanPresent, cursorPlanMissing state disk),
       (doneFlagWithoutDraft, doneWithoutDraft state disk),
       (compiledMatchesDrafts, compiledStale state disk)] ++
      [(pendingTurnCleared, state.pendingTurn.isSome),
       (wordCountsMatchDrafts, countsStale state disk),
       (logPresent, !disk.exists? disk.logFile),
       (wordCountsCoverDrafts, coverageBroken state disk relaxed)] := rfl
  unfold firedRefuse evidence
  rw [split, List.filter_append, List.map_append, List.filter_append]
  have kept : ∀ name ∈ ([(manifestDiskBijection, bijectionBroken state disk relaxed),
       (cursorPlanPresent, cursorPlanMissing state disk),
       (doneFlagWithoutDraft, doneWithoutDraft state disk),
       (compiledMatchesDrafts, compiledStale state disk)].filter Prod.snd).map Prod.fst,
      decide (name ∈ refuseClass) = true := by
    intro name member
    obtain ⟨question, asked, rfl⟩ := List.mem_map.mp member
    have listed := List.mem_of_mem_filter asked
    simp only [List.mem_cons, List.not_mem_nil, or_false] at listed
    rcases listed with rfl | rfl | rfl | rfl <;> rfl
  have dropped : ∀ name ∈ ([(pendingTurnCleared, state.pendingTurn.isSome),
       (wordCountsMatchDrafts, countsStale state disk),
       (logPresent, !disk.exists? disk.logFile),
       (wordCountsCoverDrafts, coverageBroken state disk relaxed)].filter Prod.snd).map Prod.fst,
      ¬ decide (name ∈ refuseClass) = true := by
    intro name member
    obtain ⟨question, asked, rfl⟩ := List.mem_map.mp member
    have listed := List.mem_of_mem_filter asked
    simp only [List.mem_cons, List.not_mem_nil, or_false] at listed
    rcases listed with rfl | rfl | rfl | rfl <;> simp [refuseClass]
  rw [List.filter_eq_self.mpr kept, List.filter_eq_nil_iff.mpr dropped, List.append_nil]

/-- No refuse-class name fired exactly when there is no refusal. -/
theorem firedRefuse_eq_nil :
    firedRefuse (evidence state disk false) = [] ↔ refusal state disk = false := by
  rw [firedRefuse_evidence]
  unfold refusal otherRefusal
  cases bijectionBroken state disk false <;> cases cursorPlanMissing state disk <;>
    cases doneWithoutDraft state disk <;> cases compiledStale state disk <;> simp

/-- The bijection alone fired exactly when no other refusal is reported. -/
theorem firedRefuse_toFinset :
    (firedRefuse (evidence state disk false)).toFinset = {manifestDiskBijection} ↔
      bijectionBroken state disk false = true ∧ otherRefusal state disk = false := by
  rw [firedRefuse_evidence]
  unfold otherRefusal
  cases bijectionBroken state disk false <;> cases cursorPlanMissing state disk <;>
    cases doneWithoutDraft state disk <;> cases compiledStale state disk <;> decide

/-- Membership in the evidence, for a name whose flag is known. -/
theorem mem_evidence {relaxed : Bool} {name : InvariantName} {fires : Bool}
    (asked : (name, fires) ∈ evidenceTable state disk relaxed) :
    name ∈ evidence state disk relaxed ↔ fires = true := by
  have names : (evidenceTable state disk relaxed).map Prod.fst = diskEvidenceInvariantNames := rfl
  have distinct : ((evidenceTable state disk relaxed).map Prod.fst).Nodup := by
    rw [names]
    decide
  unfold evidence
  rw [List.mem_map]
  constructor
  · rintro ⟨question, found, rfl⟩
    obtain ⟨listed, fired⟩ := List.mem_filter.mp found
    have same := List.inj_on_of_nodup_map distinct listed asked rfl
    rw [← fired, same]
  · intro fired
    exact ⟨(name, fires), List.mem_filter.mpr ⟨asked, fired⟩, rfl⟩

theorem recountNames_eq_nil :
    recountNames (evidence state disk false) = [] ↔ drift state disk = false := by
  have stale : wordCountsMatchDrafts ∈ evidence state disk false ↔ countsStale state disk = true :=
    mem_evidence (by simp [evidenceTable])
  have uncovered : wordCountsCoverDrafts ∈ evidence state disk false ↔
      coverageBroken state disk false = true := mem_evidence (by simp [evidenceTable])
  unfold recountNames drift
  rw [List.filter_eq_nil_iff, Bool.or_eq_false_iff]
  constructor
  · intro silent
    refine ⟨Bool.eq_false_iff.mpr fun fired => ?_, Bool.eq_false_iff.mpr fun fired => ?_⟩
    · exact silent wordCountsMatchDrafts (by decide)
        (decide_eq_true ⟨by decide, stale.mpr fired⟩)
    · exact silent wordCountsCoverDrafts (by decide)
        (decide_eq_true ⟨by decide, uncovered.mpr fired⟩)
  · rintro ⟨notStale, covered⟩ name - fires
    obtain ⟨trigger, fired⟩ := of_decide_eq_true fires
    simp only [recountTriggers, List.mem_cons, List.not_mem_nil, or_false] at trigger
    rcases trigger with rfl | rfl
    · rw [stale, notStale] at fired
      cases fired
    · rw [uncovered, covered] at fired
      cases fired

/-- The explanation test answers yes exactly when the record explains the break. -/
theorem explains_iff (readable : Readable state disk) :
    setChaptersTurnExplainsBijection state disk (evidence state disk false) = .ok true ↔
      ∃ pending, state.pendingTurn = some pending ∧ Explains state disk pending := by
  unfold setChaptersTurnExplainsBijection Explains
  cases recorded : state.pendingTurn with
  | none => simp
  | some pending =>
      simp only [Option.some.injEq, exists_eq_left', ne_eq]
      by_cases operation : pending.operation = setChaptersOperation
      · by_cases alone : (firedRefuse (evidence state disk false)).toFinset =
            {manifestDiskBijection}
        · obtain ⟨broken, noOther⟩ := firedRefuse_toFinset.mp alone
          rw [if_neg (not_not.mpr operation), if_neg (not_not.mpr alone),
            onDiskChapterNumbers_of_readable readable]
          simp only [operation, broken, noOther, true_and, bind, Except.bind]
          cases subset : (classifyBijection state.manifest disk.onDisk).coherentSubset
          · simp [pure, Except.pure]
          · cases declared : declaredChapterNumbers (missingDeclaredPaths pending.paths disk) with
            | error fault => simp
            | ok answer =>
                cases answer with
                | none => simp [pure, Except.pure]
                | some numbers => simp [pure, Except.pure, classifyBijection, eq_comm]
        · rw [if_neg (not_not.mpr operation), if_pos alone]
          simp only [Except.ok.injEq, reduceCtorEq, false_iff]
          rintro ⟨-, broken, noOther, -⟩
          exact alone (firedRefuse_toFinset.mpr ⟨broken, noOther⟩)
      · rw [if_pos operation]
        simp [operation]

/-- The coverage-gap test on a readable tree. -/
theorem draftingSubsetCoverGap_of_readable (readable : Readable state disk) :
    ∃ answer, draftingSubsetCoverGap state disk (evidence state disk false) = .ok answer ∧
      (answer = true ↔ CoverGap state disk) := by
  unfold draftingSubsetCoverGap CoverGap
  rw [onDiskChapterNumbers_of_readable readable]
  obtain ⟨found, cover, name⟩ := checkWordCountsCoverDrafts_reports readable true
  rw [cover]
  simp only [bind, Except.bind]
  cases recorded : state.pendingTurn with
  | some pending => exact ⟨false, by simp, by simp⟩
  | none =>
      by_cases drafting : state.phase.current = .drafting
      · cases proper : properCoherentSubset state.manifest disk.onDisk
        · exact ⟨false, by simp [drafting, pure, Except.pure], by simp⟩
        · by_cases alone : (firedRefuse (evidence state disk false)).toFinset =
              {manifestDiskBijection}
          · refine ⟨found.isSome, by simp [drafting, alone, pure, Except.pure], ?_⟩
            have differs := ne_of_properCoherentSubset proper
            have flag : found.isSome =
                (draftedSubsetCoverViolation state disk.onDisk).isSome := by
              have flagged : found.isSome = coverageBroken state disk true := by
                cases found <;> cases fires : coverageBroken state disk true <;>
                  simp [fires] at name ⊢
              rw [flagged, coverageBroken, if_neg differs]
              simp [drafting, proper]
            obtain ⟨broken, noOther⟩ := firedRefuse_toFinset.mp alone
            simp [drafting, broken, noOther, flag]
          · refine ⟨false, by simp [drafting, alone, pure, Except.pure], ?_⟩
            simp only [Bool.false_eq_true, false_iff]
            rintro ⟨-, -, broken, noOther, -⟩
            exact alone (firedRefuse_toFinset.mpr ⟨broken, noOther⟩)
      · exact ⟨false, by simp [drafting], by simp [drafting]⟩

/-- Without a pending turn there is nothing to explain. -/
theorem explanation_of_settled (settled : state.pendingTurn = none) (fired : List InvariantName) :
    setChaptersTurnExplainsBijection state disk fired = .ok false := by
  unfold setChaptersTurnExplainsBijection
  rw [settled]

/-- Without a refusal there is no break to explain. -/
theorem explanation_of_agreed (agreed : refusal state disk = false) :
    setChaptersTurnExplainsBijection state disk (evidence state disk false) = .ok false := by
  unfold setChaptersTurnExplainsBijection
  cases state.pendingTurn with
  | none => rfl
  | some pending =>
      rw [firedRefuse_eq_nil.mpr agreed]
      by_cases operation : pending.operation = setChaptersOperation
      · simp [operation]
      · simp [operation]

/-- What the classification does once the explanation test has answered no. -/
theorem classifyFired_unexplained (readable : Readable state disk)
    (unexplained : setChaptersTurnExplainsBijection state disk (evidence state disk false) =
      .ok false) (noGap : ¬ CoverGap state disk) :
    scopedPrecedenceException state disk (evidence state disk false) = .ok none := by
  obtain ⟨answer, gap, meaning⟩ := draftingSubsetCoverGap_of_readable readable
  have silent : answer = false := by
    cases answer
    · rfl
    · exact absurd (meaning.mp rfl) noGap
  unfold scopedPrecedenceException
  rw [unexplained, gap, silent]
  cases state.pendingTurn <;> rfl

/-- The recount of a readable tree. -/
theorem deriveRecount_of_readable (readable : Readable state disk) (names : List InvariantName) :
    deriveRecount state disk names =
      .ok (recountReconciliation names (disk.recountTable state.chapters).values.sum
        (disk.recountTable state.chapters)) := by
  unfold deriveRecount
  rw [Disk.recountWords_of_readable readable.drafts]
  rfl

/-- A coverage gap is a refusal. -/
theorem CoverGap.refusal (gap : CoverGap state disk) : NovelRalph.refusal state disk = true := by
  unfold NovelRalph.refusal
  rw [gap.2.2.1, Bool.true_or]

theorem pending_mem_evidence :
    pendingTurnCleared ∈ evidence state disk false ↔ state.pendingTurn.isSome = true :=
  mem_evidence (by simp [evidenceTable])

theorem log_mem_evidence :
    logPresent ∈ evidence state disk false ↔ disk.exists? disk.logFile = false := by
  have asked : (logPresent, !disk.exists? disk.logFile) ∈ evidenceTable state disk false := by
    simp [evidenceTable]
  rw [mem_evidence asked]
  simp

/-- Every rule of the derivation is what the program computes. -/
theorem classifyFired_of_derivation (readable : Readable state disk)
    {reconciliation : Reconciliation String} (derivation : Derivation state disk reconciliation) :
    classifyFired state disk (evidence state disk false) = .ok reconciliation := by
  unfold classifyFired
  cases derivation with
  | explained pending recorded explains =>
      unfold scopedPrecedenceException
      rw [(explains_iff readable).mpr ⟨pending, recorded, explains⟩, recorded]
      rfl
  | coverGap gap =>
      obtain ⟨answer, test, meaning⟩ := draftingSubsetCoverGap_of_readable readable
      unfold scopedPrecedenceException
      rw [explanation_of_settled gap.1, test, meaning.mpr gap, gap.1,
        deriveRecount_of_readable readable]
      rfl
  | refuse explanation unexplained noGap refused =>
      obtain ⟨answer, test⟩ := explanation
      cases answer with
      | true =>
          obtain ⟨pending, recorded, explains⟩ := (explains_iff readable).mp test
          exact absurd explains (unexplained pending recorded)
      | false =>
          rw [classifyFired_unexplained readable test noGap]
          have fired : firedRefuse (evidence state disk false) ≠ [] := by
            rw [Ne, firedRefuse_eq_nil, refused]
            simp
          simp only [bind, Except.bind, fired, ne_eq, not_false_eq_true, if_true]
          rfl
  | pendingTurn pending recorded agreed =>
      rw [classifyFired_unexplained readable (explanation_of_agreed agreed)
        fun gap => by simp [gap.refusal] at agreed]
      have cleared : decide (pendingTurnCleared ∈ evidence state disk false) = true :=
        decide_eq_true (pending_mem_evidence.mpr (by rw [recorded]; rfl))
      simp only [bind, Except.bind, firedRefuse_eq_nil.mpr agreed, recorded, cleared]
      rfl
  | recount settled agreed stale =>
      rw [classifyFired_unexplained readable (explanation_of_agreed agreed)
        fun gap => by simp [gap.refusal] at agreed]
      have names : recountNames (evidence state disk false) ≠ [] := by
        rw [Ne, recountNames_eq_nil, stale]
        simp
      simp only [bind, Except.bind, firedRefuse_eq_nil.mpr agreed, settled,
        deriveRecount_of_readable readable]
      rw [if_neg (by simp), if_pos names]
  | recreateLog settled agreed current absent =>
      rw [classifyFired_unexplained readable (explanation_of_agreed agreed)
        fun gap => by simp [gap.refusal] at agreed]
      simp only [bind, Except.bind, firedRefuse_eq_nil.mpr agreed, settled,
        recountNames_eq_nil.mpr current, log_mem_evidence.mpr absent]
      rfl
  | none settled agreed current present =>
      rw [classifyFired_unexplained readable (explanation_of_agreed agreed)
        fun gap => by simp [gap.refusal] at agreed]
      have logged : logPresent ∉ evidence state disk false := by
        rw [log_mem_evidence, present]
        simp
      simp only [bind, Except.bind, firedRefuse_eq_nil.mpr agreed, settled,
        recountNames_eq_nil.mpr current, logged]
      rfl

/-- Whenever the explanation test returns, some rule of the derivation applies. -/
theorem exists_derivation (explanation : ExplanationReadable state disk) :
    ∃ reconciliation, Derivation state disk reconciliation := by
  by_cases explained : ∃ pending, state.pendingTurn = some pending ∧ Explains state disk pending
  · obtain ⟨pending, recorded, explains⟩ := explained
    exact ⟨_, .explained pending recorded explains⟩
  by_cases gap : CoverGap state disk
  · exact ⟨_, .coverGap gap⟩
  cases refused : refusal state disk
  · cases recorded : state.pendingTurn with
    | some pending => exact ⟨_, .pendingTurn pending recorded refused⟩
    | none =>
        cases stale : drift state disk
        · cases present : disk.exists? disk.logFile
          · exact ⟨_, .recreateLog recorded refused stale present⟩
          · exact ⟨_, .none recorded refused stale present⟩
        · exact ⟨_, .recount recorded refused stale⟩
  · exact ⟨_, .refuse explanation (fun pending recorded explains =>
      explained ⟨pending, recorded, explains⟩) gap refused⟩

/-- The explanation test has returned when a reconciliation is derived. -/
theorem explanationReadable_of_classified {reconciliation : Reconciliation String}
    (derived : classifyFired state disk (evidence state disk false) = .ok reconciliation) :
    ExplanationReadable state disk := by
  cases test : setChaptersTurnExplainsBijection state disk (evidence state disk false) with
  | ok answer => exact ⟨answer, test⟩
  | error fault =>
      unfold classifyFired scopedPrecedenceException at derived
      rw [test] at derived
      cases derived

/-- A reconciliation is derived only on a readable tree. -/
theorem readable_of_derive {reconciliation : Reconciliation String}
    (derives : deriveReconciliation state disk = .ok reconciliation) : Readable state disk := by
  obtain ⟨violations, detected, -⟩ := except_bind_eq_ok.mp derives
  exact readable_of_detected detected

/-- On a readable tree the program derives exactly what the rules say. -/
theorem deriveReconciliation_iff (readable : Readable state disk)
    {reconciliation : Reconciliation String} :
    deriveReconciliation state disk = .ok reconciliation ↔
      Derivation state disk reconciliation := by
  obtain ⟨violations, detected, names⟩ := checkDiskEvidence_of_readable readable false
  have unfolded : deriveReconciliation state disk =
      classifyFired state disk (evidence state disk false) := by
    unfold deriveReconciliation
    rw [detected, ← names]
    rfl
  rw [unfolded]
  constructor
  · intro derived
    obtain ⟨other, derivation⟩ := exists_derivation (explanationReadable_of_classified derived)
    have computed := classifyFired_of_derivation readable derivation
    rw [derived, Except.ok.injEq] at computed
    rw [computed]
    exact derivation
  · exact classifyFired_of_derivation readable

end Connection

end NovelRalph
