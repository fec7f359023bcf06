import NovelRalph.State.Reconcile

/-!
# Trees with the same manuscript

The questions of the detector, the log's apart, look at `manuscript/` only. Two
trees that agree below it get the same answers, whatever became of the log.

At bijection a table without drift is the recount of the drafts up to the order
of its keys, so recounting a state that has not drifted changes nothing that the
validator reads.
-/

namespace NovelRalph

/-- Two trees which hold the same below `manuscript/`. -/
structure SameManuscript (left right : Disk) : Prop where
  working : right.working = left.working
  dirs : right.dirs = left.dirs
  layout : ∀ names, right.layout (names ++ left.manuscript) = left.layout (names ++ left.manuscript)
  read : ∀ names, right.read (names ++ left.manuscript) = left.read (names ++ left.manuscript)

namespace SameManuscript

variable {left right : Disk}

theorem manuscript (same : SameManuscript left right) : right.manuscript = left.manuscript := by
  unfold Disk.manuscript
  rw [same.working]

theorem chapterFile (same : SameManuscript left right) (number : Int) (name : String) :
    right.chapterFile number name = left.chapterFile number name := by
  unfold Disk.chapterFile Disk.chapterDir
  rw [same.manuscript]

theorem exists_chapterFile (same : SameManuscript left right) (number : Int) (name : String) :
    right.exists? (right.chapterFile number name) = left.exists? (left.chapterFile number name) := by
  rw [same.chapterFile]
  unfold Disk.exists?
  exact congrArg Option.isSome (same.layout [name, chapterDirName number])

theorem read_chapterFile (same : SameManuscript left right) (number : Int) (name : String) :
    right.read (right.chapterFile number name) = left.read (left.chapterFile number name) := by
  rw [same.chapterFile]
  exact same.read [name, chapterDirName number]

theorem chapterSuffixes (same : SameManuscript left right) :
    right.chapterSuffixes = left.chapterSuffixes := by
  unfold Disk.chapterSuffixes Disk.chapterEntries
  rw [same.dirs, same.manuscript]

theorem onDisk (same : SameManuscript left right) : right.onDisk = left.onDisk := by
  unfold Disk.onDisk
  rw [same.chapterSuffixes]

theorem draftWords (same : SameManuscript left right) (number : Int) :
    right.draftWords number = left.draftWords number := by
  unfold Disk.draftWords
  rw [same.read_chapterFile]

theorem recountTable (same : SameManuscript left right) (chapters : List ChapterEntry) :
    right.recountTable chapters = left.recountTable chapters := by
  unfold Disk.recountTable
  simp only [same.draftWords]

theorem exists_compiled (same : SameManuscript left right) :
    right.exists? right.compiledManuscript = left.exists? left.compiledManuscript := by
  unfold Disk.exists? Disk.compiledManuscript
  rw [same.manuscript]
  exact congrArg Option.isSome (same.layout ["compiled.md"])

theorem read_compiled (same : SameManuscript left right) :
    right.read right.compiledManuscript = left.read left.compiledManuscript := by
  unfold Disk.compiledManuscript
  rw [same.manuscript]
  exact same.read ["compiled.md"]

variable {state : State}

theorem bijectionBroken (same : SameManuscript left right) (relaxed : Bool) :
    NovelRalph.bijectionBroken state right relaxed =
      NovelRalph.bijectionBroken state left relaxed := by
  unfold NovelRalph.bijectionBroken
  rw [same.onDisk]

theorem countsStale (same : SameManuscript left right) :
    NovelRalph.countsStale state right = NovelRalph.countsStale state left := by
  unfold NovelRalph.countsStale
  rw [same.recountTable]

theorem coverageBroken (same : SameManuscript left right) (relaxed : Bool) :
    NovelRalph.coverageBroken state right relaxed =
      NovelRalph.coverageBroken state left relaxed := by
  unfold NovelRalph.coverageBroken
  rw [same.onDisk, same.recountTable]

theorem otherRefusal (same : SameManuscript left right) :
    NovelRalph.otherRefusal state right = NovelRalph.otherRefusal state left := by
  have cursor : cursorPlanMissing state right = cursorPlanMissing state left := by
    unfold cursorPlanMissing
    simp only [same.exists_chapterFile]
  have done : doneWithoutDraft state right = doneWithoutDraft state left := by
    unfold doneWithoutDraft
    simp only [same.exists_chapterFile, same.draftWords]
  have compiled : compiledStale state right = compiledStale state left := by
    unfold compiledStale Disk.compiledText Disk.draftBody
    simp only [same.exists_compiled, same.read_compiled, same.read_chapterFile]
  unfold NovelRalph.otherRefusal
  rw [cursor, done, compiled]

theorem refusal (same : SameManuscript left right) :
    NovelRalph.refusal state right = NovelRalph.refusal state left := by
  unfold NovelRalph.refusal
  rw [same.bijectionBroken, same.otherRefusal]

theorem drift (same : SameManuscript left right) :
    NovelRalph.drift state right = NovelRalph.drift state left := by
  unfold NovelRalph.drift
  rw [same.countsStale, same.coverageBroken]

theorem coverGap (same : SameManuscript left right) : CoverGap state right ↔ CoverGap state left := by
  unfold CoverGap
  rw [same.bijectionBroken, same.otherRefusal, same.onDisk]

theorem readable (same : SameManuscript left right) (readable : Readable state left) :
    Readable state right where
  drafts entry member := by
    obtain ⟨spelled, read⟩ := readable.drafts entry member
    refine ⟨spelled, ?_⟩
    rw [same.read_chapterFile]
    exact read
  compiled there := by
    rw [same.exists_compiled] at there
    rw [same.read_compiled]
    exact readable.compiled there
  names := by
    rw [same.chapterSuffixes]
    exact readable.names

end SameManuscript

section Outcomes

variable {state : State} {disk : Disk} {reconciliation : Reconciliation String}

/-- A derived refusal has its reason, and no coverage gap excuses it. -/
theorem Derivation.refused (derivation : Derivation state disk reconciliation)
    (action : reconciliation.action = .refuse) :
    ¬ CoverGap state disk ∧ NovelRalph.refusal state disk = true := by
  cases derivation with
  | refuse explanation unexplained noGap refused => exact ⟨noGap, refused⟩
  | pendingTurn pending recorded agreed =>
      rcases action_classifyPendingTurn disk pending [InvariantName.pendingTurnCleared] with
        turn | turn <;> rw [turn] at action <;> cases action
  | _ => cases action

/-- Where something is refused and no gap excuses it, a turn explains it or the run refuses. -/
theorem Derivation.of_refusal (derivation : Derivation state disk reconciliation)
    (refused : NovelRalph.refusal state disk = true) (noGap : ¬ CoverGap state disk) :
    (reconciliation.action = .completePendingTurn ∧
        reconciliation.operation = some setChaptersOperation) ∨
      ∃ names, reconciliation = refuseReconciliation names := by
  cases derivation with
  | explained pending recorded explains => exact Or.inl ⟨rfl, congrArg some explains.1⟩
  | coverGap gap => exact absurd gap noGap
  | refuse explanation unexplained noGap refused => exact Or.inr ⟨_, rfl⟩
  | pendingTurn pending recorded agreed => rw [refused] at agreed; cases agreed
  | recount settled agreed stale => rw [refused] at agreed; cases agreed
  | recreateLog settled agreed current absent => rw [refused] at agreed; cases agreed
  | none settled agreed current present => rw [refused] at agreed; cases agreed

/-- Where nothing is refused, a recorded turn is the one that is classified. -/
theorem Derivation.of_agreed (derivation : Derivation state disk reconciliation)
    {pending : PendingTurn} (recorded : state.pendingTurn = some pending)
    (agreed : NovelRalph.refusal state disk = false) :
    reconciliation = classifyPendingTurn disk pending [InvariantName.pendingTurnCleared] := by
  cases derivation with
  | pendingTurn other named _ =>
      rw [recorded, Option.some.injEq] at named
      rw [named]
  | explained other _ explains =>
      unfold NovelRalph.refusal at agreed
      rw [explains.2.1] at agreed
      cases agreed
  | coverGap gap => rw [gap.refusal] at agreed; cases agreed
  | refuse _ _ _ refused => rw [refused] at agreed; cases agreed
  | recount settled _ _ => rw [recorded] at settled; cases settled
  | recreateLog settled _ _ _ => rw [recorded] at settled; cases settled
  | none settled _ _ _ => rw [recorded] at settled; cases settled

/-- Where nothing is refused, a recorded turn is rolled back or completed. -/
theorem Derivation.turn_of_agreed (derivation : Derivation state disk reconciliation)
    {pending : PendingTurn} (recorded : state.pendingTurn = some pending)
    (agreed : NovelRalph.refusal state disk = false) :
    reconciliation.action = .rollbackPendingTurn ∨
      reconciliation.action = .completePendingTurn := by
  rw [derivation.of_agreed recorded agreed]
  exact action_classifyPendingTurn ..

/-- A refusal under a record of another operation than `set-chapters` is final. -/
theorem derives_refusal (readable : Readable state disk)
    (plain : ∀ pending, state.pendingTurn = some pending → pending.operation ≠ setChaptersOperation)
    (noGap : ¬ CoverGap state disk) (refused : refusal state disk = true) :
    ∃ names, deriveReconciliation state disk = .ok (refuseReconciliation names) := by
  have explanation : ExplanationReadable state disk := by
    refine ⟨false, ?_⟩
    unfold setChaptersTurnExplainsBijection
    cases recorded : state.pendingTurn with
    | none => rfl
    | some pending => exact if_pos (plain pending recorded)
  exact ⟨_, (deriveReconciliation_iff readable).mpr (.refuse explanation
    (fun pending recorded explains => plain pending recorded explains.1) noGap refused)⟩

end Outcomes

end NovelRalph
