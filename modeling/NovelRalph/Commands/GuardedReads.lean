import NovelRalph.Commands.Compile
import NovelRalph.State.Precedence

/-!
# Which faults leave a command

The runner turns two kinds of fault into exit codes, the state-input error and the
usage error. What the detectors raise are faults of reading or of converting
digits, which a guard translates; `compile`, `compile --check` and `done` guard
everything they read, so from a state that loads they raise nothing else,
whatever is wrong with the files.
-/

namespace NovelRalph

namespace Fault

/-- A fault that the runner turns into an exit code. -/
def Handled : Fault → Prop
  | stateInputError _ | usageError _ => True
  | _ => False

instance : DecidablePred Handled
  | stateInputError _ | usageError _ => isTrue trivial
  | os _ | unicodeDecodeError | tomlDecodeError | keyError _ | valueError | typeError
  | attributeError | overflowError | illTyped _ => isFalse id

/-- A fault that a guard translates. -/
def Caught (fault : Fault) : Prop := fault.isStateInput = true

theorem Caught.not_handled {fault : Fault} (caught : fault.Caught) : ¬fault.Handled := by
  intro handled
  cases fault with
  | stateInputError | usageError => cases caught
  | _ => exact handled

end Fault

/-- A body that returns, or raises what the runner turns into an exit code. -/
abbrev Contained {α : Type} (result : Except Fault α) : Prop := Confined Fault.Handled result

section Guards

variable {α : Type} {inner : Except Fault α} {messages : List String}

/-- A guard contains what raises only what it translates. -/
theorem contained_guard (caught : Confined Fault.Caught inner) :
    Contained (guardStateInput (.stateInputError messages) inner) := by
  cases inner with
  | ok value => exact confined_ok
  | error fault =>
      have translated : fault.isStateInput = true := caught fault rfl
      show Contained (.error (if fault.isStateInput then .stateInputError messages else fault))
      rw [if_pos translated]
      exact confined_error.mpr trivial

/-- What raises only what a guard would translate is contained, without one, when it returns. -/
theorem contained_of_caught (caught : Confined Fault.Caught inner) :
    Contained inner ↔ ∃ value, inner = .ok value :=
  confined_iff_returns fun fault raised => (caught fault raised).not_handled

end Guards

/-! ## The reads -/

section Reads

variable {Text : Type} {world : World Text} {disk : Disk}

/-- Whatever is wrong with a file, a guard translates it. -/
theorem caught_read (loc : Loc) : Confined Fault.Caught (world.disk.read loc) := by
  intro fault raised
  change world.read loc = .error fault at raised
  unfold World.read at raised
  split at raised
  · cases raised
    rfl
  · cases raised
    rfl
  · split at raised <;> cases raised <;> rfl

theorem caught_spelled (numbers : List Int) : Confined Fault.Caught (spelled numbers) := by
  intro fault raised
  rw [spelled_error raised]
  rfl

/-- Spelling numbers is contained where all of them can be spelled. -/
theorem contained_spelled {numbers : List Int} :
    Contained (spelled numbers) ↔ ∀ number ∈ numbers, tooLong number = false := by
  have raises : ∀ fault, spelled numbers = .error fault → ¬fault.Handled := by
    intro fault raised
    rw [spelled_error raised]
    exact id
  rw [Contained, confined_iff_returns raises, ← spelled_eq_ok]
  exact ⟨fun ⟨_, returned⟩ => returned, fun returned => ⟨(), returned⟩⟩

variable (reads : ∀ loc, Confined Fault.Caught (disk.read loc))

include reads

theorem caught_recountWords (chapters : List ChapterEntry) :
    Confined Fault.Caught (disk.recountWords chapters) := by
  intro fault raised
  rcases Disk.read_of_recountWords_error raised with rfl | ⟨loc, found⟩
  · rfl
  · exact reads loc fault found

theorem caught_presentDraftBodies (chapters : List ChapterEntry) :
    Confined Fault.Caught (disk.presentDraftBodies chapters) := by
  apply Confined.mapM
  intro chapter _
  apply (caught_spelled _).bind
  intro named _
  dsimp only
  split
  · exact reads _
  · exact confined_ok

theorem caught_compiledMatchesDrafts (chapters : List ChapterEntry) :
    Confined Fault.Caught (disk.compiledMatchesDrafts chapters) := by
  unfold Disk.compiledMatchesDrafts
  split
  · apply (caught_presentDraftBodies reads chapters).bind
    intro bodies _
    apply (reads _).bind
    intro compiled _
    exact confined_ok
  · exact confined_ok

theorem caught_containsUnresolvedBlocker (notes : Loc) :
    Confined Fault.Caught (containsUnresolvedBlocker disk notes) := by
  intro fault raised
  unfold containsUnresolvedBlocker at raised
  split at raised
  · cases raised
  · cases raised
  · next other _ found =>
      cases raised
      exact reads _ _ found

theorem caught_noUnresolvedBlockers (state : State) :
    Confined Fault.Caught (noUnresolvedBlockers state disk) := by
  unfold noUnresolvedBlockers
  induction state.chapters with
  | nil => exact confined_ok
  | cons chapter rest inductionHypothesis =>
      unfold noUnresolvedBlockers.go
      apply (caught_spelled _).bind
      intro named _
      apply (caught_containsUnresolvedBlocker reads _).bind
      intro blocked _
      split
      · exact confined_ok
      · exact inductionHypothesis

omit reads in
theorem caught_allChaptersFlagged (state : State) :
    Confined Fault.Caught (allChaptersFlagged state disk) := by
  unfold allChaptersFlagged
  induction state.chapters with
  | nil => exact confined_ok
  | cons chapter rest inductionHypothesis =>
      unfold allChaptersFlagged.go
      apply (caught_spelled _).bind
      intro named _
      split
      · exact inductionHypothesis
      · exact confined_ok

theorem caught_evaluateDone (state : State) : Confined Fault.Caught (evaluateDone state disk) := by
  unfold evaluateDone compileConsistent
  apply (caught_allChaptersFlagged state).bind
  intro flagged _
  apply Confined.bind ((caught_compiledMatchesDrafts reads _).bind fun _ _ => confined_ok)
  intro consistent _
  apply (caught_noUnresolvedBlockers reads state).bind
  intro unblocked _
  exact confined_ok

omit reads in
theorem caught_onDiskChapterNumbers : Confined Fault.Caught disk.onDiskChapterNumbers := by
  unfold Disk.onDiskChapterNumbers
  split
  · exact confined_error.mpr rfl
  · exact confined_ok

omit reads in
theorem caught_declaredChapterNumbers (paths : List String) :
    Confined Fault.Caught (declaredChapterNumbers paths) := by
  unfold declaredChapterNumbers
  generalize (∅ : Finset Int) = numbers
  induction paths generalizing numbers with
  | nil => exact confined_ok
  | cons path rest inductionHypothesis =>
      unfold declaredChapterNumbersFrom
      dsimp only
      split
      · exact inductionHypothesis numbers
      · split
        · next fault raised =>
            obtain ⟨-, rfl⟩ := chapterNumberOf_eq_error.mp raised
            exact confined_error.mpr rfl
        · exact confined_ok
        · exact inductionHypothesis _

theorem caught_doneFlagWithoutDraftAt (number : Int) :
    Confined Fault.Caught (doneFlagWithoutDraftAt disk number) := by
  unfold doneFlagWithoutDraftAt
  apply (caught_spelled _).bind
  intro named _
  split
  · dsimp only
    split
    · exact Confined.bind ((reads _).bind fun _ _ => confined_ok) fun _ _ => confined_ok
    · exact confined_ok
  · exact confined_ok

theorem caught_checkDoneFlagWithoutDraft (state : State) :
    Confined Fault.Caught (checkDoneFlagWithoutDraft state disk) := by
  unfold checkDoneFlagWithoutDraft
  induction state.chapters with
  | nil => exact confined_ok
  | cons chapter rest inductionHypothesis =>
      unfold checkDoneFlagWithoutDraft.go
      apply (caught_doneFlagWithoutDraftAt reads _).bind
      intro flagged _
      split
      · exact confined_ok
      · exact inductionHypothesis

theorem caught_checkWordCountsCoverDrafts (state : State) (relaxed : Bool) :
    Confined Fault.Caught (checkWordCountsCoverDrafts state disk relaxed) := by
  unfold checkWordCountsCoverDrafts
  apply caught_onDiskChapterNumbers.bind
  intro onDisk _
  split
  · exact (caught_recountWords reads _).bind fun _ _ => confined_ok
  · split <;> exact confined_ok

/-- The detector raises only what the guard of `check` translates. -/
theorem caught_checkDiskEvidence (state : State) (relaxed : Bool) :
    Confined Fault.Caught (checkDiskEvidence state disk relaxed) := by
  unfold checkDiskEvidence
  apply Confined.bind
  · unfold checkManifestDiskBijection
    apply caught_onDiskChapterNumbers.bind
    intro onDisk _
    dsimp only
    split
    · exact confined_ok
    · split
      · exact confined_ok
      · unfold BijectionBreak.describe
        exact ((caught_spelled _).bind fun _ _ => confined_ok).bind fun _ _ => confined_ok
  · intro head _
    apply (caught_checkWordCountsCoverDrafts reads state relaxed).bind
    intro cover _
    apply Confined.bind
    · apply Confined.mapM
      intro predicate listed
      simp only [tailPredicates, List.mem_cons, List.not_mem_nil, or_false] at listed
      rcases listed with rfl | rfl | rfl | rfl | rfl | rfl
      · exact confined_ok
      · exact caught_checkDoneFlagWithoutDraft reads state
      · apply (caught_compiledMatchesDrafts reads _).bind
        intro verdict _
        split <;> exact confined_ok
      · exact confined_ok
      · apply (caught_recountWords reads _).bind
        intro counted _
        dsimp only
        split <;> exact confined_ok
      · exact confined_ok
    · exact fun _ _ => confined_ok

/-- The derivation raises only what a guard would translate, were there one. -/
theorem caught_deriveReconciliation (state : State) :
    Confined Fault.Caught (deriveReconciliation state disk) := by
  have explanation : ∀ fired,
      Confined Fault.Caught (setChaptersTurnExplainsBijection state disk fired) := by
    intro fired
    unfold setChaptersTurnExplainsBijection
    split
    · exact confined_ok
    · split
      · exact confined_ok
      · split
        · exact confined_ok
        · apply caught_onDiskChapterNumbers.bind
          intro onDisk _
          dsimp only
          split
          · exact confined_ok
          · apply (caught_declaredChapterNumbers _).bind
            intro numbers _
            cases numbers <;> exact confined_ok
  have recount : ∀ names, Confined Fault.Caught (deriveRecount state disk names) := fun names =>
    (caught_recountWords reads _).bind fun _ _ => confined_ok
  have gap : ∀ fired, Confined Fault.Caught (draftingSubsetCoverGap state disk fired) := by
    intro fired
    unfold draftingSubsetCoverGap
    split
    · exact confined_ok
    · split
      · exact confined_ok
      · apply caught_onDiskChapterNumbers.bind
        intro onDisk _
        split
        · exact confined_ok
        · split
          · exact confined_ok
          · exact (caught_checkWordCountsCoverDrafts reads _ _).bind fun _ _ => confined_ok
  unfold deriveReconciliation
  apply (caught_checkDiskEvidence reads state false).bind
  intro violations _
  unfold classifyFired
  apply Confined.bind
  · unfold scopedPrecedenceException
    apply (explanation _).bind
    intro explained _
    split
    · exact confined_ok
    · apply (gap _).bind
      intro uncovered _
      split
      · exact (recount _).bind fun _ _ => confined_ok
      · exact confined_ok
  · intro exception _
    split
    · exact confined_ok
    · dsimp only
      split
      · exact confined_ok
      · split
        · exact confined_ok
        · split
          · exact recount _
          · split <;> exact confined_ok

end Reads

/-! ## Commands that guard every read -/

section Guarded

variable {toml : Tomlkit} {world : World toml.Text} {state : State} (shows : Shows world state)

include shows

omit shows in
theorem contained_requireChapterManifest : Contained (requireChapterManifest state) := by
  unfold requireChapterManifest
  split
  · exact confined_error.mpr trivial
  · exact confined_ok

/-- `compile` raises nothing that the runner does not handle. -/
theorem contained_compile : Contained (compileManuscript world).result := by
  unfold compileManuscript
  rw [Prog.bind_quiet world (loadOrStateError_of_shows shows), Prog.result_observe_bind]
  apply contained_requireChapterManifest.bind
  intro populated _
  rw [Prog.result_observe_bind]
  apply (contained_guard (caught_presentDraftBodies caught_read _)).bind
  intro bodies _
  have written : Prog.RaisesOnly Fault.Handled
      (writeCompiled (concatenateDrafts bodies) : Command toml Unit) := by
    apply Prog.RaisesOnly.perform
    intro start
    apply contained_guard
    intro fault raised
    unfold World.replaceFile at raised
    split at raised
    · cases raised
    · split at raised <;> cases raised <;> rfl
  exact (written.bind fun _ => Prog.RaisesOnly.pure _) world

theorem contained_checkCompiled : Contained (checkCompiled world).result := by
  unfold checkCompiled
  rw [Prog.bind_quiet world (loadOrStateError_of_shows shows), Prog.result_observe_bind]
  apply contained_requireChapterManifest.bind
  intro populated _
  rw [Prog.result_observe_bind]
  apply (contained_guard (caught_compiledMatchesDrafts caught_read _)).bind
  intro verdict _
  dsimp only
  split <;> exact confined_ok

theorem contained_novelDone : Contained (novelDone world).result := by
  unfold novelDone
  rw [Prog.bind_quiet world (loadOrStateError_of_shows shows), Prog.result_observe_bind]
  apply (contained_guard (caught_evaluateDone caught_read state)).bind
  intro clauses _
  exact confined_ok

end Guarded

end NovelRalph
