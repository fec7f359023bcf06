import NovelRalph.Commands.Check
import NovelRalph.State.DonePredicate

/-!
# `compile` and `done`

`compile` writes the ordered concatenation of the drafts into `compiled.md`;
with `--check` it only compares. `done` evaluates the done predicate and turns
the six clauses into one of three exit codes, one of which advises to compile
again.
-/

namespace NovelRalph

/-- `COMPILED_REL`. -/
def compiledRel : String := "working/manuscript/compiled.md"

/-- `_compile_write_error`. -/
def compileWriteError : Fault :=
  .stateInputError ["cannot write " ++ compiledRel ++ "; ensure its parent directory " ++
    "working/manuscript/ exists (re-create it or restore the working tree), then re-run the compile"]

section Commands

variable {toml : Tomlkit}

/-- `_require_chapter_manifest`. -/
def requireChapterManifest (state : State) : Except Fault Unit :=
  if state.chapters = [] then
    .error (.stateInputError ["cannot compile: chapter manifest is absent or empty"])
  else .ok ()

/-- `write_text_atomically` of the rendered manuscript. -/
def writeCompiled (rendered : String) : Command toml Unit :=
  .perform fun world =>
    guardStateInput compileWriteError (world.replaceFile world.disk.compiledManuscript rendered)

/-- `compile_manuscript`. -/
def compileManuscript : Command toml CommandOutcome := do
  let state ← loadOrStateError
  Prog.observe fun _ => requireChapterManifest state
  let bodies ← Prog.observe fun world =>
    guardStateInput draftReadError (world.disk.presentDraftBodies state.chapters)
  let rendered := concatenateDrafts bodies
  writeCompiled rendered
  return {
    code := .success
    result := [("compiled", .str compiledRel), ("chapters", .int state.chapters.length),
      ("bytes", .int rendered.utf8ByteSize)]
    messages := ["compiled " ++ intText state.chapters.length ++ " chapters into " ++ compiledRel] }

/-- `check_compiled`. -/
def checkCompiled : Command toml CommandOutcome := do
  let state ← loadOrStateError
  Prog.observe fun _ => requireChapterManifest state
  let verdict ← Prog.observe fun world =>
    guardStateInput draftReadError (world.disk.compiledMatchesDrafts state.chapters)
  let result diverged : Table := [("checked", .str compiledRel),
    ("chapters", .int state.chapters.length), ("diverged", .bool diverged)]
  if compileIsCurrent verdict then
    return {
      code := .success
      result := result false
      messages := [compiledRel ++ " matches the chapter drafts"] }
  else
    return {
      code := .actionableFinding
      result := result true
      messages := [compiledRel ++ " diverges from the chapter drafts; regenerate it with " ++
        "novel-compile"] }

/-- `_sole_stale_compile`. -/
def soleStaleCompile (clauses : DoneClauses) (disk : Disk) : Bool :=
  if clauses.failedClauseNames ≠ ["compile_consistent"] then false
  else disk.exists? disk.compiledManuscript

/-- `_failed_clause_message`. -/
def failedClauseMessage (disk : Disk) (name : String) : String :=
  if name = "compile_consistent" ∧ disk.exists? disk.compiledManuscript = false then
    "compile_consistent is false (compiled.md missing)"
  else name ++ " is false"

/-- `_novel_done`, from the clauses on. -/
def doneOutcome (clauses : DoneClauses) (disk : Disk) : CommandOutcome :=
  if clauses.allHold then
    { code := .success, result := clauses.asResult, messages := ["novel is done"] }
  else if soleStaleCompile clauses disk then
    { code := .actionableFinding
      result := clauses.asResult
      messages := ["compile_consistent is false (stale compile; regenerate)"] }
  else
    { code := .benignNegative
      result := clauses.asResult
      messages := clauses.failedClauseNames.map (failedClauseMessage disk) }

/-- `_novel_done`. -/
def novelDone : Command toml CommandOutcome := do
  let state ← loadOrStateError
  let clauses ← Prog.observe fun world =>
    guardStateInput draftReadError (evaluateDone state world.disk)
  Prog.observe fun world => .ok (doneOutcome clauses world.disk)

end Commands

/-! ## What each command returns -/

section Runs

variable {toml : Tomlkit} {world : World toml.Text} {state : State}

/-- A populated manifest passes the refusal. -/
theorem requireChapterManifest_of_ne_nil (populated : state.chapters ≠ []) :
    requireChapterManifest state = .ok () := if_neg populated

/-- Compiling readable drafts is one replacement of `compiled.md`, or a fault of that write. -/
theorem compileManuscript_of_readable (shows : Shows world state) (populated : state.chapters ≠ [])
    (drafts : ∀ entry ∈ state.chapters, world.disk.DraftReadable entry.number) :
    ∃ outcome, outcome.code = .success ∧ compileManuscript world =
      (writeCompiled (world.disk.compiledText state.chapters) >>= fun _ => pure outcome) world := by
  have bodies : guardStateInput draftReadError (world.disk.presentDraftBodies state.chapters) =
      .ok ((sortedChapters state.chapters).map fun chapter =>
        world.disk.draftBody chapter.number) := by
    rw [Disk.presentDraftBodies_of_readable drafts, guardStateInput_ok]
  unfold compileManuscript
  rw [Prog.bind_quiet world (loadOrStateError_of_shows shows),
    Prog.observe_bind_ok world (requireChapterManifest_of_ne_nil populated),
    Prog.observe_bind_ok world bodies]
  exact ⟨{ code := .success, result := _, messages := _ }, rfl, rfl⟩

/-- A compile whose replacement of `compiled.md` goes through exits 0 and ends there. -/
theorem compile_of_replaced {next : World toml.Text} (shows : Shows world state)
    (populated : state.chapters ≠ [])
    (drafts : ∀ entry ∈ state.chapters, world.disk.DraftReadable entry.number)
    (replaced : world.replaceFile world.disk.compiledManuscript
      (world.disk.compiledText state.chapters) = .ok next) :
    exitCodeOf (compileManuscript world).result = some 0 ∧
      (compileManuscript world).final world = next := by
  obtain ⟨outcome, success, run⟩ := compileManuscript_of_readable shows populated drafts
  have writes : writeCompiled (world.disk.compiledText state.chapters) world =
      ⟨[next], .ok ()⟩ := Prog.perform_ok world (by rw [replaced]; rfl)
  rw [run, Prog.bind_ok world writes, exitCodeOf_eq_zero]
  exact ⟨⟨outcome, rfl, success⟩, rfl⟩

/-- A compile that exits 0 had a populated manifest, and its replacement went through. -/
theorem replaced_of_compile (shows : Shows world state)
    (drafts : ∀ entry ∈ state.chapters, world.disk.DraftReadable entry.number)
    (exits : exitCodeOf (compileManuscript world).result = some 0) :
    state.chapters ≠ [] ∧ ∃ next, world.replaceFile world.disk.compiledManuscript
      (world.disk.compiledText state.chapters) = .ok next := by
  have populated : state.chapters ≠ [] := by
    intro empty
    have refused : compileManuscript world = ⟨[], .error (.stateInputError
        ["cannot compile: chapter manifest is absent or empty"])⟩ := by
      unfold compileManuscript
      rw [Prog.bind_quiet world (loadOrStateError_of_shows shows)]
      exact Prog.bind_error world (by rw [Prog.observe_apply, requireChapterManifest, if_pos empty])
    rw [refused] at exits
    simp [exitCodeOf, ExitCode.toNat] at exits
  refine ⟨populated, ?_⟩
  obtain ⟨outcome, success, run⟩ := compileManuscript_of_readable shows populated drafts
  rw [run, exitCodeOf_eq_zero] at exits
  obtain ⟨returned, ended, -⟩ := exits
  cases written : world.replaceFile world.disk.compiledManuscript
      (world.disk.compiledText state.chapters) with
  | ok next => exact ⟨next, rfl⟩
  | error fault =>
      have faults : writeCompiled (world.disk.compiledText state.chapters) world =
          ⟨[], .error (if fault.isStateInput then compileWriteError else fault)⟩ :=
        Prog.perform_error world (by rw [written]; rfl)
      rw [Prog.bind_error world faults] at ended
      cases ended

/-- `compile --check` on readable drafts exits 0 exactly when `compiled.md` is current. -/
theorem check_compiled_exits_zero (shows : Shows world state) (populated : state.chapters ≠ [])
    (drafts : ∀ entry ∈ state.chapters, world.disk.DraftReadable entry.number)
    (compiled : world.disk.exists? world.disk.compiledManuscript = true →
      ∃ text, world.disk.read world.disk.compiledManuscript = .ok text) :
    exitCodeOf (checkCompiled world).result = some 0 ↔ compiledCurrent state world.disk = true := by
  obtain ⟨verdict, compared, current⟩ :=
    except_bind_eq_ok.mp (compileConsistent_of_readable drafts compiled)
  have guarded : guardStateInput draftReadError
      (world.disk.compiledMatchesDrafts state.chapters) = .ok verdict := by
    rw [compared, guardStateInput_ok]
  have decided : compileIsCurrent verdict = compiledCurrent state world.disk := by
    simpa [pure, Except.pure] using current
  unfold checkCompiled
  rw [Prog.bind_quiet world (loadOrStateError_of_shows shows),
    Prog.observe_bind_ok world (requireChapterManifest_of_ne_nil populated),
    Prog.observe_bind_ok world guarded]
  simp only [decided]
  cases compiledCurrent state world.disk <;> simp [exitCodeOf, ExitCode.toNat]

/-- `done` on a readable tree returns the outcome of the six clauses. -/
theorem novelDone_of_readable (shows : Shows world state)
    (readable : DoneReadable state world.disk) :
    (novelDone world).result = .ok (doneOutcome (doneClauses state world.disk) world.disk) := by
  have evaluated : guardStateInput draftReadError (evaluateDone state world.disk) =
      .ok (doneClauses state world.disk) := by
    rw [evaluateDone_of_readable readable, guardStateInput_ok]
  unfold novelDone
  rw [Prog.bind_quiet world (loadOrStateError_of_shows shows), Prog.observe_bind_ok world evaluated]
  rfl

end Runs

end NovelRalph
