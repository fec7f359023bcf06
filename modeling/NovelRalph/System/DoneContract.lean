import NovelRalph.System.FreshCompile

/-!
# The exit contract of `done`

`done` exits 0 when all six clauses hold and 4 when `compile_consistent` alone
fails beside a `compiled.md`, which advises to compile again. Compiling changes
no other clause and makes this one true; but `compile` refuses an empty manifest,
for which two of the other clauses hold vacuously, so there the advice fails.
-/

namespace NovelRalph

section Outcome

variable {clauses : DoneClauses} {disk : Disk}

theorem soleStaleCompile_iff : soleStaleCompile clauses disk = true ↔
    (clauses.OthersHold ∧ clauses.compileConsistent = false) ∧
      disk.exists? disk.compiledManuscript = true := by
  rw [← DoneClauses.failedClauseNames_iff]
  unfold soleStaleCompile
  by_cases sole : clauses.failedClauseNames = ["compile_consistent"] <;> simp [sole]

/-- The three codes of `done`. -/
theorem doneOutcome_code : (doneOutcome clauses disk).code =
    if clauses.allHold then .success
    else if soleStaleCompile clauses disk then .actionableFinding
    else .benignNegative := by
  unfold doneOutcome
  cases clauses.allHold <;> cases soleStaleCompile clauses disk <;> rfl

end Outcome

section Contract

variable {toml : Tomlkit} (state : State) (world : World toml.Text)

/-- The exit codes of `done` and `compile --check`, and the advice of exit 4. -/
structure DoneContract : Prop where
  done : exitCodeOf (novelDone world).result = some 0 ↔
    (doneClauses state world.disk).allHold = true
  stale : exitCodeOf (novelDone world).result = some 4 ↔
    (doneClauses state world.disk).failedClauseNames = ["compile_consistent"] ∧
      world.disk.exists? world.disk.compiledManuscript = true
  otherwise : exitCodeOf (novelDone world).result ≠ some 0 →
    exitCodeOf (novelDone world).result ≠ some 4 → exitCodeOf (novelDone world).result = some 1
  check : state.chapters ≠ [] → (exitCodeOf (checkCompiled world).result = some 0 ↔
    compileConsistent state world.disk = .ok true)
  advice : exitCodeOf (novelDone world).result = some 4 →
    exitCodeOf (compileManuscript world).result = some 0 ∧
      exitCodeOf (novelDone ((compileManuscript world).final world)).result = some 0

/-- An empty manifest beside a compile that is not empty, with all but the manifest finished. -/
structure EmptyButCompiled (disk : Disk) : Prop where
  empty : state.chapters = []
  phase : phaseIsDone state = true
  final : finalPassComplete state = true
  knitting : knittingGatesPassed state disk = true
  compiled : disk.exists? disk.compiledManuscript = true
  text : disk.read disk.compiledManuscript ≠ .ok ""

end Contract

section Exits

variable {toml : Tomlkit} {state : State} {world next : World toml.Text}

/-- The exit code of `done` on a readable tree. -/
theorem done_exit (shows : Shows world state) (readable : DoneReadable state world.disk) :
    exitCodeOf (novelDone world).result =
      some (if (doneClauses state world.disk).allHold then 0
        else if soleStaleCompile (doneClauses state world.disk) world.disk then 4 else 1) := by
  rw [novelDone_of_readable shows readable, exitCodeOf, doneOutcome_code]
  cases (doneClauses state world.disk).allHold <;>
    cases soleStaleCompile (doneClauses state world.disk) world.disk <;> rfl

theorem done_exits_zero (shows : Shows world state) (readable : DoneReadable state world.disk) :
    exitCodeOf (novelDone world).result = some 0 ↔
      (doneClauses state world.disk).allHold = true := by
  rw [done_exit shows readable]
  cases (doneClauses state world.disk).allHold <;>
    cases soleStaleCompile (doneClauses state world.disk) world.disk <;> simp

theorem done_exits_four (shows : Shows world state) (readable : DoneReadable state world.disk) :
    exitCodeOf (novelDone world).result = some 4 ↔
      (doneClauses state world.disk).failedClauseNames = ["compile_consistent"] ∧
        world.disk.exists? world.disk.compiledManuscript = true := by
  have incomplete : soleStaleCompile (doneClauses state world.disk) world.disk = true →
      (doneClauses state world.disk).allHold = false := by
    rw [soleStaleCompile_iff]
    rintro ⟨⟨-, stale⟩, -⟩
    rw [Bool.eq_false_iff, Ne, DoneClauses.allHold_iff]
    rintro ⟨-, current⟩
    rw [stale] at current
    cases current
  rw [done_exit shows readable, DoneClauses.failedClauseNames_iff, ← soleStaleCompile_iff]
  cases sole : soleStaleCompile (doneClauses state world.disk) world.disk with
  | true => simp [incomplete sole]
  | false => cases (doneClauses state world.disk).allHold <;> simp

/-- Replacing `compiled.md` leaves every clause but `compile_consistent` alone. -/
theorem doneReadable_of_replaced (readable : DoneReadable state world.disk)
    (replaced : world.replaceFile world.disk.compiledManuscript
      (world.disk.compiledText state.chapters) = .ok next) : DoneReadable state next.disk := by
  obtain ⟨same, -, -, -⟩ := World.replaceFile_ok replaced
  refine ⟨fun entry member => World.SameBut.draftReadable same (readable.drafts entry member),
    fun _ => ⟨_, (fresh_of_replaced readable.drafts replaced).2⟩, fun entry member => ?_⟩
  rw [World.SameBut.read_chapter same]
  exact readable.notes entry member

/-- A review is not the compiled manuscript. -/
theorem knittingReview_ne_compiled {disk : Disk} (percentage : String) :
    disk.knittingReview percentage ≠ disk.compiledManuscript := by
  intro same
  exact absurd (List.cons_eq_cons.mp (List.cons_eq_cons.mp same).2).1 (by decide)

/-- The clauses of the tree a compile leaves. -/
theorem doneClauses_of_replaced (readable : DoneReadable state world.disk)
    (replaced : world.replaceFile world.disk.compiledManuscript
      (world.disk.compiledText state.chapters) = .ok next) :
    doneClauses state next.disk =
      { doneClauses state world.disk with compileConsistent := true } := by
  obtain ⟨same, -, -, -⟩ := World.replaceFile_ok replaced
  have flagged : chaptersFlagged state next.disk = chaptersFlagged state world.disk := by
    unfold chaptersFlagged
    simp only [World.SameBut.exists_chapter same]
  have reviews : ∀ percentage, next.disk.exists? (next.disk.knittingReview percentage) =
      world.disk.exists? (world.disk.knittingReview percentage) := by
    intro percentage
    have place : next.disk.knittingReview percentage = world.disk.knittingReview percentage := by
      show _ :: "reviews" :: workingLoc next.cwd = _
      rw [same.cwd]
      rfl
    rw [place]
    exact congrArg Option.isSome (same.layout (knittingReview_ne_compiled percentage))
  have knitting : knittingGatesPassed state next.disk = knittingGatesPassed state world.disk := by
    unfold knittingGatesPassed
    simp only [reviews]
  have blockers : unblocked state next.disk = unblocked state world.disk := by
    unfold unblocked
    simp only [World.SameBut.read_chapter same]
  unfold doneClauses
  rw [flagged, knitting, blockers, compiledCurrent_of_replaced readable.drafts replaced]

/-- Beside a readable `compiled.md` a compile can replace it. -/
theorem replaceable_of_compiled (readable : DoneReadable state world.disk)
    (there : world.disk.exists? world.disk.compiledManuscript = true) (content : String) :
    ∃ next, world.replaceFile world.disk.compiledManuscript content = .ok next := by
  refine World.replaceFile_succeeds ?_ ?_ content
  · exact World.layout_eq_dir.mp (World.layout_closed _ there)
  · intro directory
    obtain ⟨text, read⟩ := readable.compiled there
    have failed : world.read world.disk.compiledManuscript = .error (.os .isADirectory) := by
      unfold World.read
      rw [World.layout_eq_dir.mpr directory]
    have returned : world.read world.disk.compiledManuscript = .ok text := read
    rw [failed] at returned
    cases returned

/-- With a populated manifest the advice of exit 4 works. -/
theorem advice_of_populated (shows : Shows world state) (readable : DoneReadable state world.disk)
    (populated : state.chapters ≠ []) (exits : exitCodeOf (novelDone world).result = some 4) :
    exitCodeOf (compileManuscript world).result = some 0 ∧
      exitCodeOf (novelDone ((compileManuscript world).final world)).result = some 0 := by
  obtain ⟨sole, there⟩ := (done_exits_four shows readable).mp exits
  obtain ⟨others, -⟩ := (DoneClauses.failedClauseNames_iff _).mp sole
  obtain ⟨next, replaced⟩ := replaceable_of_compiled readable there
    (world.disk.compiledText state.chapters)
  obtain ⟨compiles, final⟩ := compile_of_replaced shows populated readable.drafts replaced
  obtain ⟨same, -, -, -⟩ := World.replaceFile_ok replaced
  refine ⟨compiles, ?_⟩
  rw [final, done_exits_zero (same.shows shows) (doneReadable_of_replaced readable replaced),
    doneClauses_of_replaced readable replaced, DoneClauses.allHold_iff]
  exact ⟨others, rfl⟩

/-- With an empty manifest `compile` never exits 0. -/
theorem compile_refuses_empty (shows : Shows world state) (empty : state.chapters = []) :
    exitCodeOf (compileManuscript world).result ≠ some 0 := by
  intro exits
  have drafts : ∀ entry ∈ state.chapters, world.disk.DraftReadable entry.number := by
    rw [empty]
    exact fun entry member => absurd member List.not_mem_nil
  exact (replaced_of_compile shows drafts exits).1 empty

/-- With an empty manifest, `done` exits 4 exactly beside a compile that is not empty. -/
theorem stale_of_empty (shows : Shows world state) (readable : DoneReadable state world.disk)
    (empty : state.chapters = []) :
    exitCodeOf (novelDone world).result = some 4 ↔ EmptyButCompiled state world.disk := by
  rw [done_exits_four shows readable, DoneClauses.failedClauseNames_iff]
  have text : world.disk.compiledText state.chapters = "" := by
    rw [empty]
    rfl
  have stale : world.disk.exists? world.disk.compiledManuscript = true →
      ((doneClauses state world.disk).compileConsistent = false ↔
        world.disk.read world.disk.compiledManuscript ≠ .ok "") := by
    intro there
    obtain ⟨held, read⟩ := readable.compiled there
    show compiledCurrent state world.disk = false ↔ _
    unfold compiledCurrent
    rw [read, there, text]
    simp
  constructor
  · rintro ⟨⟨⟨phase, final, -, knitting, -⟩, outdated⟩, there⟩
    exact ⟨empty, phase, final, knitting, there, (stale there).mp outdated⟩
  · rintro ⟨-, phase, final, knitting, there, differs⟩
    have flagged : chaptersFlagged state world.disk = true := by
      unfold chaptersFlagged
      rw [empty]
      rfl
    have unblocked : unblocked state world.disk = true := by
      unfold NovelRalph.unblocked
      rw [empty]
      rfl
    exact ⟨⟨⟨phase, final, flagged, knitting, unblocked⟩, (stale there).mpr differs⟩, there⟩

/-- The contract holds but for an empty manifest beside a compile that is not empty. -/
theorem done_contract_iff (shows : Shows world state) (readable : DoneReadable state world.disk) :
    DoneContract state world ↔ ¬ EmptyButCompiled state world.disk := by
  constructor
  · intro contract stuck
    have exits := (stale_of_empty shows readable stuck.empty).mpr stuck
    exact compile_refuses_empty shows stuck.empty (contract.advice exits).1
  · intro free
    refine ⟨done_exits_zero shows readable, done_exits_four shows readable, ?_, ?_, ?_⟩
    · rw [done_exit shows readable]
      split
      · simp
      · split <;> simp
    · intro populated
      rw [check_compiled_exits_zero shows populated readable.drafts readable.compiled,
        compileConsistent_of_readable readable.drafts readable.compiled, Except.ok.injEq]
    · intro exits
      refine advice_of_populated shows readable (fun empty => ?_) exits
      exact free ((stale_of_empty shows readable empty).mp exits)

end Exits

/-! ## A finished novel without chapters -/

/-- The phase is `done`, every gate is set, and `chapters` lists what the manifest should. -/
def finishedTable (chapters : List ChapterEntry) : Table :=
  ((initialEdits "Title" "slug" 1000 "2024-01-01T00:00:00Z") ++
    [setChapters chapters, setCompleted (Phase.order.take 10), setCurrentPhase .done,
      setGate "knitting" "done_30" true, setGate "knitting" "done_50" true,
      setGate "knitting" "done_80" true, setGate "final" "final_pass_complete" true]).foldl
        Table.edit []

/-- The three reviews are written, and `compiled.md` holds a word. -/
def finishedWorld (chapters : List ChapterEntry) : World Tomlkit.structural.Text :=
  [(["knitting-30.md", "reviews", "working"], ""), (["knitting-50.md", "reviews", "working"], ""),
    (["knitting-80.md", "reviews", "working"], ""),
    (["compiled.md", "manuscript", "working"], "word")].foldl
      (fun world file => world.putFile file.1 (.text file.2))
      ((initialWorld 1000).putState (.ok (finishedTable chapters)))

/-- What `finishedWorld` shows. -/
def finishedState (chapters : List ChapterEntry) : State :=
  { initialState "Title" "slug" 1000 "2024-01-01T00:00:00Z" with
    phase := { current := .done, completed := Phase.order.take 10 }
    chapters
    gates := ⟨⟨true, true, true⟩, ⟨true⟩⟩ }

/-- `done` advises to compile again, and `compile` refuses with exit 3. -/
theorem unchaptered_advice_fails :
    exitCodeOf (novelDone (finishedWorld [])).result = some 4 ∧
      exitCodeOf (compileManuscript (finishedWorld [])).result = some 3 ∧
      ¬ DoneContract (finishedState []) (finishedWorld []) := by
  have advised : exitCodeOf (novelDone (finishedWorld [])).result = some 4 := by decide +kernel
  have refused : exitCodeOf (compileManuscript (finishedWorld [])).result = some 3 := by
    decide +kernel
  refine ⟨advised, refused, fun contract => ?_⟩
  have compiles := (contract.advice advised).1
  rw [refused] at compiles
  cases compiles

theorem shows_finished : Shows (finishedWorld [⟨1, "one", "One", 1000⟩])
    (finishedState [⟨1, "one", "One", 1000⟩]) :=
  shown?_eq_some.mp (by decide +kernel)

/-- With a chapter in the manifest the contract holds. -/
theorem done_contract_finished : DoneContract (finishedState [⟨1, "one", "One", 1000⟩])
    (finishedWorld [⟨1, "one", "One", 1000⟩]) := by
  have readable : DoneReadable (finishedState [⟨1, "one", "One", 1000⟩])
      (finishedWorld [⟨1, "one", "One", 1000⟩]).disk := by
    refine ⟨fun entry member => ?_, fun _ => ⟨"word", by decide +kernel⟩, fun entry member => ?_⟩
    · rw [List.mem_singleton.mp member]
      exact ⟨by decide +kernel, Or.inr (by decide +kernel)⟩
    · rw [List.mem_singleton.mp member]
      exact Or.inr (by decide +kernel)
  refine (done_contract_iff shows_finished readable).mpr fun stuck => ?_
  exact absurd stuck.empty (List.cons_ne_nil _ _)

end NovelRalph
