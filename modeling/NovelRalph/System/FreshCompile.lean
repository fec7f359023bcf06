import NovelRalph.Commands.Compile
import NovelRalph.System.CleanCheck

/-!
# A fresh compile

`compile` writes one file, and what it writes is what every judge of freshness
expects: the drafts are read with universal newlines, joined by two newlines,
written, and read back as themselves, because nothing that was read holds a
carriage return. The order is that of the chapter numbers, so it does not depend
on how the manifest lists them.
-/

namespace NovelRalph

open InvariantName

section Places

variable {disk : Disk}

/-- No chapter directory is called `compiled.md`. -/
theorem chapterDirName_ne_compiled (number : Int) : chapterDirName number ≠ "compiled.md" := by
  intro same
  have second : (chapterDirName number).toList[1]? = some 'h' := by
    rw [chapterDirName, String.toList_append]
    rfl
  rw [same] at second
  cases second

/-- The way to a chapter's file does not lead through `compiled.md`. -/
theorem compiled_apart (number : Int) (name : String) :
    ¬ disk.compiledManuscript <:+ disk.chapterFile number name := by
  have length : disk.compiledManuscript.length = disk.manuscript.length + 1 := rfl
  intro within
  rcases List.suffix_cons_iff.mp within with same | within
  · have lengths := congrArg List.length same
    change disk.manuscript.length + 1 = disk.manuscript.length + 2 at lengths
    omega
  · rcases List.suffix_cons_iff.mp within with same | within
    · exact chapterDirName_ne_compiled number (List.cons_eq_cons.mp same).1.symm
    · have shorter := within.length_le
      omega

/-- A chapter's file is not the compiled manuscript. -/
theorem chapterFile_ne_compiled (number : Int) (name : String) :
    disk.chapterFile number name ≠ disk.compiledManuscript := by
  intro here
  have apart : ¬ disk.compiledManuscript <:+ disk.chapterFile number name :=
    compiled_apart number name
  rw [here] at apart
  exact apart (List.suffix_refl _)

end Places

section Order

/-- A manifest without repeats is sorted into the ascending list of its numbers. -/
theorem numbers_sortedChapters {state : State} (distinct : state.numbers.Nodup) :
    (sortedChapters state.chapters).map ChapterEntry.number = sortedSet state.manifest := by
  have ascending : ((sortedChapters state.chapters).map ChapterEntry.number).Pairwise (· ≤ ·) :=
    List.pairwise_map.mpr (List.pairwise_insertionSort _ _)
  have perm : ((sortedChapters state.chapters).map ChapterEntry.number).Perm state.numbers :=
    (List.perm_insertionSort _ _).map _
  unfold sortedSet State.manifest
  rw [List.toFinset_val, List.dedup_eq_self.mpr distinct]
  exact List.Perm.eq_of_pairwise (fun _ _ _ _ => le_antisymm) ascending
    (List.pairwise_insertionSort (· ≤ ·) _) (perm.trans (List.perm_insertionSort _ _).symm)

end Order

namespace World

variable {Text : Type} (world : World Text)

/-- What a draft holds, read with universal newlines; an absent one holds nothing. -/
def draftOnDisk (number : Int) : String :=
  match world.files.lookup (world.disk.chapterFile number "draft.md") with
  | some (.text content) => String.ofList (translateNewlines content.toList)
  | _ => ""

variable {world}

/-- A readable draft is read as what it holds. -/
theorem draftBody_eq {number : Int} (readable : world.disk.DraftReadable number) :
    world.disk.draftBody number = world.draftOnDisk number := by
  have reads : world.disk.read (world.disk.chapterFile number "draft.md") =
    world.read (world.disk.chapterFile number "draft.md") := rfl
  unfold Disk.draftBody draftOnDisk
  rcases readable.read with ⟨text, found⟩ | missing
  · rw [found]
    rw [reads] at found
    unfold World.read at found
    split at found
    · cases found
    · cases found
    · split at found
      · next content held =>
          rw [held]
          cases found
          rfl
      · cases found
      · cases found
      · cases found
  · have absent : world.layout (world.disk.chapterFile number "draft.md") = none := by
      by_contra there
      exact world.disk.read_found _ (Option.isSome_iff_ne_none.mpr there) missing
    have unheld : world.files.lookup (world.disk.chapterFile number "draft.md") = none := by
      by_contra held
      exact (layout_eq_none.mp absent).2 (Or.inr (Or.inr (Option.isSome_iff_ne_none.mpr held)))
    rw [missing, unheld]

/-- What was read holds no carriage return. -/
theorem not_mem_draftOnDisk (number : Int) : '\r' ∉ (world.draftOnDisk number).toList := by
  unfold draftOnDisk
  split
  · rw [String.toList_ofList]
    exact not_mem_translateNewlines _
  · simp

/-- The manuscript as the drafts on disk spell it, in ascending chapter order. -/
def manuscriptText (state : State) : String :=
  String.intercalate "\n\n" ((sortedSet state.manifest).map world.draftOnDisk)

/-- The text `compile` renders is the manuscript of the drafts on disk. -/
theorem compiledText_eq {state : State} (distinct : state.numbers.Nodup)
    (drafts : ∀ entry ∈ state.chapters, world.disk.DraftReadable entry.number) :
    world.disk.compiledText state.chapters = world.manuscriptText state := by
  have bodies : (sortedChapters state.chapters).map (fun chapter =>
      world.disk.draftBody chapter.number) =
      (sortedSet state.manifest).map world.draftOnDisk := by
    rw [← numbers_sortedChapters distinct, List.map_map]
    refine List.map_congr_left fun chapter member => ?_
    exact draftBody_eq (drafts chapter (mem_sortedChapters.mp member))
  unfold Disk.compiledText
  rw [bodies]
  rfl

/-- The rendered drafts hold no carriage return, so they read back as themselves. -/
theorem readBack_compiledText {chapters : List ChapterEntry}
    (drafts : ∀ entry ∈ chapters, world.disk.DraftReadable entry.number) :
    String.ofList (translateNewlines (world.disk.compiledText chapters).toList) =
      world.disk.compiledText chapters := by
  have plain : '\r' ∉ (world.disk.compiledText chapters).toList := by
    unfold Disk.compiledText concatenateDrafts
    rw [String.toList_intercalate]
    refine not_mem_intercalate (by decide) fun text member => ?_
    obtain ⟨body, listed, rfl⟩ := List.mem_map.mp member
    obtain ⟨chapter, sorted, rfl⟩ := List.mem_map.mp listed
    rw [draftBody_eq (drafts chapter (mem_sortedChapters.mp sorted))]
    exact not_mem_draftOnDisk chapter.number
  rw [translateNewlines_eq_self plain, String.ofList_toList]

/-! ## The tree after the write -/

section After

variable {next : World Text} (same : SameBut world.disk.compiledManuscript world next)

include same

theorem SameBut.chapterFile (number : Int) (name : String) :
    next.disk.chapterFile number name = world.disk.chapterFile number name := by
  show name :: chapterDirName number :: "manuscript" :: workingLoc next.cwd = _
  rw [same.cwd]
  rfl

theorem SameBut.read_chapter (number : Int) (name : String) :
    next.disk.read (next.disk.chapterFile number name) =
      world.disk.read (world.disk.chapterFile number name) := by
  rw [SameBut.chapterFile same]
  exact same.read (compiled_apart number name)

theorem SameBut.exists_chapter (number : Int) (name : String) :
    next.disk.exists? (next.disk.chapterFile number name) =
      world.disk.exists? (world.disk.chapterFile number name) := by
  rw [SameBut.chapterFile same]
  exact congrArg Option.isSome (same.layout (chapterFile_ne_compiled number name))

theorem SameBut.compiledManuscript :
    next.disk.compiledManuscript = world.disk.compiledManuscript := by
  show "compiled.md" :: "manuscript" :: workingLoc next.cwd = _
  rw [same.cwd]
  rfl

theorem SameBut.draftReadable {number : Int} (readable : world.disk.DraftReadable number) :
    next.disk.DraftReadable number := by
  refine ⟨readable.spelled, ?_⟩
  rw [SameBut.read_chapter same]
  exact readable.read

theorem SameBut.compiledText (chapters : List ChapterEntry) :
    next.disk.compiledText chapters = world.disk.compiledText chapters := by
  unfold Disk.compiledText Disk.draftBody
  simp only [SameBut.read_chapter same]

end After

end World

section Fresh

variable {toml : Tomlkit} {world next : World toml.Text} {state : State}

theorem World.SameBut.shows {loc : Loc} (same : SameBut loc world next) (shows : Shows world state) :
    Shows next state := by
  obtain ⟨text, body, held, parsed, read⟩ := shows
  exact ⟨text, body, by rw [same.stateToml, held], parsed, read⟩

/-- What every reader makes of the tree a successful compile leaves. -/
structure Faithful (state : State) (world next : World toml.Text) : Prop where
  /-- Nothing but `compiled.md` has changed. -/
  frame : World.SameBut world.disk.compiledManuscript world next
  /-- It holds the drafts on disk, in ascending chapter order. -/
  text : next.files.lookup world.disk.compiledManuscript =
    some (.text (world.manuscriptText state))
  comparison : next.disk.compiledMatchesDrafts state.chapters = .ok .matches
  checked : exitCodeOf (checkCompiled next).result = some 0
  clause : compileConsistent state next.disk = .ok true
  predicate : checkCompiledMatchesDrafts state next.disk = .ok none
  detector : ∀ relaxed violations, checkDiskEvidence state next.disk relaxed = .ok violations →
    compiledMatchesDrafts ∉ violations.map Violation.invariant

/-- After the write `compiled.md` is there, and reads as a fresh compile. -/
theorem fresh_of_replaced
    (drafts : ∀ entry ∈ state.chapters, world.disk.DraftReadable entry.number)
    (replaced : world.replaceFile world.disk.compiledManuscript
      (world.disk.compiledText state.chapters) = .ok next) :
    next.disk.exists? next.disk.compiledManuscript = true ∧
      next.disk.read next.disk.compiledManuscript =
        .ok (next.disk.compiledText state.chapters) := by
  obtain ⟨same, held, -, free⟩ := World.replaceFile_ok replaced
  have read := same.read_replaced held free
  rw [World.readBack_compiledText drafts] at read
  rw [World.SameBut.compiledManuscript same, World.SameBut.compiledText same]
  refine ⟨?_, read⟩
  by_contra absent
  have missing := next.disk.read_missing world.disk.compiledManuscript
    (by simpa [Disk.exists?] using absent)
  have failed : next.read world.disk.compiledManuscript = .error _ := missing
  rw [read] at failed
  cases failed

/-- A freshly compiled tree is consistent. -/
theorem compiledCurrent_of_replaced
    (drafts : ∀ entry ∈ state.chapters, world.disk.DraftReadable entry.number)
    (replaced : world.replaceFile world.disk.compiledManuscript
      (world.disk.compiledText state.chapters) = .ok next) :
    compiledCurrent state next.disk = true := by
  obtain ⟨there, read⟩ := fresh_of_replaced drafts replaced
  unfold compiledCurrent
  rw [read]
  simp [there]

/-- A consistent tree compares as matching. -/
theorem matches_of_current {disk : Disk}
    (drafts : ∀ entry ∈ state.chapters, disk.DraftReadable entry.number)
    (compiled : disk.exists? disk.compiledManuscript = true →
      ∃ text, disk.read disk.compiledManuscript = .ok text)
    (current : compiledCurrent state disk = true) :
    disk.compiledMatchesDrafts state.chapters = .ok .matches := by
  obtain ⟨verdict, compared, decided⟩ :=
    except_bind_eq_ok.mp (compileConsistent_of_readable drafts compiled)
  rw [current] at decided
  cases verdict with
  | «matches» => exact compared
  | absent => cases decided
  | diverges => cases decided

/-- The replacement a compile makes leaves a tree that every reader accepts. -/
theorem faithful_of_replaced (shows : Shows world state) (populated : state.chapters ≠ [])
    (distinct : state.numbers.Nodup)
    (drafts : ∀ entry ∈ state.chapters, world.disk.DraftReadable entry.number)
    (replaced : world.replaceFile world.disk.compiledManuscript
      (world.disk.compiledText state.chapters) = .ok next) : Faithful state world next := by
  obtain ⟨same, held, -, -⟩ := World.replaceFile_ok replaced
  have kept : ∀ entry ∈ state.chapters, next.disk.DraftReadable entry.number := fun entry member =>
    World.SameBut.draftReadable same (drafts entry member)
  obtain ⟨-, read⟩ := fresh_of_replaced drafts replaced
  have compiled : next.disk.exists? next.disk.compiledManuscript = true →
      ∃ text, next.disk.read next.disk.compiledManuscript = .ok text := fun _ => ⟨_, read⟩
  have current := compiledCurrent_of_replaced drafts replaced
  have comparison := matches_of_current kept compiled current
  have predicate : checkCompiledMatchesDrafts state next.disk = .ok none := by
    unfold checkCompiledMatchesDrafts
    rw [comparison]
    rfl
  refine ⟨same, ?_, comparison, ?_, ?_, predicate, fun relaxed violations detected named => ?_⟩
  · rw [held, World.compiledText_eq distinct drafts]
  · exact (check_compiled_exits_zero (same.shows shows) populated kept compiled).mpr current
  · rw [compileConsistent_of_readable kept compiled, current]
  · have readable := readable_of_detected detected
    obtain ⟨other, found, names⟩ := checkDiskEvidence_of_readable readable relaxed
    rw [detected, Except.ok.injEq] at found
    subst found
    obtain ⟨verdict, returned, reported⟩ := checkCompiledMatchesDrafts_reports readable
    rw [predicate, Except.ok.injEq] at returned
    subst returned
    have stale : compiledStale state next.disk = true := by
      simpa [names, evidence, evidenceTable] using named
    rw [stale] at reported
    cases reported

/-- A successful compile is faithful, every judge of freshness agrees with it, and the order in
which the manifest lists its chapters does not matter. -/
theorem compile_faithful (shows : Shows world state) (distinct : state.numbers.Nodup)
    (drafts : ∀ entry ∈ state.chapters, world.disk.DraftReadable entry.number)
    (exits : exitCodeOf (compileManuscript world).result = some 0) :
    Faithful state world ((compileManuscript world).final world) ∧
      ∀ other permuted, Rewrites world other → Shows other permuted →
        permuted.chapters.Perm state.chapters →
        exitCodeOf (compileManuscript other).result = some 0 ∧
          ((compileManuscript other).final other).files.lookup world.disk.compiledManuscript =
            ((compileManuscript world).final world).files.lookup world.disk.compiledManuscript := by
  obtain ⟨populated, next, replaced⟩ := replaced_of_compile shows drafts exits
  rw [(compile_of_replaced shows populated drafts replaced).2]
  have faithful := faithful_of_replaced shows populated distinct drafts replaced
  refine ⟨faithful, fun other permuted rewrites shows' perm => ?_⟩
  have disk : other.disk = world.disk := rewrites.disk
  have numbers : permuted.numbers.Perm state.numbers := perm.map _
  have distinct' : permuted.numbers.Nodup := numbers.nodup_iff.mpr distinct
  have populated' : permuted.chapters ≠ [] := fun empty => by
    rw [empty] at perm
    exact populated (List.nil_perm.mp perm)
  have drafts' : ∀ entry ∈ permuted.chapters, other.disk.DraftReadable entry.number := by
    rw [disk]
    exact fun entry member => drafts entry (perm.mem_iff.mp member)
  have text : other.manuscriptText permuted = world.manuscriptText state := by
    have bodies : other.draftOnDisk = world.draftOnDisk := by
      funext number
      unfold World.draftOnDisk
      rw [disk, rewrites.files]
    have manifest : permuted.manifest = state.manifest := List.toFinset_eq_of_perm _ _ numbers
    unfold World.manuscriptText
    rw [bodies, manifest]
  obtain ⟨-, -, inside, free⟩ := World.replaceFile_ok replaced
  rw [← rewrites.dirs, ← disk] at inside free
  obtain ⟨next', replaced'⟩ := World.replaceFile_succeeds inside free
    (other.disk.compiledText permuted.chapters)
  obtain ⟨exits', final'⟩ := compile_of_replaced shows' populated' drafts' replaced'
  have faithful' := faithful_of_replaced shows' populated' distinct' drafts' replaced'
  refine ⟨exits', ?_⟩
  rw [final', faithful.text, ← text, ← faithful'.text, disk]

end Fresh

/-! ## A manifest listed backwards -/

/-- Two chapters, the second listed first. -/
def reversedTable : Table :=
  ((initialEdits "Title" "slug" 1000 "2024-01-01T00:00:00Z") ++
    [setChapters [⟨2, "two", "Two", 500⟩, ⟨1, "one", "One", 500⟩]]).foldl Table.edit []

/-- The first chapter is drafted with a CRLF line ending, the second has no draft. -/
def reversedWorld : World Tomlkit.structural.Text :=
  (((initialWorld 1000).putState (.ok reversedTable)).addDir
    ["chapter-01", "manuscript", "working"]).putFile
      ["draft.md", "chapter-01", "manuscript", "working"] (.text "a\r\nb")

/-- What `reversedWorld` shows. -/
def reversedState : State :=
  { initialState "Title" "slug" 1000 "2024-01-01T00:00:00Z" with
    chapters := [⟨2, "two", "Two", 500⟩, ⟨1, "one", "One", 500⟩] }

theorem shows_reversed : Shows reversedWorld reversedState :=
  shown?_eq_some.mp (by decide +kernel)

theorem drafts_reversed : ∀ entry ∈ reversedState.chapters,
    reversedWorld.disk.DraftReadable entry.number := by
  intro entry member
  rcases List.mem_cons.mp member with rfl | later
  · exact ⟨by decide +kernel, Or.inr (by decide +kernel)⟩
  · rw [List.mem_singleton.mp later]
    exact ⟨by decide +kernel, Or.inl ⟨"a\nb", by decide +kernel⟩⟩

/-- The compile of `reversedWorld` starts with the first chapter. -/
theorem compile_faithful_reversed :
    ((compileManuscript reversedWorld).final reversedWorld).files.lookup
      ["compiled.md", "manuscript", "working"] = some (.text "a\nb\n\n") := by
  have text : reversedWorld.manuscriptText reversedState = "a\nb\n\n" := by decide +kernel
  have place : reversedWorld.disk.compiledManuscript = ["compiled.md", "manuscript", "working"] := by
    decide +kernel
  rw [← text, ← place]
  exact (compile_faithful shows_reversed (by decide) drafts_reversed (by decide +kernel)).1.text

end NovelRalph
