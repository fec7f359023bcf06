import NovelRalph.State.Bijection
import NovelRalph.System.MissingDirs

/-!
# The tree of a completed turn

What the detectors see once the missing paths of a turn were made: more chapter
directories, and a directory where a draft or the compiled manuscript may have
been asked for. No text changes, so the counts of the drafts stay what they were.
-/

namespace NovelRalph

/-- What remains after its beginning is the rest of a text. -/
theorem append_removeBeginning {text beginning : String} (begins : startsWith text beginning = true) :
    beginning ++ removeBeginning text beginning = text := by
  obtain ⟨rest, spelled⟩ := List.isPrefixOf_iff_prefix.mp begins
  have split : text = beginning ++ String.ofList rest := by
    apply String.toList_inj.mp
    rw [String.toList_append, String.toList_ofList, spelled]
  rw [split, removeBeginning_append]

namespace Disk

/-- The place of the chapter directory with a suffix. -/
def suffixDir (disk : Disk) (suffix : String) : Loc := ("chapter-" ++ suffix) :: disk.manuscript

/-- The suffixes on disk are the digits whose directories are there. -/
theorem mem_chapterSuffixes_iff {disk : Disk} {suffix : String} :
    suffix ∈ disk.chapterSuffixes ↔ isDigits suffix = true ∧ disk.suffixDir suffix ∈ disk.dirs := by
  rw [mem_chapterSuffixes]
  refine and_congr_right fun _ => ⟨?_, fun there => ?_⟩
  · rintro ⟨loc, there, ⟨tail, nonempty, named⟩, rfl⟩
    cases loc with
    | nil => exact absurd rfl nonempty
    | cons name parent =>
        have spelled : name = "chapter-" ++ removeBeginning name "chapter-" :=
          (append_removeBeginning named).symm
        have below : parent = disk.manuscript := tail
        show ("chapter-" ++ removeBeginning name "chapter-") :: disk.manuscript ∈ disk.dirs
        rw [← spelled, ← below]
        exact there
  · exact ⟨disk.suffixDir suffix, there, ⟨rfl, List.cons_ne_nil _ _, startsWith_append _ _⟩,
      removeBeginning_append _ _⟩

end Disk

/-- Making directories at these places leaves a tree that can be read. -/
structure Legible (state : State) (disk : Disk) (places : List Loc) : Prop where
  names : ∀ suffix, isDigits suffix = true → disk.suffixDir suffix ∈ places →
    intOfDigits? suffix ≠ none
  compiled : disk.compiledManuscript ∉ places
  drafts : ∀ entry ∈ state.chapters, disk.chapterFile entry.number "draft.md" ∉ places
  /-- A `manuscript/` that is made can hold the directory of every chapter. -/
  short : disk.layout disk.manuscript = none → disk.manuscript ∈ places →
    ∀ entry ∈ state.chapters, overlong (chapterDirName entry.number) = false

/-- A draft that is not there is not found, unless the name of its directory is too long for the
`manuscript/` that is there, or a file is in the way. -/
theorem Disk.missingFault_draft {disk : Disk} {layout : Layout}
    (working : layout disk.working = some .dir) (number : Int) :
    layout.missingFault (disk.chapterFile number "draft.md") = .fileNotFound ↔
      layout (disk.chapterDir number) = some .dir ∨ layout (disk.chapterDir number) = none ∧
        (layout disk.manuscript = none ∨
          layout disk.manuscript = some .dir ∧ overlong (chapterDirName number) = false) := by
  have draft : disk.chapterFile number "draft.md" = "draft.md" :: disk.chapterDir number := rfl
  have dir : disk.chapterDir number = chapterDirName number :: disk.manuscript := rfl
  have outer : disk.manuscript = "manuscript" :: disk.working := rfl
  have below : Layout.absence ("draft.md" :: disk.chapterDir number) = .fileNotFound := rfl
  rw [draft, Layout.missingFault]
  cases chapter : layout (disk.chapterDir number) with
  | some kind => cases kind <;> simp [below]
  | none =>
      dsimp only
      rw [dir, Layout.missingFault]
      cases manuscript : layout disk.manuscript with
      | some kind => cases kind <;> simp [Layout.absence]
      | none =>
          have found : layout.missingFault disk.manuscript = .fileNotFound := by
            rw [outer, Layout.missingFault, working]
            rfl
          simp [found]

/-- Nothing lies below what is not there. -/
theorem World.layout_below_absent {Text : Type} {world : World Text} {loc : Loc}
    (names : List String) (absent : world.layout loc = none) :
    world.layout (names ++ loc) = none := by
  rw [← Option.not_isSome_iff_eq_none]
  intro there
  have outer := World.layout_closed.outward there
  rw [absent] at outer
  cases outer

section Carved

variable {toml : Tomlkit} {world : World toml.Text} {reconciliation : Reconciliation String} {state : State}

/-- The places of the missing paths. -/
abbrev madePlaces (world : World toml.Text) (reconciliation : Reconciliation String) : List Loc :=
  declaredPlaces reconciliation.missingPaths (workingLoc world.cwd)

/-- The places of the manuscript are where they were. -/
theorem manuscript_carved : (world.carved reconciliation).disk.manuscript = world.disk.manuscript :=
  congrArg (fun cwd => "manuscript" :: workingLoc cwd) cwd_carved

theorem chapterFile_carved (number : Int) (name : String) :
    (world.carved reconciliation).disk.chapterFile number name =
      world.disk.chapterFile number name := by
  unfold Disk.chapterFile Disk.chapterDir
  rw [manuscript_carved]

section Made

variable (held : world.stateToml.isSome)
  (made : (createMissingChapterDirs reconciliation world).result = .ok ())

include held made

/-- What could be made was not blocked. -/
theorem clear_of_made : ∀ place ∈ madePlaces world reconciliation,
    world.layout.blocked place = false :=
  ((createMissingChapterDirs_returns (world.stateHeld held).1).mp made).2

theorem layout_made : (world.carved reconciliation).layout =
    world.layout.filled (madePlaces world reconciliation) := by
  rw [layout_carved (world.stateHeld held).1, Layout.cleared_eq_self.mpr (clear_of_made held made)]

theorem mem_dirs_made {loc : Loc} : loc ∈ (world.carved reconciliation).dirs ↔
    loc ∈ world.dirs ∨ loc ∈ madePlaces world reconciliation := by
  rw [mem_dirs_carved (world.stateHeld held).1,
    Layout.cleared_eq_self.mpr (clear_of_made held made)]

/-- A made place cannot be read. -/
theorem read_made {loc : Loc} (member : loc ∈ madePlaces world reconciliation) :
    (world.carved reconciliation).read loc = .error (.os .isADirectory) := by
  have here : (world.carved reconciliation).layout loc = some .dir := by
    rw [layout_made held made, Layout.filled, if_pos member]
  unfold World.read
  rw [here]

/-- A place that was occupied and is not made is read as before. -/
theorem read_occupied {loc : Loc} (unmade : loc ∉ madePlaces world reconciliation)
    (occupied : world.layout loc ≠ none) : (world.carved reconciliation).read loc = world.read loc := by
  have here : (world.carved reconciliation).layout loc = world.layout loc := by
    rw [layout_made held made, Layout.filled, if_neg unmade]
  unfold World.read
  rw [here, files_carved]
  cases kind : world.layout loc with
  | none => exact absurd kind occupied
  | some kind' => cases kind' <;> rfl

/-- A text can be read where it could before. -/
theorem read_carved {loc : Loc} {text : String} :
    (world.carved reconciliation).read loc = .ok text ↔ world.read loc = .ok text := by
  by_cases member : loc ∈ madePlaces world reconciliation
  · -- a made place held no text: it was free, or a directory
    have clear := clear_of_made held made loc member
    rw [read_made held made member]
    unfold World.read
    cases kind : world.layout loc with
    | none => simp
    | some kind' =>
        cases kind' with
        | file =>
            rw [Layout.blocked_file kind] at clear
            cases clear
        | dir => simp
  · by_cases occupied : world.layout loc = none
    · have here : (world.carved reconciliation).layout loc = none := by
        rw [layout_made held made, Layout.filled, if_neg member, occupied]
      unfold World.read
      rw [here, occupied]
      simp
    · rw [read_occupied held made member occupied]

/-- A draft that was missing and is no made place is missing, where a new `manuscript/` holds its
directory. -/
theorem missing_carved {number : Int}
    (unmade : world.disk.chapterFile number "draft.md" ∉ madePlaces world reconciliation)
    (short : world.layout world.disk.manuscript = none →
      world.disk.manuscript ∈ madePlaces world reconciliation →
        overlong (chapterDirName number) = false)
    (missing : world.read (world.disk.chapterFile number "draft.md") = .error (.os .fileNotFound)) :
    (world.carved reconciliation).read (world.disk.chapterFile number "draft.md") =
      .error (.os .fileNotFound) := by
  have layouts := layout_made held made
  have working : world.layout world.disk.working = some .dir :=
    World.layout_eq_dir.mpr (world.stateHeld held).1
  have filled : ∀ loc, world.layout loc = some .dir →
      world.layout.filled (madePlaces world reconciliation) loc = some .dir := by
    intro loc there
    rw [Layout.filled, there, ite_self]
  by_cases occupied : world.layout (world.disk.chapterFile number "draft.md") = none
  · have here : (world.carved reconciliation).layout (world.disk.chapterFile number "draft.md") =
        none := by
      rw [layouts, Layout.filled, if_neg unmade, occupied]
    unfold World.read at missing ⊢
    rw [occupied] at missing
    rw [here]
    dsimp only at missing ⊢
    rw [Except.error.injEq, Fault.os.injEq, Disk.missingFault_draft working] at missing
    rw [Except.error.injEq, Fault.os.injEq, layouts, Disk.missingFault_draft (filled _ working)]
    rcases missing with there | ⟨absent, manuscript⟩
    · exact Or.inl (filled _ there)
    · by_cases chapter : world.disk.chapterDir number ∈ madePlaces world reconciliation
      · exact Or.inl (if_pos chapter)
      · refine Or.inr ⟨(if_neg chapter).trans absent, ?_⟩
        rcases manuscript with none | ⟨dir, fits⟩
        · by_cases outer : world.disk.manuscript ∈ madePlaces world reconciliation
          · exact Or.inr ⟨if_pos outer, short none outer⟩
          · exact Or.inl ((if_neg outer).trans none)
        · exact Or.inr ⟨filled _ dir, fits⟩
  · rw [read_occupied held made unmade occupied, missing]

/-- A new `manuscript/` with a draft that is missing can hold its directory. -/
theorem short_of_missing {number : Int} (absent : world.layout world.disk.manuscript = none)
    (outer : world.disk.manuscript ∈ madePlaces world reconciliation)
    (missing : (world.carved reconciliation).read (world.disk.chapterFile number "draft.md") =
      .error (.os .fileNotFound)) : overlong (chapterDirName number) = false := by
  have layouts := layout_made held made
  have working : (world.carved reconciliation).layout world.disk.working = some .dir := by
    have here : world.layout world.disk.working = some .dir :=
      World.layout_eq_dir.mpr (world.stateHeld held).1
    rw [layouts, Layout.filled, here, ite_self]
  have free : world.layout (world.disk.chapterDir number) = none :=
    World.layout_below_absent [chapterDirName number] absent
  have here : (world.carved reconciliation).layout world.disk.manuscript = some .dir := by
    rw [layouts, Layout.filled, if_pos outer]
  have fault := (world.carved reconciliation).disk.read_missing
    (world.disk.chapterFile number "draft.md") ?_
  · have found : (world.carved reconciliation).layout.missingFault
        (world.disk.chapterFile number "draft.md") = .fileNotFound := by
      change (world.carved reconciliation).read _ = .error (.os
        ((world.carved reconciliation).layout.missingFault _)) at fault
      rw [missing, Except.error.injEq, Fault.os.injEq] at fault
      exact fault.symm
    rcases (Disk.missingFault_draft working number).mp found with made' | ⟨-, none | ⟨-, fits⟩⟩
    · have member : world.disk.chapterDir number ∈ madePlaces world reconciliation := by
        by_contra unmade
        rw [layouts, Layout.filled, if_neg unmade, free] at made'
        cases made'
      have clear := clear_of_made held made _ member
      rw [Layout.blocked_none free] at clear
      exact clear
    · rw [here] at none
      cases none
    · exact fits
  · show (world.carved reconciliation).layout _ = none
    unfold World.read at missing
    cases kind : (world.carved reconciliation).layout (world.disk.chapterFile number "draft.md") with
    | none => rfl
    | some kind' =>
        exfalso
        rw [kind] at missing
        cases kind' with
        | dir => cases missing
        | file =>
            dsimp only at missing
            split at missing <;> cases missing

/-- The drafts count what they counted. -/
theorem draftWords_carved (number : Int) :
    (world.carved reconciliation).disk.draftWords number = world.disk.draftWords number := by
  have texts : ∀ text, (world.carved reconciliation).disk.read
      (world.disk.chapterFile number "draft.md") = .ok text ↔
        world.disk.read (world.disk.chapterFile number "draft.md") = .ok text :=
    fun text => read_carved held made
  unfold Disk.draftWords
  rw [chapterFile_carved]
  cases before : world.disk.read (world.disk.chapterFile number "draft.md") with
  | ok text => rw [(texts text).mpr before]
  | error fault =>
      cases after : (world.carved reconciliation).disk.read
          (world.disk.chapterFile number "draft.md") with
      | error fault' => rfl
      | ok text =>
          rw [(texts text).mp after] at before
          cases before

theorem recountTable_carved (chapters : List ChapterEntry) :
    (world.carved reconciliation).disk.recountTable chapters = world.disk.recountTable chapters := by
  unfold Disk.recountTable
  simp only [draftWords_carved held made]

/-- The chapter suffixes are the old ones and those of the made places. -/
theorem mem_suffixes_carved {suffix : String} :
    suffix ∈ (world.carved reconciliation).disk.chapterSuffixes ↔
      suffix ∈ world.disk.chapterSuffixes ∨ isDigits suffix = true ∧
        world.disk.suffixDir suffix ∈ madePlaces world reconciliation := by
  rw [Disk.mem_chapterSuffixes_iff, Disk.mem_chapterSuffixes_iff, ← and_or_left]
  unfold Disk.suffixDir
  rw [manuscript_carved]
  exact and_congr_right fun _ => mem_dirs_made held made

/-- The tree can be read afterwards exactly when the made places are legible. -/
theorem readable_carved (readable : Readable state world.disk) :
    Readable state (world.carved reconciliation).disk ↔
      Legible state world.disk (madePlaces world reconciliation) := by
  have compiledPlace : (world.carved reconciliation).disk.compiledManuscript =
      world.disk.compiledManuscript := by
    unfold Disk.compiledManuscript
    rw [manuscript_carved]
  constructor
  · intro after
    refine ⟨fun suffix digits member => ?_, fun member => ?_, fun entry listed member => ?_,
      fun absent outer entry listed => ?_⟩
    · exact after.names suffix ((mem_suffixes_carved held made).mpr (Or.inr ⟨digits, member⟩))
    · have there : (world.carved reconciliation).disk.exists? world.disk.compiledManuscript = true := by
        show ((world.carved reconciliation).layout _).isSome = true
        rw [layout_made held made, Layout.filled, if_pos member]
        rfl
      obtain ⟨text, found⟩ := after.compiled (by rw [compiledPlace]; exact there)
      rw [compiledPlace] at found
      have unreadable := read_made held made member
      change (world.carved reconciliation).read _ = _ at found
      rw [unreadable] at found
      cases found
    · have draft := (after.drafts entry listed).read
      rw [chapterFile_carved] at draft
      have unreadable : (world.carved reconciliation).disk.read _ = _ := read_made held made member
      rw [unreadable] at draft
      rcases draft with ⟨text, found⟩ | missing
      · cases found
      · cases missing
    · have draft := (after.drafts entry listed).read
      rw [chapterFile_carved] at draft
      rcases draft with ⟨text, found⟩ | missing
      · have free : world.disk.layout (world.disk.chapterFile entry.number "draft.md") = none :=
          World.layout_below_absent ["draft.md", chapterDirName entry.number] absent
        have before : world.disk.read _ = .ok text := (read_carved held made).mp found
        rw [world.disk.read_missing _ free] at before
        cases before
      · exact short_of_missing held made absent outer missing
  · intro legible
    refine ⟨⟨fun entry listed => ?_, fun there => ?_⟩, fun suffix listed => ?_⟩
    · refine ⟨(readable.drafts entry listed).spelled, ?_⟩
      rw [chapterFile_carved]
      rcases (readable.drafts entry listed).read with ⟨text, found⟩ | missing
      · exact Or.inl ⟨text, (read_carved held made).mpr found⟩
      · exact Or.inr (missing_carved held made (legible.drafts entry listed)
          (fun absent outer => legible.short absent outer entry listed) missing)
    · rw [compiledPlace] at there ⊢
      have before : world.disk.exists? world.disk.compiledManuscript = true := by
        change ((world.carved reconciliation).layout _).isSome = true at there
        rw [layout_made held made, Layout.filled, if_neg legible.compiled] at there
        exact there
      obtain ⟨text, found⟩ := readable.compiled before
      exact ⟨text, (read_carved held made).mpr found⟩
    · rcases (mem_suffixes_carved held made).mp listed with old | ⟨digits, member⟩
      · exact readable.names suffix old
      · exact legible.names suffix digits member

/-- The numbers on disk are the old ones and those of the made places. -/
theorem mem_onDisk_carved {number : Int} : number ∈ (world.carved reconciliation).disk.onDisk ↔
    number ∈ world.disk.onDisk ∨ ∃ suffix, isDigits suffix = true ∧
      world.disk.suffixDir suffix ∈ madePlaces world reconciliation ∧
      number = ((intOfDigits? suffix).getD 0 : Int) := by
  unfold Disk.onDisk
  rw [Finset.mem_image, Finset.mem_image]
  constructor
  · rintro ⟨suffix, listed, rfl⟩
    rcases (mem_suffixes_carved held made).mp listed with old | ⟨digits, member⟩
    · exact Or.inl ⟨suffix, old, rfl⟩
    · exact Or.inr ⟨suffix, digits, member, rfl⟩
  · rintro (⟨suffix, old, rfl⟩ | ⟨suffix, digits, member, rfl⟩)
    · exact ⟨suffix, (mem_suffixes_carved held made).mpr (Or.inl old), rfl⟩
    · exact ⟨suffix, (mem_suffixes_carved held made).mpr (Or.inr ⟨digits, member⟩), rfl⟩

end Made

end Carved

end NovelRalph
