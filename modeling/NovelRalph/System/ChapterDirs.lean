import NovelRalph.System.CleanCheck
import NovelRalph.System.Standing

/-!
# Fresh chapter directories

`Unchaptered` is a tree whose `manuscript/` is a directory without chapters and
without `compiled.md`, and `withChapters` the same tree with some empty chapter
directories in it. Making them one by one goes from one such tree to the next,
and the detector finds in each exactly the chapters that have been made.
-/

namespace NovelRalph

section Trees

variable {Text : Type} {world : World Text}

/-- `manuscript/` is a directory that holds no chapter. -/
structure ChapterFree (world : World Text) : Prop where
  manuscript : world.disk.manuscript ∈ world.dirs
  chapters : ∀ name, startsWith name "chapter-" = true →
    world.layout (name :: world.disk.manuscript) = none

/-- `manuscript/` is a directory that holds no chapter and no compiled manuscript. -/
structure Unchaptered (world : World Text) : Prop extends ChapterFree world where
  compiled : world.layout ("compiled.md" :: world.disk.manuscript) = none

/-- The world with empty directories for some chapters. -/
def World.withChapters (world : World Text) (numbers : List Int) : World Text :=
  numbers.foldl (fun grown number => grown.addDir (world.disk.chapterDir number)) world

namespace World

theorem withChapters_append (numbers : List Int) (number : Int) :
    world.withChapters (numbers ++ [number]) =
      (world.withChapters numbers).addDir (world.disk.chapterDir number) :=
  List.foldl_append

/-- What adding directories leaves alone. -/
theorem withChapters_keeps {α : Type} (field : World Text → α)
    (kept : ∀ world loc, field (World.addDir world loc) = field world) (numbers : List Int) :
    field (world.withChapters numbers) = field world := by
  induction numbers using List.reverseRecOn with
  | nil => rfl
  | append_singleton numbers number inductionHypothesis =>
      rw [withChapters_append, kept, inductionHypothesis]

@[simp]
theorem cwd_withChapters (numbers : List Int) : (world.withChapters numbers).cwd = world.cwd :=
  withChapters_keeps World.cwd (fun _ => cwd_addDir) numbers

@[simp]
theorem files_withChapters (numbers : List Int) : (world.withChapters numbers).files = world.files :=
  withChapters_keeps World.files (fun _ => files_addDir) numbers

@[simp]
theorem log_withChapters (numbers : List Int) : (world.withChapters numbers).log = world.log :=
  withChapters_keeps World.log (fun _ => log_addDir) numbers

@[simp]
theorem stateToml_withChapters (numbers : List Int) :
    (world.withChapters numbers).stateToml = world.stateToml :=
  withChapters_keeps World.stateToml (fun _ => stateToml_addDir) numbers

theorem holdsFile_withChapters (numbers : List Int) (loc : Loc) :
    (world.withChapters numbers).holdsFile loc ↔ world.holdsFile loc := by
  unfold holdsFile
  simp

end World

namespace ChapterFree

/-- The place of a chapter is free. -/
theorem free (bare : ChapterFree world) (number : Int) :
    world.layout (world.disk.chapterDir number) = none :=
  bare.chapters _ (startsWith_append _ _)

/-- Exactly the directories of the chapters are new. -/
theorem dirs (bare : ChapterFree world) (numbers : List Int) :
    (world.withChapters numbers).dirs =
      world.dirs ∪ (numbers.map world.disk.chapterDir).toFinset := by
  induction numbers using List.reverseRecOn with
  | nil => simp [World.withChapters]
  | append_singleton numbers number inductionHypothesis =>
      rw [World.withChapters_append, List.map_append, List.toFinset_append, ← Finset.union_assoc,
        ← inductionHypothesis]
      by_cases made : world.disk.chapterDir number ∈ (world.withChapters numbers).dirs
      · have there : (world.withChapters numbers).layout (world.disk.chapterDir number) ≠ none := by
          rw [World.layout_eq_dir.mpr made]
          exact Option.some_ne_none _
        have same : (world.withChapters numbers).addDir (world.disk.chapterDir number) =
            world.withChapters numbers := by
          unfold World.addDir
          rw [dif_neg fun placed => there placed.2]
        rw [same]
        simp [made]
      · have inside : (world.disk.chapterDir number).tail ∈ (world.withChapters numbers).dirs := by
          rw [inductionHypothesis]
          exact Finset.mem_union_left _ bare.manuscript
        have free : (world.withChapters numbers).layout (world.disk.chapterDir number) = none := by
          rw [World.layout_eq_none, World.holdsFile_withChapters]
          exact ⟨made, (World.layout_eq_none.mp (bare.free number)).2⟩
        rw [World.dirs_addDir inside free]
        ext loc
        simp

variable (numbers : List Int)

/-- Every other place is taken as before. -/
theorem layout (bare : ChapterFree world) {loc : Loc} (other : loc ∉ numbers.map world.disk.chapterDir) :
    (world.withChapters numbers).layout loc = world.layout loc := by
  have same : loc ∈ (world.withChapters numbers).dirs ↔ loc ∈ world.dirs := by
    rw [bare.dirs, Finset.mem_union, List.mem_toFinset, or_iff_left other]
  unfold World.layout
  exact if_congr same rfl (if_congr (World.holdsFile_withChapters numbers loc) rfl rfl)

theorem disk_manuscript : (world.withChapters numbers).disk.manuscript = world.disk.manuscript := by
  show "manuscript" :: workingLoc (world.withChapters numbers).cwd = _
  rw [World.cwd_withChapters]
  rfl

theorem disk_chapterDir (number : Int) :
    (world.withChapters numbers).disk.chapterDir number = world.disk.chapterDir number := by
  unfold Disk.chapterDir
  rw [disk_manuscript]

/-- A chapter directory has been made exactly when it is listed. -/
theorem layout_chapterDir (bare : ChapterFree world) (number : Int) :
    (world.withChapters numbers).layout (world.disk.chapterDir number) =
      if number ∈ numbers then some .dir else none := by
  have listed : world.disk.chapterDir number ∈ numbers.map world.disk.chapterDir ↔
      number ∈ numbers := by
    rw [List.mem_map]
    constructor
    · rintro ⟨other, member, same⟩
      rwa [← chapterDirName_injective (List.cons.inj same).1]
    · exact fun member => ⟨number, member, rfl⟩
  by_cases member : number ∈ numbers
  · rw [if_pos member, World.layout_eq_dir, bare.dirs, Finset.mem_union, List.mem_toFinset]
    exact Or.inr (listed.mpr member)
  · rw [if_neg member, bare.layout numbers fun found => member (listed.mp found)]
    exact bare.free number

/-- The chapter directories are empty. -/
theorem layout_chapterFile (bare : ChapterFree world) (number : Int) (name : String) :
    (world.withChapters numbers).layout (world.disk.chapterFile number name) = none := by
  have other : world.disk.chapterFile number name ∉ numbers.map world.disk.chapterDir := by
    rw [List.mem_map]
    rintro ⟨made, -, same⟩
    have lengths := congrArg List.length same
    simp [Disk.chapterFile, Disk.chapterDir] at lengths
  rw [bare.layout numbers other]
  by_contra there
  have parent := World.layout_closed _ (Option.isSome_iff_ne_none.mpr there)
  change world.layout (world.disk.chapterDir number) = some .dir at parent
  rw [bare.free number] at parent
  cases parent

theorem chapterEntries (bare : ChapterFree world) :
    (world.withChapters numbers).disk.chapterEntries = (numbers.map chapterDirName).toFinset := by
  unfold Disk.chapterEntries
  rw [disk_manuscript]
  ext name
  simp only [Finset.mem_image, Finset.mem_filter, List.mem_toFinset, List.mem_map]
  constructor
  · rintro ⟨loc, ⟨there, inside, named, begins⟩, rfl⟩
    obtain ⟨first, rest, rfl⟩ := List.exists_cons_of_ne_nil named
    change rest = world.disk.manuscript at inside
    subst inside
    change first :: world.disk.manuscript ∈ (world.withChapters numbers).dirs at there
    rw [bare.dirs, Finset.mem_union, List.mem_toFinset, List.mem_map] at there
    rcases there with old | ⟨number, member, same⟩
    · have free := bare.chapters first begins
      rw [World.layout_eq_dir.mpr old] at free
      cases free
    · exact ⟨number, member, (List.cons.inj same).1⟩
  · rintro ⟨number, member, rfl⟩
    refine ⟨world.disk.chapterDir number, ⟨?_, rfl, List.cons_ne_nil _ _, startsWith_append _ _⟩, rfl⟩
    change world.disk.chapterDir number ∈ (world.withChapters numbers).dirs
    rw [bare.dirs, Finset.mem_union, List.mem_toFinset]
    exact Or.inr (List.mem_map_of_mem member)

/-- The suffixes are the two-digit forms of the chapters that were made. -/
theorem chapterSuffixes (bare : ChapterFree world) (natural : ∀ number ∈ numbers, 0 ≤ number) :
    (world.withChapters numbers).disk.chapterSuffixes = (numbers.map padTwo).toFinset := by
  unfold Disk.chapterSuffixes
  rw [bare.chapterEntries]
  ext suffix
  simp only [Finset.mem_filter, Finset.mem_image, List.mem_toFinset, List.mem_map]
  constructor
  · rintro ⟨⟨name, ⟨number, member, rfl⟩, rfl⟩, -⟩
    exact ⟨number, member, (removeBeginning_append _ _).symm⟩
  · rintro ⟨number, member, rfl⟩
    obtain ⟨value, rfl⟩ := Int.eq_ofNat_of_zero_le (natural number member)
    exact ⟨⟨_, ⟨_, member, rfl⟩, removeBeginning_append _ _⟩, isDigits_padTwo value⟩

/-- The detector finds exactly the chapters that were made. -/
theorem onDisk (bare : ChapterFree world) (nameable : ∀ number ∈ numbers, Nameable number) :
    (world.withChapters numbers).disk.onDisk = numbers.toFinset := by
  unfold Disk.onDisk
  rw [bare.chapterSuffixes numbers fun number member => (nameable number member).natural]
  ext number
  simp only [Finset.mem_image, List.mem_toFinset, List.mem_map]
  constructor
  · rintro ⟨suffix, ⟨made, member, rfl⟩, rfl⟩
    obtain ⟨value, rfl, numeral⟩ := (nameable made member).numeral
    rw [numeral]
    exact member
  · intro member
    obtain ⟨value, rfl, numeral⟩ := (nameable number member).numeral
    exact ⟨_, ⟨_, member, rfl⟩, by rw [numeral]; rfl⟩

theorem disk_chapterFile (number : Int) (name : String) :
    (world.withChapters numbers).disk.chapterFile number name = world.disk.chapterFile number name := by
  unfold Disk.chapterFile
  rw [disk_chapterDir]

/-- No file of a chapter is there. -/
theorem exists_chapterFile (bare : ChapterFree world) (number : Int) (name : String) :
    (world.withChapters numbers).disk.exists?
      ((world.withChapters numbers).disk.chapterFile number name) = false := by
  rw [disk_chapterFile]
  show ((world.withChapters numbers).layout _).isSome = false
  rw [bare.layout_chapterFile]
  rfl

/-- Whether its directory was made or not, the draft of a chapter is not found. -/
theorem missingFault_draft (bare : ChapterFree world) {number : Int}
    (short : overlong (chapterDirName number) = false) :
    (world.withChapters numbers).layout.missingFault (world.disk.chapterFile number "draft.md") =
      .fileNotFound := by
  have manuscript : (world.withChapters numbers).layout world.disk.manuscript = some .dir := by
    rw [World.layout_eq_dir, bare.dirs]
    exact Finset.mem_union_left _ bare.manuscript
  have dir : world.disk.chapterDir number = chapterDirName number :: world.disk.manuscript := rfl
  rw [Disk.chapterFile, Layout.missingFault, bare.layout_chapterDir]
  by_cases made : number ∈ numbers
  · rw [if_pos made]
    rfl
  · rw [if_neg made, dir, Layout.missingFault, manuscript]
    exact if_neg (Bool.eq_false_iff.mp short)

end ChapterFree

namespace Unchaptered

variable (numbers : List Int)

/-- There is no compiled manuscript. -/
theorem layout_compiled (bare : Unchaptered world) :
    (world.withChapters numbers).layout ("compiled.md" :: world.disk.manuscript) = none := by
  rw [bare.toChapterFree.layout numbers ?_, bare.compiled]
  rw [List.mem_map]
  rintro ⟨made, -, same⟩
  have begins : startsWith "compiled.md" "chapter-" = true := by
    rw [← (List.cons.inj same).1]
    exact startsWith_append _ _
  exact absurd begins (by decide)

/-- No compiled manuscript is there. -/
theorem exists_compiled (bare : Unchaptered world) : (world.withChapters numbers).disk.exists?
    (world.withChapters numbers).disk.compiledManuscript = false := by
  unfold Disk.compiledManuscript
  rw [ChapterFree.disk_manuscript]
  show ((world.withChapters numbers).layout _).isSome = false
  rw [bare.layout_compiled]
  rfl

theorem readable (bare : Unchaptered world) (nameable : ∀ number ∈ numbers, Nameable number)
    {state : State} (spelled : ∀ entry ∈ state.chapters, tooLong entry.number = false)
    (short : ∀ entry ∈ state.chapters, overlong (chapterDirName entry.number) = false) :
    Readable state (world.withChapters numbers).disk where
  drafts entry listed := by
    refine ⟨spelled entry listed, Or.inr ?_⟩
    have absent := bare.toChapterFree.layout_chapterFile numbers entry.number "draft.md"
    rw [ChapterFree.disk_chapterFile, (world.withChapters numbers).disk.read_missing _ absent]
    exact congrArg (fun fault => Except.error (Fault.os fault))
      (bare.toChapterFree.missingFault_draft numbers (short entry listed))
  compiled there := by
    rw [bare.exists_compiled] at there
    cases there
  names suffix member := by
    rw [bare.toChapterFree.chapterSuffixes numbers fun number made => (nameable number made).natural,
      List.mem_toFinset, List.mem_map] at member
    obtain ⟨number, made, rfl⟩ := member
    obtain ⟨value, -, numeral⟩ := (nameable number made).numeral
    rw [numeral]
    exact Option.some_ne_none _

end Unchaptered

end Trees

/-! ## A state that was just planned -/

/-- Chapters 1 to n with names that a directory holds, without words, and no cursor in any of
them. -/
structure Undrafted (state : State) : Prop where
  numbered : state.numbers = rangeFromOne state.chapters.length
  spelled : ∀ entry ∈ state.chapters, tooLong entry.number = false
  short : ∀ entry ∈ state.chapters, overlong (chapterDirName entry.number) = false
  zeroed : ∀ entry ∈ state.chapters,
    state.wordCounts.byChapter.get? (padTwo entry.number) = some 0
  keyed : ∀ key ∈ state.wordCounts.byChapter.keys, ∃ entry ∈ state.chapters, padTwo entry.number = key
  uncursored : state.drafting.currentChapter = 0

section Planned

variable {Text : Type} {world : World Text} {state : State} {made rest : List Int}

namespace Undrafted

/-- An accepted plan over a coherent empty manifest. -/
theorem of_accepted {arith : RatioArithmetic} {chapters : List ChapterPlanEntry}
    (coherent : Coherent arith state) (plan : PlanAccepted arith state chapters)
    (short : ∀ entry ∈ orderedChapters chapters, overlong (chapterDirName entry.number) = false) :
    Undrafted (state.planned chapters) where
  numbered := (wellPlanned_of_accepted plan.accepted).2.numbered
  spelled := plan.spelled
  short entry member := by
    obtain ⟨planned, listed, rfl⟩ := List.mem_map.mp member
    exact short planned listed
  zeroed entry member := by
    obtain ⟨planned, listed, rfl⟩ := List.mem_map.mp member
    exact Dict.get?_ofPairs_of_mem (fun _ _ _ _ _ => rfl) listed
  keyed key member := by
    obtain ⟨planned, listed, rfl⟩ := List.mem_map.mp (Dict.mem_keys_ofPairs.mp member)
    exact ⟨planned.record, List.mem_map_of_mem listed, rfl⟩
  uncursored := by
    have cursor := coherent.cursor
    rw [plan.empty] at cursor
    simp only [cursorCoherent, List.length_nil, Nat.cast_zero, Bool.and_eq_true,
      decide_eq_true_eq] at cursor
    show state.drafting.currentChapter = 0
    omega

theorem nameable (undrafted : Undrafted state) {number : Int} (listed : number ∈ state.numbers) :
    Nameable number := by
  obtain ⟨entry, member, rfl⟩ := List.mem_map.mp listed
  refine ⟨?_, undrafted.spelled entry member⟩
  rw [undrafted.numbered, mem_rangeFromOne] at listed
  omega

theorem carvable (undrafted : Undrafted state) {number : Int} (listed : number ∈ state.numbers) :
    Carvable number := by
  refine ⟨(undrafted.nameable listed).natural, ?_⟩
  obtain ⟨entry, member, rfl⟩ := List.mem_map.mp listed
  exact undrafted.short entry member

theorem nodup (undrafted : Undrafted state) : state.numbers.Nodup := by
  rw [undrafted.numbered]
  exact nodup_rangeFromOne _

/-- Nothing of the refuse class but the bijection is reported. -/
theorem otherRefusal (undrafted : Undrafted state) (bare : Unchaptered world) (numbers : List Int) :
    NovelRalph.otherRefusal state (world.withChapters numbers).disk = false := by
  unfold NovelRalph.otherRefusal cursorPlanMissing doneWithoutDraft compiledStale
  simp [undrafted.uncursored, bare.exists_compiled, bare.toChapterFree.exists_chapterFile]

/-- The drafts that are not there have the counts of the table. -/
theorem current (undrafted : Undrafted state) (bare : Unchaptered world) (numbers : List Int) :
    drift state (world.withChapters numbers).disk = false := by
  have words : ∀ number, (world.withChapters numbers).disk.draftWords number = 0 := fun number =>
    Disk.draftWords_of_not_exists (bare.toChapterFree.exists_chapterFile numbers number "draft.md")
  have stale : countsStale state (world.withChapters numbers).disk = false := by
    unfold countsStale sharedKeysAgree
    rw [Bool.not_eq_false', List.all_eq_true]
    intro key member
    obtain ⟨entry, listed, rfl⟩ := Disk.mem_keys_recountTable.mp member
    rw [undrafted.zeroed entry listed, Disk.get?_recountTable listed, words]
    rfl
  have keys : ((world.withChapters numbers).disk.recountTable state.chapters).keys.toFinset =
      state.wordCounts.byChapter.keys.toFinset := by
    ext key
    rw [List.mem_toFinset, List.mem_toFinset, Disk.mem_keys_recountTable]
    constructor
    · rintro ⟨entry, listed, rfl⟩
      rw [Dict.mem_keys_iff, undrafted.zeroed entry listed]
      rfl
    · exact undrafted.keyed key
  have covered : coverageBroken state (world.withChapters numbers).disk false = false := by
    unfold coverageBroken coverageBreak
    split
    · simp [keys]
    · rfl
  unfold drift
  rw [stale, covered]
  rfl

section Split

variable (undrafted : Undrafted state) (bare : Unchaptered world)
  (split : state.numbers = made ++ rest)

include undrafted bare split

theorem onDisk : (world.withChapters made).disk.onDisk = made.toFinset :=
  bare.toChapterFree.onDisk made fun number member =>
    undrafted.nameable (by rw [split]; exact List.mem_append_left _ member)

/-- What remains to be made is what the manifest has beyond the disk. -/
theorem missing : state.manifest \ (world.withChapters made).disk.onDisk = rest.toFinset := by
  have distinct := undrafted.nodup
  rw [split, List.nodup_append] at distinct
  rw [undrafted.onDisk bare split, State.manifest, split, List.toFinset_append,
    Finset.union_sdiff_left]
  refine Finset.sdiff_eq_self_of_disjoint (Finset.disjoint_left.mpr fun number later early => ?_)
  exact distinct.2.2 number (List.mem_toFinset.mp early) number (List.mem_toFinset.mp later) rfl

/-- Every prefix of the plan is a coherent subset of it. -/
theorem coherentSubset : (classifyBijection state.manifest
    (world.withChapters made).disk.onDisk).coherentSubset = true := by
  unfold BijectionBreak.coherentSubset
  rw [Bool.and_eq_true_iff]
  refine ⟨decide_eq_true ?_, decide_eq_true ?_⟩
  · show (world.withChapters made).disk.onDisk \ state.manifest = ∅
    rw [undrafted.onDisk bare split, State.manifest, split, List.toFinset_append,
      Finset.sdiff_eq_empty_iff_subset]
    exact Finset.subset_union_left
  · show sortedSet state.manifest = rangeFromOne state.manifest.card
    rw [State.manifest, undrafted.numbered, card_rangeFromOne, sortedSet_rangeFromOne]

/-- The bijection is broken as long as chapters are to be made. -/
theorem broken : bijectionBroken state (world.withChapters made).disk false = true ↔ rest ≠ [] := by
  have whole : (classifyBijection state.manifest (world.withChapters made).disk.onDisk).isBijection =
      true ↔ rest = [] := by
    unfold BijectionBreak.isBijection
    rw [undrafted.coherentSubset bare split, Bool.true_and, decide_eq_true_iff,
      ← List.toFinset_eq_empty_iff]
    show state.manifest \ (world.withChapters made).disk.onDisk = ∅ ↔ _
    rw [undrafted.missing bare split]
  rw [Ne, ← whole]
  simp [bijectionBroken]

end Split

end Undrafted

end Planned

end NovelRalph
