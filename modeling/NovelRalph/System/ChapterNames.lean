import NovelRalph.System.TornChapters

/-!
# Chapter names between the writer and the recovery

`set-chapters` pads the numbers of its plan into names, and the recovery reads
them back from the declared paths and from the directories. Whatever part of the
directories has been made, the two readings add up to the plan.
-/

namespace NovelRalph

/-- An accepted plan numbers its chapters from 1 on. -/
theorem mem_numbers_of_accepted {plan : List ChapterPlanEntry}
    (accepted : manifestCoherenceViolations plan = []) {number : Int} :
    number ∈ plan.map ChapterPlanEntry.number ↔ 1 ≤ number ∧ number ≤ plan.length := by
  have numbered := (wellPlanned_of_accepted accepted).2.numbered
  have ordered : number ∈ (orderedChapters plan).map (ChapterEntry.number ∘ ChapterPlanEntry.record) ↔
      number ∈ plan.map ChapterPlanEntry.number :=
    ((perm_orderedChapters plan).map ChapterPlanEntry.number).mem_iff
  rw [← ordered, ← List.map_map, numbered, mem_rangeFromOne, List.length_map,
    (perm_orderedChapters plan).length_eq]

/-- The paths of an accepted plan can be declared unless its length has too many digits. -/
theorem spelledPaths_returns {plan : List ChapterPlanEntry}
    (accepted : manifestCoherenceViolations plan = []) :
    (∃ paths, spelledPaths plan = .ok paths) ↔ plan.length < 10 ^ digitLimit := by
  have below : ∀ number : Int, tooLong number = false ↔ number.natAbs < 10 ^ digitLimit := by
    simp [tooLong]
  have spells : (∃ paths, spelledPaths plan = .ok paths) ↔
      ∀ number ∈ plan.map ChapterPlanEntry.number, tooLong number = false := by
    rw [← spelled_eq_ok]
    constructor
    · rintro ⟨paths, returned⟩
      obtain ⟨_, named, -⟩ := except_bind_eq_ok.mp returned
      exact named
    · intro named
      exact ⟨_, except_bind_eq_ok.mpr ⟨(), named, rfl⟩⟩
  rw [spells]
  constructor
  · intro short
    have some : plan ≠ [] := by
      rintro rfl
      exact absurd accepted (by simp [manifestCoherenceViolations])
    have last : (plan.length : Int) ∈ plan.map ChapterPlanEntry.number := by
      have positive := List.length_pos_iff.mpr some
      exact (mem_numbers_of_accepted accepted).mpr ⟨by omega, le_refl _⟩
    simpa using (below _).mp (short _ last)
  · intro short number listed
    have range := (mem_numbers_of_accepted accepted).mp listed
    exact (below number).mpr (by omega)

/-- The state file among the declared paths is passed over. -/
theorem declaredChapterNumbers_state (paths : List String) :
    declaredChapterNumbers ("working/state.toml" :: paths) = declaredChapterNumbers paths := by
  have name : (PosixPath.parse "working/state.toml").name = "state.toml" := by decide +kernel
  unfold declaredChapterNumbers
  rw [declaredChapterNumbersFrom, if_pos name]

/-- The paths of chapters are read back as their numbers. -/
theorem declaredChapterNumbers_chapterPaths {numbers : List Int}
    (nameable : ∀ number ∈ numbers, Nameable number) :
    declaredChapterNumbers (numbers.map chapterPath) = .ok (some numbers.toFinset) := by
  have read := declaredChapterNumbersFrom_dirs nameable ∅
  rwa [Finset.empty_union] at read

/-- The declared paths of a plan are read back as its numbers. -/
theorem declaredChapterNumbers_declaredPaths {plan : List ChapterPlanEntry}
    (nameable : ∀ number ∈ plan.map ChapterPlanEntry.number, Nameable number) :
    declaredChapterNumbers (declaredPaths plan) =
      .ok (some (plan.map ChapterPlanEntry.number).toFinset) := by
  rw [declaredPaths_eq, declaredChapterNumbers_state, declaredChapterNumbers_chapterPaths nameable]

section Made

variable {Text : Type} {world : World Text} {made : List Int}

/-- The directories that were made are listed without a fault. -/
theorem ChapterFree.onDiskChapterNumbers (bare : ChapterFree world)
    (nameable : ∀ number ∈ made, Nameable number) :
    (world.withChapters made).disk.onDiskChapterNumbers = .ok made.toFinset := by
  have names : ¬ ∃ suffix ∈ (world.withChapters made).disk.chapterSuffixes,
      intOfDigits? suffix = none := by
    rintro ⟨suffix, member, odd⟩
    rw [bare.chapterSuffixes made fun number listed => (nameable number listed).natural,
      List.mem_toFinset, List.mem_map] at member
    obtain ⟨number, listed, rfl⟩ := member
    obtain ⟨value, -, numeral⟩ := (nameable number listed).numeral
    rw [numeral] at odd
    cases odd
  have listed : (world.withChapters made).disk.onDiskChapterNumbers =
      .ok (world.withChapters made).disk.onDisk := if_neg names
  rw [listed, bare.onDisk made nameable]

/-- The declared paths that are missing, the state file aside, are those of the other chapters. -/
theorem declaredChapterNumbers_missing (bare : ChapterFree world) {plan : List ChapterPlanEntry}
    (nameable : ∀ number ∈ plan.map ChapterPlanEntry.number, Nameable number)
    (short : ∀ number ∈ made, overlong (chapterDirName number) = false) :
    declaredChapterNumbers (missingDeclaredPaths (declaredPaths plan)
        (world.withChapters made).disk) =
      .ok (some ((plan.map ChapterPlanEntry.number).toFinset \ made.toFinset)) := by
  have closed : (world.withChapters made).disk.layout.Closed := World.layout_closed
  have absent : ((plan.map ChapterPlanEntry.number).map chapterPath).filter (fun path =>
        !(declaredPath path).occupies (world.withChapters made).disk.layout
          (world.withChapters made).disk.working "working") =
      ((plan.map ChapterPlanEntry.number).filter (· ∉ made)).map chapterPath := by
    rw [List.filter_map]
    congr 1
    refine List.filter_congr fun number listed => ?_
    have place : (world.withChapters made).disk.layout
        ((world.withChapters made).disk.chapterDir number) =
          if number ∈ made then some .dir else none := by
      rw [ChapterFree.disk_chapterDir]
      exact bare.layout_chapterDir made number
    have natural := (nameable number listed).natural
    rw [Function.comp_apply, occupies_chapterPath closed natural, place]
    by_cases early : number ∈ made
    · rw [(Carvable.mk natural (short number early)).taken]
      simp [early]
    · simp [early]
  have others : ((plan.map ChapterPlanEntry.number).filter (· ∉ made)).toFinset =
      (plan.map ChapterPlanEntry.number).toFinset \ made.toFinset := by
    ext number
    simp
  have numbers := declaredChapterNumbers_chapterPaths fun number
    (member : number ∈ (plan.map ChapterPlanEntry.number).filter (· ∉ made)) =>
      nameable number (List.mem_filter.mp member).1
  rw [others] at numbers
  unfold missingDeclaredPaths
  rw [declaredPaths_eq, List.filter_cons, absent]
  split
  · rw [declaredChapterNumbers_state, numbers]
  · exact numbers

end Made

/-- Distinct chapters have distinct names and keys; a coherent plan is read back from the paths it
declares, and with the directories of some of its chapters made, in any order, under names that a
directory can hold, the detector finds those and the paths that are missing name exactly the rest. -/
theorem chapter_names_round_trip : Function.Injective padTwo ∧ Function.Injective chapterDirName ∧
    ∀ plan, manifestCoherenceViolations plan = [] →
      ((∃ paths, spelledPaths plan = .ok paths) ↔ plan.length < 10 ^ digitLimit) ∧
      ∀ paths, spelledPaths plan = .ok paths →
        declaredChapterNumbers paths = .ok (some (plan.map ChapterPlanEntry.number).toFinset) ∧
        ∀ {Text : Type} (world : World Text), ChapterFree world →
          ∀ made ⊆ plan.map ChapterPlanEntry.number,
            (∀ number ∈ made, overlong (chapterDirName number) = false) →
            (world.withChapters made).disk.onDiskChapterNumbers = .ok made.toFinset ∧
              declaredChapterNumbers (missingDeclaredPaths paths (world.withChapters made).disk) =
                .ok (some ((plan.map ChapterPlanEntry.number).toFinset \ made.toFinset)) := by
  refine ⟨padTwo_injective, chapterDirName_injective, fun plan accepted =>
    ⟨spelledPaths_returns accepted, fun paths declared => ?_⟩⟩
  obtain ⟨_, named, returned⟩ := except_bind_eq_ok.mp declared
  cases returned
  have nameable : ∀ number ∈ plan.map ChapterPlanEntry.number, Nameable number := by
    intro number listed
    have positive := ((mem_numbers_of_accepted accepted).mp listed).1
    exact ⟨by omega, spelled_eq_ok.mp named number listed⟩
  refine ⟨declaredChapterNumbers_declaredPaths nameable, fun world bare made planned short =>
    ⟨?_, ?_⟩⟩
  · exact bare.onDiskChapterNumbers fun number member => nameable number (planned member)
  · exact declaredChapterNumbers_missing bare nameable short

/-- With the second of two chapters made, the first is found missing. -/
theorem chapter_names_round_trip_second :
    manifestCoherenceViolations [⟨2, "two", "Two", 500⟩, ⟨1, "one", "One", 500⟩] = [] ∧
      ChapterFree (initialWorld 1000) ∧
      ((initialWorld 1000).withChapters [2]).disk.onDiskChapterNumbers = .ok {2} ∧
      declaredChapterNumbers (missingDeclaredPaths
          (declaredPaths [⟨2, "two", "Two", 500⟩, ⟨1, "one", "One", 500⟩])
          ((initialWorld 1000).withChapters [2]).disk) = .ok (some ({2, 1} \ {2})) := by
  have accepted : manifestCoherenceViolations
      [⟨2, "two", "Two", 500⟩, ⟨1, "one", "One", 500⟩] = [] := by decide +kernel
  have declared : spelledPaths [⟨2, "two", "Two", 500⟩, ⟨1, "one", "One", 500⟩] =
      .ok (declaredPaths [⟨2, "two", "Two", 500⟩, ⟨1, "one", "One", 500⟩]) := by
    rw [spelledPaths, spelled_eq_ok.mpr (by decide +kernel)]
    rfl
  have bare := unchaptered_initial.toChapterFree
  obtain ⟨-, -, round⟩ := chapter_names_round_trip
  obtain ⟨onDisk, missing⟩ := ((round _ accepted).2 _ declared).2 _ bare [2] (by simp)
    (by decide +kernel)
  exact ⟨accepted, bare, onDisk, missing⟩

end NovelRalph
