import Mathlib.Algebra.BigOperators.Group.Finset.Piecewise
import NovelRalph.Commands.Check
import NovelRalph.System.Runs

/-!
# What a clean check says about the word table

When `check` reports nothing, every manifest chapter's entry is the count of its
draft, and the recorded total is the drafts' total but for entries of keys that
name no manifest chapter. At bijection there are none; a drafting subset does not
look for them.
-/

namespace NovelRalph

open InvariantName

/-- The two-digit keys of the manifest chapters. -/
def State.chapterKeys (state : State) : Finset String :=
  (state.chapters.map fun chapter => padTwo chapter.number).toFinset

/-- The words recorded under keys of no manifest chapter. -/
def State.foreignWords (state : State) : Int :=
  ∑ key ∈ state.wordCounts.byChapter.keys.toFinset \ state.chapterKeys,
    (state.wordCounts.byChapter.get? key).getD 0

section Silent

variable {state : State} {disk : Disk} {relaxed : Bool}

/-- A silent detector: none of its questions fires. -/
theorem silent_of_evidence (silent : evidence state disk relaxed = []) {name : InvariantName}
    {fires : Bool} (asked : (name, fires) ∈ evidenceTable state disk relaxed) : fires = false := by
  unfold evidence at silent
  rw [List.map_eq_nil_iff, List.filter_eq_nil_iff] at silent
  simpa using silent _ asked

/-- A readable tree without a violation has a silent detector. -/
theorem evidence_of_clean (readable : Readable state disk)
    (clean : checkDiskEvidence state disk relaxed = .ok []) : evidence state disk relaxed = [] := by
  obtain ⟨violations, detected, names⟩ := checkDiskEvidence_of_readable readable relaxed
  rw [clean, Except.ok.injEq] at detected
  rw [← names, ← detected]
  rfl

/-- With the relaxed bijection silent, the disk holds the manifest or a proper part of it. -/
theorem coherentSubset_of_silent (silent : bijectionBroken state disk true = false) :
    (classifyBijection state.manifest disk.onDisk).coherentSubset = true ∧
      (state.manifest = disk.onDisk ∨ state.phase.current = .drafting ∧
        properCoherentSubset state.manifest disk.onDisk = true) := by
  unfold bijectionBroken at silent
  by_cases whole : (classifyBijection state.manifest disk.onDisk).isBijection = true
  · obtain ⟨coherent, same⟩ := isBijection_iff.mp whole
    exact ⟨coherent, Or.inl same⟩
  · simp only [whole, Bool.not_false, Bool.true_and, Bool.not_eq_false', Bool.and_eq_true,
      decide_eq_true_eq] at silent
    obtain ⟨drafting, coherent⟩ := silent
    refine ⟨coherent, ?_⟩
    by_cases same : state.manifest = disk.onDisk
    · exact Or.inl same
    · have below := (subset_of_coherentSubset coherent).ssubset_of_ne (Ne.symm same)
      exact Or.inr ⟨drafting, Bool.and_eq_true_iff.mpr ⟨decide_eq_true below, coherent⟩⟩

/-- With the counts silent, an entry of a manifest chapter is its draft's count. -/
theorem entry_of_silent (silent : countsStale state disk = false) {chapter : ChapterEntry}
    (listed : chapter ∈ state.chapters) {recorded : Int}
    (there : state.wordCounts.byChapter.get? (padTwo chapter.number) = some recorded) :
    recorded = disk.draftWords chapter.number := by
  have agree : sharedKeysAgree (disk.recountTable state.chapters) state.wordCounts.byChapter = true := by
    simpa [countsStale] using silent
  have counted : (disk.recountTable state.chapters).get? _ = _ := Disk.get?_recountTable listed
  have key : padTwo chapter.number ∈ (disk.recountTable state.chapters).keys :=
    Disk.mem_keys_recountTable.mpr ⟨chapter, listed, rfl⟩
  have same := List.all_eq_true.mp agree _ key
  rw [there, counted] at same
  exact (Option.some.inj (beq_iff_eq.mp same)).symm

/-- With the coverage silent, every chapter on disk has an entry. -/
theorem covered_of_silent (bijection : bijectionBroken state disk true = false)
    (silent : coverageBroken state disk true = false) {number : Int} (onDisk : number ∈ disk.onDisk)
    (listed : number ∈ state.manifest) :
    padTwo number ∈ state.wordCounts.byChapter.keys := by
  obtain ⟨coherent, whole | ⟨drafting, proper⟩⟩ := coherentSubset_of_silent bijection
  · unfold coverageBroken at silent
    rw [if_pos whole] at silent
    have none : (disk.recountTable state.chapters).keys.toFinset \
        state.wordCounts.byChapter.keys.toFinset = ∅ := by
      by_contra missing
      simp [coverageBreak, missing] at silent
    obtain ⟨chapter, member, rfl⟩ := List.mem_map.mp (List.mem_toFinset.mp listed)
    have key : _ ∈ (disk.recountTable state.chapters).keys :=
      Disk.mem_keys_recountTable.mpr ⟨chapter, member, rfl⟩
    exact List.mem_toFinset.mp (Finset.sdiff_eq_empty_iff_subset.mp none (List.mem_toFinset.mpr key))
  · have differs := ne_of_properCoherentSubset proper
    unfold coverageBroken at silent
    rw [if_neg differs] at silent
    have none : disk.onDisk.image padTwo \ state.wordCounts.byChapter.keys.toFinset = ∅ := by
      by_contra missing
      simp [draftedSubsetCoverViolation, missing, drafting, proper] at silent
    exact List.mem_toFinset.mp (Finset.sdiff_eq_empty_iff_subset.mp none
      (Finset.mem_image_of_mem padTwo onDisk))

/-- At bijection with the coverage silent, every entry belongs to a manifest chapter. -/
theorem native_of_silent (whole : state.manifest = disk.onDisk)
    (silent : coverageBroken state disk relaxed = false) :
    state.wordCounts.byChapter.keys.toFinset \ state.chapterKeys = ∅ := by
  unfold coverageBroken at silent
  rw [if_pos whole] at silent
  have none : state.wordCounts.byChapter.keys.toFinset \
      (disk.recountTable state.chapters).keys.toFinset = ∅ := by
    by_contra extra
    simp [coverageBreak, extra] at silent
  have keys : (disk.recountTable state.chapters).keys.toFinset = state.chapterKeys := by
    ext key
    simp [Disk.mem_keys_recountTable, State.chapterKeys]
  rw [← keys]
  exact none

end Silent

section World

variable {toml : Tomlkit} {arith : RatioArithmetic} {world : World toml.Text} {state : State}

/-- A coherent state that the relaxed detector is silent about checks clean. -/
theorem check_exits_zero (shows : Shows world state) (coherent : Coherent arith state)
    (readable : Readable state world.disk) (silent : evidence state world.disk true = []) :
    exitCodeOf (check arith world).result = some 0 := by
  obtain ⟨document, opens, viewed⟩ := shows.opens
  have loads : (guardStateInput (stateInputErrorAt world) do
      let document ← openDocument world
      documentToState document) = .ok state := by
    rw [guardStateInput_eq_ok]
    exact except_bind_eq_ok.mpr ⟨document, opens, viewed⟩
  obtain ⟨violations, detected, names⟩ := checkDiskEvidence_of_readable readable true
  rw [silent, List.map_eq_nil_iff] at names
  subst names
  have validated := spelledVerdict_eq_nil.mpr coherent
  have clean : guardStateInput draftReadError (checkDiskEvidence state world.disk true) = .ok [] := by
    rw [detected, guardStateInput_ok]
  have report : checkReport arith world = ⟨[], .ok ⟨[], none⟩⟩ := by
    unfold checkReport loadOrStateError
    rw [Prog.observe_bind_ok world loads, Prog.observe_bind_ok world validated,
      Prog.observe_bind_ok world clean]
    rfl
  unfold check
  rw [Prog.bind_quiet world report]
  rfl

/-- A directory named like a chapter is seen as that chapter. -/
theorem World.mem_onDisk {number : Nat} (spelled : tooLong number = false)
    (there : world.disk.chapterDir number ∈ world.dirs) : (number : Int) ∈ world.disk.onDisk := by
  have entry : chapterDirName number ∈ world.disk.chapterEntries := by
    unfold Disk.chapterEntries
    refine Finset.mem_image.mpr ⟨world.disk.chapterDir number, Finset.mem_filter.mpr
      ⟨there, rfl, List.cons_ne_nil _ _, ?_⟩, rfl⟩
    exact startsWith_append _ _
  have suffix : padTwo number ∈ world.disk.chapterSuffixes := by
    unfold Disk.chapterSuffixes
    refine Finset.mem_filter.mpr ⟨Finset.mem_image.mpr ⟨_, entry, ?_⟩, isDigits_padTwo number⟩
    exact removeBeginning_append _ _
  refine Finset.mem_image.mpr ⟨_, suffix, ?_⟩
  rw [intOfDigits?_padTwo, spelled]
  rfl

/-- A chapter without a directory has no draft. -/
theorem World.draft_absent {number : Int} (positive : 1 ≤ number) (spelled : tooLong number = false)
    (absent : number ∉ world.disk.onDisk) :
    world.disk.exists? (world.disk.chapterFile number "draft.md") = false := by
  by_contra there
  obtain ⟨value, rfl⟩ := Int.eq_ofNat_of_zero_le (show 0 ≤ number by omega)
  have parent := World.layout_closed _ (Bool.eq_true_of_not_eq_false there)
  exact absent (World.mem_onDisk spelled (World.layout_eq_dir.mp parent))

/-- The recorded total of a state whose table agrees with the drafts on the manifest's keys. -/
theorem total_of_agreement {disk : Disk}
    (agrees : ∀ chapter ∈ state.chapters,
      (state.wordCounts.byChapter.get? (padTwo chapter.number)).getD 0 =
        disk.draftWords chapter.number) :
    state.wordCounts.draftedTotal =
      (disk.recountTable state.chapters).values.sum + state.foreignWords := by
  have keys : (disk.recountTable state.chapters).keys.toFinset = state.chapterKeys := by
    ext key
    simp [Disk.mem_keys_recountTable, State.chapterKeys]
  have native : ∑ key ∈ state.chapterKeys, ((disk.recountTable state.chapters).get? key).getD 0 =
      ∑ key ∈ state.wordCounts.byChapter.keys.toFinset ∩ state.chapterKeys,
        (state.wordCounts.byChapter.get? key).getD 0 := by
    have same : ∀ key ∈ state.chapterKeys, ((disk.recountTable state.chapters).get? key).getD 0 =
        (state.wordCounts.byChapter.get? key).getD 0 := by
      intro key member
      obtain ⟨chapter, listed, rfl⟩ := List.mem_map.mp (List.mem_toFinset.mp member)
      rw [Disk.get?_recountTable listed, agrees chapter listed]
      rfl
    rw [Finset.sum_congr rfl same]
    refine (Finset.sum_subset Finset.inter_subset_right fun key member outside => ?_).symm
    have missing : key ∉ state.wordCounts.byChapter.keys := fun there =>
      outside (Finset.mem_inter.mpr ⟨List.mem_toFinset.mpr there, member⟩)
    rw [Dict.not_mem_keys_iff.mp missing]
    rfl
  calc state.wordCounts.draftedTotal
      = ∑ key ∈ state.wordCounts.byChapter.keys.toFinset,
          (state.wordCounts.byChapter.get? key).getD 0 := Dict.sum_values _
    _ = ∑ key ∈ state.wordCounts.byChapter.keys.toFinset ∩ state.chapterKeys,
          (state.wordCounts.byChapter.get? key).getD 0 + state.foreignWords :=
        (Finset.sum_inter_add_sum_sdiff _ _ _).symm
    _ = (disk.recountTable state.chapters).values.sum + state.foreignWords := by
        rw [← native, Dict.sum_values, keys]

/-- A clean check pins down the table up to entries of no manifest chapter. -/
theorem clean_check_counts (readable : Readable state world.disk)
    (validated : validateState arith state = .ok [])
    (clean : checkDiskEvidence state world.disk true = .ok []) :
    (∀ chapter ∈ state.chapters,
      state.wordCounts.byChapter.get? (padTwo chapter.number) =
          some (world.disk.draftWords chapter.number) ∨
        state.wordCounts.byChapter.get? (padTwo chapter.number) = none ∧
          world.disk.exists? (world.disk.chapterFile chapter.number "draft.md") = false) ∧
    state.wordCounts.current =
      (world.disk.recountTable state.chapters).values.sum + state.foreignWords ∧
    (¬ (state.phase.current = .drafting ∧
        properCoherentSubset state.manifest world.disk.onDisk = true) →
      state.wordCounts.byChapter.keys.toFinset \ state.chapterKeys = ∅ ∧
      state.wordCounts.current = (world.disk.recountTable state.chapters).values.sum) := by
  have silent := evidence_of_clean readable clean
  have bijection := silent_of_evidence silent
    (show (manifestDiskBijection, bijectionBroken state world.disk true) ∈ _ by simp [evidenceTable])
  have counts := silent_of_evidence silent
    (show (wordCountsMatchDrafts, countsStale state world.disk) ∈ _ by simp [evidenceTable])
  have coverage := silent_of_evidence silent
    (show (wordCountsCoverDrafts, coverageBroken state world.disk true) ∈ _ by simp [evidenceTable])
  have sum := (validateState_eq_nil.mp validated).sum
  obtain ⟨coherent, phases⟩ := coherentSubset_of_silent bijection
  have entries : ∀ chapter ∈ state.chapters,
      state.wordCounts.byChapter.get? (padTwo chapter.number) =
          some (world.disk.draftWords chapter.number) ∨
        state.wordCounts.byChapter.get? (padTwo chapter.number) = none ∧
          world.disk.exists? (world.disk.chapterFile chapter.number "draft.md") = false := by
    intro chapter listed
    have number : chapter.number ∈ state.manifest :=
      List.mem_toFinset.mpr (List.mem_map_of_mem listed)
    cases there : state.wordCounts.byChapter.get? (padTwo chapter.number) with
    | some recorded => exact Or.inl (congrArg some (entry_of_silent counts listed there))
    | none =>
        refine Or.inr ⟨rfl, World.draft_absent (one_le_of_coherentSubset coherent number)
          (readable.drafts chapter listed).spelled ?_⟩
        intro onDisk
        exact Dict.not_mem_keys_iff.mpr there (covered_of_silent bijection coverage onDisk number)
  have total : state.wordCounts.current =
      (world.disk.recountTable state.chapters).values.sum + state.foreignWords := by
    rw [← sum]
    refine total_of_agreement fun chapter listed => ?_
    rcases entries chapter listed with recorded | ⟨missing, absent⟩
    · rw [recorded]
      rfl
    · rw [missing, Disk.draftWords_of_not_exists absent]
      rfl
  refine ⟨entries, total, fun outside => ?_⟩
  have native := native_of_silent (phases.resolve_right outside) coverage
  refine ⟨native, ?_⟩
  rw [total, State.foreignWords, native, Finset.sum_empty, add_zero]

end World

/-! ## A drafting subset with an entry of no chapter -/

/-- Two planned chapters, the counts of one, and five words under a key of neither. -/
def subsetTable : Table :=
  ((initialEdits "Title" "slug" 1000 "2024-01-01T00:00:00Z") ++
    [setChapters [⟨1, "one", "One", 500⟩, ⟨2, "two", "Two", 500⟩], setCurrent 7,
      setByChapter (Dict.ofPairs [("01", 2), ("99", 5)]), setCompleted (Phase.order.take 8),
      setCurrentPhase .drafting]).foldl Table.edit []

/-- The first chapter is drafted, the second has no directory yet. -/
def subsetWorld : World Tomlkit.structural.Text :=
  (((initialWorld 1000).putState (.ok subsetTable)).addDir
    ["chapter-01", "manuscript", "working"]).putFile
      ["draft.md", "chapter-01", "manuscript", "working"] (.text "a b")

/-- What `subsetWorld` shows. -/
def subsetState : State :=
  { initialState "Title" "slug" 1000 "2024-01-01T00:00:00Z" with
    phase := { current := .drafting, completed := Phase.order.take 8 }
    chapters := [⟨1, "one", "One", 500⟩, ⟨2, "two", "Two", 500⟩]
    wordCounts := {
      target := 1000, current := 7, byChapter := Dict.ofPairs [("01", 2), ("99", 5)] } }

theorem shows_subset : Shows subsetWorld subsetState :=
  shown?_eq_some.mp (by decide +kernel)

theorem readable_subset : Readable subsetState subsetWorld.disk where
  drafts entry member := by
    rcases List.mem_cons.mp member with rfl | later
    · exact ⟨by decide +kernel, Or.inl ⟨"a b", by decide +kernel⟩⟩
    · rw [List.mem_singleton.mp later]
      exact ⟨by decide +kernel, Or.inr (by decide +kernel)⟩
  compiled there := absurd there (by decide +kernel)
  names := by decide +kernel

theorem validated_subset : validateState .exact subsetState = .ok [] := by decide +kernel

theorem clean_subset : checkDiskEvidence subsetState subsetWorld.disk true = .ok [] := by
  decide +kernel

/-- The check of `subsetWorld` is clean, yet the drafts have two words and not seven. -/
theorem clean_check_miscounts :
    Shows subsetWorld subsetState ∧ Readable subsetState subsetWorld.disk ∧
      validateState .exact subsetState = .ok [] ∧
      checkDiskEvidence subsetState subsetWorld.disk true = .ok [] ∧
      exitCodeOf (check .exact subsetWorld).result = some 0 ∧
      subsetState.wordCounts.current ≠
        (subsetWorld.disk.recountTable subsetState.chapters).values.sum ∧
      subsetState.wordCounts.byChapter.get? "99" = some 5 ∧
      "99" ∉ subsetState.chapterKeys :=
  ⟨shows_subset, readable_subset, validated_subset, clean_subset, by decide +kernel,
    by decide +kernel, by decide +kernel, by decide +kernel⟩

/-- The five words of `subsetWorld` that no draft has. -/
theorem clean_check_counts_subset :
    subsetState.wordCounts.current =
      (subsetWorld.disk.recountTable subsetState.chapters).values.sum +
        subsetState.foreignWords :=
  (clean_check_counts readable_subset validated_subset clean_subset).2.1

end NovelRalph
