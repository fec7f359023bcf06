import NovelRalph.State.Bijection

/-!
# The drafting relaxation

While drafting, the user-facing detector forgives a manifest that is ahead of
its directories. On that shape it drops the bijection from what the strict
detector reports and asks in its place for a key of every chapter on disk;
everywhere else the two detectors are the same, faults included.
-/

namespace NovelRalph

open InvariantName

section Relaxation

variable (state : State) (disk : Disk)

/-- Drafting, with some but not all chapters of a manifest 1 to n on disk. -/
def DraftingSubset : Prop :=
  state.phase.current = .drafting ∧ ∃ onDisk, disk.onDiskChapterNumbers = .ok onDisk ∧
    onDisk ⊂ state.manifest ∧ ∃ count, state.manifest = (rangeFromOne count).toFinset

/-- Some chapter on disk has no key in the table of counts. -/
def Uncovered : Prop :=
  ∃ onDisk, disk.onDiskChapterNumbers = .ok onDisk ∧
    ∃ number ∈ onDisk, padTwo number ∉ state.wordCounts.byChapter.keys

variable {state disk}

/-- A break that is excused has the shape of a subset. -/
theorem draftingSubset_of_excused {onDisk : Finset Int} (listed : disk.onDiskChapterNumbers = .ok onDisk)
    (drafting : state.phase.current = .drafting)
    (coherent : (classifyBijection state.manifest onDisk).coherentSubset = true)
    (broken : (classifyBijection state.manifest onDisk).isBijection = false) :
    DraftingSubset state disk := by
  obtain ⟨within, ranged⟩ := coherentSubset_iff.mp coherent
  refine ⟨drafting, onDisk, listed, Finset.ssubset_iff_subset_ne.mpr ⟨within, ?_⟩, ranged⟩
  rintro rfl
  rw [isBijection_iff_range.mpr ⟨ranged, rfl⟩] at broken
  cases broken

/-- On other shapes the flag changes no verdict on the bijection. -/
theorem checkManifestDiskBijection_unrelaxed (other : ¬ DraftingSubset state disk) :
    checkManifestDiskBijection state disk true = checkManifestDiskBijection state disk false := by
  unfold checkManifestDiskBijection
  cases listed : disk.onDiskChapterNumbers with
  | error fault => rfl
  | ok onDisk =>
      simp only [bind, Except.bind, Bool.true_and, Bool.false_and]
      cases whole : (classifyBijection state.manifest onDisk).isBijection with
      | true => rfl
      | false =>
          by_cases excused : (decide (state.phase.current = .drafting) &&
              (classifyBijection state.manifest onDisk).coherentSubset) = true
          · obtain ⟨drafting, coherent⟩ := Bool.and_eq_true_iff.mp excused
            exact absurd (draftingSubset_of_excused listed (of_decide_eq_true drafting) coherent whole)
              other
          · simp [excused]

theorem properCoherentSubset_iff {manifest onDisk : Finset Int} :
    properCoherentSubset manifest onDisk = true ↔
      onDisk ⊂ manifest ∧ ∃ count, manifest = (rangeFromOne count).toFinset := by
  unfold properCoherentSubset
  rw [Bool.and_eq_true_iff, decide_eq_true_iff, coherentSubset_iff]
  exact and_congr_right fun proper => and_iff_right proper.subset

/-- Nor any verdict on the coverage. -/
theorem checkWordCountsCoverDrafts_unrelaxed (other : ¬ DraftingSubset state disk) :
    checkWordCountsCoverDrafts state disk true = checkWordCountsCoverDrafts state disk false := by
  unfold checkWordCountsCoverDrafts
  cases listed : disk.onDiskChapterNumbers with
  | error fault => rfl
  | ok onDisk =>
      simp only [bind, Except.bind, Bool.true_and, Bool.false_and]
      by_cases excused : (decide (state.phase.current = .drafting) &&
          properCoherentSubset state.manifest onDisk) = true
      · obtain ⟨drafting, proper⟩ := Bool.and_eq_true_iff.mp excused
        exact absurd ⟨of_decide_eq_true drafting, onDisk, listed, properCoherentSubset_iff.mp proper⟩ other
      · simp [excused]

/-- The coverage of a drafting subset is violated when a chapter on disk has no key. -/
theorem draftedSubsetCoverViolation_isSome {onDisk : Finset Int} :
    (draftedSubsetCoverViolation state onDisk).isSome = true ↔
      ∃ number ∈ onDisk, padTwo number ∉ state.wordCounts.byChapter.keys := by
  have gap : (∃ number ∈ onDisk, padTwo number ∉ state.wordCounts.byChapter.keys) ↔
      onDisk.image padTwo \ state.wordCounts.byChapter.keys.toFinset ≠ ∅ := by
    rw [← Finset.nonempty_iff_ne_empty]
    simp [Finset.Nonempty]
  rw [gap, draftedSubsetCoverViolation]
  split <;> simp_all

namespace DraftingSubset

/-- On the shape of a subset the relaxed detector's first predicate is silent. The strict one's
speaks, or has a number to spell that is too long. -/
theorem head (shape : DraftingSubset state disk) :
    checkManifestDiskBijection state disk true = .ok none ∧
      ((∃ broken : Violation, broken.invariant = manifestDiskBijection ∧
          checkManifestDiskBijection state disk false = .ok (some broken)) ∨
        checkManifestDiskBijection state disk false = .error .valueError ∧
          ∃ number ∈ state.manifest, tooLong number = true) := by
  obtain ⟨drafting, onDisk, listed, proper, ranged⟩ := shape
  have coherent : (classifyBijection state.manifest onDisk).coherentSubset = true :=
    coherentSubset_iff.mpr ⟨proper.subset, ranged⟩
  have broken : (classifyBijection state.manifest onDisk).isBijection = false := by
    rw [← Bool.not_eq_true, isBijection_iff]
    exact fun whole => proper.ne whole.2.symm
  unfold checkManifestDiskBijection
  rw [listed]
  refine ⟨by simp [bind, Except.bind, broken, drafting, coherent, pure, Except.pure], ?_⟩
  cases described : (classifyBijection state.manifest onDisk).describe with
  | ok detail =>
      refine Or.inl ⟨⟨manifestDiskBijection, detail⟩, rfl, ?_⟩
      simp [bind, Except.bind, broken, described, pure, Except.pure]
  | error fault =>
      obtain ⟨rfl, long⟩ := BijectionBreak.describe_error described
      exact Or.inr ⟨by simp [bind, Except.bind, broken, described], long⟩

/-- And the last one in the relaxed detector alone, when a chapter on disk has no key. -/
theorem verdicts (shape : DraftingSubset state disk) : ∃ cover : Option Violation,
    (cover.isSome ↔ Uncovered state disk) ∧
      (∀ gap ∈ cover, gap.invariant = wordCountsCoverDrafts) ∧
      checkWordCountsCoverDrafts state disk true = .ok cover ∧
      checkWordCountsCoverDrafts state disk false = .ok none := by
  obtain ⟨drafting, onDisk, listed, proper, ranged⟩ := shape
  have other : ¬ state.manifest = onDisk := fun same => proper.ne same.symm
  have subset : properCoherentSubset state.manifest onDisk = true :=
    properCoherentSubset_iff.mpr ⟨proper, ranged⟩
  refine ⟨draftedSubsetCoverViolation state onDisk, ?_, fun gap member => ?_, ?_, ?_⟩
  · unfold Uncovered
    rw [draftedSubsetCoverViolation_isSome, listed]
    simp
  · unfold draftedSubsetCoverViolation at member
    dsimp only at member
    split at member <;> cases member
    rfl
  · unfold checkWordCountsCoverDrafts
    simp [listed, bind, Except.bind, other, drafting, subset, pure, Except.pure]
  · unfold checkWordCountsCoverDrafts
    simp [listed, bind, Except.bind, other, pure, Except.pure]

end DraftingSubset

/-- Only the first predicate reports the bijection. -/
theorem tail_invariant {predicate : State → Disk → Except Fault (Option Violation)}
    (listed : predicate ∈ tailPredicates) {violation : Violation}
    (reported : predicate state disk = .ok (some violation)) :
    violation.invariant ≠ manifestDiskBijection := by
  have flagged : ∀ chapters, checkDoneFlagWithoutDraft.go disk chapters = .ok (some violation) →
      violation.invariant = doneFlagWithoutDraft := by
    intro chapters
    induction chapters with
    | nil =>
        intro found
        cases found
    | cons chapter rest inductionHypothesis =>
        intro found
        obtain ⟨fires, -, found⟩ := except_bind_eq_ok.mp found
        cases fires with
        | true =>
            cases found
            rfl
        | false => exact inductionHypothesis found
  simp only [tailPredicates, List.mem_cons, List.not_mem_nil, or_false] at listed
  rcases listed with rfl | rfl | rfl | rfl | rfl | rfl
  · have found := Except.ok.inj reported
    unfold checkCursorPlanPresent at found
    split at found <;> cases found
    simp
  · rw [flagged state.chapters reported]
    simp
  · obtain ⟨verdict, -, found⟩ := except_bind_eq_ok.mp reported
    cases verdict <;> cases found
    simp
  · obtain ⟨pending, -, rfl⟩ := Option.map_eq_some_iff.mp (Except.ok.inj reported)
    simp
  · obtain ⟨⟨total, counted⟩, -, found⟩ := except_bind_eq_ok.mp reported
    dsimp only at found
    split at found <;> cases found
    simp
  · have found := Except.ok.inj reported
    unfold checkLogPresent at found
    split at found <;> cases found
    simp

/-- The answers of a sequence of predicates are each the answer of one of them. -/
theorem tail_filterMap {tail : List (Option Violation)}
    (consumed : (tailPredicates.mapM fun predicate => predicate state disk) = .ok tail)
    {violation : Violation} (member : violation ∈ tail.filterMap id) :
    violation.invariant ≠ manifestDiskBijection := by
  obtain ⟨found, listed, rfl⟩ := List.mem_filterMap.mp member
  obtain ⟨predicate, asked, reported⟩ := item_of_mapM consumed listed
  exact tail_invariant asked reported

/-- On a drafting subset the relaxed detector forgets the bijection, the first name of the strict
detector, and asks whether the chapters on disk have their keys; on every other state and tree it is
the strict detector. Where the strict one cannot spell the break there is nothing to forget. -/
theorem drafting_relaxation_exact (state : State) (disk : Disk) :
    (¬ DraftingSubset state disk →
        checkDiskEvidence state disk true = checkDiskEvidence state disk false) ∧
      (DraftingSubset state disk → ∃ cover : Option Violation,
        (cover.isSome ↔ Uncovered state disk) ∧
          (∀ gap ∈ cover, gap.invariant = wordCountsCoverDrafts) ∧
          (checkDiskEvidence state disk true = ((checkDiskEvidence state disk false).map fun strict =>
              strict.filter (fun violation => violation.invariant ≠ manifestDiskBijection) ++
                cover.toList) ∨
            checkDiskEvidence state disk false = .error .valueError ∧
              ∃ number ∈ state.manifest, tooLong number = true)) := by
  constructor
  · intro other
    unfold checkDiskEvidence
    rw [checkManifestDiskBijection_unrelaxed other, checkWordCountsCoverDrafts_unrelaxed other]
  · intro shape
    obtain ⟨cover, gap, named, relaxed, strict⟩ := shape.verdicts
    refine ⟨cover, gap, named, ?_⟩
    obtain ⟨relaxedHead, ⟨broken, bijection, strictHead⟩ | ⟨strictHead, long⟩⟩ := shape.head
    swap
    · exact Or.inr ⟨by unfold checkDiskEvidence; rw [strictHead]; rfl, long⟩
    left
    unfold checkDiskEvidence
    rw [relaxedHead, strictHead, relaxed, strict]
    cases consumed : tailPredicates.mapM fun predicate => predicate state disk with
    | error fault => rfl
    | ok tail =>
        have kept : (tail.filterMap id).filter (fun violation =>
            violation.invariant ≠ manifestDiskBijection) = tail.filterMap id :=
          List.filter_eq_self.mpr fun violation member =>
            decide_eq_true (tail_filterMap consumed member)
        have strictly : (some broken :: tail ++ [none]).filterMap id = broken :: tail.filterMap id := by
          simp
        have relaxedly : (none :: tail ++ [cover]).filterMap id =
            tail.filterMap id ++ cover.toList := by
          cases cover <;> simp
        have dropped : (broken :: tail.filterMap id).filter (fun violation =>
            violation.invariant ≠ manifestDiskBijection) = tail.filterMap id := by
          rw [List.filter_cons, kept]
          simp [bijection]
        show Except.ok ((none :: tail ++ [cover]).filterMap id) =
          Except.ok (((some broken :: tail ++ [none]).filterMap id).filter (fun violation =>
            violation.invariant ≠ manifestDiskBijection) ++ cover.toList)
        rw [strictly, relaxedly, dropped]

end Relaxation

end NovelRalph
