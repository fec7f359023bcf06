import NovelRalph.Commands.GuardedReads
import NovelRalph.Untyped.Reconcile

/-!
# The detector on any state, and its guard

Whatever the types of a state are, what the detector raises is what its guard
translates, and the strict detector has a verdict exactly when the relaxed one
has: a break that only the strict detector describes is one of numbers that name
directories, and these can be spelled.
-/

namespace NovelRalph.Untyped

open Except

/-! ## What the operators raise -/

section Operators

variable {interp : Interpreter}

theorem caught_lessEqual (left right : Value) :
    Confined Fault.Caught (interp.lessEqual left right) := by
  unfold Interpreter.lessEqual
  split
  · exact confined_ok
  · exact confined_error.mpr rfl

theorem caught_less (left right : Value) : Confined Fault.Caught (interp.less left right) := by
  unfold Interpreter.less
  split
  · exact confined_ok
  · exact confined_error.mpr rfl

theorem caught_spellInt (number : Int) : Confined Fault.Caught (spellInt number) := by
  unfold spellInt
  split
  · exact confined_error.mpr rfl
  · exact confined_ok

mutual

theorem caught_repr : ∀ value : Value, Confined Fault.Caught (interp.repr value)
  | .str _ | .bool _ | .float _ | .dateTime _ => by
      unfold Interpreter.repr
      exact confined_ok
  | .int number => by
      unfold Interpreter.repr
      exact caught_spellInt number
  | .array items => by
      unfold Interpreter.repr
      exact (caught_reprItems items).bind fun _ _ => confined_ok
  | .table entries => by
      unfold Interpreter.repr
      exact (caught_reprEntries entries).bind fun _ _ => confined_ok

theorem caught_reprItems : ∀ items : List Value, Confined Fault.Caught (interp.reprItems items)
  | [] => by
      unfold Interpreter.reprItems
      exact confined_ok
  | item :: rest => by
      unfold Interpreter.reprItems
      exact (caught_repr item).bind fun _ _ => (caught_reprItems rest).bind fun _ _ => confined_ok

theorem caught_reprEntries : ∀ entries : List (String × Value),
    Confined Fault.Caught (interp.reprEntries entries)
  | [] => by
      unfold Interpreter.reprEntries
      exact confined_ok
  | (key, value) :: rest => by
      unfold Interpreter.reprEntries
      exact (caught_repr value).bind fun _ _ =>
        (caught_reprEntries rest).bind fun _ _ => confined_ok

end

theorem caught_str (value : Value) : Confined Fault.Caught (interp.str value) := by
  cases value with
  | str | dateTime => exact confined_ok
  | _ => exact caught_repr _

theorem caught_padTwo (value : Value) : Confined Fault.Caught value.padTwo := by
  cases value with
  | int number =>
      rw [Value.padTwo]
      split
      · exact confined_error.mpr rfl
      · exact confined_ok
  | bool | dateTime => exact confined_ok
  | _ => exact confined_error.mpr rfl

theorem caught_iterate (value : Value) : Confined Fault.Caught value.iterate := by
  cases value with
  | str | array | table => exact confined_ok
  | _ => exact confined_error.mpr rfl

theorem caught_hashed (value : Value) : Confined Fault.Caught value.hashed := by
  cases value with
  | array | table => exact confined_error.mpr rfl
  | _ => exact confined_ok

theorem caught_asPair (value : Value) : Confined Fault.Caught value.asPair := by
  apply (caught_iterate value).bind
  intro items _
  split
  · exact confined_ok
  · exact confined_error.mpr rfl

theorem caught_dict (value : Value) : Confined Fault.Caught (interp.dict value) := by
  cases value with
  | table entries => exact confined_ok
  | _ =>
      apply (caught_iterate _).bind
      intro elements _
      apply Confined.foldlM
      intro element _ entries
      apply (caught_asPair element).bind
      intro pair _
      exact (caught_hashed pair.1).bind fun _ _ => confined_ok

theorem caught_setOf (items : List Value) : Confined Fault.Caught (interp.setOf items) := by
  apply Confined.foldlM
  intro item _ members
  exact (caught_hashed item).bind fun _ _ => confined_ok

theorem caught_sorted {α : Type} (key : α → Value) (items : List α) :
    Confined Fault.Caught (interp.sorted key items) := by
  unfold Interpreter.sorted
  split
  · exact confined_ok
  · exact confined_error.mpr rfl

end Operators

/-! ## What the detector raises -/

section Detector

variable {interp : Interpreter} {disk : Disk} (reads : ∀ loc, Confined Fault.Caught (disk.read loc))

theorem caught_chapterFile (disk : Disk) (number : Value) (name : String) :
    Confined Fault.Caught (chapterFile disk number name) := by
  have directory : Confined Fault.Caught (chapterDirName number) :=
    (caught_padTwo number).bind fun _ _ => confined_ok
  exact directory.bind fun _ _ => confined_ok

theorem caught_classifyBijection (numbers : List Value) (onDisk : Finset Int) :
    Confined Fault.Caught (classifyBijection interp numbers onDisk) :=
  (caught_setOf numbers).bind fun _ _ => (caught_sorted id _).bind fun _ _ => confined_ok

theorem caught_spellValues (members : List Value) :
    Confined Fault.Caught (spellValues interp members) :=
  (caught_sorted id members).bind fun ordered _ =>
    (caught_reprItems ordered).bind fun _ _ => confined_ok

theorem caught_properCoherentSubset (manifest : List Value) (onDisk : Finset Int) :
    Confined Fault.Caught (properCoherentSubset interp manifest onDisk) := by
  unfold properCoherentSubset
  dsimp only
  split
  · exact (caught_classifyBijection manifest onDisk).bind fun _ _ => confined_ok
  · exact confined_ok

theorem caught_missingReason (missing : List Value) :
    Confined Fault.Caught (missingReason interp missing) := by
  unfold missingReason
  split
  · exact confined_ok
  · exact (caught_spellValues missing).bind fun _ _ => confined_ok

theorem caught_coverageBreak (byChapter : Dict String Int) (table : List (Value × Value)) :
    Confined Fault.Caught (coverageBreak interp byChapter table) := by
  unfold coverageBreak
  dsimp only
  split
  · exact confined_ok
  · exact (caught_spellValues _).bind fun _ _ => confined_ok

theorem caught_describe (broken : BijectionBreak) :
    Confined Fault.Caught (broken.describe interp) := by
  apply (caught_spellValues broken.manifest).bind
  intro declared _
  apply (caught_missingReason broken.missing).bind
  intro missing _
  exact confined_ok

theorem caught_bijection (state : State) (relaxed : Bool) :
    Confined Fault.Caught (checkManifestDiskBijection interp state disk relaxed) := by
  apply caught_onDiskChapterNumbers.bind
  intro onDisk _
  apply (caught_classifyBijection state.numbers onDisk).bind
  intro broken _
  split
  · exact confined_ok
  · split
    · exact confined_ok
    · exact (caught_describe broken).bind fun _ _ => confined_ok

theorem caught_cursorPlan (state : State) :
    Confined Fault.Caught (checkCursorPlanPresent interp state disk) := by
  have bounded : Confined Fault.Caught
      (cursorInManifest interp state.drafting.currentChapter state.chapters.length) := by
    apply (caught_less _ _).bind
    intro started _
    split
    · exact caught_lessEqual _ _
    · exact confined_ok
  apply bounded.bind
  intro within _
  split
  · apply (caught_chapterFile disk _ _).bind
    intro scenes _
    apply (caught_chapterFile disk _ _).bind
    intro beats _
    apply (caught_less _ _).bind
    intro scene _
    apply (caught_less _ _).bind
    intro beat _
    split
    · exact (caught_str _).bind fun _ _ => confined_ok
    · exact confined_ok
  · exact confined_ok

theorem caught_pendingTurn (state : State) :
    Confined Fault.Caught (checkPendingTurnCleared interp state) := by
  unfold checkPendingTurnCleared
  split
  · exact confined_ok
  · exact (caught_repr _).bind fun _ _ => confined_ok

include reads

theorem caught_wordCount (number : Value) :
    Confined Fault.Caught (chapterWordCount disk number) := by
  apply (caught_chapterFile disk number _).bind
  intro draft _
  split
  · exact confined_ok
  · exact confined_ok
  · next fault _ found => exact confined_error.mpr (reads draft fault found)

theorem caught_recount (chapters : List ChapterEntry) :
    Confined Fault.Caught (recountWords interp disk chapters) := by
  apply (caught_sorted _ chapters).bind
  intro manifest _
  apply Confined.bind
  · apply Confined.mapM
    intro chapter _
    apply (caught_padTwo _).bind
    intro key _
    exact (caught_wordCount reads _).bind fun _ _ => confined_ok
  · intro pairs _
    exact confined_ok

theorem caught_compiled (chapters : List ChapterEntry) :
    Confined Fault.Caught (compiledMatchesDrafts interp disk chapters) := by
  unfold compiledMatchesDrafts
  split
  · apply Confined.bind
    · apply (caught_sorted _ chapters).bind
      intro manifest _
      apply Confined.mapM
      intro chapter _
      apply (caught_chapterFile disk _ _).bind
      intro draft _
      split
      · exact reads draft
      · exact confined_ok
    · intro bodies _
      exact (reads _).bind fun _ _ => confined_ok
  · exact confined_ok

theorem caught_doneFlagAt (number : Value) :
    Confined Fault.Caught (doneFlagWithoutDraftAt disk number) := by
  have tokens : Confined Fault.Caught (draftedTokens disk number) := by
    apply (caught_chapterFile disk number _).bind
    intro draft _
    split
    · exact (reads draft).bind fun _ _ => confined_ok
    · exact confined_ok
  apply (caught_chapterFile disk number _).bind
  intro flag _
  split
  · exact tokens.bind fun _ _ => confined_ok
  · exact confined_ok

theorem caught_doneFlag (state : State) :
    Confined Fault.Caught (checkDoneFlagWithoutDraft state disk) := by
  unfold checkDoneFlagWithoutDraft
  induction state.chapters with
  | nil => exact confined_ok
  | cons chapter rest inductionHypothesis =>
      apply (caught_doneFlagAt reads chapter.number).bind
      intro fires _
      split
      · exact (caught_padTwo _).bind fun _ _ => confined_ok
      · exact inductionHypothesis

theorem caught_coverDrafts (state : State) (relaxed : Bool) :
    Confined Fault.Caught (checkWordCountsCoverDrafts interp state disk relaxed) := by
  apply (caught_setOf state.numbers).bind
  intro manifest _
  apply caught_onDiskChapterNumbers.bind
  intro onDisk _
  dsimp only
  split
  · exact (caught_recount reads state.chapters).bind fun _ _ => caught_coverageBreak _ _
  · apply (caught_properCoherentSubset manifest onDisk).bind
    intro subset _
    split <;> exact confined_ok

/-- Whatever the detector raises, on any state, its guard translates. -/
theorem caught_detector (state : State) (relaxed : Bool) :
    Confined Fault.Caught (checkDiskEvidence interp state disk relaxed) := by
  apply (caught_bijection state relaxed).bind
  intro head _
  apply (caught_coverDrafts reads state relaxed).bind
  intro cover _
  apply Confined.bind
  · apply Confined.mapM
    intro predicate listed
    simp only [tailPredicates, List.mem_cons, List.not_mem_nil, or_false] at listed
    rcases listed with rfl | rfl | rfl | rfl | rfl | rfl
    · exact caught_cursorPlan state
    · exact caught_doneFlag reads state
    · apply (caught_compiled reads state.chapters).bind
      intro verdict _
      split <;> exact confined_ok
    · exact caught_pendingTurn state
    · apply (caught_recount reads state.chapters).bind
      intro counted _
      dsimp only
      split <;> exact confined_ok
    · exact confined_ok
  · intro tail _
    exact confined_ok

end Detector

/-! ## When the detector has a verdict -/

section Verdict

variable {interp : Interpreter} {state : State} {disk : Disk}

/-- A recount puts every chapter number in the format of a directory. -/
theorem padded_of_recount {chapters : List ChapterEntry} {counted : Int × Dict String Int}
    (recounts : recountWords interp disk chapters = .ok counted) {chapter : ChapterEntry}
    (member : chapter ∈ chapters) : chapter.number.holdsTooLong = false := by
  obtain ⟨manifest, sorts, later⟩ := except_bind_eq_ok.mp recounts
  obtain ⟨pairs, maps, -⟩ := except_bind_eq_ok.mp later
  obtain ⟨pair, -, stepped⟩ := result_of_mapM maps (interp.mem_sorted sorts |>.mpr member)
  obtain ⟨key, padded, -⟩ := except_bind_eq_ok.mp stepped
  exact Value.not_tooLong_of_padTwo padded

theorem spellValues_returns {members : List Value}
    (ordered : members.Pairwise fun left right => interp.comparable left right = true)
    (short : ∀ member ∈ members, member.holdsTooLong = false) :
    ∃ text, spellValues interp members = .ok text := by
  obtain ⟨list, sorts⟩ := (@Interpreter.sorted_returns interp Value id members).mpr ordered
  have spelled : Value.itemsTooLong list = false := by
    rw [Value.itemsTooLong_eq_false]
    intro item member
    exact short item ((interp.mem_sorted sorts).mp member)
  obtain ⟨texts, spells⟩ := interp.reprItems_returns list |>.mpr spelled
  exact ⟨_, except_bind_eq_ok.mpr ⟨list, sorts, except_bind_eq_ok.mpr ⟨texts, spells, rfl⟩⟩⟩

/-- A break of numbers that can be spelled can be described. -/
theorem describe_returns {onDisk : Finset Int} {broken : BijectionBreak}
    (classified : classifyBijection interp state.numbers onDisk = .ok broken)
    (short : ∀ number ∈ state.numbers, number.holdsTooLong = false) :
    ∃ text, broken.describe interp = .ok text := by
  obtain ⟨manifest, collected, later⟩ := except_bind_eq_ok.mp classified
  obtain ⟨ordered, sorts, returned⟩ := except_bind_eq_ok.mp later
  cases returned
  have comparable := interp.sorted_returns.mp ⟨ordered, sorts⟩
  have spelled : ∀ member ∈ manifest, member.holdsTooLong = false := by
    intro member held
    exact short member (interp.mem_of_setOf collected held).1
  obtain ⟨declared, first⟩ := spellValues_returns comparable spelled
  obtain ⟨reason, second⟩ : ∃ reason, missingReason interp
      (manifest.filter fun member => !heldBy interp onDisk member) = .ok reason := by
    unfold missingReason
    split
    · exact ⟨_, rfl⟩
    · obtain ⟨text, spells⟩ := spellValues_returns (comparable.filter _) fun member held =>
        spelled member (List.mem_of_mem_filter held)
      exact ⟨_, except_bind_eq_ok.mpr ⟨text, spells, rfl⟩⟩
  exact ⟨_, except_bind_eq_ok.mpr ⟨declared, first, except_bind_eq_ok.mpr ⟨reason, second, rfl⟩⟩⟩

/-- What the detector has come through, strict or relaxed, when it has a verdict. -/
structure Surveyed (interp : Interpreter) (state : State) (disk : Disk) : Prop where
  classified : ∃ onDisk broken, disk.onDiskChapterNumbers = .ok onDisk ∧
    classifyBijection interp state.numbers onDisk = .ok broken
  covered : ∃ cover, checkWordCountsCoverDrafts interp state disk false = .ok cover
  tail : ∀ predicate ∈ tailPredicates interp, ∃ found, predicate state disk = .ok found

/-- The relaxation only chooses what the coverage rule reports. -/
theorem coverDrafts_returns (relaxed : Bool) :
    (∃ cover, checkWordCountsCoverDrafts interp state disk relaxed = .ok cover) ↔
      ∃ cover, checkWordCountsCoverDrafts interp state disk false = .ok cover := by
  unfold checkWordCountsCoverDrafts
  simp only [bind_returns]
  refine exists_congr fun manifest => and_congr_right fun _ => exists_congr fun onDisk =>
    and_congr_right fun _ => ?_
  split
  · rfl
  · simp only [bind_returns]
    refine exists_congr fun subset => and_congr_right fun _ => ?_
    constructor
    · intro _
      exact ⟨_, rfl⟩
    · intro _
      split <;> exact ⟨_, rfl⟩

/-- A surveyed tree names its chapters by numbers that can be spelled. -/
theorem Surveyed.short (surveyed : Surveyed interp state disk) :
    ∀ number ∈ state.numbers, number.holdsTooLong = false := by
  intro number member
  obtain ⟨chapter, listed, rfl⟩ := List.mem_map.mp member
  obtain ⟨found, returned⟩ := surveyed.tail (checkWordCountsMatchDrafts interp)
    (by simp [tailPredicates])
  obtain ⟨counted, recounts, -⟩ := except_bind_eq_ok.mp returned
  exact padded_of_recount recounts listed

/-- Strict or relaxed, the detector has a verdict on the same trees. -/
theorem detector_returns (relaxed : Bool) :
    (∃ violations, checkDiskEvidence interp state disk relaxed = .ok violations) ↔
      Surveyed interp state disk := by
  constructor
  · rintro ⟨violations, detected⟩
    obtain ⟨head, first, later⟩ := except_bind_eq_ok.mp detected
    obtain ⟨cover, covers, later⟩ := except_bind_eq_ok.mp later
    obtain ⟨tail, consumed, -⟩ := except_bind_eq_ok.mp later
    obtain ⟨onDisk, listed, later⟩ := except_bind_eq_ok.mp first
    obtain ⟨broken, classified, -⟩ := except_bind_eq_ok.mp later
    exact {
      classified := ⟨onDisk, broken, listed, classified⟩
      covered := (coverDrafts_returns relaxed).mp ⟨cover, covers⟩
      tail := mapM_returns.mp ⟨tail, consumed⟩ }
  · intro surveyed
    obtain ⟨onDisk, broken, listed, classified⟩ := surveyed.classified
    obtain ⟨cover, covers⟩ := (coverDrafts_returns relaxed).mpr surveyed.covered
    obtain ⟨tail, consumed⟩ := mapM_returns.mpr surveyed.tail
    obtain ⟨detail, described⟩ := describe_returns classified surveyed.short
    obtain ⟨head, first⟩ : ∃ head, checkManifestDiskBijection interp state disk relaxed = .ok head := by
      unfold checkManifestDiskBijection
      rw [listed]
      dsimp only [bind, Except.bind]
      rw [classified]
      dsimp only
      rw [described]
      dsimp only
      split
      · exact ⟨_, rfl⟩
      · split <;> exact ⟨_, rfl⟩
    exact ⟨_, except_bind_eq_ok.mpr ⟨head, first, except_bind_eq_ok.mpr ⟨cover, covers,
      except_bind_eq_ok.mpr ⟨tail, consumed, rfl⟩⟩⟩⟩

end Verdict

end NovelRalph.Untyped
