import NovelRalph.Untyped.Detection

/-!
# What the detector names

Each predicate of the detector reports under one name, so what fired is told from
what the predicates returned, one by one.
-/

namespace NovelRalph.Untyped

open InvariantName hiding compiledMatchesDrafts

/-! ## One name for each predicate -/

section Reports

variable {name : InvariantName}

/-- What a predicate reports bears this name. -/
def Reports (name : InvariantName) (outcome : Except Fault (Option Violation)) : Prop :=
  ∀ violation, outcome = .ok (some violation) → violation.invariant = name

theorem reports_none : Reports name (.ok none) := by
  intro violation same
  cases same

theorem reports_some {violation : Violation} (named : violation.invariant = name) :
    Reports name (.ok (some violation)) := by
  intro other same
  cases same
  exact named

/-- A predicate reports a violation. -/
def Fires (outcome : Except Fault (Option Violation)) : Prop :=
  ∃ violation, outcome = .ok (some violation)

theorem Reports.bind {α : Type} {first : Except Fault α} {next : α → Except Fault (Option Violation)}
    (later : ∀ value, Reports name (next value)) : Reports name (first >>= next) := by
  intro violation returned
  obtain ⟨value, -, returned⟩ := except_bind_eq_ok.mp returned
  exact later value violation returned

theorem Reports.names_iff {outcome : Except Fault (Option Violation)} (reports : Reports name outcome)
    {other : InvariantName} :
    (∃ violation, outcome = .ok (some violation) ∧ violation.invariant = other) ↔
      Fires outcome ∧ other = name := by
  constructor
  · rintro ⟨violation, same, rfl⟩
    exact ⟨⟨violation, same⟩, reports violation same⟩
  · rintro ⟨⟨violation, same⟩, rfl⟩
    exact ⟨violation, same, reports violation same⟩

/-- A predicate that returns and does not fire is silent. -/
theorem not_fires_iff {outcome : Except Fault (Option Violation)} {found : Option Violation}
    (returned : outcome = .ok found) : ¬Fires outcome ↔ outcome = .ok none := by
  rw [returned]
  cases found with
  | none => simp [Fires]
  | some violation => simp [Fires]

end Reports

section Predicates

variable {interp : Interpreter} {state : State} {disk : Disk}

theorem reports_bijection (relaxed : Bool) :
    Reports manifestDiskBijection (checkManifestDiskBijection interp state disk relaxed) := by
  apply Reports.bind
  intro onDisk
  apply Reports.bind
  intro broken
  split
  · exact reports_none
  split
  · exact reports_none
  · exact Reports.bind fun _ => reports_some rfl

theorem reports_cursorPlan :
    Reports cursorPlanPresent (checkCursorPlanPresent interp state disk) := by
  apply Reports.bind
  intro within
  split
  · refine Reports.bind fun _ => Reports.bind fun _ => Reports.bind fun _ => Reports.bind fun _ => ?_
    split
    · exact Reports.bind fun _ => reports_some rfl
    · exact reports_none
  · exact reports_none

theorem reports_doneFlag : Reports doneFlagWithoutDraft (checkDoneFlagWithoutDraft state disk) := by
  unfold checkDoneFlagWithoutDraft
  induction state.chapters with
  | nil => exact reports_none
  | cons chapter rest inductionHypothesis =>
      unfold checkDoneFlagWithoutDraft.go
      apply Reports.bind
      intro fires
      split
      · exact Reports.bind fun _ => reports_some rfl
      · exact inductionHypothesis

theorem reports_compiled :
    Reports .compiledMatchesDrafts (checkCompiledMatchesDrafts interp state disk) := by
  apply Reports.bind
  intro comparison
  cases comparison with
  | diverges => exact reports_some rfl
  | _ => exact reports_none

theorem reports_pendingTurn : Reports pendingTurnCleared (checkPendingTurnCleared interp state) := by
  unfold checkPendingTurnCleared
  split
  · exact reports_none
  · exact Reports.bind fun _ => reports_some rfl

theorem reports_wordCounts :
    Reports wordCountsMatchDrafts (checkWordCountsMatchDrafts interp state disk) := by
  apply Reports.bind
  intro counted
  dsimp only
  split
  · exact reports_none
  · exact reports_some rfl

theorem reports_log : Reports logPresent (.ok (checkLogPresent disk)) := by
  unfold checkLogPresent
  split
  · exact reports_none
  · exact reports_some rfl

theorem reports_coverDrafts (relaxed : Bool) :
    Reports wordCountsCoverDrafts (checkWordCountsCoverDrafts interp state disk relaxed) := by
  apply Reports.bind
  intro manifest
  apply Reports.bind
  intro onDisk
  dsimp only
  split
  · refine Reports.bind fun counted => ?_
    unfold coverageBreak
    dsimp only
    split
    · exact reports_none
    · exact Reports.bind fun _ => reports_some rfl
  · apply Reports.bind
    intro subset
    split
    · unfold draftedSubsetCoverViolation
      dsimp only
      split
      · exact reports_none
      · exact reports_some rfl
    · exact reports_none

end Predicates

/-! ## What fired -/

section Fired

variable {interp : Interpreter} {state : State} {disk : Disk} {violations : List Violation}

/-- `_PREDICATES`. -/
def predicates (interp : Interpreter) (relaxed : Bool) :
    List (State → Disk → Except Fault (Option Violation)) :=
  [fun state disk => checkManifestDiskBijection interp state disk relaxed] ++
    tailPredicates interp ++ [fun state disk => checkWordCountsCoverDrafts interp state disk relaxed]

/-- What fired is what some predicate reported. -/
theorem mem_fired {relaxed : Bool}
    (detected : checkDiskEvidence interp state disk relaxed = .ok violations) {name : InvariantName} :
    name ∈ violations.map Violation.invariant ↔ ∃ predicate ∈ predicates interp relaxed,
      ∃ violation, predicate state disk = .ok (some violation) ∧ violation.invariant = name := by
  obtain ⟨head, bijection, later⟩ := except_bind_eq_ok.mp detected
  obtain ⟨cover, covers, later⟩ := except_bind_eq_ok.mp later
  obtain ⟨tail, consumed, returned⟩ := except_bind_eq_ok.mp later
  cases returned
  rw [List.mem_map]
  constructor
  · rintro ⟨violation, kept, named⟩
    obtain ⟨found, listed, rfl⟩ := List.mem_filterMap.mp kept
    rcases List.mem_append.mp listed with before | last
    · rcases List.mem_cons.mp before with rfl | middle
      · exact ⟨_, List.mem_append_left _ (List.mem_append_left _ List.mem_cons_self), violation,
          bijection, named⟩
      · obtain ⟨predicate, member, reported⟩ := item_of_mapM consumed middle
        exact ⟨predicate, List.mem_append_left _ (List.mem_append_right _ member), violation,
          reported, named⟩
    · rw [List.mem_singleton] at last
      exact ⟨_, List.mem_append_right _ List.mem_cons_self, violation, last ▸ covers, named⟩
  · rintro ⟨predicate, listed, violation, reported, named⟩
    refine ⟨violation, List.mem_filterMap.mpr ⟨some violation, ?_, rfl⟩, named⟩
    rcases List.mem_append.mp listed with before | last
    · rcases List.mem_append.mp before with first | middle
      · rw [List.mem_singleton.mp first] at reported
        dsimp only at reported
        rw [bijection] at reported
        cases reported
        exact List.mem_append_left _ List.mem_cons_self
      · obtain ⟨found, kept, returned⟩ := result_of_mapM consumed middle
        rw [reported] at returned
        cases returned
        exact List.mem_append_left _ (List.mem_cons_of_mem _ kept)
    · rw [List.mem_singleton.mp last] at reported
      dsimp only at reported
      rw [covers] at reported
      cases reported
      exact List.mem_append_right _ List.mem_cons_self

/-- A name fired when the predicate that reports under it fires. -/
theorem fired_iff {relaxed : Bool}
    (detected : checkDiskEvidence interp state disk relaxed = .ok violations) {name : InvariantName} :
    name ∈ violations.map Violation.invariant ↔
      Fires (checkManifestDiskBijection interp state disk relaxed) ∧ name = manifestDiskBijection ∨
      Fires (checkCursorPlanPresent interp state disk) ∧ name = cursorPlanPresent ∨
      Fires (checkDoneFlagWithoutDraft state disk) ∧ name = doneFlagWithoutDraft ∨
      Fires (checkCompiledMatchesDrafts interp state disk) ∧ name = .compiledMatchesDrafts ∨
      Fires (checkPendingTurnCleared interp state) ∧ name = pendingTurnCleared ∨
      Fires (checkWordCountsMatchDrafts interp state disk) ∧ name = wordCountsMatchDrafts ∨
      Fires (.ok (checkLogPresent disk)) ∧ name = logPresent ∨
      Fires (checkWordCountsCoverDrafts interp state disk relaxed) ∧ name = wordCountsCoverDrafts := by
  rw [mem_fired detected, ← (reports_bijection relaxed).names_iff, ← reports_cursorPlan.names_iff,
    ← reports_doneFlag.names_iff, ← reports_compiled.names_iff, ← reports_pendingTurn.names_iff,
    ← reports_wordCounts.names_iff, ← reports_log.names_iff,
    ← (reports_coverDrafts relaxed).names_iff]
  simp only [predicates, tailPredicates, List.cons_append, List.nil_append, List.exists_mem_cons_iff,
    List.not_mem_nil, false_and, exists_false, or_false]

end Fired

/-! ## What refuses repair -/

section Refusals

variable {interp : Interpreter} {state : State} {disk : Disk}

/-- No predicate of the refuse class but that of the manifest reports anything. -/
structure Unrefused (interp : Interpreter) (state : State) (disk : Disk) : Prop where
  cursor : checkCursorPlanPresent interp state disk = .ok none
  flags : checkDoneFlagWithoutDraft state disk = .ok none
  compiled : checkCompiledMatchesDrafts interp state disk = .ok none

/-- The manifest and the directories of the tree are compared so. -/
def Classified (interp : Interpreter) (state : State) (disk : Disk) (broken : BijectionBreak) : Prop :=
  ∃ onDisk, disk.onDiskChapterNumbers = .ok onDisk ∧
    classifyBijection interp state.numbers onDisk = .ok broken

theorem Classified.unique {broken other : BijectionBreak} (one : Classified interp state disk broken)
    (two : Classified interp state disk other) : broken = other := by
  obtain ⟨onDisk, listed, classified⟩ := one
  obtain ⟨onDisk', listed', classified'⟩ := two
  rw [listed] at listed'
  cases listed'
  rw [classified] at classified'
  cases classified'
  rfl

/-- The strict rule is silent on a bijection only. -/
theorem strict_bijection {broken : BijectionBreak} {head : Option Violation}
    (classified : Classified interp state disk broken)
    (reported : checkManifestDiskBijection interp state disk false = .ok head) :
    head = none ↔ broken.isBijection = true := by
  obtain ⟨onDisk, listed, classified⟩ := classified
  unfold checkManifestDiskBijection at reported
  rw [listed] at reported
  dsimp only [bind, Except.bind] at reported
  rw [classified] at reported
  dsimp only at reported
  cases exact : broken.isBijection with
  | true =>
      rw [exact, if_pos rfl] at reported
      cases reported
      simp
  | false =>
      rw [exact] at reported
      simp only [Bool.false_eq_true, if_false, Bool.false_and] at reported
      obtain ⟨detail, -, reported⟩ := except_bind_eq_ok.mp reported
      cases reported
      simp

/-- Which names of the refuse class the strict detector names. -/
theorem refused_iff {broken : BijectionBreak} {violations : List Violation}
    (classified : Classified interp state disk broken)
    (detected : checkDiskEvidence interp state disk false = .ok violations) :
    (firedRefuse (violations.map Violation.invariant) = [] ↔
        Unrefused interp state disk ∧ broken.isBijection = true) ∧
      ((firedRefuse (violations.map Violation.invariant)).toFinset = {manifestDiskBijection} ↔
        Unrefused interp state disk ∧ broken.isBijection = false) := by
  have surveyed := (detector_returns false).mp ⟨violations, detected⟩
  obtain ⟨head, compared, -⟩ := except_bind_eq_ok.mp detected
  obtain ⟨cursor, planned⟩ := surveyed.tail (checkCursorPlanPresent interp) (by simp [tailPredicates])
  obtain ⟨flags, flagged⟩ := surveyed.tail checkDoneFlagWithoutDraft (by simp [tailPredicates])
  obtain ⟨comparison, compiled⟩ :=
    surveyed.tail (checkCompiledMatchesDrafts interp) (by simp [tailPredicates])
  have unbroken : ¬Fires (checkManifestDiskBijection interp state disk false) ↔
      broken.isBijection = true := by
    rw [not_fires_iff compared, ← strict_bijection classified compared, compared, Except.ok.injEq]
  have quiet : Unrefused interp state disk ↔ ¬Fires (checkCursorPlanPresent interp state disk) ∧
      ¬Fires (checkDoneFlagWithoutDraft state disk) ∧
        ¬Fires (checkCompiledMatchesDrafts interp state disk) := by
    rw [not_fires_iff planned, not_fires_iff flagged, not_fires_iff compiled]
    exact ⟨fun none => ⟨none.cursor, none.flags, none.compiled⟩,
      fun none => ⟨none.1, none.2.1, none.2.2⟩⟩
  have refused : ∀ name, name ∈ firedRefuse (violations.map Violation.invariant) ↔
      Fires (checkManifestDiskBijection interp state disk false) ∧ name = manifestDiskBijection ∨
      Fires (checkCursorPlanPresent interp state disk) ∧ name = cursorPlanPresent ∨
      Fires (checkDoneFlagWithoutDraft state disk) ∧ name = doneFlagWithoutDraft ∨
      Fires (checkCompiledMatchesDrafts interp state disk) ∧ name = .compiledMatchesDrafts := by
    intro name
    rw [firedRefuse, List.mem_filter, fired_iff detected]
    cases name <;> simp [refuseClass]
  rw [quiet, ← unbroken, ← Bool.not_eq_true, ← unbroken, not_not, List.eq_nil_iff_forall_not_mem,
    Finset.ext_iff]
  simp only [List.mem_toFinset, Finset.mem_singleton, refused]
  constructor
  · constructor
    · intro silent
      exact ⟨⟨fun fires => silent _ (.inr (.inl ⟨fires, rfl⟩)),
        fun fires => silent _ (.inr (.inr (.inl ⟨fires, rfl⟩))),
        fun fires => silent _ (.inr (.inr (.inr ⟨fires, rfl⟩)))⟩,
        fun fires => silent _ (.inl ⟨fires, rfl⟩)⟩
    · rintro ⟨⟨cursor, flags, compiled⟩, bijection⟩ name (⟨fires, -⟩ | ⟨fires, -⟩ | ⟨fires, -⟩ | ⟨fires, -⟩)
      · exact bijection fires
      · exact cursor fires
      · exact flags fires
      · exact compiled fires
  · constructor
    · intro alone
      refine ⟨⟨fun fires => ?_, fun fires => ?_, fun fires => ?_⟩, ?_⟩
      · cases (alone _).mp (.inr (.inl ⟨fires, rfl⟩))
      · cases (alone _).mp (.inr (.inr (.inl ⟨fires, rfl⟩)))
      · cases (alone _).mp (.inr (.inr (.inr ⟨fires, rfl⟩)))
      · rcases (alone _).mpr rfl with ⟨fires, -⟩ | ⟨-, same⟩ | ⟨-, same⟩ | ⟨-, same⟩
        · exact fires
        · cases same
        · cases same
        · cases same
    · rintro ⟨⟨cursor, flags, compiled⟩, bijection⟩ name
      constructor
      · rintro (⟨-, same⟩ | ⟨fires, -⟩ | ⟨fires, -⟩ | ⟨fires, -⟩)
        · exact same
        · exact absurd fires cursor
        · exact absurd fires flags
        · exact absurd fires compiled
      · exact fun same => .inl ⟨bijection, same⟩

end Refusals

end NovelRalph.Untyped
