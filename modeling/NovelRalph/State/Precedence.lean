import NovelRalph.State.Relaxation
import NovelRalph.State.Reconcile

/-!
# The precedence of the reconciliation

`Prescribed` says, without the order of the tests, which action each set of
discrepancies, record and tree calls for. The derivation returns it on every
readable tree but two kinds: a chapter directory carries digits that `int`
refuses, or a record that may explain the break declares a chapter by such digits
(`OddRecord`), and the reading of the names or of the paths raises.
-/

namespace NovelRalph

open InvariantName

/-! ## What declared paths name -/

section Paths

variable {path : String} {paths : List String} {number : Int}

/-- The path is of a chapter directory, as far as its digits are concerned. -/
def ChapterSuffix (path suffix : String) : Prop :=
  (PosixPath.parse path).parentName = "manuscript" ∧
    (PosixPath.parse path).name = "chapter-" ++ suffix ∧ isDigits suffix = true

/-- The path is of the directory of a numbered chapter. -/
def NamesChapter (path : String) (number : Int) : Prop :=
  ∃ suffix value, ChapterSuffix path suffix ∧ intOfDigits? suffix = some value ∧ number = value

/-- The digits of the path are no numeral. -/
def OddChapter (path : String) : Prop :=
  ∃ suffix, ChapterSuffix path suffix ∧ intOfDigits? suffix = none

/-- The path is of a state file. -/
def NamesState (path : String) : Prop := (PosixPath.parse path).name = "state.toml"

/-- The paths, those of state files aside, are of chapters, and exactly of these. -/
def NamesExactly (paths : List String) (numbers : Finset Int) : Prop :=
  (∀ path ∈ paths, ¬ NamesState path → ∃ number, NamesChapter path number) ∧
    ∀ number, number ∈ numbers ↔ ∃ path ∈ paths, ¬ NamesState path ∧ NamesChapter path number

/-- The first path that is neither of a state file nor of a numbered chapter has odd digits. -/
def OddFirst (paths : List String) : Prop :=
  ∃ before path after, paths = before ++ path :: after ∧
    (∀ earlier ∈ before, NamesState earlier ∨ ∃ number, NamesChapter earlier number) ∧
      ¬ NamesState path ∧ OddChapter path

theorem startsWith_iff {text beginning : String} :
    startsWith text beginning = true ↔ ∃ rest, text = beginning ++ rest := by
  constructor
  · intro begins
    obtain ⟨rest, spelled⟩ : beginning.toList <+: text.toList := List.isPrefixOf_iff_prefix.mp begins
    refine ⟨String.ofList rest, String.toList_injective ?_⟩
    rw [← spelled, String.toList_append, String.toList_ofList]
  · rintro ⟨rest, rfl⟩
    exact startsWith_append _ _

/-- What the reading of one path returns. -/
theorem chapterNumberOf_cases (path : String) :
    (chapterNumberOf (PosixPath.parse path) = .ok none ∧ ∀ suffix, ¬ ChapterSuffix path suffix) ∨
      ∃ suffix, ChapterSuffix path suffix ∧ chapterNumberOf (PosixPath.parse path) =
        match intOfDigits? suffix with
        | some value => .ok (some (value : Int))
        | none => .error .valueError := by
  unfold chapterNumberOf ChapterSuffix
  by_cases inside : (PosixPath.parse path).parentName = "manuscript"
  · by_cases begins : startsWith (PosixPath.parse path).name "chapter-" = true
    · obtain ⟨suffix, name⟩ := startsWith_iff.mp begins
      have removed : removeBeginning (PosixPath.parse path).name "chapter-" = suffix := by
        rw [name, removeBeginning_append]
      have named : ∀ {other}, (PosixPath.parse path).name = "chapter-" ++ other → other = suffix := by
        intro other same
        rw [name, String.append_right_inj] at same
        exact same.symm
      by_cases digits : isDigits suffix = true
      · refine Or.inr ⟨suffix, ⟨inside, name, digits⟩, ?_⟩
        cases converted : intOfDigits? suffix with
        | none => simp [inside, begins, removed, digits, converted]
        | some value => simp [inside, begins, removed, digits, converted]
      · refine Or.inl ⟨by simp [inside, begins, removed, digits], ?_⟩
        rintro other ⟨-, same, numeral⟩
        rw [named same] at numeral
        exact digits numeral
    · refine Or.inl ⟨by simp [begins], ?_⟩
      rintro other ⟨-, same, -⟩
      exact begins (startsWith_iff.mpr ⟨other, same⟩)
  · exact Or.inl ⟨by simp [inside], fun other shape => inside shape.1⟩

/-- The digits of a path are determined. -/
theorem ChapterSuffix.unique {first second : String} (one : ChapterSuffix path first)
    (other : ChapterSuffix path second) : first = second := by
  have same := one.2.1.symm.trans other.2.1
  rwa [String.append_right_inj] at same

theorem chapterNumberOf_eq_some :
    chapterNumberOf (PosixPath.parse path) = .ok (some number) ↔ NamesChapter path number := by
  rcases chapterNumberOf_cases path with ⟨returned, other⟩ | ⟨suffix, shape, returned⟩
  · rw [returned]
    exact ⟨nofun, fun ⟨suffix, _, shape, _⟩ => absurd shape (other suffix)⟩
  · rw [returned]
    constructor
    · intro found
      cases read : intOfDigits? suffix with
      | none => simp [read] at found
      | some value =>
          simp only [read, Except.ok.injEq, Option.some.injEq] at found
          exact ⟨suffix, value, shape, read, found.symm⟩
    · rintro ⟨other, value, shape', read, rfl⟩
      rw [shape.unique shape', read]

theorem chapterNumberOf_eq_error {fault : Fault} :
    chapterNumberOf (PosixPath.parse path) = .error fault ↔ OddChapter path ∧ fault = .valueError := by
  rcases chapterNumberOf_cases path with ⟨returned, other⟩ | ⟨suffix, shape, returned⟩
  · rw [returned]
    exact ⟨nofun, fun ⟨⟨suffix, shape, _⟩, _⟩ => absurd shape (other suffix)⟩
  · rw [returned]
    constructor
    · intro found
      cases read : intOfDigits? suffix with
      | none =>
          simp only [read, Except.error.injEq] at found
          exact ⟨⟨suffix, shape, read⟩, found.symm⟩
      | some value => simp [read] at found
    · rintro ⟨⟨other, shape', read⟩, rfl⟩
      rw [shape.unique shape', read]

section Steps

variable (numbers : Finset Int) (rest : List String)

theorem declaredFrom_state (state : NamesState path) :
    declaredChapterNumbersFrom numbers (path :: rest) = declaredChapterNumbersFrom numbers rest :=
  if_pos state

theorem declaredFrom_chapter (other : ¬ NamesState path) (chapter : NamesChapter path number) :
    declaredChapterNumbersFrom numbers (path :: rest) =
      declaredChapterNumbersFrom (insert number numbers) rest := by
  have past : ¬ (PosixPath.parse path).name = "state.toml" := other
  rw [declaredChapterNumbersFrom, if_neg past, chapterNumberOf_eq_some.mpr chapter]

theorem declaredFrom_odd (other : ¬ NamesState path) (odd : OddChapter path) :
    declaredChapterNumbersFrom numbers (path :: rest) = .error .valueError := by
  have past : ¬ (PosixPath.parse path).name = "state.toml" := other
  rw [declaredChapterNumbersFrom, if_neg past, chapterNumberOf_eq_error.mpr ⟨odd, rfl⟩]

theorem declaredFrom_malformed (other : ¬ NamesState path)
    (unnumbered : ∀ number, ¬ NamesChapter path number) (even : ¬ OddChapter path) :
    declaredChapterNumbersFrom numbers (path :: rest) = .ok none := by
  have past : ¬ (PosixPath.parse path).name = "state.toml" := other
  rw [declaredChapterNumbersFrom, if_neg past]
  cases read : chapterNumberOf (PosixPath.parse path) with
  | error fault => exact absurd (chapterNumberOf_eq_error.mp read).1 even
  | ok found =>
      cases found with
      | none => rfl
      | some number => exact absurd (chapterNumberOf_eq_some.mp read) (unnumbered number)

end Steps

/-- The number of a path is determined, and the path is not odd then. -/
theorem NamesChapter.not_odd (chapter : NamesChapter path number) : ¬ OddChapter path := by
  intro odd
  have read := chapterNumberOf_eq_some.mpr chapter
  rw [chapterNumberOf_eq_error.mpr ⟨odd, rfl⟩] at read
  cases read

theorem NamesChapter.unique {other : Int} (one : NamesChapter path number)
    (two : NamesChapter path other) : other = number := by
  have read := chapterNumberOf_eq_some.mpr one
  rw [chapterNumberOf_eq_some.mpr two] at read
  simpa using read

/-- Reading declared paths returns numbers when the paths name exactly these. -/
theorem declaredChapterNumbersFrom_eq_some {numbers result : Finset Int} :
    declaredChapterNumbersFrom numbers paths = .ok (some result) ↔
      (∀ path ∈ paths, ¬ NamesState path → ∃ number, NamesChapter path number) ∧
        ∀ number, number ∈ result ↔ number ∈ numbers ∨
          ∃ path ∈ paths, ¬ NamesState path ∧ NamesChapter path number := by
  induction paths generalizing numbers with
  | nil => simp [declaredChapterNumbersFrom, Finset.ext_iff, eq_comm]
  | cons path rest inductionHypothesis =>
      by_cases state : NamesState path
      · rw [declaredFrom_state numbers rest state, inductionHypothesis]
        simp [state]
      · by_cases chapter : ∃ number, NamesChapter path number
        · obtain ⟨number, named⟩ := chapter
          have here : ∀ other, NamesChapter path other ↔ other = number := fun other =>
            ⟨named.unique, fun same => same ▸ named⟩
          rw [declaredFrom_chapter numbers rest state named, inductionHypothesis]
          simp [state, here, or_assoc, or_left_comm]
        · have unnumbered := not_exists.mp chapter
          have excluded : ¬ ∀ path' ∈ path :: rest, ¬ NamesState path' →
              ∃ number, NamesChapter path' number := fun all =>
            chapter (all path List.mem_cons_self state)
          have fails : declaredChapterNumbersFrom numbers (path :: rest) ≠ .ok (some result) := by
            by_cases odd : OddChapter path
            · simp [declaredFrom_odd numbers rest state odd]
            · simp [declaredFrom_malformed numbers rest state unnumbered odd]
          exact iff_of_false fails fun both => excluded both.1

/-- Reading declared paths raises when the first path that ends the reading has odd digits. -/
theorem declaredChapterNumbersFrom_raises {numbers : Finset Int} :
    (∃ fault, declaredChapterNumbersFrom numbers paths = .error fault) ↔ OddFirst paths := by
  induction paths generalizing numbers with
  | nil => simp [declaredChapterNumbersFrom, OddFirst]
  | cons path rest inductionHypothesis =>
      by_cases passed : NamesState path ∨ ∃ number, NamesChapter path number
      · have later : OddFirst (path :: rest) ↔ OddFirst rest := by
          constructor
          · rintro ⟨before, odd, after, split, earlier, other, digits⟩
            cases before with
            | nil =>
                obtain ⟨rfl, rfl⟩ := List.cons.inj split
                rcases passed with state | ⟨number, chapter⟩
                · exact absurd state other
                · exact absurd digits chapter.not_odd
            | cons first before =>
                obtain ⟨rfl, rfl⟩ := List.cons.inj split
                exact ⟨before, odd, after, rfl,
                  fun path member => earlier path (List.mem_cons_of_mem _ member), other, digits⟩
          · rintro ⟨before, odd, after, rfl, earlier, other, digits⟩
            refine ⟨path :: before, odd, after, rfl, fun first member => ?_, other, digits⟩
            rcases List.mem_cons.mp member with rfl | member
            · exact passed
            · exact earlier first member
        rw [later]
        by_cases state : NamesState path
        · rw [declaredFrom_state numbers rest state]
          exact inductionHypothesis
        · obtain ⟨number, chapter⟩ := passed.resolve_left state
          rw [declaredFrom_chapter numbers rest state chapter]
          exact inductionHypothesis
      · obtain ⟨state, chapter⟩ := not_or.mp passed
        constructor
        · rintro ⟨fault, raised⟩
          refine ⟨[], path, rest, rfl, fun _ earlier => absurd earlier List.not_mem_nil, state, ?_⟩
          by_contra even
          rw [declaredFrom_malformed numbers rest state (not_exists.mp chapter) even] at raised
          cases raised
        · rintro ⟨before, odd, after, split, earlier, other, digits⟩
          cases before with
          | nil =>
              obtain ⟨rfl, rfl⟩ := List.cons.inj split
              exact ⟨_, declaredFrom_odd numbers rest state digits⟩
          | cons first before =>
              obtain ⟨rfl, rfl⟩ := List.cons.inj split
              exact absurd (earlier path List.mem_cons_self) passed

theorem declaredChapterNumbers_eq_some {numbers : Finset Int} :
    declaredChapterNumbers paths = .ok (some numbers) ↔ NamesExactly paths numbers := by
  unfold declaredChapterNumbers NamesExactly
  rw [declaredChapterNumbersFrom_eq_some]
  simp

end Paths

/-! ## What a state and a tree call for -/

section Precedence

variable (state : State) (disk : Disk)

/-- The bijection is the only discrepancy of the refuse class. -/
def LoneBreak (fired : List InvariantName) : Prop :=
  ∀ name ∈ refuseClass, name ∈ fired ↔ name = manifestDiskBijection

/-- Some but not all chapters of a manifest 1 to n are on disk. -/
def Behind : Prop :=
  disk.onDisk ⊂ state.manifest ∧ ∃ count, state.manifest = (rangeFromOne count).toFinset

/-- A `set-chapters` record accounts for the chapters that are not on disk. -/
def RecordNamesMissing : Prop :=
  ∃ pending, state.pendingTurn = some pending ∧ pending.operation = setChaptersOperation ∧
    NamesExactly (missingDeclaredPaths pending.paths disk) (state.manifest \ disk.onDisk)

/-- Drafting without a record, a chapter on disk has no key. -/
def DraftedUncovered : Prop :=
  state.pendingTurn = none ∧ state.phase.current = .drafting ∧
    ∃ number ∈ disk.onDisk, padTwo number ∉ state.wordCounts.byChapter.keys

/-- The reconciliation carries what the drafts are counted to. -/
def CarriesCounts (reconciliation : Reconciliation String) : Prop :=
  ∃ counted, disk.recountWords state.chapters = .ok counted ∧
    reconciliation.recountedCurrent = some counted.1 ∧
    reconciliation.recountedByChapter = some counted.2

/-- The action that what fired, the record and the tree call for. -/
structure Prescribed (fired : List InvariantName) (reconciliation : Reconciliation String) : Prop where
  none_iff : reconciliation.action = .none ↔ fired = []
  explained : LoneBreak fired → Behind state disk → RecordNamesMissing state disk →
    reconciliation.action = .completePendingTurn
  uncovered : LoneBreak fired → Behind state disk → DraftedUncovered state disk →
    reconciliation.action = .recount ∧ CarriesCounts state disk reconciliation
  refused : (∃ name ∈ fired, name ∈ refuseClass) →
    ¬ (LoneBreak fired ∧ Behind state disk ∧
      (RecordNamesMissing state disk ∨ DraftedUncovered state disk)) →
    reconciliation.action = .refuse ∧
      reconciliation.discrepancies = fired.filter fun name => name ∈ refuseClass
  rolledBack : (∀ name ∈ fired, name ∉ refuseClass) → ∀ pending, state.pendingTurn = some pending →
    (∃ path ∈ missingDeclaredPaths pending.paths disk,
      (PosixPath.parse path).name ≠ "state.toml" ∧ (PosixPath.parse path).name ≠ "log.md") →
    reconciliation.action = .rollbackPendingTurn
  completed : (∀ name ∈ fired, name ∉ refuseClass) → ∀ pending, state.pendingTurn = some pending →
    (∀ path ∈ missingDeclaredPaths pending.paths disk,
      (PosixPath.parse path).name = "state.toml" ∨ (PosixPath.parse path).name = "log.md") →
    reconciliation.action = .completePendingTurn
  recounted : (∀ name ∈ fired, name ∉ refuseClass) → state.pendingTurn = none →
    (wordCountsMatchDrafts ∈ fired ∨ wordCountsCoverDrafts ∈ fired) →
    reconciliation.action = .recount ∧ CarriesCounts state disk reconciliation
  recreated : (∀ name ∈ fired, name ∉ refuseClass) → state.pendingTurn = none →
    wordCountsMatchDrafts ∉ fired → wordCountsCoverDrafts ∉ fired → logPresent ∈ fired →
    reconciliation.action = .recreateLog

/-- The derivation returns, and returns what is prescribed for what the strict detector names. -/
def PrecedenceExact : Prop :=
  ∃ violations reconciliation, checkDiskEvidence state disk false = .ok violations ∧
    deriveReconciliation state disk = .ok reconciliation ∧
    Prescribed state disk (violations.map Violation.invariant) reconciliation

/-- A `set-chapters` record that may explain the break declares a missing chapter by odd digits. -/
def OddRecord : Prop :=
  ∃ pending, state.pendingTurn = some pending ∧ pending.operation = setChaptersOperation ∧
    LoneBreak (evidence state disk false) ∧ Behind state disk ∧
    OddFirst (missingDeclaredPaths pending.paths disk)

variable {state disk}

/-- The bijection alone fired when its predicate fires and the others of the class do not. -/
theorem loneBreak_iff : LoneBreak (evidence state disk false) ↔
    bijectionBroken state disk false = true ∧ otherRefusal state disk = false := by
  rw [← firedRefuse_toFinset]
  unfold LoneBreak firedRefuse
  rw [Finset.ext_iff]
  refine forall_congr' fun name => ?_
  rw [List.mem_toFinset, List.mem_filter, Finset.mem_singleton, decide_eq_true_iff]
  constructor
  · intro alone
    refine ⟨fun ⟨fires, listed⟩ => (alone listed).mp fires, ?_⟩
    rintro rfl
    have listed : manifestDiskBijection ∈ refuseClass := by decide
    exact ⟨(alone listed).mpr rfl, listed⟩
  · intro alone listed
    exact ⟨fun fires => alone.mp ⟨fires, listed⟩, fun same => (alone.mpr same).1⟩

/-- A broken bijection is that of a coherent subset when the disk is behind. -/
theorem behind_iff (broken : bijectionBroken state disk false = true) :
    Behind state disk ↔ (classifyBijection state.manifest disk.onDisk).coherentSubset = true := by
  have other : ¬ (classifyBijection state.manifest disk.onDisk).isBijection = true := by
    intro whole
    simp [bijectionBroken, whole] at broken
  unfold Behind
  rw [coherentSubset_iff]
  refine ⟨fun behind => ⟨behind.1.subset, behind.2⟩, fun ⟨within, ranged⟩ => ?_⟩
  refine ⟨Finset.ssubset_iff_subset_ne.mpr ⟨within, fun same => other ?_⟩, ranged⟩
  exact isBijection_iff_range.mpr ⟨ranged, same⟩

theorem explains_iff_names {pending : PendingTurn} : Explains state disk pending ↔
    pending.operation = setChaptersOperation ∧ LoneBreak (evidence state disk false) ∧
      Behind state disk ∧
      NamesExactly (missingDeclaredPaths pending.paths disk) (state.manifest \ disk.onDisk) := by
  unfold Explains
  rw [loneBreak_iff, declaredChapterNumbers_eq_some, and_assoc]
  refine and_congr_right fun _ => and_congr_right fun broken => and_congr_right fun _ => ?_
  rw [behind_iff broken]

theorem coverGap_iff : CoverGap state disk ↔
    LoneBreak (evidence state disk false) ∧ Behind state disk ∧ DraftedUncovered state disk := by
  unfold CoverGap DraftedUncovered Behind
  rw [loneBreak_iff, properCoherentSubset_iff, draftedSubsetCoverViolation_isSome]
  tauto

/-- Nothing of the refuse class fired exactly when there is no refusal. -/
theorem unrefused_iff : (∀ name ∈ evidence state disk false, name ∉ refuseClass) ↔
    refusal state disk = false := by
  rw [← firedRefuse_eq_nil, firedRefuse, List.filter_eq_nil_iff]
  simp

/-- A recount trigger fired exactly when the counts drift. -/
theorem drifted_iff : (wordCountsMatchDrafts ∈ evidence state disk false ∨
    wordCountsCoverDrafts ∈ evidence state disk false) ↔ drift state disk = true := by
  have stale : wordCountsMatchDrafts ∈ evidence state disk false ↔ countsStale state disk = true :=
    mem_evidence (by simp [evidenceTable])
  have uncovered : wordCountsCoverDrafts ∈ evidence state disk false ↔
      coverageBroken state disk false = true := mem_evidence (by simp [evidenceTable])
  rw [stale, uncovered, drift, Bool.or_eq_true]

/-- Nothing fired exactly when no rule but the last applies. -/
theorem evidence_eq_nil : evidence state disk false = [] ↔ refusal state disk = false ∧
    state.pendingTurn = none ∧ drift state disk = false ∧ disk.exists? disk.logFile = true := by
  have settled : state.pendingTurn = none ↔ pendingTurnCleared ∉ evidence state disk false := by
    rw [pending_mem_evidence]
    cases state.pendingTurn <;> simp
  have current : drift state disk = false ↔ wordCountsMatchDrafts ∉ evidence state disk false ∧
      wordCountsCoverDrafts ∉ evidence state disk false := by
    rw [← not_or, drifted_iff, Bool.not_eq_true]
  have logged : disk.exists? disk.logFile = true ↔ logPresent ∉ evidence state disk false := by
    rw [log_mem_evidence, Bool.not_eq_false]
  rw [settled, current, logged, ← unrefused_iff, List.eq_nil_iff_forall_not_mem]
  constructor
  · exact fun silent => ⟨fun name fires => absurd fires (silent name), silent _, ⟨silent _, silent _⟩,
      silent _⟩
  · rintro ⟨agreed, cleared, ⟨fresh, covered⟩, present⟩ name fires
    have listed : name ∈ diskEvidenceInvariantNames := by
      obtain ⟨question, asked, rfl⟩ := List.mem_map.mp fires
      exact List.mem_map.mpr ⟨question, List.mem_of_mem_filter asked, rfl⟩
    have other := agreed name fires
    simp only [diskEvidenceInvariantNames, List.mem_cons, List.not_mem_nil, or_false] at listed
    rcases listed with rfl | rfl | rfl | rfl | rfl | rfl | rfl | rfl
    · exact other (by decide)
    · exact other (by decide)
    · exact other (by decide)
    · exact other (by decide)
    · exact cleared fires
    · exact fresh fires
    · exact present fires
    · exact covered fires

/-- The rule that applies decides what is derived. -/
theorem prescribed_of_derivation (readable : Readable state disk) {reconciliation : Reconciliation String}
    (derivation : Derivation state disk reconciliation) :
    Prescribed state disk (evidence state disk false) reconciliation := by
  have derives := (deriveReconciliation_iff readable).mpr derivation
  have unique : ∀ {other}, Derivation state disk other → reconciliation = other := by
    intro other rule
    have same := (deriveReconciliation_iff readable).mpr rule
    rw [derives, Except.ok.injEq] at same
    exact same
  have counts : ∀ names, CarriesCounts state disk (recountReconciliation names
      (disk.recountTable state.chapters).values.sum (disk.recountTable state.chapters)) :=
    fun names => ⟨_, Disk.recountWords_of_readable readable.drafts, rfl, rfl⟩
  refine ⟨?_, ?_, ?_, ?_, ?_, ?_, ?_, ?_⟩
  · rw [evidence_eq_nil]
    constructor
    · intro idle
      cases derivation with
      | pendingTurn pending recorded agreed =>
          rcases action_classifyPendingTurn disk pending [pendingTurnCleared] with other | other <;>
            rw [other] at idle <;> cases idle
      | none settled agreed current present => exact ⟨agreed, settled, current, present⟩
      | _ => cases idle
    · rintro ⟨agreed, settled, current, present⟩
      rw [unique (.none settled agreed current present)]
      rfl
  · rintro alone behind ⟨pending, recorded, operation, names⟩
    rw [unique (.explained pending recorded
      (explains_iff_names.mpr ⟨operation, alone, behind, names⟩))]
    rfl
  · intro alone behind uncovered
    rw [unique (.coverGap (coverGap_iff.mpr ⟨alone, behind, uncovered⟩))]
    exact ⟨rfl, counts _⟩
  · intro refused unexcused
    have explained : ∀ pending, state.pendingTurn = some pending → ¬ Explains state disk pending := by
      intro pending recorded explains
      obtain ⟨operation, alone, behind, names⟩ := explains_iff_names.mp explains
      exact unexcused ⟨alone, behind, Or.inl ⟨pending, recorded, operation, names⟩⟩
    have noGap : ¬ CoverGap state disk := fun gap =>
      have ⟨alone, behind, uncovered⟩ := coverGap_iff.mp gap
      unexcused ⟨alone, behind, Or.inr uncovered⟩
    have fires : refusal state disk = true := by
      by_contra agreed
      obtain ⟨name, fired, listed⟩ := refused
      exact unrefused_iff.mpr (Bool.not_eq_true _ ▸ agreed) name fired listed
    have returns : ExplanationReadable state disk := 
      explanationReadable_of_classified (classifyFired_of_derivation readable derivation)
    rw [unique (.refuse returns explained noGap fires)]
    exact ⟨rfl, rfl⟩
  · rintro unrefused pending recorded ⟨path, missing, notState, notLog⟩
    rw [unique (.pendingTurn pending recorded (unrefused_iff.mp unrefused))]
    refine (action_classifyPendingTurn disk pending _).resolve_right fun completes => ?_
    rw [completes_classifyPendingTurn, unrecoverablePaths, List.filter_eq_nil_iff] at completes
    exact completes path missing (by simp [recomputableBasenames, notState, notLog])
  · intro unrefused pending recorded recomputable
    rw [unique (.pendingTurn pending recorded (unrefused_iff.mp unrefused))]
    rw [completes_classifyPendingTurn, unrecoverablePaths, List.filter_eq_nil_iff]
    intro path missing
    rcases recomputable path missing with name | name <;> simp [recomputableBasenames, name]
  · intro unrefused settled fired
    rw [unique (.recount settled (unrefused_iff.mp unrefused) (drifted_iff.mp fired))]
    exact ⟨rfl, counts _⟩
  · intro unrefused settled fresh covered fired
    have current : drift state disk = false := by
      rw [← Bool.not_eq_true, ← drifted_iff, not_or]
      exact ⟨fresh, covered⟩
    rw [unique (.recreateLog settled (unrefused_iff.mp unrefused) current
      (log_mem_evidence.mp fired))]
    rfl

/-- The explanation test raises exactly on an odd record. -/
theorem explanationReadable_iff (readable : Readable state disk) :
    ExplanationReadable state disk ↔ ¬ OddRecord state disk := by
  have listed := onDiskChapterNumbers_of_readable readable
  unfold ExplanationReadable setChaptersTurnExplainsBijection
  constructor
  · rintro ⟨answer, tested⟩ ⟨pending, recorded, operation, alone, behind, odd⟩
    obtain ⟨broken, noOther⟩ := loneBreak_iff.mp alone
    have lone := firedRefuse_toFinset.mpr ⟨broken, noOther⟩
    obtain ⟨fault, raised⟩ := (@declaredChapterNumbersFrom_raises _ ∅).mpr odd
    have declared : declaredChapterNumbers (missingDeclaredPaths pending.paths disk) = .error fault :=
      raised
    rw [recorded] at tested
    simp [operation, lone, listed, (behind_iff broken).mp behind, declared, bind, Except.bind] at tested
  · intro even
    cases recorded : state.pendingTurn with
    | none => exact ⟨false, rfl⟩
    | some pending =>
        by_cases operation : pending.operation = setChaptersOperation
        · by_cases lone : (firedRefuse (evidence state disk false)).toFinset = {manifestDiskBijection}
          · have alone := loneBreak_iff.mpr (firedRefuse_toFinset.mp lone)
            have coherent := behind_iff (firedRefuse_toFinset.mp lone).1
            by_cases behind : Behind state disk
            · cases declared : declaredChapterNumbers (missingDeclaredPaths pending.paths disk) with
              | error fault =>
                  have odd := declaredChapterNumbersFrom_raises.mp ⟨fault, declared⟩
                  exact absurd ⟨pending, recorded, operation, alone, behind, odd⟩ even
              | ok numbers =>
                  cases numbers <;>
                    simp [operation, lone, listed, coherent.mp behind, declared, bind, Except.bind,
                      pure, Except.pure]
            · have loose := Bool.not_eq_true _ ▸ mt coherent.mpr behind
              simp [operation, lone, listed, loose, bind, Except.bind, pure, Except.pure]
          · simp [operation, lone]
        · simp [operation]

/-- Where every file can be read the precedence is as prescribed unless a chapter directory, or a
record that may explain the break, carries digits that `int` refuses. -/
theorem precedence_exact_iff (files : FilesReadable state disk) :
    PrecedenceExact state disk ↔ ¬ disk.OddDigit ∧ ¬ OddRecord state disk := by
  rw [← files.readable_iff]
  constructor
  · rintro ⟨violations, reconciliation, detected, derives, -⟩
    have readable := readable_of_detected detected
    rw [← explanationReadable_iff readable]
    have derivation := (deriveReconciliation_iff readable).mp derives
    exact ⟨readable, explanationReadable_of_classified (classifyFired_of_derivation readable derivation)⟩
  · rintro ⟨readable, even⟩
    obtain ⟨violations, detected, names⟩ := checkDiskEvidence_of_readable readable false
    obtain ⟨reconciliation, derivation⟩ := exists_derivation ((explanationReadable_iff readable).mpr even)
    refine ⟨violations, reconciliation, detected, (deriveReconciliation_iff readable).mpr derivation, ?_⟩
    rw [names]
    exact prescribed_of_derivation readable derivation

end Precedence

/-- One planned chapter whose directory is missing, under a record of some declared path. -/
def recordedChapter (path : String) : State :=
  { loneChapter with pendingTurn := some ⟨setChaptersOperation, [path]⟩ }

/-- `manuscript/` without chapters. -/
def bareDisk : Disk := Disk.ofDirs ["working"] {["working"], ["manuscript", "working"]}

theorem readable_recordedChapter (path : String) : Readable (recordedChapter path) bareDisk := by
  have strictly : (checkDiskEvidence loneChapter bareDisk false).toOption.isSome = true := by
    decide +kernel
  cases detected : checkDiskEvidence loneChapter bareDisk false with
  | error fault =>
      rw [detected] at strictly
      cases strictly
  | ok violations =>
      obtain ⟨⟨drafts, compiled⟩, names⟩ := readable_of_detected detected
      exact ⟨⟨drafts, compiled⟩, names⟩

/-- A record that declares the directory is explained as prescribed. -/
theorem precedence_exact_declared :
    PrecedenceExact (recordedChapter "working/manuscript/chapter-01") bareDisk := by
  have readable := readable_recordedChapter "working/manuscript/chapter-01"
  refine (precedence_exact_iff readable.toFilesReadable).mpr
    ⟨readable.toFilesReadable.readable_iff.mp readable, ?_⟩
  rintro ⟨pending, recorded, -, -, -, odd⟩
  obtain rfl := Option.some.inj recorded
  obtain ⟨fault, raised⟩ := (@declaredChapterNumbersFrom_raises _ ∅).mpr odd
  have read : declaredChapterNumbersFrom ∅ (missingDeclaredPaths ["working/manuscript/chapter-01"]
      bareDisk) = .ok (some {1}) := by decide +kernel
  rw [read] at raised
  cases raised

/-- A superscript in the declared path: the derivation raises. -/
theorem precedence_raises_superscript :
    Readable (recordedChapter "working/manuscript/chapter-²") bareDisk ∧
      ¬ PrecedenceExact (recordedChapter "working/manuscript/chapter-²") bareDisk := by
  refine ⟨readable_recordedChapter _, ?_⟩
  rintro ⟨violations, reconciliation, -, derives, -⟩
  have raises : deriveReconciliation (recordedChapter "working/manuscript/chapter-²") bareDisk =
      .error .valueError := by decide +kernel
  rw [raises] at derives
  cases derives

end NovelRalph
