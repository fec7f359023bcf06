import NovelRalph.State.Precedence
import NovelRalph.Untyped.Findings

/-!
# The derivation on any state

The derivation stands outside the guard. Where the detector has a verdict it
raises for one reason only, the record: it comes to the declared paths when
nothing refuses repair, or when a `set-chapters` record may explain a lone break,
and a path that is no text stops it there, as do digits that are not converted.
-/

namespace NovelRalph.Untyped

open InvariantName

/-! ## Declared paths -/

/-- Every declared path is a text. -/
def Texts (paths : List Value) : Prop := ∀ path ∈ paths, ∃ text, path = .str text

/-- The texts among declared paths. -/
def pathTexts (paths : List Value) : List String :=
  paths.filterMap fun
    | .str text => some text
    | _ => none

section Paths

variable {paths : List Value} {disk : Disk}

theorem missingDeclaredPaths_eq_ok {missing : List String} :
    missingDeclaredPaths paths disk = .ok missing ↔
      Texts paths ∧ missing = NovelRalph.missingDeclaredPaths (pathTexts paths) disk := by
  have read : ∀ texts, paths.mapM asPath = .ok texts ↔ Texts paths ∧ texts = pathTexts paths := by
    induction paths with
    | nil =>
        intro texts
        constructor
        · intro none
          cases none
          exact ⟨fun _ member => absurd member List.not_mem_nil, rfl⟩
        · rintro ⟨-, rfl⟩
          rfl
    | cons path rest inductionHypothesis =>
        intro texts
        rw [List.mapM_cons, Texts, List.forall_mem_cons]
        cases path with
        | str text =>
            constructor
            · intro mapped
              obtain ⟨first, same, later⟩ := except_bind_eq_ok.mp mapped
              obtain ⟨others, continued, returned⟩ := except_bind_eq_ok.mp later
              cases same
              cases returned
              obtain ⟨texts, rfl⟩ := (inductionHypothesis others).mp continued
              exact ⟨⟨⟨text, rfl⟩, texts⟩, rfl⟩
            · rintro ⟨⟨-, texts⟩, rfl⟩
              have continued := (inductionHypothesis _).mpr ⟨texts, rfl⟩
              exact except_bind_eq_ok.mpr ⟨text, rfl, except_bind_eq_ok.mpr ⟨_, continued, rfl⟩⟩
        | _ =>
            refine iff_of_false (fun mapped => ?_) ?_
            · cases mapped
            · rintro ⟨⟨⟨text, same⟩, -⟩, -⟩
              cases same
  unfold missingDeclaredPaths
  rw [except_bind_eq_ok]
  constructor
  · rintro ⟨texts, mapped, returned⟩
    obtain ⟨each, rfl⟩ := (read texts).mp mapped
    cases returned
    exact ⟨each, rfl⟩
  · rintro ⟨each, rfl⟩
    exact ⟨_, (read _).mpr ⟨each, rfl⟩, rfl⟩

theorem missingDeclaredPaths_returns :
    (∃ missing, missingDeclaredPaths paths disk = .ok missing) ↔ Texts paths := by
  simp [missingDeclaredPaths_eq_ok]

/-- The numbers that paths declare can be read when no odd digits come first. -/
theorem declared_returns (paths : List String) :
    (∃ declared, declaredChapterNumbers paths = .ok declared) ↔ ¬OddFirst paths := by
  have raises : (∃ fault, declaredChapterNumbers paths = .error fault) ↔ OddFirst paths :=
    declaredChapterNumbersFrom_raises
  rw [← raises]
  cases declaredChapterNumbers paths with
  | error fault => simp
  | ok declared => simp

end Paths

/-! ## The derivation -/

/-- The declared paths that the derivation comes to are texts, and where those of a record that may
explain the break are missing their digits can be converted. -/
def RecordReadable (interp : Interpreter) (state : State) (disk : Disk) : Prop :=
  ∀ pending broken, state.pendingTurn = some pending → Surveyed interp state disk →
    Unrefused interp state disk → Classified interp state disk broken →
      (interp.equals pending.operation (.str setChaptersOperation) = true →
        broken.coherentSubset = true → broken.isBijection = false →
          Texts pending.paths ∧
            ¬OddFirst (NovelRalph.missingDeclaredPaths (pathTexts pending.paths) disk)) ∧
      (broken.isBijection = true → Texts pending.paths)

section Derive

variable {interp : Interpreter} {state : State} {disk : Disk} {fired : List InvariantName}

/-- Whether the record explains the break is decided when its paths can be read, or need not be. -/
theorem explains_returns {broken : BijectionBreak} (classified : Classified interp state disk broken)
    {pending : PendingTurn} (recorded : state.pendingTurn = some pending) :
    (∃ explained, setChaptersTurnExplainsBijection interp state disk fired = .ok explained) ↔
      ((firedRefuse fired).toFinset = {manifestDiskBijection} →
        interp.equals pending.operation (.str setChaptersOperation) = true →
          broken.coherentSubset = true → Texts pending.paths ∧
            ¬OddFirst (NovelRalph.missingDeclaredPaths (pathTexts pending.paths) disk)) := by
  unfold setChaptersTurnExplainsBijection
  rw [recorded]
  dsimp only
  cases operation : interp.equals pending.operation (.str setChaptersOperation) with
  | false => simp
  | true =>
      by_cases alone : (firedRefuse fired).toFinset = {manifestDiskBijection}
      · obtain ⟨onDisk, listed, classified⟩ := classified
        rw [if_neg (by simp), if_neg (not_not.mpr alone), listed]
        dsimp only [bind, Except.bind]
        rw [classified]
        dsimp only
        cases coherent : broken.coherentSubset with
        | false => simp [pure, Except.pure]
        | true =>
            rw [if_pos rfl, forall_prop_of_true alone, forall_prop_of_true rfl,
              forall_prop_of_true rfl, ← missingDeclaredPaths_returns, ← declared_returns]
            cases missing : missingDeclaredPaths pending.paths disk with
            | error fault => simp
            | ok names =>
                rw [(missingDeclaredPaths_eq_ok.mp missing).2]
                dsimp only
                cases declaredChapterNumbers
                  (NovelRalph.missingDeclaredPaths (pathTexts pending.paths) disk) with
                | error fault => simp
                | ok declared => cases declared <;> simp [pure, Except.pure]
      · rw [if_neg (by simp), if_pos alone]
        exact iff_of_true ⟨_, rfl⟩ fun holds => absurd holds alone

/-- A record that explains the break has had its paths read. -/
theorem paths_read_of_explained {pending : PendingTurn} (recorded : state.pendingTurn = some pending)
    (explained : setChaptersTurnExplainsBijection interp state disk fired = .ok true) :
    ∃ missing, missingDeclaredPaths pending.paths disk = .ok missing := by
  unfold setChaptersTurnExplainsBijection at explained
  rw [recorded] at explained
  dsimp only at explained
  split at explained
  · cases explained
  split at explained
  · cases explained
  obtain ⟨onDisk, -, explained⟩ := except_bind_eq_ok.mp explained
  obtain ⟨broken, -, explained⟩ := except_bind_eq_ok.mp explained
  split at explained
  · obtain ⟨missing, read, -⟩ := except_bind_eq_ok.mp explained
    exact ⟨missing, read⟩
  · cases explained

/-- The coverage exception is decided on every surveyed tree. -/
theorem gap_returns (surveyed : Surveyed interp state disk) :
    ∃ gap, draftingSubsetCoverGap interp state disk fired = .ok gap := by
  unfold draftingSubsetCoverGap
  split
  · exact ⟨_, rfl⟩
  split
  · exact ⟨_, rfl⟩
  obtain ⟨cover, covers⟩ := surveyed.covered
  obtain ⟨manifest, collected, later⟩ := except_bind_eq_ok.mp covers
  obtain ⟨onDisk, listed, later⟩ := except_bind_eq_ok.mp later
  have subset : ∃ subset, properCoherentSubset interp manifest onDisk = .ok subset := by
    dsimp only at later
    split at later
    · next both =>
        rw [Bool.and_eq_true_iff] at both
        unfold properCoherentSubset
        dsimp only
        rw [if_neg (by simp [both.1])]
        exact ⟨_, rfl⟩
    · obtain ⟨subset, decided, -⟩ := except_bind_eq_ok.mp later
      exact ⟨subset, decided⟩
  obtain ⟨subset, decided⟩ := subset
  obtain ⟨relaxed, coversRelaxed⟩ := (coverDrafts_returns true).mpr ⟨cover, covers⟩
  rw [collected]
  dsimp only [bind, Except.bind]
  rw [listed]
  dsimp only
  rw [decided]
  dsimp only
  split
  · split
    · exact ⟨_, rfl⟩
    · rw [coversRelaxed]
      exact ⟨_, rfl⟩
  · exact ⟨_, rfl⟩

theorem deriveRecount_returns (surveyed : Surveyed interp state disk) (names : List InvariantName) :
    ∃ reconciliation, deriveRecount interp state disk names = .ok reconciliation := by
  obtain ⟨found, returned⟩ := surveyed.tail (checkWordCountsMatchDrafts interp)
    (by simp [tailPredicates])
  obtain ⟨⟨current, table⟩, recounts, -⟩ := except_bind_eq_ok.mp returned
  exact ⟨_, except_bind_eq_ok.mpr ⟨_, recounts, rfl⟩⟩

/-- Without a record nothing is left that could raise. -/
theorem classifyFired_of_settled (surveyed : Surveyed interp state disk)
    (settled : state.pendingTurn = none) :
    ∃ reconciliation, classifyFired interp state disk fired = .ok reconciliation := by
  have unexplained : setChaptersTurnExplainsBijection interp state disk fired = .ok false := by
    unfold setChaptersTurnExplainsBijection
    rw [settled]
  obtain ⟨gap, decided⟩ := @gap_returns interp state disk fired surveyed
  unfold classifyFired scopedPrecedenceException
  rw [unexplained, settled]
  dsimp only [bind, Except.bind]
  rw [decided]
  cases gap with
  | true =>
      obtain ⟨reconciliation, derived⟩ := deriveRecount_returns surveyed [wordCountsCoverDrafts]
      dsimp only
      rw [if_pos rfl, derived]
      exact ⟨_, rfl⟩
  | false =>
      dsimp only
      rw [if_neg (by simp)]
      dsimp only [pure, Except.pure]
      split
      · exact ⟨_, rfl⟩
      · split
        · exact deriveRecount_returns surveyed _
        · split <;> exact ⟨_, rfl⟩

/-- With a record, the derivation returns when the paths it comes to can be read. -/
theorem classifyFired_of_recorded (surveyed : Surveyed interp state disk) {broken : BijectionBreak}
    (classified : Classified interp state disk broken) {pending : PendingTurn}
    (recorded : state.pendingTurn = some pending) (reported : pendingTurnCleared ∈ fired) :
    (∃ reconciliation, classifyFired interp state disk fired = .ok reconciliation) ↔
      ((firedRefuse fired).toFinset = {manifestDiskBijection} →
        interp.equals pending.operation (.str setChaptersOperation) = true →
          broken.coherentSubset = true → Texts pending.paths ∧
            ¬OddFirst (NovelRalph.missingDeclaredPaths (pathTexts pending.paths) disk)) ∧
      (firedRefuse fired = [] → Texts pending.paths) := by
  obtain ⟨spelled, spells⟩ : ∃ text, interp.repr pending.operation = .ok text := by
    obtain ⟨found, returned⟩ := surveyed.tail (fun state _ => checkPendingTurnCleared interp state)
      (by simp [tailPredicates])
    unfold checkPendingTurnCleared at returned
    rw [recorded] at returned
    obtain ⟨text, spells, -⟩ := except_bind_eq_ok.mp returned
    exact ⟨text, spells⟩
  have noGap : draftingSubsetCoverGap interp state disk fired = .ok false := by
    unfold draftingSubsetCoverGap
    rw [recorded]
    rfl
  rw [← explains_returns classified recorded]
  unfold classifyFired scopedPrecedenceException
  rw [recorded, noGap]
  cases explained : setChaptersTurnExplainsBijection interp state disk fired with
  | error fault => simp [bind, Except.bind]
  | ok answer =>
      dsimp only [bind, Except.bind]
      cases answer with
      | true =>
          -- An explanation has read the paths already.
          obtain ⟨missing, read⟩ := paths_read_of_explained recorded explained
          have texts : Texts pending.paths := (missingDeclaredPaths_eq_ok.mp read).1
          refine iff_of_true ?_ ⟨⟨_, rfl⟩, fun _ => texts⟩
          dsimp only
          unfold completeSetChaptersTurn
          rw [read]
          exact ⟨_, rfl⟩
      | false =>
          dsimp only
          rw [if_neg (by simp)]
          dsimp only [pure, Except.pure]
          by_cases refuses : firedRefuse fired = []
          · rw [if_neg (not_not.mpr refuses), decide_eq_true reported, forall_prop_of_true refuses,
              ← @missingDeclaredPaths_returns pending.paths disk]
            dsimp only
            unfold classifyPendingTurn
            cases missingDeclaredPaths pending.paths disk with
            | error fault => simp [bind, Except.bind]
            | ok missing =>
                dsimp only [bind, Except.bind]
                rw [spells]
                dsimp only
                exact iff_of_true ⟨_, rfl⟩ ⟨⟨_, rfl⟩, ⟨_, rfl⟩⟩
          · rw [if_pos refuses]
            exact iff_of_true ⟨_, rfl⟩ ⟨⟨_, rfl⟩, fun none => absurd none refuses⟩

/-- A record is always among what the detector reports. -/
theorem pending_reported {relaxed : Bool} {violations : List Violation}
    (detected : checkDiskEvidence interp state disk relaxed = .ok violations)
    {pending : PendingTurn} (recorded : state.pendingTurn = some pending) :
    pendingTurnCleared ∈ violations.map Violation.invariant := by
  have surveyed := (detector_returns relaxed).mp ⟨violations, detected⟩
  obtain ⟨found, returned⟩ := surveyed.tail (fun state _ => checkPendingTurnCleared interp state)
    (by simp [tailPredicates])
  have fires : Fires (checkPendingTurnCleared interp state) := by
    unfold checkPendingTurnCleared at returned ⊢
    rw [recorded] at returned ⊢
    obtain ⟨operation, spells, -⟩ := except_bind_eq_ok.mp returned
    exact ⟨_, except_bind_eq_ok.mpr ⟨operation, spells, rfl⟩⟩
  exact (fired_iff detected).mpr (.inr (.inr (.inr (.inr (.inl ⟨fires, rfl⟩)))))

/-- On a tree that the detector has a verdict on, the derivation returns when the record can be
read. -/
theorem derive_returns (surveyed : Surveyed interp state disk) :
    (∃ reconciliation, deriveReconciliation interp state disk = .ok reconciliation) ↔
      RecordReadable interp state disk := by
  obtain ⟨violations, detected⟩ := (detector_returns false).mpr surveyed
  unfold deriveReconciliation
  rw [detected]
  cases recorded : state.pendingTurn with
  | none =>
      refine iff_of_true (classifyFired_of_settled surveyed recorded) ?_
      intro pending broken same
      rw [recorded] at same
      cases same
  | some pending =>
      obtain ⟨onDisk, broken, listed, compared⟩ := surveyed.classified
      have classified : Classified interp state disk broken := ⟨onDisk, listed, compared⟩
      obtain ⟨unrefused, alone⟩ := refused_iff classified detected
      refine (classifyFired_of_recorded surveyed classified recorded
        (pending_reported detected recorded)).trans ?_
      rw [unrefused, alone]
      constructor
      · rintro ⟨explains, reads⟩ other broken' same - quiet classified'
        rw [recorded] at same
        cases same
        rw [classified'.unique classified]
        exact ⟨fun operation coherent broke => explains ⟨quiet, broke⟩ operation coherent,
          fun exact => reads ⟨quiet, exact⟩⟩
      · intro read
        constructor
        · rintro ⟨quiet, broke⟩ operation coherent
          exact (read pending broken recorded surveyed quiet classified).1 operation coherent broke
        · rintro ⟨quiet, exact⟩
          exact (read pending broken recorded surveyed quiet classified).2 exact

end Derive

end NovelRalph.Untyped
