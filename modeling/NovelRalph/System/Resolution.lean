import NovelRalph.System.CarvedTree
import NovelRalph.System.Enactment

/-!
# What `reconcile` names is resolved

A repair that exits 0 leaves nothing of what it named, with one exception. A
record of `set-chapters` is matched with the break by the numbers its paths end
in, and completed by making the paths themselves. Where these are not the
directories of the manifest, the run exits 0 and the break stays, or the tree can
no longer be read.
-/

namespace NovelRalph

/-- `SameManuscript` works both ways. -/
theorem SameManuscript.symm {left right : Disk} (same : SameManuscript left right) :
    SameManuscript right left where
  working := same.working.symm
  dirs := same.dirs.symm
  layout names := by
    rw [same.manuscript]
    exact (same.layout names).symm
  read names := by
    rw [same.manuscript]
    exact (same.read names).symm

/-- Making these places gives the manifest its directories, and no others. -/
structure Mends (state : State) (disk : Disk) (places : List Loc) : Prop where
  present : ∀ number ∈ state.manifest,
    disk.chapterDir number ∈ disk.dirs ∨ disk.chapterDir number ∈ places
  listed : ∀ suffix, isDigits suffix = true → disk.suffixDir suffix ∈ places →
    ((intOfDigits? suffix).getD 0 : Int) ∈ state.manifest

section Resolution

variable {toml : Tomlkit} {arith : RatioArithmetic} {now : String}
  {world after : World toml.Text} {state shown : State} {reconciliation : Reconciliation String}

/-- Nothing that was named is left, and a turn that explained a break has its directories. -/
structure Resolved (state : State) (reconciliation : Reconciliation String)
    (world after : World toml.Text) : Prop where
  silent : ∃ shown violations, Shows after shown ∧
    checkDiskEvidence shown after.disk false = .ok violations ∧
    ∀ name ∈ reconciliation.discrepancies, name ∉ violations.map Violation.invariant
  dirs : completesSetChapters reconciliation = true →
    InvariantName.manifestDiskBijection ∈ reconciliation.discrepancies →
    ∀ number ∈ state.manifest, after.layout (world.disk.chapterDir number) = some .dir

/-- On a tree that can be read, the detector is asked by its table. -/
theorem silent_iff (shows : Shows after shown) (names : List InvariantName) :
    (∃ shown violations, Shows after shown ∧
      checkDiskEvidence shown after.disk false = .ok violations ∧
      ∀ name ∈ names, name ∉ violations.map Violation.invariant) ↔
      Readable shown after.disk ∧ ∀ name ∈ names, name ∉ evidence shown after.disk false := by
  constructor
  · rintro ⟨other, violations, shows', detected, silent⟩
    cases shows'.unique shows
    have readable := readable_of_detected detected
    obtain ⟨same, detected', evident⟩ := checkDiskEvidence_of_readable readable false
    rw [detected, Except.ok.injEq] at detected'
    subst detected'
    rw [evident] at silent
    exact ⟨readable, silent⟩
  · rintro ⟨readable, silent⟩
    obtain ⟨violations, detected, evident⟩ := checkDiskEvidence_of_readable readable false
    refine ⟨shown, violations, shows, detected, ?_⟩
    rw [evident]
    exact silent

/-- A contiguous manifest is in bijection with the directories when they are the same numbers. -/
theorem bijectionBroken_eq_false {disk : Disk} {onDisk : Finset Int}
    (coherent : (classifyBijection state.manifest onDisk).coherentSubset = true) :
    bijectionBroken state disk false = false ↔ state.manifest = disk.onDisk := by
  have contiguous := (Bool.and_eq_true_iff.mp coherent).2
  have whole : bijectionBroken state disk false = false ↔
      (classifyBijection state.manifest disk.onDisk).isBijection = true := by
    simp [bijectionBroken]
  rw [whole, isBijection_iff, and_iff_right_iff_imp]
  intro same
  refine Bool.and_eq_true_iff.mpr ⟨decide_eq_true ?_, contiguous⟩
  rw [← same]
  exact Finset.sdiff_self _

section Completed

variable {pending : PendingTurn} (shows : Shows world state)
  (made : (createMissingChapterDirs reconciliation world).result = .ok ())
  (stands : Stands (world.carved reconciliation) true state.settled after)

include shows made stands

/-- The end of a completed turn can be read exactly when its places are legible. -/
theorem readable_completed (readable : Readable state world.disk) :
    Readable state.settled after.disk ↔
      Legible state world.disk (madePlaces world reconciliation) := by
  have same := stands.sameManuscript
  rw [← readable_carved shows.held made readable]
  constructor
  · exact fun there => (same.symm.readable there).congr rfl
  · exact fun there => same.readable (there.congr rfl)

/-- A break that a record explains is mended exactly by the directories of the manifest. -/
theorem mended_iff (readable : Readable state world.disk)
    (explains : Explains state world.disk pending) :
    (bijectionBroken state.settled after.disk false = false ∧
      ∀ number ∈ state.manifest, after.layout (world.disk.chapterDir number) = some .dir) ↔
      Mends state world.disk (madePlaces world reconciliation) := by
  obtain ⟨-, -, -, coherent, -⟩ := explains
  have numbers : after.disk.onDisk = (world.carved reconciliation).disk.onDisk :=
    stands.sameManuscript.onDisk
  have matched : bijectionBroken state.settled after.disk false = false ↔
      state.manifest = after.disk.onDisk := bijectionBroken_eq_false coherent
  have dirs : (∀ number ∈ state.manifest, after.layout (world.disk.chapterDir number) = some .dir) ↔
      ∀ number ∈ state.manifest, world.disk.chapterDir number ∈ world.disk.dirs ∨
        world.disk.chapterDir number ∈ madePlaces world reconciliation := by
    refine forall_congr' fun number => imp_congr_right fun _ => ?_
    rw [World.layout_eq_dir, stands.dirs]
    exact mem_dirs_made shows.held made
  rw [matched, numbers, dirs]
  constructor
  · rintro ⟨same, present⟩
    refine ⟨present, fun suffix digits member => ?_⟩
    rw [same, mem_onDisk_carved shows.held made]
    exact Or.inr ⟨suffix, digits, member, rfl⟩
  · rintro ⟨present, listed⟩
    refine ⟨Finset.Subset.antisymm (fun number member => ?_) (fun number member => ?_), present⟩
    · have positive := one_le_of_coherentSubset coherent member
      obtain ⟨value, rfl⟩ := Int.eq_ofNat_of_zero_le (show 0 ≤ number by omega)
      have there : padTwo value ∈ (world.carved reconciliation).disk.chapterSuffixes := by
        rw [mem_suffixes_carved shows.held made, Disk.mem_chapterSuffixes_iff, ← and_or_left]
        exact ⟨isDigits_padTwo value, present _ member⟩
      have spelled : tooLong value = false := manifest_spelled readable.drafts _ member
      refine Finset.mem_image.mpr ⟨_, there, ?_⟩
      rw [intOfDigits?_padTwo, spelled]
      rfl
    · rcases (mem_onDisk_carved shows.held made).mp member with old | ⟨suffix, digits, made', rfl⟩
      · exact subset_of_coherentSubset coherent old
      · exact listed suffix digits made'

end Completed

/-- A repair that makes no directory leaves nothing of what it named. -/
theorem silent_of_repaired (derivation : Derivation state world.disk reconciliation)
    (repairing : Repairing reconciliation.action)
    (incomplete : completesSetChapters reconciliation = false) (opens : LogOpen world)
    (stands : Stands world true (repairedState state world.disk reconciliation).settled after) :
    ∀ name ∈ reconciliation.discrepancies,
      name ∉ evidence (repairedState state world.disk reconciliation).settled after.disk false := by
  have counted : rewritesCounts reconciliation = true →
      ∀ name ∈ recountTriggers, name ∉ evidence
        (repairedState state world.disk reconciliation).settled after.disk false := by
    intro rewrites
    unfold repairedState
    rw [if_pos rewrites]
    have current : drift (state.counted world.disk).settled after.disk = false :=
      stands.sameManuscript.drift.trans (drift_counted state world.disk)
    intro name trigger fires
    have known : ∀ name ∈ recountTriggers, name ∈ diskEvidenceInvariantNames := by decide
    have listed := known name trigger
    have named : name ∈ recountNames
        (evidence (state.counted world.disk).settled after.disk false) :=
      List.mem_filter.mpr ⟨listed, decide_eq_true ⟨trigger, fires⟩⟩
    rw [recountNames_eq_nil.mpr current] at named
    cases named
  cases derivation with
  | explained pending recorded explains =>
      rw [completesSetChapters_iff.mpr ⟨rfl, congrArg some explains.1⟩] at incomplete
      cases incomplete
  | coverGap gap =>
      intro name named
      refine counted rfl name ?_
      rw [List.mem_singleton.mp named]
      decide
  | recount settled agreed stale =>
      intro name named
      exact counted rfl name (of_decide_eq_true (List.mem_filter.mp named).2).1
  | recreateLog settled agreed current absent =>
      intro name named fires
      rw [List.mem_singleton.mp named, log_mem_evidence, stands.logFile opens] at fires
      cases fires
  | refuse => rcases repairing with action | action | action | action <;> cases action
  | none => rcases repairing with action | action | action | action <;> cases action
  | pendingTurn pending recorded agreed =>
      intro name named fires
      rw [discrepancies_classifyPendingTurn] at named
      rw [List.mem_singleton.mp named, pending_mem_evidence] at fires
      cases fires

/-- Completing this record leaves a tree that can be read, and mends the break it explains. -/
structure Restores (state : State) (disk : Disk) (pending : PendingTurn) : Prop where
  legible : Legible state disk
    (declaredPlaces (missingDeclaredPaths pending.paths disk) disk.working)
  mends : Explains state disk pending →
    Mends state disk (declaredPlaces (missingDeclaredPaths pending.paths disk) disk.working)

/-- A completed turn resolves what it names exactly when it restores the tree. -/
theorem resolved_completed {pending : PendingTurn} (shows : Shows world state)
    (derives : deriveReconciliation state world.disk = .ok reconciliation)
    (completing : completesSetChapters reconciliation = true)
    (completes : Completes state world.disk pending)
    (missing : reconciliation.missingPaths = missingDeclaredPaths pending.paths world.disk)
    (made : (createMissingChapterDirs reconciliation world).result = .ok ())
    (stands : Stands (world.carved reconciliation) true state.settled after) :
    Resolved state reconciliation world after ↔ Restores state world.disk pending := by
  have readable := readable_of_derive derives
  have legible := readable_completed shows made stands readable
  have places : madePlaces world reconciliation =
      declaredPlaces (missingDeclaredPaths pending.paths world.disk) world.disk.working := by
    rw [madePlaces, missing]
    rfl
  cases (deriveReconciliation_iff readable).mp derives with
  | explained other recorded explains =>
      have same : other = pending := by
        have twice := recorded.symm.trans completes.recorded
        exact Option.some.inj twice
      subst same
      have mended := mended_iff shows made stands readable explains
      rw [places] at legible mended
      have broken : InvariantName.manifestDiskBijection ∈ evidence state.settled after.disk false ↔
          bijectionBroken state.settled after.disk false = true := mem_evidence (by simp [evidenceTable])
      constructor
      · rintro ⟨silent, dirs⟩
        obtain ⟨there, unnamed⟩ := (silent_iff stands.shows _).mp silent
        have whole := unnamed _ List.mem_cons_self
        rw [broken, Bool.not_eq_true] at whole
        exact ⟨legible.mp there, fun _ => mended.mp ⟨whole, dirs completing List.mem_cons_self⟩⟩
      · rintro ⟨there, mends⟩
        obtain ⟨whole, dirs⟩ := mended.mpr (mends explains)
        refine ⟨(silent_iff stands.shows _).mpr ⟨legible.mpr there, fun name named => ?_⟩,
          fun _ _ => dirs⟩
        rw [List.mem_singleton.mp named, broken, whole]
        exact Bool.false_ne_true
  | pendingTurn other recorded agreed =>
      rw [places] at legible
      have named := discrepancies_classifyPendingTurn world.disk other
        [InvariantName.pendingTurnCleared]
      constructor
      · rintro ⟨silent, -⟩
        refine ⟨legible.mp ((silent_iff stands.shows _).mp silent).1, fun explains => ?_⟩
        rw [refusal, explains.2.1] at agreed
        cases agreed
      · rintro ⟨there, -⟩
        refine ⟨(silent_iff stands.shows _).mpr ⟨legible.mpr there, ?_⟩, fun _ listed => ?_⟩
        · rw [named]
          intro name listed fires
          rw [List.mem_singleton.mp listed, pending_mem_evidence] at fires
          cases fires
        · rw [named] at listed
          cases List.mem_singleton.mp listed
  | coverGap => cases completing
  | refuse => cases completing
  | recount => cases completing
  | recreateLog => cases completing
  | none => cases completing

/-- A repair that exits 0 resolves what it names exactly when each `set-chapters` record that it
completes restores the tree. -/
theorem reconcile_resolves_iff (arith : RatioArithmetic) (now : String) (shows : Shows world state)
    (derives : deriveReconciliation state world.disk = .ok reconciliation)
    (repairing : Repairing reconciliation.action)
    (exits : exitCodeOf (reconcile arith now world).result = some 0) :
    Resolved state reconciliation world ((reconcile arith now world).final world) ↔
      ∀ pending, Completes state world.disk pending → Restores state world.disk pending := by
  obtain ⟨outcome, returned, -⟩ := exitCodeOf_eq_zero.mp exits
  have readable := readable_of_derive derives
  by_cases completing : completesSetChapters reconciliation = true
  · obtain ⟨made, stands⟩ := completed_of_returned shows derives completing returned
    obtain ⟨pending, completes, missing⟩ := completes_of_derives derives completing
    rw [resolved_completed shows derives completing completes missing made stands]
    refine ⟨fun restores other again => ?_, fun every => every pending completes⟩
    rw [completes.unique again]
    exact restores
  · have incomplete : completesSetChapters reconciliation = false := by simpa using completing
    have opens := logOpen_of_returned shows derives repairing returned
    have stands := repaired_of_returned shows derives repairing incomplete returned
    refine ⟨fun _ pending completes => ?_, fun _ => ⟨(silent_iff stands.shows _).mpr ⟨?_, ?_⟩, ?_⟩⟩
    · obtain ⟨other, derives', completing', -⟩ := completes.derives
      rw [derives, Except.ok.injEq] at derives'
      rw [derives', completing'] at incomplete
      cases incomplete
    · refine stands.sameManuscript.readable (readable.congr ?_)
      unfold repairedState
      split <;> rfl
    · exact silent_of_repaired ((deriveReconciliation_iff readable).mp derives) repairing incomplete
        opens stands
    · intro completes
      rw [incomplete] at completes
      cases completes

end Resolution

/-! ## A record that declares a chapter beside the manuscript -/

/-- The declared path is relative, and reads as the directory of the missing chapter 1. -/
def asidePaths : List String := ["working/state.toml", "working/old/manuscript/chapter-01"]

theorem shows_aside : Shows (declaringWorld asidePaths) (declaringState asidePaths) :=
  shown?_eq_some.mp (by decide +kernel)

/-- What the record of `asidePaths` is taken for. -/
def asideReconciliation : Reconciliation String :=
  completeSetChaptersTurn (declaringWorld asidePaths).disk ⟨setChaptersOperation, asidePaths⟩

/-- The run exits 0, and the break it named is reported on the tree it leaves. -/
theorem named_break_stays :
    Shows (declaringWorld asidePaths) (declaringState asidePaths) ∧
      Coherent .exact (declaringState asidePaths) ∧
      deriveReconciliation (declaringState asidePaths) (declaringWorld asidePaths).disk =
        .ok asideReconciliation ∧
      exitCodeOf (reconcile .exact "" (declaringWorld asidePaths)).result = some 0 ∧
      InvariantName.manifestDiskBijection ∈ asideReconciliation.discrepancies ∧
      (checkDiskEvidence (declaringState asidePaths).settled ((reconcile .exact ""
        (declaringWorld asidePaths)).final (declaringWorld asidePaths)).disk false).map
          (List.map Violation.invariant) = .ok [.manifestDiskBijection] ∧
      ¬Resolved (declaringState asidePaths) asideReconciliation (declaringWorld asidePaths)
        ((reconcile .exact "" (declaringWorld asidePaths)).final (declaringWorld asidePaths)) := by
  refine ⟨shows_aside, validateState_eq_nil.mp (by decide +kernel), by decide +kernel,
    by decide +kernel, List.mem_cons_self, by decide +kernel, fun resolved => ?_⟩
  have absent : ((reconcile .exact "" (declaringWorld asidePaths)).final
      (declaringWorld asidePaths)).layout ((declaringWorld asidePaths).disk.chapterDir 1) = none := by
    decide +kernel
  have there := resolved.dirs (by decide +kernel) List.mem_cons_self 1 (by decide +kernel)
  rw [absent] at there
  cases there

/-- What a record that declares the directory as `set-chapters` does is taken for. -/
def declaredReconciliation : Reconciliation String :=
  completeSetChaptersTurn (declaringWorld ["working/manuscript/chapter-01"]).disk
    ⟨setChaptersOperation, ["working/manuscript/chapter-01"]⟩

/-- The directory that was declared for chapter 1 restores the tree. -/
theorem restores_declared : Restores (declaringState ["working/manuscript/chapter-01"])
    (declaringWorld ["working/manuscript/chapter-01"]).disk
    ⟨setChaptersOperation, ["working/manuscript/chapter-01"]⟩ := by
  have places : declaredPlaces (missingDeclaredPaths ["working/manuscript/chapter-01"]
      (declaringWorld ["working/manuscript/chapter-01"]).disk)
      (declaringWorld ["working/manuscript/chapter-01"]).disk.working =
      [["manuscript", "working"], ["chapter-01", "manuscript", "working"]] := by decide +kernel
  have only : ∀ suffix, (declaringWorld ["working/manuscript/chapter-01"]).disk.suffixDir suffix ∈
      [["manuscript", "working"], ["chapter-01", "manuscript", "working"]] → suffix = "01" := by
    intro suffix member
    have below : (declaringWorld ["working/manuscript/chapter-01"]).disk.manuscript =
        ["manuscript", "working"] := by decide +kernel
    rw [Disk.suffixDir, below] at member
    rcases List.mem_cons.mp member with same | later
    · cases congrArg List.length same
    · have same := (List.cons.inj (List.mem_singleton.mp later)).1
      have rest := congrArg (fun name => removeBeginning name "chapter-") same
      rw [removeBeginning_append] at rest
      rw [rest]
      decide +kernel
  refine ⟨⟨?_, ?_, ?_, ?_⟩, fun _ => ⟨?_, ?_⟩⟩ <;> rw [places]
  · intro suffix _ member
    rw [only suffix member]
    decide +kernel
  · decide +kernel
  · decide +kernel
  · decide +kernel
  · decide +kernel
  · intro suffix _ member
    rw [only suffix member]
    decide +kernel

/-- Declared as `set-chapters` does, the break is resolved. -/
theorem named_break_resolved :
    Resolved (declaringState ["working/manuscript/chapter-01"]) declaredReconciliation
      (declaringWorld ["working/manuscript/chapter-01"])
      ((reconcile .exact "" (declaringWorld ["working/manuscript/chapter-01"])).final
        (declaringWorld ["working/manuscript/chapter-01"])) := by
  refine (reconcile_resolves_iff .exact "" (shown?_eq_some.mp (by decide +kernel))
    (by decide +kernel) (Or.inr (Or.inl rfl)) (by decide +kernel)).mpr fun pending completes => ?_
  have recorded := completes.recorded
  rw [← Option.some.inj recorded]
  exact restores_declared

end NovelRalph
