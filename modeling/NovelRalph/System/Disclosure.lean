import NovelRalph.System.Resolution

/-!
# What `reconcile` resolves and what it names

A run of `reconcile` has side effects on the verdict: its receipt creates the log,
its end clears any record, a rewritten table has its values and its keys set right
at once, and a directory can end a bijection on which the key check hangs. The
payload names what the action was chosen for. `Disclosed` lists when that is all
there was.
-/

namespace NovelRalph

open InvariantName

namespace InvariantName

/-- All names, in the order of their declaration. -/
def members : List InvariantName :=
  [phaseInEnum, completedPrefix, byChapterSum, consecutiveCleanWithinTarget,
   convergenceTargetAtLeastOne, consecutiveCleanWithinDrafted, cursorCoherent, gateRatioConsistent,
   manifestDiskBijection, cursorPlanPresent, doneFlagWithoutDraft, compiledMatchesDrafts,
   pendingTurnCleared, wordCountsMatchDrafts, logPresent, wordCountsCoverDrafts]

/-- No two names are reported under one text. -/
theorem text_injective : Function.Injective text := by
  intro first second same
  have listed : ∀ name : InvariantName, name ∈ members := by
    intro name
    cases name <;> decide
  have distinct : (members.map text).Nodup := by decide +kernel
  exact List.inj_on_of_nodup_map distinct (listed first) (listed second) same

end InvariantName

/-- The payload of a run lists a name among its discrepancies. -/
def ReportsName (result : Except Fault CommandOutcome) (name : InvariantName) : Prop :=
  ∃ outcome names, result = .ok outcome ∧
    outcome.result.lookup "discrepancies" = some (.array names) ∧ .str name.text ∈ names

/-- The payload of a repair lists what the reconciliation names. -/
theorem reportsName_writeOutcome {reconciliation : Reconciliation String} {name : InvariantName} :
    ReportsName (.ok (writeOutcome reconciliation)) name ↔ name ∈ reconciliation.discrepancies := by
  have listed : (writeOutcome reconciliation).result.lookup "discrepancies" =
      some (.array (reconciliation.discrepancies.map fun name => .str name.text)) := rfl
  constructor
  · rintro ⟨outcome, names, same, found, member⟩
    cases same
    rw [listed, Option.some.injEq] at found
    cases found
    obtain ⟨other, named, spelled⟩ := List.mem_map.mp member
    injection spelled with spelled
    rw [← text_injective spelled]
    exact named
  · intro named
    exact ⟨_, _, rfl, listed, List.mem_map.mpr ⟨name, named, rfl⟩⟩

/-- Whether `state.toml` is among the missing paths of a record. -/
def losesState (pending : PendingTurn) (disk : Disk) : Bool :=
  (missingDeclaredPaths pending.paths disk).any fun path => endsWith path "state.toml"

/-- What a repair of this state on this tree resolves is what it names. -/
structure Disclosed (state : State) (disk : Disk) : Prop where
  /-- No record explains a break: it would be cleared with the break. -/
  unexplained : ∀ pending, state.pendingTurn = some pending → ¬Explains state disk pending
  /-- The log is there, or recreating it is all there is to do. -/
  logged : disk.exists? disk.logFile = false →
    state.pendingTurn = none ∧ drift state disk = false ∧ ¬CoverGap state disk
  /-- Where keys are missing from a drafting subset, no count is stale. -/
  fresh : CoverGap state disk → countsStale state disk = false
  /-- Where a turn lost the state file, its rewritten table was right. -/
  kept : ∀ pending, state.pendingTurn = some pending → ¬Completes state disk pending →
    losesState pending disk = true → drift state disk = false
  /-- Where directories are made while the keys are wrong, the bijection is kept. -/
  whole : ∀ pending, Completes state disk pending → coverageBroken state disk false = true →
    ∀ suffix, isDigits suffix = true → disk.suffixDir suffix ∈
      declaredPlaces (missingDeclaredPaths pending.paths disk) disk.working →
      ((intOfDigits? suffix).getD 0 : Int) ∈ state.manifest

section Names

variable {state : State} {disk : Disk} {name : InvariantName}

theorem counts_mem_evidence :
    wordCountsMatchDrafts ∈ evidence state disk false ↔ countsStale state disk = true :=
  mem_evidence (by simp [evidenceTable])

theorem cover_mem_evidence :
    wordCountsCoverDrafts ∈ evidence state disk false ↔ coverageBroken state disk false = true :=
  mem_evidence (by simp [evidenceTable])

/-- A reported name is of the refuse class, or one of four others. -/
theorem evidence_cases (fires : name ∈ evidence state disk false) :
    name ∈ firedRefuse (evidence state disk false) ∨ name = pendingTurnCleared ∨
      name = wordCountsMatchDrafts ∨ name = logPresent ∨ name = wordCountsCoverDrafts := by
  have listed : name ∈ diskEvidenceInvariantNames := by
    obtain ⟨question, asked, rfl⟩ := List.mem_map.mp fires
    exact List.mem_map.mpr ⟨question, List.mem_of_mem_filter asked, rfl⟩
  have split : ∀ name ∈ diskEvidenceInvariantNames, name ∈ refuseClass ∨ name = pendingTurnCleared ∨
      name = wordCountsMatchDrafts ∨ name = logPresent ∨ name = wordCountsCoverDrafts := by decide
  exact (split name listed).imp_left fun refused =>
    List.mem_filter.mpr ⟨fires, decide_eq_true refused⟩

end Names

/-! ## What each repair leaves out -/

section Loud

variable {state later : State} {disk disk' : Disk} {names : List InvariantName}

/-- What is reported before and not after is among the names. -/
def Loud (state : State) (disk : Disk) (later : State) (disk' : Disk)
    (names : List InvariantName) : Prop :=
  ∀ name ∈ evidence state disk false, name ∉ evidence later disk' false → name ∈ names

/-- With the refusals kept, four names are left to look at. -/
theorem loud_iff
    (refusals : ∀ name ∈ firedRefuse (evidence state disk false), name ∈ evidence later disk' false)
    (settled : later.pendingTurn = none) (logged : disk'.exists? disk'.logFile = true) :
    Loud state disk later disk' names ↔
      (state.pendingTurn.isSome = true → pendingTurnCleared ∈ names) ∧
      (disk.exists? disk.logFile = false → logPresent ∈ names) ∧
      (countsStale state disk = true → countsStale later disk' = false →
        wordCountsMatchDrafts ∈ names) ∧
      (coverageBroken state disk false = true → coverageBroken later disk' false = false →
        wordCountsCoverDrafts ∈ names) := by
  have cleared : pendingTurnCleared ∉ evidence later disk' false := by
    rw [pending_mem_evidence, settled]
    exact Bool.false_ne_true
  have present : logPresent ∉ evidence later disk' false := by
    rw [log_mem_evidence, logged]
    exact Bool.noConfusion
  constructor
  · intro loud
    refine ⟨fun recorded => loud _ (pending_mem_evidence.mpr recorded) cleared,
      fun absent => loud _ (log_mem_evidence.mpr absent) present, fun stale current => ?_,
      fun broken covered => ?_⟩
    · refine loud _ (counts_mem_evidence.mpr stale) ?_
      rw [counts_mem_evidence, current]
      exact Bool.false_ne_true
    · refine loud _ (cover_mem_evidence.mpr broken) ?_
      rw [cover_mem_evidence, covered]
      exact Bool.false_ne_true
  · rintro ⟨turn, log, counts, cover⟩ name fires gone
    rcases evidence_cases fires with refused | rfl | rfl | rfl | rfl
    · exact absurd (refusals name refused) gone
    · exact turn (pending_mem_evidence.mp fires)
    · rw [counts_mem_evidence, Bool.not_eq_true] at gone
      exact counts (counts_mem_evidence.mp fires) gone
    · exact log (log_mem_evidence.mp fires)
    · rw [cover_mem_evidence, Bool.not_eq_true] at gone
      exact cover (cover_mem_evidence.mp fires) gone

/-- Nothing of the refuse class is reported on a tree without a refusal. -/
theorem refusals_of_agreed (agreed : refusal state disk = false) :
    ∀ name ∈ firedRefuse (evidence state disk false), name ∈ evidence later disk' false := by
  rw [firedRefuse_eq_nil.mpr agreed]
  exact fun name member => (List.not_mem_nil member).elim

/-- Recounting a drafting subset leaves its break. -/
theorem refusals_of_gap (gap : CoverGap state disk)
    (broken : bijectionBroken later disk' false = bijectionBroken state disk false) :
    ∀ name ∈ firedRefuse (evidence state disk false), name ∈ evidence later disk' false := by
  intro name refused
  have alone := firedRefuse_toFinset.mpr ⟨gap.2.2.1, gap.2.2.2.1⟩
  have only : name = manifestDiskBijection := by
    have member := List.mem_toFinset.mpr refused
    rw [alone] at member
    exact Finset.mem_singleton.mp member
  subst only
  exact (mem_evidence (by simp [evidenceTable])).mpr (broken.trans gap.2.2.1)

end Loud

section Repair

variable {toml : Tomlkit} {arith : RatioArithmetic} {now : String}
  {world after : World toml.Text} {state shown : State} {reconciliation : Reconciliation String}

/-- A tree whose log is there shows it. -/
theorem exists_logFile (held : world.log.isSome) :
    world.disk.exists? world.disk.logFile = true := World.layout_logLoc held

/-- Without a record, the log and the counts are left to look at. -/
theorem disclosed_of_settled {disk : Disk} (settled : state.pendingTurn = none) :
    Disclosed state disk ↔
      (disk.exists? disk.logFile = false → drift state disk = false ∧ ¬CoverGap state disk) ∧
      (CoverGap state disk → countsStale state disk = false) := by
  constructor
  · intro disclosed
    exact ⟨fun absent => (disclosed.logged absent).2, disclosed.fresh⟩
  · rintro ⟨logged, fresh⟩
    refine ⟨fun pending recorded => ?_, fun absent => ⟨settled, logged absent⟩, fresh,
      fun pending recorded => ?_, fun pending completes => ?_⟩
    · rw [settled] at recorded
      cases recorded
    · rw [settled] at recorded
      cases recorded
    · have recorded := completes.recorded
      rw [settled] at recorded
      cases recorded

/-- Without a refusal there is no coverage gap, and nothing to explain. -/
theorem unexcused_of_agreed {disk : Disk} (agreed : refusal state disk = false) :
    ¬CoverGap state disk ∧ ∀ pending, ¬Explains state disk pending := by
  refine ⟨fun gap => ?_, fun pending explains => ?_⟩
  · rw [gap.refusal] at agreed
    cases agreed
  · rw [refusal, explains.2.1] at agreed
    cases agreed

/-- A turn that is not one of `set-chapters` to complete needs the log, and a table that was right
if it is rewritten. -/
theorem disclosed_of_turn {disk : Disk} {pending : PendingTurn}
    (recorded : state.pendingTurn = some pending) (agreed : refusal state disk = false)
    (incomplete : ¬Completes state disk pending) :
    Disclosed state disk ↔ disk.exists? disk.logFile = true ∧
      (losesState pending disk = true → drift state disk = false) := by
  obtain ⟨noGap, unexplained⟩ := unexcused_of_agreed agreed
  have only : ∀ other, state.pendingTurn = some other → other = pending := by
    intro other recorded'
    rw [recorded, Option.some.injEq] at recorded'
    exact recorded'.symm
  constructor
  · intro disclosed
    refine ⟨?_, disclosed.kept pending recorded incomplete⟩
    by_contra absent
    have settled := (disclosed.logged (by simpa using absent)).1
    rw [recorded] at settled
    cases settled
  · rintro ⟨logged, kept⟩
    refine ⟨fun other _ => unexplained other, fun absent => ?_, fun gap => absurd gap noGap,
      fun other recorded' => ?_, fun other completes => ?_⟩
    · rw [logged] at absent
      cases absent
    · rw [only other recorded']
      exact fun _ => kept
    · rw [only other completes.recorded] at completes
      exact absurd completes incomplete

/-- Any other repair is loud exactly when it sets right nothing else. -/
theorem loud_repaired (derives : deriveReconciliation state world.disk = .ok reconciliation)
    (repairing : Repairing reconciliation.action)
    (incomplete : completesSetChapters reconciliation = false)
    (stands : Stands world true (repairedState state world.disk reconciliation).settled after) :
    Loud state world.disk (repairedState state world.disk reconciliation).settled after.disk
        reconciliation.discrepancies ↔ Disclosed state world.disk := by
  have same := stands.sameManuscript
  have logged : after.disk.exists? after.disk.logFile = true := exists_logFile stands.log
  have counted : rewritesCounts reconciliation = true →
      countsStale (repairedState state world.disk reconciliation).settled after.disk = false ∧
      coverageBroken (repairedState state world.disk reconciliation).settled after.disk false =
        false := by
    intro rewrites
    unfold repairedState
    rw [if_pos rewrites]
    have current : drift (state.counted world.disk).settled after.disk = false :=
      same.drift.trans (drift_counted state world.disk)
    rw [drift, Bool.or_eq_false_iff] at current
    exact current
  have kept : rewritesCounts reconciliation = false →
      countsStale (repairedState state world.disk reconciliation).settled after.disk =
        countsStale state world.disk ∧
      coverageBroken (repairedState state world.disk reconciliation).settled after.disk false =
        coverageBroken state world.disk false := by
    intro keeps
    unfold repairedState
    rw [if_neg (by rw [keeps]; exact Bool.false_ne_true)]
    exact ⟨same.countsStale, same.coverageBroken false⟩
  have broken : bijectionBroken (repairedState state world.disk reconciliation).settled after.disk
      false = bijectionBroken state world.disk false := by
    unfold repairedState
    split <;> exact same.bijectionBroken false
  have settled' : (repairedState state world.disk reconciliation).settled.pendingTurn = none := rfl
  cases (deriveReconciliation_iff (readable_of_derive derives)).mp derives with
  | explained pending recorded explains =>
      rw [completesSetChapters_iff.mpr ⟨rfl, congrArg some explains.1⟩] at incomplete
      cases incomplete
  | coverGap gap =>
      obtain ⟨current, covered⟩ := counted rfl
      rw [loud_iff (refusals_of_gap gap broken) settled' logged, disclosed_of_settled gap.1, gap.1,
        current, covered]
      simp [recountReconciliation, gap]
  | recount settled agreed stale =>
      obtain ⟨noGap, -⟩ := unexcused_of_agreed agreed
      have silent : logPresent ∉ recountNames (evidence state world.disk false) := by
        intro named
        have trigger := (of_decide_eq_true (List.mem_filter.mp named).2).1
        revert trigger
        decide
      have counts : countsStale state world.disk = true →
          wordCountsMatchDrafts ∈ recountNames (evidence state world.disk false) := fun fires =>
        List.mem_filter.mpr ⟨by decide, decide_eq_true ⟨by decide, counts_mem_evidence.mpr fires⟩⟩
      have cover : coverageBroken state world.disk false = true →
          wordCountsCoverDrafts ∈ recountNames (evidence state world.disk false) := fun fires =>
        List.mem_filter.mpr ⟨by decide, decide_eq_true ⟨by decide, cover_mem_evidence.mpr fires⟩⟩
      rw [loud_iff (refusals_of_agreed agreed) settled' logged, disclosed_of_settled settled]
      simp only [recountReconciliation, settled, stale, noGap]
      simp [silent]
      exact fun _ => ⟨fun fires _ => counts fires, fun fires _ => cover fires⟩
  | recreateLog settled agreed current absent =>
      obtain ⟨noGap, -⟩ := unexcused_of_agreed agreed
      have flags := Bool.or_eq_false_iff.mp current
      rw [loud_iff (refusals_of_agreed agreed) settled' logged, disclosed_of_settled settled]
      simp [recreateLogReconciliation, settled, flags.1, flags.2, current, noGap]
  | pendingTurn pending recorded agreed =>
      have other : ¬Completes state world.disk pending := by
        intro completes
        obtain ⟨same', derives', completing, -⟩ := completes.derives
        rw [derives, Except.ok.injEq] at derives'
        rw [derives', completing] at incomplete
        cases incomplete
      have rewrites : rewritesCounts
          (classifyPendingTurn world.disk pending [pendingTurnCleared]) =
            losesState pending world.disk := by
        unfold losesState
        rw [← missingPaths_classifyPendingTurn world.disk pending [pendingTurnCleared]]
        rcases action_classifyPendingTurn world.disk pending [pendingTurnCleared] with
          action | action <;> simp [rewritesCounts, recomputes, action, incomplete, writesState]
      rw [loud_iff (refusals_of_agreed agreed) settled' logged,
        disclosed_of_turn recorded agreed other, discrepancies_classifyPendingTurn]
      cases loses : losesState pending world.disk with
      | false =>
          obtain ⟨stale, covered⟩ := kept (rewrites.trans loses)
          rw [stale, covered]
          simp
      | true =>
          obtain ⟨current, covered⟩ := counted (rewrites.trans loses)
          rw [current, covered, drift]
          simp
  | refuse => rcases repairing with action | action | action | action <;> cases action
  | none => rcases repairing with action | action | action | action <;> cases action

/-- Where nothing is refused, a completed turn needs the log, and must not end a bijection whose
keys are wrong. -/
theorem disclosed_of_completed {disk : Disk} {pending : PendingTurn}
    (completes : Completes state disk pending) (agreed : refusal state disk = false) :
    Disclosed state disk ↔ disk.exists? disk.logFile = true ∧
      (coverageBroken state disk false = true → ∀ suffix, isDigits suffix = true →
        disk.suffixDir suffix ∈ declaredPlaces (missingDeclaredPaths pending.paths disk)
          disk.working → ((intOfDigits? suffix).getD 0 : Int) ∈ state.manifest) := by
  obtain ⟨noGap, unexplained⟩ := unexcused_of_agreed agreed
  constructor
  · intro disclosed
    refine ⟨?_, disclosed.whole pending completes⟩
    by_contra absent
    have settled := (disclosed.logged (by simpa using absent)).1
    rw [completes.recorded] at settled
    cases settled
  · rintro ⟨logged, whole⟩
    refine ⟨fun other _ => unexplained other, fun absent => ?_, fun gap => absurd gap noGap,
      fun other recorded incomplete => ?_, fun other again => ?_⟩
    · rw [logged] at absent
      cases absent
    · rw [completes.recorded, Option.some.injEq] at recorded
      subst recorded
      exact absurd completes incomplete
    · rw [completes.unique again]
      exact whole

/-- A completed turn is loud exactly when it is no explanation, and neither the log nor the keys
are set right by the way. -/
theorem loud_completed {pending : PendingTurn} (shows : Shows world state)
    (derives : deriveReconciliation state world.disk = .ok reconciliation)
    (completes : Completes state world.disk pending)
    (missing : reconciliation.missingPaths = missingDeclaredPaths pending.paths world.disk)
    (completing : completesSetChapters reconciliation = true)
    (made : (createMissingChapterDirs reconciliation world).result = .ok ())
    (stands : Stands (world.carved reconciliation) true state.settled after) :
    Loud state world.disk state.settled after.disk reconciliation.discrepancies ↔
      Disclosed state world.disk := by
  have same := stands.sameManuscript
  have logged : after.disk.exists? after.disk.logFile = true := exists_logFile stands.log
  cases (deriveReconciliation_iff (readable_of_derive derives)).mp derives with
  | explained other recorded explains =>
      constructor
      · intro loud
        have cleared : pendingTurnCleared ∉ evidence state.settled after.disk false := by
          rw [pending_mem_evidence]
          exact Bool.false_ne_true
        have named := loud _ (pending_mem_evidence.mpr (by rw [recorded]; rfl)) cleared
        cases List.mem_singleton.mp named
      · intro disclosed
        exact absurd explains (disclosed.unexplained other recorded)
  | pendingTurn other recorded agreed =>
      have broken : bijectionBroken state world.disk false = false :=
        (Bool.or_eq_false_iff.mp agreed).1
      have even : state.manifest = world.disk.onDisk := by
        have whole : (classifyBijection state.manifest world.disk.onDisk).isBijection = true := by
          simpa [bijectionBroken] using broken
        exact (isBijection_iff.mp whole).2
      have stale : countsStale state.settled after.disk = countsStale state world.disk := by
        rw [same.countsStale]
        unfold countsStale
        rw [recountTable_carved shows.held made]
        rfl
      have numbers : state.manifest = after.disk.onDisk ↔ ∀ suffix, isDigits suffix = true →
          world.disk.suffixDir suffix ∈ declaredPlaces
            (missingDeclaredPaths pending.paths world.disk) world.disk.working →
          ((intOfDigits? suffix).getD 0 : Int) ∈ state.manifest := by
        rw [← missing, same.onDisk]
        constructor
        · intro whole suffix digits member
          rw [whole, mem_onDisk_carved shows.held made]
          exact Or.inr ⟨suffix, digits, member, rfl⟩
        · intro listed
          ext number
          rw [mem_onDisk_carved shows.held made, ← even]
          refine ⟨Or.inl, ?_⟩
          rintro (old | ⟨suffix, digits, member, rfl⟩)
          · exact old
          · exact listed suffix digits member
      have cover : coverageBroken state.settled after.disk false = false ↔
          (coverageBroken state world.disk false = true → state.manifest ≠ after.disk.onDisk) := by
        have table : after.disk.recountTable state.chapters = world.disk.recountTable state.chapters :=
          (same.recountTable _).trans (recountTable_carved shows.held made _)
        by_cases whole : state.manifest = after.disk.onDisk
        · have kept : coverageBroken state.settled after.disk false =
              coverageBroken state world.disk false := by
            unfold coverageBroken
            rw [if_pos even, if_pos (show state.settled.manifest = _ from whole)]
            show (coverageBreak (after.disk.recountTable state.chapters) _).isSome = _
            rw [table]
            rfl
          rw [kept]
          simp [whole]
        · have silent : coverageBroken state.settled after.disk false = false := by
            unfold coverageBroken
            rw [if_neg (show ¬state.settled.manifest = _ from whole)]
            rfl
          simp [silent, whole]
      rw [loud_iff (refusals_of_agreed agreed) rfl logged, disclosed_of_completed completes agreed,
        discrepancies_classifyPendingTurn, stale, cover, ← numbers]
      simp
      tauto
  | coverGap => cases completing
  | refuse => cases completing
  | recount => cases completing
  | recreateLog => cases completing
  | none => cases completing

/-- Nothing to do is nothing to disclose. -/
theorem disclosed_of_idle (derives : deriveReconciliation state world.disk = .ok reconciliation)
    (idle : reconciliation.action = .none) : Disclosed state world.disk := by
  cases (deriveReconciliation_iff (readable_of_derive derives)).mp derives with
  | none settled agreed current present =>
      obtain ⟨noGap, -⟩ := unexcused_of_agreed agreed
      refine (disclosed_of_settled settled).mpr ⟨fun absent => ?_, fun gap => absurd gap noGap⟩
      rw [present] at absent
      cases absent
  | pendingTurn pending recorded agreed =>
      rcases action_classifyPendingTurn world.disk pending [pendingTurnCleared] with action | action <;>
        rw [action] at idle <;> cases idle
  | explained => cases idle
  | coverGap => cases idle
  | refuse => cases idle
  | recount => cases idle
  | recreateLog => cases idle

/-- A run that exits 0 names whatever it resolves exactly when nothing is set right by the way. -/
theorem reconcile_loud_iff (arith : RatioArithmetic) (now : String) {before later : List Violation}
    (shows : Shows world state) (detected : checkDiskEvidence state world.disk false = .ok before)
    (exits : exitCodeOf (reconcile arith now world).result = some 0)
    (shows' : Shows ((reconcile arith now world).final world) shown)
    (detected' : checkDiskEvidence shown ((reconcile arith now world).final world).disk false =
      .ok later) :
    (∀ name ∈ before.map Violation.invariant, name ∉ later.map Violation.invariant →
        ReportsName (reconcile arith now world).result name) ↔ Disclosed state world.disk := by
  obtain ⟨reconciliation, derives, returned, kind⟩ := outcome_of_exits shows exits
  have readable := readable_of_derive derives
  have names : before.map Violation.invariant = evidence state world.disk false := by
    obtain ⟨same, again, evident⟩ := checkDiskEvidence_of_readable readable false
    rw [detected, Except.ok.injEq] at again
    rw [again, evident]
  have names' : later.map Violation.invariant =
      evidence shown ((reconcile arith now world).final world).disk false := by
    obtain ⟨same, again, evident⟩ :=
      checkDiskEvidence_of_readable (readable_of_detected detected') false
    rw [detected', Except.ok.injEq] at again
    rw [again, evident]
  simp only [names, names', returned, reportsName_writeOutcome]
  rcases kind with repairing | rfl
  · by_cases completing : completesSetChapters reconciliation = true
    · obtain ⟨made, stands⟩ := completed_of_returned shows derives completing returned
      obtain ⟨pending, completes, missing⟩ := completes_of_derives derives completing
      rw [shows'.unique stands.shows]
      exact loud_completed shows derives completes missing completing made stands
    · have incomplete : completesSetChapters reconciliation = false := by simpa using completing
      have stands := repaired_of_returned shows derives repairing incomplete returned
      rw [shows'.unique stands.shows]
      exact loud_repaired derives repairing incomplete stands
  · have idle := @reconcile_idle toml arith now world state shows derives
    have final : (reconcile arith now world).final world = world := by
      rw [idle]
      rfl
    rw [final] at shows' ⊢
    rw [shows'.unique shows]
    exact ⟨fun _ => disclosed_of_idle derives rfl, fun _ name fires gone => absurd fires gone⟩

end Repair

/-! ## A stale count under a lost log -/

/-- One drafted chapter whose words were not counted yet. -/
def uncountedWorld : World Tomlkit.structural.Text :=
  ((setChaptersCommand .doubles "2024-01-02T00:00:00Z" [⟨1, "one", "One", 10⟩]
    (initialWorld 10)).final (initialWorld 10)).putFile
      ["draft.md", "chapter-01", "manuscript", "working"] (.text "a b")

theorem shows_uncounted : Shows uncountedWorld crossedState :=
  shown?_eq_some.mp (by decide +kernel)

theorem shows_uncounted_dropped : Shows uncountedWorld.dropLog crossedState :=
  shown?_eq_some.mp (by decide +kernel)

/-- The recount exits 0 and recreates the log as well, which its payload does not say. -/
theorem lost_log_unreported :
    Shows uncountedWorld.dropLog crossedState ∧ Coherent .doubles crossedState ∧
      (checkDiskEvidence crossedState uncountedWorld.dropLog.disk false).map
        (List.map Violation.invariant) = .ok [wordCountsMatchDrafts, logPresent] ∧
      exitCodeOf (reconcile .doubles "" uncountedWorld.dropLog).result = some 0 ∧
      (∃ shown, Shows ((reconcile .doubles "" uncountedWorld.dropLog).final uncountedWorld.dropLog)
          shown ∧
        (checkDiskEvidence shown ((reconcile .doubles "" uncountedWorld.dropLog).final
          uncountedWorld.dropLog).disk false).map (List.map Violation.invariant) = .ok []) ∧
      ¬ReportsName (reconcile .doubles "" uncountedWorld.dropLog).result logPresent := by
  have shows' : Shows ((reconcile .doubles "" uncountedWorld.dropLog).final uncountedWorld.dropLog)
      (crossedState.recounted (Dict.ofPairs [("01", 2)])) := shown?_eq_some.mp (by decide +kernel)
  refine ⟨shows_uncounted_dropped, coherent_crossed, by decide +kernel, by decide +kernel,
    ⟨_, shows', by decide +kernel⟩, ?_⟩
  obtain ⟨reconciliation, derives, returned, -⟩ := outcome_of_exits shows_uncounted_dropped
    (show exitCodeOf (reconcile .doubles "" uncountedWorld.dropLog).result = some 0 by
      decide +kernel)
  have named : (deriveReconciliation crossedState uncountedWorld.dropLog.disk).map
      Reconciliation.discrepancies = .ok [wordCountsMatchDrafts] := by decide +kernel
  rw [derives] at named
  have only : reconciliation.discrepancies = [wordCountsMatchDrafts] := Except.ok.inj named
  rw [returned, reportsName_writeOutcome, only]
  decide

/-- With the log in place, the same recount names all that it resolves. -/
theorem recount_reports :
    ∃ before later shown,
      checkDiskEvidence crossedState uncountedWorld.disk false = .ok before ∧
      checkDiskEvidence shown ((reconcile .doubles "" uncountedWorld).final uncountedWorld).disk
        false = .ok later ∧
      ∀ name ∈ before.map Violation.invariant, name ∉ later.map Violation.invariant →
        ReportsName (reconcile .doubles "" uncountedWorld).result name := by
  have shows' : Shows ((reconcile .doubles "" uncountedWorld).final uncountedWorld)
      (crossedState.recounted (Dict.ofPairs [("01", 2)])) := shown?_eq_some.mp (by decide +kernel)
  have detected : checkDiskEvidence crossedState uncountedWorld.disk false =
      .ok [⟨wordCountsMatchDrafts,
        "[word_counts].by_chapter table is stale against the on-disk drafts"⟩] := by decide +kernel
  have detected' : checkDiskEvidence (crossedState.recounted (Dict.ofPairs [("01", 2)]))
      ((reconcile .doubles "" uncountedWorld).final uncountedWorld).disk false = .ok [] := by
    decide +kernel
  refine ⟨_, _, _, detected, detected', ?_⟩
  refine (reconcile_loud_iff .doubles "" shows_uncounted detected (by decide +kernel) shows'
    detected').mpr ((disclosed_of_settled rfl).mpr ⟨fun absent => ?_, fun gap => ?_⟩)
  · have present : uncountedWorld.disk.exists? uncountedWorld.disk.logFile = true := by
      decide +kernel
    rw [present] at absent
    cases absent
  · have whole : bijectionBroken crossedState uncountedWorld.disk false = false := by decide +kernel
    have broken := gap.2.2.1
    rw [whole] at broken
    cases broken

end NovelRalph
