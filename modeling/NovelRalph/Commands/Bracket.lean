import NovelRalph.Commands.Recount
import NovelRalph.Commands.Reconcile

/-!
# The two bracketed commands

`set-chapters` and `reconcile` write `state.toml` twice with other effects in
between, and a process can be killed at any of them. The triples here say what
`state.toml` reads as at every cut: the planned manifest under some record, or
the prior state with another record and, perhaps, recounted words.
-/

namespace NovelRalph

section Parts

variable {toml : Tomlkit} {state : State} {cut : World toml.Text → Prop}

theorem Shows.of_eq {world next : World toml.Text} (shows : Shows world state)
    (same : next.stateToml = world.stateToml) : Shows next state := by
  obtain ⟨text, body, held, parsed, read⟩ := shows
  exact ⟨text, body, same.trans held, parsed, read⟩

/-- The document a command opens reads as the state the world shows. -/
theorem Shows.view {world : World toml.Text} (shows : Shows world state)
    {document : Document toml} (opens : openDocument world = .ok document) :
    documentToState document = .ok state := by
  obtain ⟨other, opens', viewed⟩ := shows.opens
  rw [opens, Except.ok.injEq] at opens'
  rw [opens', viewed]

theorem ensures_load :
    Prog.Ensures (fun world => Shows world state)
      (loadDocumentOrStateError : Command toml (Document toml)) cut
      (fun document world => Shows world state ∧ documentToState document = .ok state) := by
  refine Prog.Ensures.observe fun world document shows loaded => ?_
  rw [guardStateInput_eq_ok] at loaded
  exact ⟨shows, shows.view loaded⟩

theorem ensures_view {document : Document toml} (viewed : documentToState document = .ok state)
    {pre : World toml.Text → Prop} :
    Prog.Ensures pre (stateViewOrStateError documentToState document) cut
      (fun value world => pre world ∧ value = state) := by
  refine Prog.Ensures.observe fun world value start looked => ?_
  rw [guardStateInput_eq_ok, viewed, Except.ok.injEq] at looked
  exact ⟨start, looked.symm⟩

/-- Replacing the state file leaves the view of the written document. -/
theorem ensures_write {document : Document toml} (viewed : documentToState document = .ok state)
    {pre : World toml.Text → Prop} :
    Prog.Ensures pre (writeDocumentAtomically document) (fun world => Shows world state)
      (fun _ world => Shows world state) := by
  refine Prog.Ensures.perform fun world next _ written => ?_
  have shows : Shows next state := by
    unfold World.replaceState at written
    split at written
    · cases written
      exact ⟨document.dump, document.body, rfl, document.parse_dump, viewed⟩
    · split at written <;> cases written
  exact ⟨shows, shows⟩

theorem always_shows_makeDirsAt (base : World toml.Text → Loc) (path : PosixPath) :
    Prog.Always (fun world => Shows world state) (makeDirsAt base path) := by
  refine always_makeDirsAt fun world loc shows => shows.of_eq ?_
  unfold World.addDir
  split <;> rfl

theorem always_shows_appendLine (line : String) :
    Prog.Always (fun world => Shows world state) (appendLine line : Command toml Unit) := by
  refine Prog.Always.bind (Prog.Always.perform fun world next shows opened => ?_) fun _ =>
    Prog.Always.perform fun world next shows appended => ?_
  · refine shows.of_eq ?_
    unfold World.openLog at opened
    split at opened
    · split at opened <;> cases opened
      rfl
    · split at opened <;> cases opened
  · cases appended
    exact shows.of_eq rfl

end Parts

/-! ## `set-chapters` -/

section SetChapters

variable {toml : Tomlkit} {arith : RatioArithmetic}

/-- The world shows a planned state under some record. -/
def Planned (planned : State) (world : World toml.Text) : Prop :=
  ∃ pending, Shows world { planned with pendingTurn := pending }

theorem ensures_writeManifestTurn {document : Document toml} {planned : State}
    (viewed : documentToState document = .ok planned) (now : String)
    (ordered : List ChapterPlanEntry) :
    Prog.Ensures (fun _ => True) (writeManifestTurn now document ordered) (Planned planned)
      (fun _ world => Shows world { planned with pendingTurn := none }) := by
  have recorded : documentToState
      (document.edit (openPendingTurn setChaptersOperation (declaredPaths ordered))) =
        .ok { planned with
          pendingTurn := some ⟨setChaptersOperation, declaredPaths ordered⟩ } := by
    rw [documentToState, Document.body_edit]
    exact parse_openPendingTurn viewed _ _
  have cleared : documentToState ((document.edit
      (openPendingTurn setChaptersOperation (declaredPaths ordered))).edit clearPendingTurn) =
        .ok { planned with pendingTurn := none } := by
    have reads := parse_clearPendingTurn recorded
    rwa [documentToState, Document.body_edit]
  have underRecord : ∀ {α : Type} {program : Command toml α},
      (∀ state, Prog.Always (fun world => Shows world state) program) →
      Prog.Ensures (fun world => Shows world { planned with
          pendingTurn := some ⟨setChaptersOperation, declaredPaths ordered⟩ }) program
        (Planned planned) (fun _ world => Shows world { planned with
          pendingTurn := some ⟨setChaptersOperation, declaredPaths ordered⟩ }) := by
    intro α program always
    exact (Prog.Ensures.of_always (always _)).weaken (fun _ start => start)
      (fun _ shows => ⟨_, shows⟩) (fun _ _ finish => finish)
  unfold writeManifestTurn
  refine Prog.Ensures.bind ((ensures_write recorded).weaken (fun _ start => start)
    (fun _ shows => ⟨_, shows⟩) (fun _ _ finish => finish)) fun _ => ?_
  refine Prog.Ensures.bind (underRecord fun state => Prog.Always.forEach fun entry _ =>
    always_makeDirs (always_shows_makeDirsAt _ _)) fun _ => ?_
  refine Prog.Ensures.bind (underRecord fun state => always_shows_appendLine _) fun _ => ?_
  exact (ensures_write cleared).weaken (fun _ start => start) (fun _ shows => ⟨_, shows⟩)
    (fun _ _ finish => finish)

/-- Everything `set-chapters` has checked before it writes. -/
structure PlanAccepted (arith : RatioArithmetic) (state : State) (chapters : List ChapterPlanEntry) :
    Prop where
  empty : state.chapters = []
  accepted : manifestCoherenceViolations chapters = []
  named : spelled (plannedNumbers (orderedChapters chapters)) = .ok ()
  coherent : Coherent arith (state.planned chapters)

/-- The numbers of an accepted plan were spelled. -/
theorem PlanAccepted.spelled {state : State} {chapters : List ChapterPlanEntry}
    (plan : PlanAccepted arith state chapters) :
    ∀ entry ∈ (state.planned chapters).chapters, tooLong entry.number = false := by
  intro entry member
  obtain ⟨planned, listed, rfl⟩ := List.mem_map.mp member
  exact spelled_eq_ok.mp plan.named _
    (List.mem_flatMap.mpr ⟨planned, listed, List.mem_cons_self⟩)

/-- At every cut of `set-chapters` the planned state shows, and on return it is settled. -/
theorem ensures_setChapters (now : String) (chapters : List ChapterPlanEntry) (state : State) :
    Prog.Ensures (fun world => Shows world state)
      (setChaptersCommand arith now chapters : Command toml CommandOutcome)
      (fun world => PlanAccepted arith state chapters ∧ Planned (state.planned chapters) world)
      (fun _ world => PlanAccepted arith state chapters ∧
        Shows world { state.planned chapters with pendingTurn := none }) := by
  unfold setChaptersCommand populateChapters
  refine Prog.Ensures.bind_fact ensures_load fun document viewed => ?_
  refine Prog.Ensures.bind_fact (ensures_view viewed) ?_
  rintro prior rfl
  by_cases empty : prior.chapters = []
  swap
  · rw [if_pos empty]
    exact Prog.Ensures.raise
  rw [if_neg (not_not.mpr empty)]
  refine Prog.Ensures.bind_check fun _ approved => ?_
  have accepted := refuseIncoherentPlan_eq_ok.mp approved
  refine Prog.Ensures.bind_check fun _ named => ?_
  have planned := parse_planned viewed chapters
  rw [← Document.body_editAll] at planned
  refine Prog.Ensures.bind_fact (ensures_view planned) ?_
  rintro proposed rfl
  refine Prog.Ensures.bind_check fun _ validated => ?_
  have coherent := refuseIfIncoherent_eq_ok.mp validated
  have checks : PlanAccepted arith prior chapters := ⟨empty, accepted, named, coherent⟩
  refine Prog.Ensures.bind ((ensures_writeManifestTurn planned now _).weaken
    (fun _ _ => trivial) (fun _ shows => ⟨checks, shows⟩) (fun _ _ finish => finish)) fun _ => ?_
  exact Prog.Ensures.pure fun world finish => ⟨checks, finish⟩

end SetChapters

/-! ## `reconcile` -/

section Reconcile

variable {toml : Tomlkit} {arith : RatioArithmetic}

/-- The validator does not read the record of a pending turn. -/
theorem coherent_withPending {state : State} {pending : Option PendingTurn} :
    Coherent arith { state with pendingTurn := pending } ↔ Coherent arith state :=
  ⟨fun holds => ⟨holds.completed, holds.sum, holds.clean_nonneg, holds.clean_le_target,
      holds.target_pos, holds.clean_le_drafted, holds.cursor, holds.gates⟩,
    fun holds => ⟨holds.completed, holds.sum, holds.clean_nonneg, holds.clean_le_target,
      holds.target_pos, holds.clean_le_drafted, holds.cursor, holds.gates⟩⟩

/-- What `reconcile` can have turned a state into at some cut. -/
inductive Recovered (arith : RatioArithmetic) (state : State) : State → Prop where
  | record (pending : Option PendingTurn) : Recovered arith state { state with pendingTurn := pending }
  | counts (table : Dict String Int) (pending : Option PendingTurn)
      (coherent : Coherent arith (state.recounted table)) :
      Recovered arith state { state.recounted table with pendingTurn := pending }

/-- The world shows the state, or what `reconcile` turned it into. -/
def ShowsRecovered (arith : RatioArithmetic) (state : State) (world : World toml.Text) : Prop :=
  ∃ next, Shows world next ∧ Recovered arith state next

variable {state : State}

theorem ShowsRecovered.record {world : World toml.Text} {pending : Option PendingTurn}
    (shows : Shows world { state with pendingTurn := pending }) :
    ShowsRecovered arith state world :=
  ⟨_, shows, .record pending⟩

/-- The document after the counts were rewritten reads as the recounted state. -/
def ReadsRecovered (arith : RatioArithmetic) (state : State) (document : Document toml) : Prop :=
  ∃ next, documentToState document = .ok next ∧ Recovered arith state next

theorem ensures_rewriteWordCounts {document : Document toml} {pending : Option PendingTurn}
    (viewed : documentToState document = .ok { state with pendingTurn := pending })
    (table : Dict String Int) (context : String) {pre cut : World toml.Text → Prop} :
    Prog.Ensures pre (rewriteWordCounts arith document table.values.sum table context) cut
      (fun edited world => pre world ∧ ReadsRecovered arith state edited) := by
  have edited : documentToState (document.editAll [setCurrent table.values.sum, setByChapter table]) =
      .ok { state.recounted table with pendingTurn := pending } := by
    have reads := parse_recounted viewed table
    rwa [documentToState, Document.body_editAll]
  unfold rewriteWordCounts rewriteCounts
  refine Prog.Ensures.bind_fact (ensures_view edited) ?_
  rintro proposed rfl
  refine Prog.Ensures.bind_check fun _ validated => ?_
  have coherent := coherent_withPending.mp (refuseIfIncoherent_eq_ok.mp validated)
  exact Prog.Ensures.pure fun world holds =>
    ⟨holds, _, edited, Recovered.counts table pending coherent⟩

/-- Rewriting the counts only edits the document. -/
theorem always_rewriteWordCounts {inv : World toml.Text → Prop} (document : Document toml)
    (current : Int) (table : Dict String Int) (context : String) :
    Prog.Always inv (rewriteWordCounts arith document current table context) :=
  Prog.Always.bind (Prog.Always.observe _) fun _ =>
    Prog.Always.bind (Prog.Always.observe _) fun _ => Prog.Always.pure _

theorem ensures_pendingTurnEdit {document : Document toml} {pending : Option PendingTurn}
    (viewed : documentToState document = .ok { state with pendingTurn := pending })
    (reconciliation : Reconciliation String) :
    Prog.Ensures (fun world => Shows world { state with pendingTurn := pending })
      (pendingTurnEdit arith reconciliation document) (ShowsRecovered arith state)
      (fun edited world => Shows world { state with pendingTurn := pending } ∧
        ReadsRecovered arith state edited) := by
  have unedited : ReadsRecovered arith state document := ⟨_, viewed, .record pending⟩
  unfold pendingTurnEdit turnEdit recomputeCounts
  split
  · have dirs : Prog.Always (fun world => Shows world { state with pendingTurn := pending })
        (createMissingChapterDirs reconciliation : Command toml Unit) :=
      Prog.Always.forEach fun path _ => always_makeDirs (always_shows_makeDirsAt _ _)
    refine Prog.Ensures.bind ((Prog.Ensures.of_always dirs).weaken (fun _ start => start)
      (fun _ => .record) (fun _ _ finish => finish)) fun _ => ?_
    exact Prog.Ensures.pure fun world shows => ⟨shows, unedited⟩
  · split
    · exact Prog.Ensures.pure fun world shows => ⟨shows, unedited⟩
    · refine Prog.Ensures.bind_fact (ensures_view viewed) ?_
      rintro view rfl
      refine Prog.Ensures.bind_observe (fun counted => counted.1 = counted.2.values.sum)
        (fun world counted _ counts => Disk.recountWords_total counts) ?_
      rintro ⟨current, table⟩ (rfl : current = table.values.sum)
      exact ensures_rewriteWordCounts viewed table _

/-- The bracket around an edit which keeps to what `reconcile` may do. -/
theorem ensures_runReconcileBracket (now logLine : String)
    {edit : Document toml → Command toml (Document toml)}
    (edits : ∀ document pending,
      documentToState document = .ok { state with pendingTurn := pending } →
      Prog.Ensures (fun world => Shows world { state with pendingTurn := pending })
        (edit document) (ShowsRecovered arith state)
        (fun edited world => Shows world { state with pendingTurn := pending } ∧
          ReadsRecovered arith state edited)) :
    Prog.Ensures (fun world => Shows world state) (runReconcileBracket now edit logLine)
      (ShowsRecovered arith state) (fun _ world =>
        ∃ next, Shows world next ∧ Recovered arith state next ∧ next.pendingTurn = none) := by
  unfold runReconcileBracket
  refine Prog.Ensures.bind_fact ensures_load fun document viewed => ?_
  have opened : documentToState (document.edit (openPendingTurn reconcileOperation reconcilePaths)) =
      .ok { state with pendingTurn := some ⟨reconcileOperation, reconcilePaths⟩ } := by
    rw [documentToState, Document.body_edit]
    exact parse_openPendingTurn viewed _ _
  refine Prog.Ensures.bind ((ensures_write opened).weaken (fun _ start => start) (fun _ => .record)
    (fun _ _ finish => finish)) fun _ => ?_
  refine Prog.Ensures.bind_fact (edits _ _ opened) fun edited reads => ?_
  obtain ⟨next, viewed', recovered⟩ := reads
  refine Prog.Ensures.bind ((Prog.Ensures.of_always (always_shows_appendLine _)).weaken
    (fun _ start => start) (fun _ => .record) (fun _ _ finish => finish)) fun _ => ?_
  have cleared := parse_clearPendingTurn viewed'
  rw [← Document.body_edit] at cleared
  have settled : Recovered arith state { next with pendingTurn := none } := by
    cases recovered with
    | record pending => exact .record none
    | counts table pending coherent => exact .counts table none coherent
  exact (ensures_write cleared).weaken (fun _ start => start) (fun _ shows => ⟨_, shows, settled⟩)
    (fun _ _ shows => ⟨_, shows, settled, rfl⟩)

/-- Every cut of `reconcile` shows the state or what it may turn it into. -/
theorem ensures_reconcile (now : String) (state : State) :
    Prog.Ensures (fun world => Shows world state)
      (reconcile arith now : Command toml CommandOutcome) (ShowsRecovered arith state)
      (fun _ world => ShowsRecovered arith state world) := by
  have untouched : ∀ world : World toml.Text, Shows world state → ShowsRecovered arith state world :=
    fun world shows => ⟨state, shows, .record state.pendingTurn⟩
  have receipt : ∀ (line : String) (outcome : CommandOutcome),
      Prog.Ensures (fun world => Shows world state)
        (do appendRecoveryEntry now line; return outcome : Command toml CommandOutcome)
        (ShowsRecovered arith state) (fun _ world => ShowsRecovered arith state world) := by
    intro line outcome
    refine Prog.Ensures.bind ((Prog.Ensures.of_always (always_shows_appendLine _)).weaken
      (fun _ start => start) untouched (fun _ _ finish => finish)) fun _ => ?_
    exact Prog.Ensures.pure untouched
  unfold reconcile reconcileView
  refine Prog.Ensures.bind_fact ensures_load fun document viewed => ?_
  refine Prog.Ensures.bind_fact (ensures_view viewed) ?_
  rintro prior rfl
  refine Prog.Ensures.bind_observe (fun reconciliation => ∃ disk, Derived prior disk reconciliation)
    (fun world reconciliation _ derives => ⟨_, derived_of_derive derives⟩) ?_
  rintro reconciliation ⟨disk, derived⟩
  have turn : ∀ reconciliation : Reconciliation String,
      reconciliation.action = .rollbackPendingTurn ∨
        reconciliation.action = .completePendingTurn →
      Prog.Ensures (fun world => Shows world prior)
        (enactReconciliation arith now reconciliation : Command toml CommandOutcome)
        (ShowsRecovered arith prior) (fun _ world => ShowsRecovered arith prior world) := by
    intro reconciliation action
    rw [enactReconciliation_of_turn arith now action]
    refine Prog.Ensures.bind (ensures_runReconcileBracket now _ fun document pending opened =>
      ensures_pendingTurnEdit opened reconciliation) fun _ => ?_
    exact Prog.Ensures.pure fun _ ⟨next, shows, recovered, _⟩ => ⟨next, shows, recovered⟩
  cases derived with
  | explained pending recorded operation => exact turn _ (Or.inr rfl)
  | refuse names => exact receipt _ _
  | pendingTurn pending recorded => exact turn _ (action_classifyPendingTurn ..)
  | recount names table settled counted =>
      refine Prog.Ensures.bind_check fun edit built => ?_
      cases built
      refine Prog.Ensures.bind (ensures_runReconcileBracket now _ fun document pending opened =>
        (ensures_rewriteWordCounts opened table _)) fun _ => ?_
      exact Prog.Ensures.pure fun _ ⟨next, shows, recovered, _⟩ => ⟨next, shows, recovered⟩
  | recreateLog settled => exact receipt _ _
  | none settled => exact Prog.Ensures.pure untouched

/-! ## Runs of `reconcile` -/

/-- The record `reconcile` brackets its own edit with. -/
def reconcileRecord : PendingTurn := ⟨reconcileOperation, reconcilePaths⟩

variable {now : String} {world : World toml.Text}

/-- Of the paths `reconcile` declares, only the log can be missing. -/
theorem missing_reconcilePaths (held : world.stateToml.isSome) :
    missingDeclaredPaths reconcilePaths world.disk =
      if world.disk.exists? world.disk.logFile then [] else ["log.md"] := by
  have statePath : declaredPath "state.toml" = ⟨"", ["state.toml"]⟩ := by decide +kernel
  have logPath : declaredPath "log.md" = ⟨"", ["log.md"]⟩ := by decide +kernel
  have closed : world.disk.layout.Closed := World.layout_closed
  have taken : (PosixPath.mk "" ["state.toml"]).refused "working" = false := by decide +kernel
  have taken' : (PosixPath.mk "" ["log.md"]).refused "working" = false := by decide +kernel
  have stateThere : (declaredPath "state.toml").occupies world.disk.layout world.disk.working
      "working" = true := by
    rw [statePath, PosixPath.occupies_plain closed _ _ (by decide), taken, Bool.not_false,
      Bool.true_and]
    exact World.layout_stateLoc held
  have logThere : (declaredPath "log.md").occupies world.disk.layout world.disk.working "working" =
      world.disk.exists? world.disk.logFile := by
    rw [logPath, PosixPath.occupies_plain closed _ _ (by decide), taken', Bool.not_false,
      Bool.true_and]
    rfl
  unfold missingDeclaredPaths reconcilePaths
  rw [List.filter_cons, List.filter_cons, stateThere, logThere]
  cases world.disk.exists? world.disk.logFile <;> rfl

/-- Completing the record of `reconcile` itself never rewrites the counts. -/
theorem writesState_of_own {Operation : Type} {reconciliation : Reconciliation Operation}
    (held : world.stateToml.isSome)
    (missing : reconciliation.missingPaths = missingDeclaredPaths reconcilePaths world.disk) :
    writesState reconciliation = false := by
  unfold writesState
  rw [missing, missing_reconcilePaths held]
  split
  · rfl
  · decide +kernel

/-- In a world that shows a state, `reconcile` derives and enacts. -/
theorem reconcile_run (shows : Shows world state) :
    reconcile arith now world =
      ((Prog.observe fun world => deriveReconciliation state world.disk) >>=
        enactReconciliation arith now) world := by
  obtain ⟨document, -, run⟩ := opening_of_shows shows fun _ state =>
    (Prog.observe fun world => deriveReconciliation state world.disk) >>=
      enactReconciliation arith now
  exact run

theorem reconcile_enacts (shows : Shows world state) {reconciliation : Reconciliation String}
    (derives : deriveReconciliation state world.disk = .ok reconciliation) :
    reconcile arith now world = enactReconciliation arith now reconciliation world := by
  rw [reconcile_run shows]
  exact Prog.bind_quiet _ (by rw [Prog.observe_apply, derives])

/-- Enacting a recount is the bracket around the rewriting of the counts. -/
theorem enactReconciliation_recount (names : List InvariantName) (table : Dict String Int) :
    enactReconciliation arith now (recountReconciliation names table.values.sum table) world =
      (runReconcileBracket now (fun document =>
          rewriteWordCounts arith document table.values.sum table "reconcile recount")
        ("recount: " ++ (@recountReconciliation String names table.values.sum table).detail) >>= fun _ =>
          pure (writeOutcome (@recountReconciliation String names table.values.sum table))) world :=
  Prog.observe_bind_ok world rfl

/-- What the bracket does after its record has landed. -/
def bracketRest (now logLine : String) (edit : Document toml → Command toml (Document toml))
    (opened : Document toml) : Command toml Unit := do
  let edited ← edit opened
  appendRecoveryEntry now logLine
  writeDocumentAtomically (edited.edit clearPendingTurn)

/-- The bracket writes its record first; nothing can fail before it. -/
theorem bracket_opens {document : Document toml} (opens : openDocument world = .ok document)
    (held : world.stateToml.isSome) (now logLine : String)
    (edit : Document toml → Command toml (Document toml)) :
    let opened := document.edit (openPendingTurn reconcileOperation reconcilePaths)
    runReconcileBracket now edit logLine world =
      ⟨World.withState held opened.dump ::
          (bracketRest now logLine edit opened (World.withState held opened.dump)).trail,
        (bracketRest now logLine edit opened (World.withState held opened.dump)).result⟩ := by
  have loads : (loadDocumentOrStateError : Command toml (Document toml)) world =
      ⟨[], .ok document⟩ := by
    rw [loadDocumentOrStateError, Prog.observe_apply, opens, guardStateInput_ok]
  unfold runReconcileBracket
  rw [Prog.bind_quiet _ loads]
  exact Prog.bind_ok _ (Prog.perform_ok _ (World.replaceState_of_held held _))

/-- The first effect of the bracket lands the record, which the world then shows. -/
theorem bracket_run (now : String) (shows : Shows world state) (logLine : String)
    (edit : Document toml → Command toml (Document toml)) :
    ∃ (opened : Document toml) (next : World toml.Text),
      documentToState opened = .ok { state with pendingTurn := some reconcileRecord } ∧
      Rewrites world next ∧ Shows next { state with pendingTurn := some reconcileRecord } ∧
      runReconcileBracket now edit logLine world =
        ⟨next :: (bracketRest now logLine edit opened next).trail,
          (bracketRest now logLine edit opened next).result⟩ := by
  obtain ⟨document, opens, viewed⟩ := shows.opens
  have opened : documentToState (document.edit (openPendingTurn reconcileOperation reconcilePaths)) =
      .ok { state with pendingTurn := some reconcileRecord } := by
    rw [documentToState, Document.body_edit]
    exact parse_openPendingTurn viewed _ _
  exact ⟨_, World.withState shows.held _, opened, ⟨shows.held, _, rfl⟩,
    shows_withState shows.held (Document.parse_dump _) opened,
    bracket_opens opens shows.held now logLine edit⟩

/-- Rewriting the counts has no effect on the store; it is the validator's verdict. -/
theorem rewriteWordCounts_run {document : Document toml} {pending : Option PendingTurn}
    (viewed : documentToState document = .ok { state with pendingTurn := pending })
    (table : Dict String Int) (context : String) (world : World toml.Text) :
    rewriteWordCounts arith document table.values.sum table context world =
      ⟨[], (refuseIfIncoherent (spelledVerdict arith)
          { state.recounted table with pendingTurn := pending } context noRemedy).map fun _ =>
        document.editAll [setCurrent table.values.sum, setByChapter table]⟩ := by
  have edited : documentToState (document.editAll [setCurrent table.values.sum, setByChapter table]) =
      .ok { state.recounted table with pendingTurn := pending } := by
    have reads := parse_recounted viewed table
    rwa [documentToState, Document.body_editAll]
  unfold rewriteWordCounts rewriteCounts stateViewOrStateError
  rw [Prog.bind_quiet _ (by rw [Prog.observe_apply, edited, guardStateInput_ok])]
  rcases Prog.observe_bind_cases world _ _ with ⟨fault, verdict, run⟩ | ⟨approved, verdict, run⟩
  · rw [run, verdict]
    rfl
  · rw [run, verdict]
    rfl

/-- Completing or rolling back a turn that lost the counts rewrites them from the drafts. -/
theorem pendingTurnEdit_writes {reconciliation : Reconciliation String} {document : Document toml}
    {view : State} {table : Dict String Int}
    (incomplete : completesSetChapters reconciliation = false)
    (writes : writesState reconciliation = true) (viewed : documentToState document = .ok view)
    (counted : world.disk.recountWords view.chapters = .ok (table.values.sum, table)) :
    pendingTurnEdit arith reconciliation document world =
      rewriteWordCounts arith document table.values.sum table "reconcile complete-pending-turn"
        world := by
  unfold pendingTurnEdit turnEdit recomputeCounts stateViewOrStateError
  rw [if_neg (by simp [incomplete]), if_neg (by simp [writes])]
  rw [Prog.bind_quiet _ (by rw [Prog.observe_apply, viewed, guardStateInput_ok])]
  rw [Prog.observe_bind_ok world counted]

/-- Any other turn but one of `set-chapters` is completed by clearing its record. -/
theorem pendingTurnEdit_clears {reconciliation : Reconciliation String} {document : Document toml}
    (incomplete : completesSetChapters reconciliation = false)
    (kept : writesState reconciliation = false) :
    pendingTurnEdit arith reconciliation document world = ⟨[], .ok document⟩ := by
  unfold pendingTurnEdit turnEdit recomputeCounts
  rw [if_neg (by simp [incomplete]), if_pos (by simp [kept])]
  rfl

end Reconcile

end NovelRalph
