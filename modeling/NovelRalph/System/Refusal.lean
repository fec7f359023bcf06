import NovelRalph.System.GateDeadlock

/-!
# What a refusal leaves behind

A command that views, plans and validates before its first effect leaves
`state.toml` as it found it when it refuses, whatever it views and validates. The
one exception is an edit of `reconcile` which rewrites the word counts: it is
validated only after the bracket's own record has been written, so a recount which
the validator refuses ends in exit 3 with that record in the file.
-/

namespace NovelRalph

/-- Whether enacting a reconciliation rewrites the word counts, given whether it completes a turn of
`set-chapters`. -/
def recomputes {Operation : Type} (completes : Bool) (reconciliation : Reconciliation Operation) :
    Bool :=
  match reconciliation.action with
  | .recount => true
  | .completePendingTurn | .rollbackPendingTurn => !completes && writesState reconciliation
  | _ => false

/-- Whether enacting a reconciliation rewrites the word counts. -/
def rewritesCounts (reconciliation : Reconciliation String) : Bool :=
  recomputes (completesSetChapters reconciliation) reconciliation

section Faults

variable {toml : Tomlkit} {arith : RatioArithmetic}

/-- The faults that are not a `StateInputError`. -/
def NoStateInput (fault : Fault) : Prop := ∀ messages, fault ≠ .stateInputError messages

theorem noStateInput_os (fault : OsError) : NoStateInput (.os fault) := by
  intro messages same
  cases same

theorem raises_write (document : Document toml) :
    Prog.RaisesOnly NoStateInput (writeDocumentAtomically document) := by
  refine Prog.RaisesOnly.perform fun world fault raised => ?_
  unfold World.replaceState at raised
  split at raised
  · cases raised
  · split at raised <;> cases raised <;> exact noStateInput_os _

theorem raises_appendLine (line : String) :
    Prog.RaisesOnly NoStateInput (appendLine line : Command toml Unit) := by
  refine Prog.RaisesOnly.bind (Prog.RaisesOnly.perform fun world fault raised => ?_) fun _ =>
    Prog.RaisesOnly.perform fun world fault raised => by cases raised
  unfold World.openLog at raised
  split at raised
  · split at raised <;> cases raised
    exact noStateInput_os _
  · split at raised <;> cases raised <;> exact noStateInput_os _

/-- Making a path raises what the system refuses, or that its text cannot be passed on. -/
theorem raises_makeDirs {allowed : Fault → Prop} (os : ∀ fault, allowed (.os fault))
    (null : allowed .valueError) (path : PosixPath) :
    Prog.RaisesOnly allowed (makeDirs path : Command toml Unit) := by
  unfold makeDirs
  split
  · exact Prog.RaisesOnly.raise null
  · split
    · exact Prog.RaisesOnly.raise (os _)
    · intro world fault raised
      exact Prog.RaisesOnly.mapFault os world fault raised

theorem raises_writeManifestTurn (now : String) (document : Document toml)
    (ordered : List ChapterPlanEntry) :
    Prog.RaisesOnly NoStateInput (writeManifestTurn now document ordered) :=
  Prog.RaisesOnly.bind (raises_write _) fun _ =>
    Prog.RaisesOnly.bind (Prog.RaisesOnly.forEach fun _ =>
      raises_makeDirs noStateInput_os (fun _ same => nomatch same) _) fun _ =>
      Prog.RaisesOnly.bind (raises_appendLine _) fun _ => raises_write _

end Faults

section Late

variable {toml : Tomlkit} {View : Type} {view : Document toml → Except Fault View}
  {validate : View → Except Fault (List Violation)}

/-- A single-file mutator refuses before its one effect. -/
theorem late_mutateView
    (plan : World toml.Text → Document toml → View → Except Fault (MutationPlan View)) :
    Prog.RaisesLate NoStateInput (mutateView view validate plan) := by
  refine .bind_quiet (.observe _) fun document => .bind_quiet (.observe _) fun prior => ?_
  refine .bind_quiet (.observe _) fun planned => .bind_quiet (.observe _) fun proposed => ?_
  refine .bind_quiet (.observe _) fun _ => ?_
  exact .of_raisesOnly (.bind (raises_write _) fun _ => .pure _)

/-- Every refusal of `set-chapters` comes before its first write. -/
theorem late_populateChapters (now : String) (chapters : List ChapterPlanEntry)
    (document : Document toml) :
    Prog.RaisesLate NoStateInput (populateChapters view validate now chapters document) := by
  refine .bind_quiet (.observe _) fun _ => .bind_quiet (.observe _) fun _ => ?_
  refine .bind_quiet (.observe _) fun proposed => .bind_quiet (.observe _) fun _ => ?_
  exact .of_raisesOnly (.bind (raises_writeManifestTurn now _ _) fun _ => .pure _)

variable {world : World toml.Text} {document : Document toml} {now logLine : String}

/-- The bracket ends in a `StateInputError` only when its edit does. -/
theorem bracketRest_refused {edit : Document toml → Command toml (Document toml)}
    {messages : List String}
    (refused : (bracketRest now logLine edit document world).result =
      .error (.stateInputError messages)) :
    (edit document world).result = .error (.stateInputError messages) := by
  unfold bracketRest at refused
  cases run : edit document world with
  | mk trail result =>
      cases result with
      | error fault =>
          rw [Prog.bind_error world run] at refused
          cases refused
          rfl
      | ok edited =>
          rw [Prog.bind_ok world run] at refused
          have late := Prog.RaisesOnly.bind (raises_appendLine _) (fun _ => raises_write _) _ _ refused
          exact absurd rfl (late messages)

end Late

/-! ## Refusals of every command -/

section Intact

variable {toml : Tomlkit} {arith : RatioArithmetic} {now : String} {world : World toml.Text}
  {state : State}

/-- A refused run left `state.toml` alone; a `REFUSE` of `reconcile` added one line to the log. -/
structure RefusalIntact (invocation : Invocation) (world : World toml.Text)
    (run : Run (World toml.Text) Fault CommandOutcome) : Prop where
  stateError : ∀ messages, run.result = .error (.stateInputError messages) →
    (run.final world).stateToml = world.stateToml
  refuse : invocation = .reconcile → ∀ outcome, run.result = .ok outcome →
    outcome.code = .actionableFinding →
      (run.final world).stateToml = world.stateToml ∧ (run.final world).files = world.files ∧
      (run.final world).dirs = world.dirs ∧
      ∃ line, (run.final world).log = some (world.log.getD "" ++ line)

/-- A run without effects leaves everything as it was. -/
theorem RefusalIntact.of_quiet {invocation : Invocation}
    {run : Run (World toml.Text) Fault CommandOutcome} (quiet : run.trail = [])
    (unfound : ∀ outcome, run.result = .ok outcome → outcome.code ≠ .actionableFinding) :
    RefusalIntact invocation world run where
  stateError messages _ := by rw [Run.final, quiet]; rfl
  refuse _ outcome returned found := absurd found (unfound outcome returned)

/-- A command that refuses before its first effect leaves `state.toml` alone when it refuses. -/
theorem RefusalIntact.of_late {invocation : Invocation} {command : Command toml CommandOutcome}
    (late : Prog.RaisesLate NoStateInput command) (other : invocation ≠ .reconcile) :
    RefusalIntact invocation world (command world) where
  stateError messages refused := by
    have silent : (command world).trail = [] := by
      by_contra effects
      exact absurd rfl (late world _ refused effects messages)
    rw [Run.final, silent]
    rfl
  refuse same := absurd same other

/-- What appending a line to the log leaves behind when it succeeds. -/
theorem appendLine_ok {line : String} {trail : List (World toml.Text)}
    (run : appendLine line world = ⟨trail, .ok ()⟩) :
    (trail.getLastD world).stateToml = world.stateToml ∧
      (trail.getLastD world).files = world.files ∧ (trail.getLastD world).dirs = world.dirs ∧
      (trail.getLastD world).log = some (world.log.getD "" ++ line) := by
  unfold appendLine at run
  cases opened : world.openLog with
  | error fault =>
      rw [Prog.bind_error _ (Prog.perform_error world opened)] at run
      cases run
  | ok next =>
      rw [Prog.bind_ok _ (Prog.perform_ok world opened)] at run
      cases run
      unfold World.openLog at opened
      split at opened
      · split at opened <;> cases opened
        exact ⟨rfl, rfl, rfl, rfl⟩
      · split at opened <;> cases opened

/-- A lone receipt keeps to the rule. -/
theorem receipt_intact (line : String) (outcome : CommandOutcome) :
    RefusalIntact .reconcile world
      ((appendRecoveryEntry now line >>= fun _ => pure outcome) world) := by
  cases run : (appendRecoveryEntry now line : Command toml Unit) world with
  | mk trail result =>
      cases result with
      | error fault =>
          rw [Prog.bind_error world run]
          refine ⟨fun messages refused => ?_, fun _ other returned => by cases returned⟩
          cases refused
          have raised := raises_appendLine _ world _ (congrArg Run.result run)
          exact absurd rfl (raised messages)
      | ok done =>
          rw [Prog.bind_ok world run]
          refine ⟨fun messages refused => (by cases refused), fun _ other returned found => ?_⟩
          obtain ⟨stateToml, files, dirs, log⟩ := appendLine_ok run
          simp only [Run.final, Prog.pure_apply, List.append_nil]
          exact ⟨stateToml, files, dirs, _, log⟩

/-- The edit never ends in a `StateInputError` on a document opened for `reconcile`'s own turn. -/
def SafeEdit (world : World toml.Text) (document : Document toml)
    (edit : Document toml → Command toml (Document toml)) : Prop :=
  ∀ next, Rewrites world next → ∀ messages,
    (edit (document.edit (openPendingTurn reconcileOperation reconcilePaths)) next).result ≠
      .error (.stateInputError messages)

/-- The bracket keeps to the rule around a safe edit. -/
theorem bracket_intact {document : Document toml} (opens : openDocument world = .ok document)
    {edit : Document toml → Command toml (Document toml)} {logLine : String}
    (safe : SafeEdit world document edit) {outcome : CommandOutcome}
    (success : outcome.code = .success) :
    RefusalIntact .reconcile world
      ((runReconcileBracket now edit logLine >>= fun _ => pure outcome) world) := by
  obtain ⟨text, found, -⟩ := openDocument_ok opens
  have held : world.stateToml.isSome := by rw [found]; rfl
  have run := bracket_opens opens held now logLine edit
  dsimp only at run
  cases rest : bracketRest now logLine edit
      (document.edit (openPendingTurn reconcileOperation reconcilePaths))
      (World.withState held
        (document.edit (openPendingTurn reconcileOperation reconcilePaths)).dump) with
  | mk trail result =>
      rw [rest] at run
      cases result with
      | error fault =>
          rw [Prog.bind_error world run]
          refine ⟨fun messages refused => ?_, fun _ other returned => by cases returned⟩
          cases refused
          exact absurd (bracketRest_refused (by rw [rest])) (safe _ ⟨held, _, rfl⟩ _)
      | ok done =>
          rw [Prog.bind_ok world run]
          refine ⟨fun messages refused => (by cases refused), fun _ other returned found => ?_⟩
          cases returned
          rw [success] at found
          cases found

/-- The dispatch of `reconcile` keeps to the rule when the edits it brackets are safe. -/
theorem dispatch_intact {Operation : Type} {reconciliation : Reconciliation Operation}
    {document : Document toml} (opens : openDocument world = .ok document)
    {recount : Except Fault (Document toml → Command toml (Document toml))}
    {turn : Document toml → Command toml (Document toml)}
    (recounts : reconciliation.action = .recount → ∀ edit, recount = .ok edit →
      SafeEdit world document edit)
    (turns : reconciliation.action = .completePendingTurn ∨
      reconciliation.action = .rollbackPendingTurn → SafeEdit world document turn) :
    RefusalIntact .reconcile world (dispatchAction recount turn now reconciliation world) := by
  unfold dispatchAction
  cases action : reconciliation.action with
  | none =>
      exact .of_quiet rfl fun outcome returned => by
        cases returned
        simp [writeOutcome]
  | refuse => exact receipt_intact _ _
  | recreateLog => exact receipt_intact _ _
  | recount =>
      cases built : recount with
      | error fault =>
          exact .of_quiet rfl fun outcome returned => by cases returned
      | ok edit =>
          exact bracket_intact opens (recounts action edit built) rfl
  | completePendingTurn => exact bracket_intact opens (turns (.inl action)) rfl
  | rollbackPendingTurn => exact bracket_intact opens (turns (.inr action)) rfl

/-- `reconcile` ends without effects, or it enacts what it derives of the document it opens. -/
theorem reconcileView_cases {View Operation : Type} {view : Document toml → Except Fault View}
    {derive : View → Disk → Except Fault (Reconciliation Operation)}
    {enact : Reconciliation Operation → Command toml CommandOutcome} (world : World toml.Text) :
    (∃ fault, reconcileView view derive enact world = ⟨[], .error fault⟩) ∨
      ∃ document state reconciliation, openDocument world = .ok document ∧
        view document = .ok state ∧ derive state world.disk = .ok reconciliation ∧
        reconcileView view derive enact world = enact reconciliation world := by
  unfold reconcileView loadDocumentOrStateError stateViewOrStateError
  rcases Prog.observe_bind_cases world _ _ with ⟨fault, -, faults⟩ | ⟨document, opens, run⟩
  · exact .inl ⟨fault, faults⟩
  rw [run]
  rcases Prog.observe_bind_cases world _ _ with ⟨fault, -, faults⟩ | ⟨state, views, run⟩
  · exact .inl ⟨fault, faults⟩
  rw [run]
  rcases Prog.observe_bind_cases world _ _ with ⟨fault, -, faults⟩ | ⟨reconciliation, derives, run⟩
  · exact .inl ⟨fault, faults⟩
  rw [guardStateInput_eq_ok] at opens views
  exact .inr ⟨document, state, reconciliation, opens, views, derives, run⟩

/-- `reconcile` enacts what it derives of the document it opens. -/
theorem reconcileView_enacts {View Operation : Type} {view : Document toml → Except Fault View}
    {derive : View → Disk → Except Fault (Reconciliation Operation)}
    {enact : Reconciliation Operation → Command toml CommandOutcome} {document : Document toml}
    {viewed : View} {reconciliation : Reconciliation Operation}
    (opens : openDocument world = .ok document) (views : view document = .ok viewed)
    (derives : derive viewed world.disk = .ok reconciliation) :
    reconcileView view derive enact world = enact reconciliation world := by
  unfold reconcileView loadDocumentOrStateError stateViewOrStateError
  rw [Prog.bind_quiet _ (by rw [Prog.observe_apply, opens, guardStateInput_ok]),
    Prog.bind_quiet _ (by rw [Prog.observe_apply, views, guardStateInput_ok])]
  exact Prog.bind_quiet _ (by rw [Prog.observe_apply, derives])

/-- Completing a turn that rewrites the counts never completes the record of `reconcile` itself. -/
theorem foreign_of_writesState {reconciliation : Reconciliation String} {pending : PendingTurn}
    (held : world.stateToml.isSome)
    (missing : reconciliation.missingPaths = missingDeclaredPaths pending.paths world.disk)
    (writes : writesState reconciliation = true) : pending ≠ reconcileRecord := by
  rintro rfl
  rw [writesState_of_own held missing] at writes
  cases writes

/-- A bracket around an incoherent rewriting of the counts ends in the refusal, its record written. -/
theorem bracket_stalls (shows : Shows world state) {table : Dict String Int}
    (incoherent : ¬ Coherent arith (state.recounted table))
    {edit : Document toml → Command toml (Document toml)} (context : String)
    (edits : ∀ opened next,
      documentToState opened = .ok { state with pendingTurn := some reconcileRecord } →
        Rewrites world next → edit opened next =
          rewriteWordCounts arith opened table.values.sum table context next)
    (now logLine : String) (outcome : CommandOutcome) :
    ∃ next fault, Rewrites world next ∧
      Shows next { state with pendingTurn := some reconcileRecord } ∧
      refuseIfIncoherent (spelledVerdict arith)
        { state.recounted table with pendingTurn := some reconcileRecord } context noRemedy =
          .error fault ∧
      (runReconcileBracket now edit logLine >>= fun _ => pure outcome) world =
        ⟨[next], .error fault⟩ := by
  obtain ⟨opened, next, viewed, rewrites, shows', run⟩ := bracket_run now shows logLine edit
  cases verdict : refuseIfIncoherent (spelledVerdict arith)
      { state.recounted table with pendingTurn := some reconcileRecord } context noRemedy with
  | ok approved =>
      exact absurd (coherent_withPending.mp (refuseIfIncoherent_eq_ok.mp verdict)) incoherent
  | error fault =>
      have rest : bracketRest now logLine edit opened next = ⟨[], .error fault⟩ := by
        unfold bracketRest
        refine Prog.bind_error next ?_
        rw [edits opened next viewed rewrites, rewriteWordCounts_run viewed, verdict]
        rfl
      rw [rest] at run
      exact ⟨next, fault, rewrites, shows', rfl, Prog.bind_error world run⟩

/-- A recount that would be incoherent ends after one effect, the record of `reconcile`. -/
theorem reconcile_stalls (now : String) (shows : Shows world state)
    {reconciliation : Reconciliation String} {table : Dict String Int}
    (derives : deriveReconciliation state world.disk = .ok reconciliation)
    (rewritesThem : rewritesCounts reconciliation = true)
    (counted : world.disk.recountWords state.chapters = .ok (table.values.sum, table))
    (incoherent : ¬ Coherent arith (state.recounted table)) :
    ∃ next context fault, Rewrites world next ∧
      Shows next { state with pendingTurn := some reconcileRecord } ∧
      state.pendingTurn ≠ some reconcileRecord ∧
      refuseIfIncoherent (spelledVerdict arith)
        { state.recounted table with pendingTurn := some reconcileRecord } context noRemedy =
          .error fault ∧
      reconcile arith now world = ⟨[next], .error fault⟩ := by
  rw [reconcile_enacts shows derives]
  have turn : ∀ pending, state.pendingTurn = some pending →
      reconciliation.missingPaths = missingDeclaredPaths pending.paths world.disk →
      reconciliation.action = .rollbackPendingTurn ∨ reconciliation.action = .completePendingTurn →
      ∃ next context fault, Rewrites world next ∧
        Shows next { state with pendingTurn := some reconcileRecord } ∧
        state.pendingTurn ≠ some reconcileRecord ∧
        refuseIfIncoherent (spelledVerdict arith)
          { state.recounted table with pendingTurn := some reconcileRecord } context noRemedy =
            .error fault ∧
        enactReconciliation arith now reconciliation world = ⟨[next], .error fault⟩ := by
    intro pending recorded missing action
    have edits : completesSetChapters reconciliation = false ∧ writesState reconciliation = true := by
      rcases action with action | action <;> simpa [rewritesCounts, recomputes, action] using rewritesThem
    rw [enactReconciliation_of_turn arith now action]
    obtain ⟨next, fault, rewrites, shows', refusal, run⟩ := bracket_stalls shows incoherent _
      (fun opened next viewed rewrites => pendingTurnEdit_writes edits.1 edits.2 viewed
        (by rw [rewrites.disk]; exact counted)) now _ _
    refine ⟨next, _, fault, rewrites, shows', ?_, refusal, run⟩
    rw [recorded, Ne, Option.some.injEq]
    exact foreign_of_writesState shows.held missing edits.2
  cases derived_of_derive derives with
  | explained pending recorded operation => exact turn pending recorded rfl (Or.inr rfl)
  | pendingTurn pending recorded =>
      exact turn pending recorded (missingPaths_classifyPendingTurn ..)
        (action_classifyPendingTurn ..)
  | none settled => cases rewritesThem
  | refuse names => cases rewritesThem
  | recreateLog settled => cases rewritesThem
  | recount names other settled counted' =>
      rw [counted, Except.ok.injEq, Prod.mk.injEq] at counted'
      obtain ⟨-, rfl⟩ := counted'
      obtain ⟨next, fault, rewrites, shows', refusal, run⟩ := bracket_stalls shows incoherent
        "reconcile recount" (fun _ _ _ _ => rfl) now _ (writeOutcome _)
      refine ⟨next, _, fault, rewrites, shows', (by rw [settled]; simp), refusal, ?_⟩
      rw [enactReconciliation_recount]
      exact run

end Intact

end NovelRalph
