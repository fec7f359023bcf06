import NovelRalph.Base.KeyPath
import NovelRalph.System.Runs

/-!
# The edits of a document over its life

Every command opens `state.toml`, edits the values it owns, and writes the whole
document back. So at every cut of every command the document is the one that was
there with some of the command's own edits made, and what stands apart from the
paths of those edits is kept.

Over a whole run the same holds of the paths of all nine commands together:
anything else in the document stays as it was first written.
-/

namespace NovelRalph

section Store

variable {toml : Tomlkit}

/-- The values `state.toml` holds. -/
def Stored (world : World toml.Text) (body : Table) : Prop :=
  ∃ text, world.stateToml = some text ∧ toml.parse text = .ok body

theorem Stored.of_eq {world next : World toml.Text} {body : Table} (stored : Stored world body)
    (same : next.stateToml = world.stateToml) : Stored next body := by
  obtain ⟨text, held, parsed⟩ := stored
  exact ⟨text, same.trans held, parsed⟩

theorem Stored.unique {world : World toml.Text} {left right : Table} (first : Stored world left)
    (second : Stored world right) : left = right := by
  obtain ⟨text, held, parsed⟩ := first
  obtain ⟨text', held', parsed'⟩ := second
  rw [held, Option.some.injEq] at held'
  subst held'
  rw [parsed, Except.ok.injEq] at parsed'
  exact parsed'

/-- What is shown is what the stored values read as. -/
theorem shows_iff_stored {world : World toml.Text} {state : State} :
    Shows world state ↔ ∃ body, Stored world body ∧ parseState body = .ok state := by
  constructor
  · rintro ⟨text, body, held, parsed, read⟩
    exact ⟨body, ⟨text, held, parsed⟩, read⟩
  · rintro ⟨body, ⟨text, held, parsed⟩, read⟩
    exact ⟨text, body, held, parsed, read⟩

/-- `state.toml` holds an earlier document after edits of an allowed kind. -/
def Journal (allowed : Edit → Prop) (body : Table) (world : World toml.Text) : Prop :=
  ∃ later, Stored world later ∧ Table.Journaled allowed body later

variable {allowed : Edit → Prop} {body : Table}

theorem Journal.start {world : World toml.Text} (stored : Stored world body) :
    Journal allowed body world :=
  ⟨body, stored, .refl body⟩

/-! ### The parts of a command -/

/-- Making a directory leaves the state file alone. -/
theorem always_stateToml_makeDirsAt (inv : Option toml.Text → Prop) (base : World toml.Text → Loc)
    (path : PosixPath) :
    Prog.Always (fun world : World toml.Text => inv world.stateToml) (makeDirsAt base path) := by
  refine always_makeDirsAt fun later loc kept => ?_
  rw [World.stateToml_addDir]
  exact kept

/-- A receipt leaves the state file alone. -/
theorem always_stateToml_appendLine (inv : Option toml.Text → Prop) (line : String) :
    Prog.Always (fun world : World toml.Text => inv world.stateToml) (appendLine line) := by
  refine Prog.Always.bind (Prog.Always.perform fun later next holds opened => ?_) fun _ =>
    Prog.Always.perform fun later next holds appended => ?_
  · unfold World.openLog at opened
    split at opened
    · split at opened <;> cases opened
      exact holds
    · split at opened <;> cases opened
  · cases appended
    exact holds

/-- What a program that leaves the state file alone keeps of a journal: all of it. -/
theorem keeps_journal {α : Type} {program : Command toml α}
    (always : ∀ inv : Option toml.Text → Prop,
      Prog.Always (fun world : World toml.Text => inv world.stateToml) program) :
    Prog.Ensures (Journal allowed body) program (Journal allowed body)
      fun _ => Journal allowed body :=
  Prog.Ensures.of_always (always fun held =>
    ∃ later, (∃ text, held = some text ∧ toml.parse text = .ok later) ∧
      Table.Journaled allowed body later)

/-- A document that is opened has the stored values. -/
theorem journal_load :
    Prog.Ensures (Journal allowed body) (loadDocumentOrStateError : Command toml (Document toml))
      (Journal allowed body)
      fun document world => Journal allowed body world ∧
        Table.Journaled allowed body document.body := by
  refine Prog.Ensures.observe fun world document journal loaded => ⟨journal, ?_⟩
  rw [guardStateInput_eq_ok] at loaded
  obtain ⟨later, stored, journaled⟩ := journal
  have opened : Stored world document.body := openDocument_ok loaded
  rw [opened.unique stored]
  exact journaled

/-- Writing an edited document continues the journal. -/
theorem journal_write {document : Document toml}
    (journaled : Table.Journaled allowed body document.body) {pre : World toml.Text → Prop} :
    Prog.Ensures pre (writeDocumentAtomically document) (Journal allowed body)
      fun _ => Journal allowed body := by
  refine Prog.Ensures.perform fun world next _ written => ?_
  have journal : Journal allowed body next := by
    refine ⟨document.body, ?_, journaled⟩
    unfold World.replaceState at written
    split at written
    · cases written
      exact ⟨document.dump, rfl, document.parse_dump⟩
    · split at written <;> cases written
  exact ⟨journal, journal⟩

theorem journal_observe {α : Type} (look : World toml.Text → Except Fault α) :
    Prog.Ensures (Journal allowed body) (Prog.observe look) (Journal allowed body)
      fun _ => Journal allowed body :=
  Prog.Ensures.of_always (Prog.Always.observe look)

/-- A single-file mutator makes the edits of its plan. -/
theorem journal_mutateState {arith : RatioArithmetic}
    {plan : World toml.Text → State → Except Fault (MutationPlan State)}
    (planned : ∀ world prior plan', plan world prior = .ok plan' →
      ∀ change ∈ plan'.edits, allowed change) :
    Prog.Ensures (Journal allowed body) (mutateState arith plan) (Journal allowed body)
      fun _ => Journal allowed body := by
  unfold mutateState mutateView
  refine Prog.Ensures.bind_fact journal_load fun document journaled => ?_
  refine Prog.Ensures.bind (journal_observe _) fun prior => ?_
  refine Prog.Ensures.bind_observe (fun plan' => ∀ change ∈ plan'.edits, allowed change)
    (fun world plan' _ chosen => planned world prior plan' chosen) fun plan' good => ?_
  have edited : Table.Journaled allowed body (document.editAll plan'.edits).body := by
    rw [Document.body_editAll]
    exact journaled.trans (Table.Journaled.edits good)
  refine Prog.Ensures.bind (journal_observe _) fun proposed => ?_
  refine Prog.Ensures.bind (journal_observe _) fun _ => ?_
  exact Prog.Ensures.bind (journal_write edited) fun _ => Prog.Ensures.pure fun _ journal => journal

end Store

/-! ## The edits a command owns -/

/-- The edits of `[word_counts]` that a recount makes. -/
def CountsEdit (change : Edit) : Prop :=
  (∃ current, change = setCurrent current) ∨ ∃ table, change = setByChapter table

/-- The edits an invocation may make to `state.toml`. -/
def Invocation.Owns : Invocation → Edit → Prop
  | .setCursor chapter scene beat, change =>
      change = setDrafting "current_chapter" chapter ∨
        change = setDrafting "current_scene" scene ∨ change = setDrafting "current_beat" beat
  | .advancePhase, change =>
      (∃ completed, change = setCompleted completed) ∨ ∃ phase, change = setCurrentPhase phase
  | .setChapters chapters, change =>
      change = NovelRalph.setChapters ((orderedChapters chapters).map ChapterPlanEntry.record) ∨
        change = setByChapter (zeroWordCounts (orderedChapters chapters)) ∨
        change = openPendingTurn setChaptersOperation (declaredPaths (orderedChapters chapters)) ∨
        change = clearPendingTurn
  | .recount, change => CountsEdit change
  | .reconcile, change =>
      CountsEdit change ∨ change = openPendingTurn reconcileOperation reconcilePaths ∨
        change = clearPendingTurn
  | .setGate selection, change => change ∈ selection.edits
  | .completeFinalPass, change => change = NovelRalph.setGate "final" "final_pass_complete" true
  | .setFangirl lastChapter, change =>
      change = setDraftingBelow "fangirl" "last_chapter_passed" lastChapter
  | .setCriticPass pass, change => change = setDraftingBelow "critic" "pass" pass

/-- The key paths an invocation writes at. -/
def Invocation.keyPaths : Invocation → List (List String)
  | .setCursor _ _ _ =>
      [["drafting", "current_chapter"], ["drafting", "current_scene"], ["drafting", "current_beat"]]
  | .advancePhase => [["phase", "completed"], ["phase", "current"]]
  | .setChapters _ => [["chapters"], ["word_counts", "by_chapter"], ["pending_turn"]]
  | .recount => [["word_counts", "current"], ["word_counts", "by_chapter"]]
  | .reconcile => [["word_counts", "current"], ["word_counts", "by_chapter"], ["pending_turn"]]
  | .setGate _ =>
      (KnittingGate.all.map fun gate => ["gates", "knitting", gate.name]) ++
        [["gates", "final", "final_pass_complete"]]
  | .completeFinalPass => [["gates", "final", "final_pass_complete"]]
  | .setFangirl _ => [["drafting", "fangirl", "last_chapter_passed"]]
  | .setCriticPass _ => [["drafting", "critic", "pass"]]

theorem CountsEdit.path {change : Edit} (counts : CountsEdit change) :
    change.path = ["word_counts", "current"] ∨ change.path = ["word_counts", "by_chapter"] := by
  rcases counts with ⟨current, rfl⟩ | ⟨table, rfl⟩
  · exact Or.inl rfl
  · exact Or.inr rfl

/-- Whatever its arguments, an invocation edits at its own key paths. -/
theorem Invocation.Owns.path {invocation : Invocation} {change : Edit}
    (owns : invocation.Owns change) : change.path ∈ invocation.keyPaths := by
  cases invocation with
  | setCursor chapter scene beat =>
      rcases owns with rfl | rfl | rfl <;> simp [Edit.path, setDrafting, keyPaths]
  | advancePhase =>
      rcases owns with ⟨completed, rfl⟩ | ⟨phase, rfl⟩ <;>
        simp [Edit.path, setCompleted, setCurrentPhase, keyPaths]
  | setChapters chapters =>
      rcases owns with rfl | rfl | rfl | rfl <;>
        simp [Edit.path, NovelRalph.setChapters, setByChapter, openPendingTurn, clearPendingTurn,
          keyPaths]
  | recount =>
      rcases CountsEdit.path owns with same | same <;> simp [same, keyPaths]
  | reconcile =>
      rcases owns with counts | rfl | rfl
      · rcases counts.path with same | same <;> simp [same, keyPaths]
      · simp [Edit.path, openPendingTurn, keyPaths]
      · simp [Edit.path, clearPendingTurn, keyPaths]
  | setGate selection =>
      rcases List.mem_append.mp owns with knitting | final
      · obtain ⟨⟨gate, flag⟩, -, rfl⟩ := List.mem_map.mp knitting
        cases gate <;> simp [Edit.path, NovelRalph.setGate, keyPaths, KnittingGate.all]
      · obtain ⟨flag, -, rfl⟩ := List.mem_map.mp final
        simp [Edit.path, NovelRalph.setGate, keyPaths]
  | completeFinalPass =>
      rw [owns]
      simp [Edit.path, NovelRalph.setGate, keyPaths]
  | setFangirl lastChapter =>
      rw [owns]
      simp [Edit.path, setDraftingBelow, keyPaths]
  | setCriticPass pass =>
      rw [owns]
      simp [Edit.path, setDraftingBelow, keyPaths]

/-! ## The journal of one command -/

section Commands

variable {toml : Tomlkit} {arith : RatioArithmetic} {now : String} {body : Table}

theorem journal_setChapters (chapters : List ChapterPlanEntry) :
    Prog.Ensures (Journal (Invocation.setChapters chapters).Owns body)
      (setChaptersCommand arith now chapters : Command toml CommandOutcome)
      (Journal (Invocation.setChapters chapters).Owns body)
      fun _ => Journal (Invocation.setChapters chapters).Owns body := by
  unfold setChaptersCommand populateChapters
  refine Prog.Ensures.bind_fact journal_load fun document journaled => ?_
  refine Prog.Ensures.bind (journal_observe _) fun prior => ?_
  by_cases populated : prior.chapters ≠ []
  · rw [if_pos populated]
    exact Prog.Ensures.raise
  rw [if_neg populated]
  refine Prog.Ensures.bind (journal_observe _) fun _ => ?_
  refine Prog.Ensures.bind (journal_observe _) fun _ => ?_
  have edited : Table.Journaled (Invocation.setChapters chapters).Owns body
      (document.editAll [setChapters ((orderedChapters chapters).map ChapterPlanEntry.record),
        setByChapter (zeroWordCounts (orderedChapters chapters))]).body := by
    rw [Document.body_editAll]
    refine journaled.trans (Table.Journaled.edits fun change member => ?_)
    rcases List.mem_cons.mp member with rfl | later
    · exact Or.inl rfl
    · exact Or.inr (Or.inl (List.mem_singleton.mp later))
  refine Prog.Ensures.bind (journal_observe _) fun proposed => ?_
  refine Prog.Ensures.bind (journal_observe _) fun _ => ?_
  refine Prog.Ensures.bind ?_ fun _ => Prog.Ensures.pure fun _ journal => journal
  unfold writeManifestTurn
  have opened := edited.trans (Table.Journaled.edit (Or.inr (Or.inr (Or.inl rfl))))
  have cleared := opened.trans (Table.Journaled.edit (Or.inr (Or.inr (Or.inr rfl))))
  refine Prog.Ensures.bind (journal_write (by rwa [Document.body_edit])) fun _ => ?_
  refine Prog.Ensures.bind (keeps_journal fun inv => Prog.Always.forEach fun entry _ =>
    always_makeDirs (always_stateToml_makeDirsAt inv _ _)) fun _ => ?_
  refine Prog.Ensures.bind (keeps_journal fun inv => always_stateToml_appendLine inv _) fun _ => ?_
  exact journal_write (by rwa [Document.body_edit, Document.body_edit])

/-- The bracket adds its record to the journal of its edit. -/
theorem journal_runReconcileBracket (logLine : String)
    {edit : Document toml → Command toml (Document toml)}
    (edits : ∀ document : Document toml,
      Table.Journaled Invocation.reconcile.Owns body document.body →
      Prog.Ensures (Journal Invocation.reconcile.Owns body) (edit document)
        (Journal Invocation.reconcile.Owns body)
        fun edited world => Journal Invocation.reconcile.Owns body world ∧
          Table.Journaled Invocation.reconcile.Owns body edited.body) :
    Prog.Ensures (Journal Invocation.reconcile.Owns body) (runReconcileBracket now edit logLine)
      (Journal Invocation.reconcile.Owns body) fun _ => Journal Invocation.reconcile.Owns body := by
  unfold runReconcileBracket
  refine Prog.Ensures.bind_fact journal_load fun document journaled => ?_
  have opened : Table.Journaled Invocation.reconcile.Owns body
      (document.edit (openPendingTurn reconcileOperation reconcilePaths)).body := by
    rw [Document.body_edit]
    exact journaled.trans (Table.Journaled.edit (Or.inr (Or.inl rfl)))
  refine Prog.Ensures.bind (journal_write opened) fun _ => ?_
  refine Prog.Ensures.bind_fact (edits _ opened) fun edited journaled' => ?_
  refine Prog.Ensures.bind (keeps_journal fun inv => always_stateToml_appendLine inv _) fun _ => ?_
  refine journal_write ?_
  rw [Document.body_edit]
  exact journaled'.trans (Table.Journaled.edit (Or.inr (Or.inr rfl)))

theorem journal_rewriteWordCounts {document : Document toml}
    (journaled : Table.Journaled Invocation.reconcile.Owns body document.body) (current : Int)
    (table : Dict String Int) (context : String) :
    Prog.Ensures (Journal Invocation.reconcile.Owns body)
      (rewriteWordCounts arith document current table context)
      (Journal Invocation.reconcile.Owns body)
      fun edited world => Journal Invocation.reconcile.Owns body world ∧
        Table.Journaled Invocation.reconcile.Owns body edited.body := by
  have edited : Table.Journaled Invocation.reconcile.Owns body
      (document.editAll [setCurrent current, setByChapter table]).body := by
    rw [Document.body_editAll]
    refine journaled.trans (Table.Journaled.edits fun change member => Or.inl ?_)
    rcases List.mem_cons.mp member with rfl | later
    · exact Or.inl ⟨current, rfl⟩
    · exact Or.inr ⟨table, List.mem_singleton.mp later⟩
  unfold rewriteWordCounts rewriteCounts
  refine Prog.Ensures.bind (journal_observe _) fun proposed => ?_
  refine Prog.Ensures.bind (journal_observe _) fun _ => ?_
  exact Prog.Ensures.pure fun _ journal => ⟨journal, edited⟩

theorem journal_pendingTurnEdit (reconciliation : Reconciliation String) {document : Document toml}
    (journaled : Table.Journaled Invocation.reconcile.Owns body document.body) :
    Prog.Ensures (Journal Invocation.reconcile.Owns body)
      (pendingTurnEdit arith reconciliation document) (Journal Invocation.reconcile.Owns body)
      fun edited world => Journal Invocation.reconcile.Owns body world ∧
        Table.Journaled Invocation.reconcile.Owns body edited.body := by
  unfold pendingTurnEdit turnEdit recomputeCounts
  split
  · refine Prog.Ensures.bind (keeps_journal fun inv => Prog.Always.forEach fun path _ =>
      always_makeDirs (always_stateToml_makeDirsAt inv _ _)) fun _ => ?_
    exact Prog.Ensures.pure fun _ journal => ⟨journal, journaled⟩
  · split
    · exact Prog.Ensures.pure fun _ journal => ⟨journal, journaled⟩
    · refine Prog.Ensures.bind (journal_observe _) fun view => ?_
      refine Prog.Ensures.bind (journal_observe _) fun counted => ?_
      exact journal_rewriteWordCounts journaled _ _ _

theorem journal_reconcile :
    Prog.Ensures (Journal Invocation.reconcile.Owns body)
      (reconcile arith now : Command toml CommandOutcome)
      (Journal Invocation.reconcile.Owns body) fun _ => Journal Invocation.reconcile.Owns body := by
  have receipt : ∀ (line : String) (outcome : CommandOutcome),
      Prog.Ensures (Journal Invocation.reconcile.Owns body)
        (do appendRecoveryEntry now line; return outcome : Command toml CommandOutcome)
        (Journal Invocation.reconcile.Owns body) fun _ => Journal Invocation.reconcile.Owns body :=
    fun line outcome => Prog.Ensures.bind
      (keeps_journal fun inv => always_stateToml_appendLine inv _) fun _ =>
        Prog.Ensures.pure fun _ journal => journal
  have turn : ∀ reconciliation : Reconciliation String, ∀ logLine outcome,
      Prog.Ensures (Journal Invocation.reconcile.Owns body)
        (do runReconcileBracket now (pendingTurnEdit arith reconciliation) logLine
            return outcome : Command toml CommandOutcome)
        (Journal Invocation.reconcile.Owns body) fun _ => Journal Invocation.reconcile.Owns body :=
    fun reconciliation logLine outcome => Prog.Ensures.bind
      (journal_runReconcileBracket _ fun _ journaled =>
        journal_pendingTurnEdit reconciliation journaled) fun _ =>
        Prog.Ensures.pure fun _ journal => journal
  unfold reconcile reconcileView
  refine Prog.Ensures.bind (journal_observe _) fun document => ?_
  refine Prog.Ensures.bind (journal_observe _) fun state => ?_
  refine Prog.Ensures.bind (journal_observe _) fun reconciliation => ?_
  unfold enactReconciliation dispatchAction
  cases reconciliation.action with
  | none => exact Prog.Ensures.pure fun _ journal => journal
  | refuse => exact receipt _ _
  | recreateLog => exact receipt _ _
  | recount =>
      refine Prog.Ensures.bind_check fun edit built => ?_
      refine Prog.Ensures.bind (journal_runReconcileBracket _ fun document journaled => ?_) fun _ =>
        Prog.Ensures.pure fun _ journal => journal
      unfold recountEdit at built
      split at built
      · cases built
        exact journal_rewriteWordCounts journaled _ _ _
      · cases built
  | completePendingTurn => exact turn _ _ _
  | rollbackPendingTurn => exact turn _ _ _

/-- At every cut of an invocation the document has only the invocation's own edits. -/
theorem journal_run (invocation : Invocation) :
    Prog.Ensures (Journal invocation.Owns body)
      (invocation.run arith now : Command toml CommandOutcome) (Journal invocation.Owns body)
      fun _ => Journal invocation.Owns body := by
  cases invocation with
  | setCursor chapter scene beat =>
      refine journal_mutateState fun world prior plan chosen change member => ?_
      obtain ⟨_, -, chosen⟩ := except_bind_eq_ok.mp chosen
      cases chosen
      simpa [Invocation.Owns] using member
  | advancePhase =>
      refine journal_mutateState fun world prior plan chosen change member => ?_
      obtain ⟨-, -, chosen⟩ := except_bind_eq_ok.mp chosen
      obtain ⟨successor, -, chosen⟩ := except_bind_eq_ok.mp chosen
      by_cases unplanned : (successor = .drafting && prior.chapters.isEmpty) = true
      · simp [unplanned, throw, throwThe, MonadExceptOf.throw, bind, Except.bind] at chosen
      · simp only [unplanned] at chosen
        cases chosen
        rcases List.mem_cons.mp member with rfl | later
        · exact Or.inl ⟨_, rfl⟩
        · exact Or.inr ⟨_, List.mem_singleton.mp later⟩
  | setChapters chapters => exact journal_setChapters chapters
  | recount =>
      refine journal_mutateState fun world prior plan chosen change member => ?_
      obtain ⟨⟨current, table⟩, -, chosen⟩ := except_bind_eq_ok.mp chosen
      cases chosen
      rcases List.mem_cons.mp member with rfl | later
      · exact Or.inl ⟨_, rfl⟩
      · exact Or.inr ⟨_, List.mem_singleton.mp later⟩
  | reconcile => exact journal_reconcile
  | setGate selection =>
      change Prog.Ensures _ (setGateCommand arith selection) _ _
      unfold setGateCommand
      split
      · refine journal_mutateState fun world prior plan chosen change member => ?_
        cases chosen
        exact member
      · exact Prog.Ensures.pure fun _ journal => journal
  | completeFinalPass =>
      refine journal_mutateState fun world prior plan chosen change member => ?_
      cases chosen
      exact List.mem_singleton.mp member
  | setFangirl lastChapter =>
      refine journal_mutateState fun world prior plan chosen change member => ?_
      obtain ⟨_, -, chosen⟩ := except_bind_eq_ok.mp chosen
      by_cases within : 0 ≤ lastChapter ∧ lastChapter ≤ prior.chapters.length
      · simp only [if_pos within] at chosen
        cases chosen
        exact List.mem_singleton.mp member
      · simp only [if_neg within] at chosen
        cases chosen
  | setCriticPass pass =>
      refine journal_mutateState fun world prior plan chosen change member => ?_
      obtain ⟨_, -, chosen⟩ := except_bind_eq_ok.mp chosen
      by_cases small : pass < 1
      · simp only [if_pos small] at chosen
        cases chosen
      · simp only [if_neg small] at chosen
        cases chosen
        exact List.mem_singleton.mp member

end Commands

/-! ## The journal of a run -/

section Runs

variable {toml : Tomlkit} {arith : RatioArithmetic} {used : Invocation → Prop}

/-- One transition, of a command that may be used, or of an edit beside `state.toml`. -/
inductive TransitionBy (arith : RatioArithmetic) (used : Invocation → Prop)
    (world : World toml.Text) : World toml.Text → Prop where
  | edit {next : World toml.Text} (place : next.cwd = world.cwd)
      (kept : next.stateToml = world.stateToml) : TransitionBy arith used world next
  | invoke (invocation : Invocation) (uses : used invocation) (now : String)
      {next : World toml.Text} (cut : next ∈ (invocation.run arith now world).trail) :
      TransitionBy arith used world next

/-- Any number of transitions of the commands that may be used. -/
def RunsBy (arith : RatioArithmetic) (used : Invocation → Prop) :
    World toml.Text → World toml.Text → Prop :=
  Relation.ReflTransGen (TransitionBy arith used)

/-- The edits that some command of a run owns. -/
def OwnedBy (used : Invocation → Prop) (change : Edit) : Prop :=
  ∃ invocation, used invocation ∧ invocation.Owns change

/-- A transition continues the journal. -/
theorem TransitionBy.journal {world next : World toml.Text} {body : Table}
    (transition : TransitionBy arith used world next)
    (journal : Journal (OwnedBy used) body world) : Journal (OwnedBy used) body next := by
  obtain ⟨middle, stored, journaled⟩ := journal
  cases transition with
  | edit place kept => exact ⟨middle, stored.of_eq kept, journaled⟩
  | invoke invocation uses now cut =>
      obtain ⟨later, stored', journaled'⟩ :=
        (journal_run invocation world (Journal.start stored)).1 next cut
      exact ⟨later, stored', journaled.trans (journaled'.mono fun change owns =>
        ⟨invocation, uses, owns⟩)⟩

/-- A run journals the edits of its commands. -/
theorem RunsBy.journal {world later : World toml.Text} {body : Table}
    (run : RunsBy arith used world later) (stored : Stored world body) :
    Journal (OwnedBy used) body later := by
  induction run with
  | refl => exact Journal.start stored
  | tail _ transition inductionHypothesis => exact transition.journal inductionHypothesis

/-- Over a run, what stands apart from the key paths of its commands is kept. -/
theorem document_frame (arith : RatioArithmetic) (used : Invocation → Prop)
    {world later : World toml.Text} {body : Table} (run : RunsBy arith used world later)
    (stored : Stored world body) :
    ∃ after, Stored later after ∧
      ∀ path, (∀ invocation, used invocation → ∀ own ∈ invocation.keyPaths, Apart own path) →
        Table.value? path after = Table.value? path body := by
  obtain ⟨after, stored', journaled⟩ := run.journal stored
  refine ⟨after, stored', fun path apart => journaled.value? ?_⟩
  rintro change ⟨invocation, uses, owns⟩
  exact apart invocation uses change.path owns.path

/-- A recount leaves the word target as `init` wrote it. -/
theorem document_frame_target :
    ∃ next ∈ (Invocation.recount.run .exact "" (initialWorld 1000)).trail,
      ∃ after, Stored next after ∧
        Table.value? ["word_counts", "target"] after = some (.int 1000) := by
  have cut := @Run.final_mem_trail _ _ _ (initialWorld 1000)
    (Invocation.recount.run .exact "" (initialWorld 1000)) (by decide +kernel)
  have stored : Stored (initialWorld 1000)
      ((initialEdits "Title" "slug" 1000 "2024-01-01T00:00:00Z").foldl Table.edit []) :=
    ⟨_, stateToml_initialWorld (by decide +kernel), rfl⟩
  obtain ⟨after, stored', kept⟩ := document_frame .exact (fun _ => True)
    (Relation.ReflTransGen.single (TransitionBy.invoke .recount trivial "" cut)) stored
  refine ⟨_, cut, after, stored', (kept _ ?_).trans rfl⟩
  intro invocation _ own listed
  cases invocation <;> simp only [Invocation.keyPaths] at listed <;> revert own <;> decide

end Runs

end NovelRalph
