import NovelRalph.System.Refusal
import NovelRalph.Untyped.Containment
import NovelRalph.Untyped.Mutators

/-!
# What a refusal leaves behind, whatever `state.toml` holds

Eight of the nine commands refuse before their first effect, whatever types the
document has. `reconcile` writes its own record first: the derivation says when it
is about to rewrite the counts, and if the validator finds fault with the
recounted state the run ends in exit 3 with that record in the file.
-/

namespace NovelRalph.Untyped

open InvariantName

/-! ## What is derived, on any tree -/

section Derived

variable {interp : Interpreter} {state : State} {disk : Disk}

/-- The forms a reconciliation has, with what was read of the record and the drafts for it. -/
inductive Derived (interp : Interpreter) (state : State) (disk : Disk) : Reconciliation Value → Prop where
  | explained (pending : PendingTurn) (missing : List String)
      (recorded : state.pendingTurn = some pending)
      (read : missingDeclaredPaths pending.paths disk = .ok missing) :
      Derived interp state disk (tornSetChapters pending.operation missing)
  | refuse (names : List InvariantName) : Derived interp state disk (refuseReconciliation names)
  | pendingTurn (pending : PendingTurn) (text : String) (missing : List String)
      (names : List InvariantName) (recorded : state.pendingTurn = some pending)
      (read : missingDeclaredPaths pending.paths disk = .ok missing) :
      Derived interp state disk (tornTurn pending.operation text missing names)
  | recount (names : List InvariantName) (current : Int) (byChapter : Dict String Int)
      (settled : state.pendingTurn = none)
      (counted : recountWords interp disk state.chapters = .ok (current, byChapter)) :
      Derived interp state disk (recountReconciliation names current byChapter)
  | recreateLog : Derived interp state disk recreateLogReconciliation
  | none : Derived interp state disk noReconciliation

/-- A recount derives from a settled state and its drafts. -/
theorem derived_of_recount {names : List InvariantName} {reconciliation : Reconciliation Value}
    (settled : state.pendingTurn = none)
    (derives : deriveRecount interp state disk names = .ok reconciliation) :
    Derived interp state disk reconciliation := by
  obtain ⟨⟨current, byChapter⟩, counted, returned⟩ := except_bind_eq_ok.mp derives
  cases returned
  exact .recount names current byChapter settled counted

/-- A coverage gap is found in a settled state only. -/
theorem settled_of_gap {fired : List InvariantName}
    (gap : draftingSubsetCoverGap interp state disk fired = .ok true) : state.pendingTurn = none := by
  unfold draftingSubsetCoverGap at gap
  split at gap
  · cases gap
  · next settled => simpa using settled

theorem derived_of_exception {fired : List InvariantName} {reconciliation : Reconciliation Value}
    (found : scopedPrecedenceException interp state disk fired = .ok (some reconciliation)) :
    Derived interp state disk reconciliation := by
  obtain ⟨explained, -, found⟩ := except_bind_eq_ok.mp found
  split at found
  · next pending recorded =>
      obtain ⟨completed, completes, returned⟩ := except_bind_eq_ok.mp found
      cases returned
      obtain ⟨missing, read, returned⟩ := except_bind_eq_ok.mp completes
      cases returned
      exact .explained pending missing recorded read
  · obtain ⟨gap, decided, found⟩ := except_bind_eq_ok.mp found
    cases gap with
    | false => cases found
    | true =>
        obtain ⟨recounted, derives, returned⟩ := except_bind_eq_ok.mp found
        cases returned
        exact derived_of_recount (settled_of_gap decided) derives

theorem derived_of_derive {reconciliation : Reconciliation Value}
    (derives : deriveReconciliation interp state disk = .ok reconciliation) :
    Derived interp state disk reconciliation := by
  obtain ⟨violations, detected, classified⟩ := except_bind_eq_ok.mp derives
  obtain ⟨exception, found, classified⟩ := except_bind_eq_ok.mp classified
  cases exception with
  | some exceptional =>
      cases classified
      exact derived_of_exception found
  | none =>
      dsimp only at classified
      split at classified
      · cases classified
        exact .refuse _
      cases recorded : state.pendingTurn with
      | some pending =>
          rw [recorded, decide_eq_true (pending_reported detected recorded)] at classified
          obtain ⟨missing, read, classified⟩ := except_bind_eq_ok.mp classified
          obtain ⟨text, -, returned⟩ := except_bind_eq_ok.mp classified
          cases returned
          exact .pendingTurn pending text missing _ recorded read
      | none =>
          rw [recorded] at classified
          dsimp only at classified
          split at classified
          · exact derived_of_recount recorded classified
          · split at classified <;> cases classified
            · exact .recreateLog
            · exact .none

end Derived

/-! ## Rewriting the counts -/

/-- The state once `reconcile` has opened its own turn. -/
def State.opened (state : State) : State :=
  { state with pendingTurn := some (pendingRecord reconcileOperation reconcilePaths) }

section Recount

variable {toml : Tomlkit} {interp : Interpreter} {world : World toml.Text} {state : State}
  {document : Document toml}

/-- A refusal that is a `StateInputError` has a non-empty verdict: the validator raises none. -/
theorem verdict_of_refusal {context : String} {messages : List String}
    (refused : refuseIfIncoherent (validateState interp) state context noRemedy =
      .error (.stateInputError messages)) :
    ∃ violation others, validateState interp state = .ok (violation :: others) := by
  unfold refuseIfIncoherent at refused
  cases verdict : validateState interp state with
  | error fault =>
      rw [verdict] at refused
      cases refused
      exact absurd trivial (bare_validateState _ verdict)
  | ok violations =>
      cases violations with
      | nil =>
          rw [verdict] at refused
          cases refused
      | cons violation others => exact ⟨violation, others, rfl⟩

/-- A non-empty verdict is a `StateInputError`. -/
theorem refusal_of_verdict {violation : Violation} {others : List Violation}
    (verdict : validateState interp state = .ok (violation :: others)) (context : String) :
    ∃ messages, refuseIfIncoherent (validateState interp) state context noRemedy =
      .error (.stateInputError messages) := by
  unfold refuseIfIncoherent
  rw [verdict]
  exact ⟨_, rfl⟩

/-- Rewriting the counts has no effect on the store; it is the validator's verdict. -/
theorem rewriteWordCounts_run (viewed : documentToState interp document = .ok state) (current : Int)
    (byChapter : Dict String Int) (context : String) (world : World toml.Text) :
    rewriteWordCounts interp document current byChapter context world =
      ⟨[], (refuseIfIncoherent (validateState interp) (state.recounted current byChapter) context
        noRemedy).map fun _ => document.editAll [setCurrent current, setByChapter byChapter]⟩ := by
  have edited : documentToState interp
      (document.editAll [setCurrent current, setByChapter byChapter]) =
        .ok (state.recounted current byChapter) := by
    rw [documentToState, Document.body_editAll]
    exact parse_recounted viewed current byChapter
  unfold rewriteWordCounts rewriteCounts stateViewOrStateError
  rw [Prog.bind_quiet _ (by rw [Prog.observe_apply, edited, guardStateInput_ok])]
  rcases Prog.observe_bind_cases world _ _ with ⟨fault, verdict, run⟩ | ⟨approved, verdict, run⟩
  · rw [run, verdict]
    rfl
  · rw [run, verdict]
    rfl

/-- The document `reconcile` has opened its own turn in reads as the state with that record. -/
theorem viewed_of_opened (viewed : documentToState interp document = .ok state) :
    documentToState interp
        (document.edit (openPendingTurn reconcileOperation reconcilePaths)) =
      .ok state.opened := by
  rw [documentToState, Document.body_edit]
  exact parse_openPendingTurn viewed _ _

/-- Rewriting the counts is safe when the validator accepts them. -/
theorem safe_rewriteWordCounts (viewed : documentToState interp document = .ok state) {current : Int}
    {byChapter : Dict String Int}
    (accepted : ∀ violation others,
      validateState interp (state.recounted current byChapter) ≠ .ok (violation :: others))
    (context : String) :
    SafeEdit world document fun document =>
      rewriteWordCounts interp document current byChapter context := by
  intro next rewrites messages refused
  dsimp only at refused
  rw [rewriteWordCounts_run (viewed_of_opened viewed)] at refused
  cases verdict : refuseIfIncoherent (validateState interp)
      (state.opened.recounted current byChapter) context noRemedy with
  | ok approved =>
      rw [verdict] at refused
      cases refused
  | error fault =>
      rw [verdict] at refused
      cases refused
      obtain ⟨violation, others, found⟩ := verdict_of_refusal verdict
      -- The validator does not read the record of a pending turn.
      exact accepted violation others found

/-- Editing a pending turn is safe when the validator accepts the counts it may rewrite. -/
theorem safe_pendingTurnEdit (viewed : documentToState interp document = .ok state)
    {reconciliation : Reconciliation Value}
    (accepted : completesSetChapters interp reconciliation = false →
      writesState reconciliation = true → ∀ current byChapter,
        recountWords interp world.disk state.chapters = .ok (current, byChapter) →
        ∀ violation others,
          validateState interp (state.recounted current byChapter) ≠ .ok (violation :: others)) :
    SafeEdit world document (pendingTurnEdit interp reconciliation) := by
  intro next rewrites messages refused
  have opened := viewed_of_opened viewed
  unfold pendingTurnEdit turnEdit at refused
  split at refused
  · have late := Prog.RaisesOnly.bind (Prog.RaisesOnly.forEach fun path =>
      raises_makeDirs noStateInput_os (fun _ same => nomatch same) (declaredPath path))
      (fun _ => Prog.RaisesOnly.pure _) next _ refused
    exact absurd rfl (late messages)
  next incomplete =>
  split at refused
  · cases refused
  next writes =>
  unfold recomputeCounts stateViewOrStateError at refused
  rw [Prog.bind_quiet _ (by rw [Prog.observe_apply, opened, guardStateInput_ok])] at refused
  cases counted : recountWords interp next.disk state.chapters with
  | error fault =>
      rw [Prog.bind_error _ (by rw [Prog.observe_apply]; exact congrArg (Run.mk []) counted)] at refused
      cases refused
      exact absurd trivial (bare_of_caught (caught_recount caught_read _) _ counted)
  | ok counts =>
      obtain ⟨current, byChapter⟩ := counts
      rw [Prog.observe_bind_ok next counted] at refused
      rw [rewrites.disk] at counted
      have verdicts := accepted (by simpa using incomplete) (by simpa using writes) _ _ counted
      exact safe_rewriteWordCounts viewed verdicts _ next rewrites messages refused

end Recount

/-! ## Refusals of every command -/

/-- Whether enacting a reconciliation rewrites the word counts. -/
def rewritesCounts (interp : Interpreter) (reconciliation : Reconciliation Value) : Bool :=
  recomputes (completesSetChapters interp reconciliation) reconciliation

/-- `reconcile` is about to rewrite the counts, and the validator finds fault with them. -/
def RecountRefused (interp : Interpreter) (state : State) (disk : Disk) : Prop :=
  ∃ reconciliation current byChapter violation others,
    deriveReconciliation interp state disk = .ok reconciliation ∧
    rewritesCounts interp reconciliation = true ∧
    recountWords interp disk state.chapters = .ok (current, byChapter) ∧
    validateState interp (state.recounted current byChapter) = .ok (violation :: others)

section Intact

variable {toml : Tomlkit} {interp : Interpreter} {now : String} {world : World toml.Text}
  {state : State}

/-- A document that is opened and viewed is what the text of `state.toml` is parsed as. -/
theorem reads_of_opens {document : Document toml} (opens : openDocument world = .ok document)
    (viewed : documentToState interp document = .ok state) : Reads interp world state :=
  except_bind_eq_ok.mpr ⟨document, opens, viewed⟩

/-- Every command but `reconcile` refuses before its first effect. -/
theorem late_run {invocation : Invocation} (other : invocation ≠ .reconcile) :
    Prog.RaisesLate NoStateInput (run interp now invocation : Command toml CommandOutcome) := by
  cases invocation with
  | reconcile => exact absurd rfl other
  | setChapters chapters =>
      refine .bind_quiet (.observe _) fun document => .bind_quiet (.observe _) fun prior => ?_
      split
      · exact late_populateChapters now chapters document
      · exact .of_quiet (.raise _)
  | setGate selection =>
      change Prog.RaisesLate NoStateInput (setGateCommand interp selection)
      unfold setGateCommand
      split
      · exact late_mutateView _
      · exact .of_quiet (.pure _)
  | _ => exact late_mutateView _

/-- Without a refused recount, `reconcile` keeps to the rule. -/
theorem reconcile_intact
    (unrefused : ∀ state, Reads interp world state → ¬RecountRefused interp state world.disk) :
    RefusalIntact .reconcile world (reconcile interp now world) := by
  rcases reconcileView_cases world with ⟨fault, faults⟩ |
    ⟨document, state, reconciliation, opens, viewed, derives, run⟩
  · have quiet : reconcile interp now world = ⟨[], .error fault⟩ := faults
    exact .of_quiet (by rw [quiet]) fun outcome returned => by rw [quiet] at returned; cases returned
  have enacts : reconcile interp now world = enactReconciliation interp now reconciliation world := run
  rw [enacts]
  have accepted : rewritesCounts interp reconciliation = true → ∀ current byChapter,
      recountWords interp world.disk state.chapters = .ok (current, byChapter) →
      ∀ violation others,
        validateState interp (state.recounted current byChapter) ≠ .ok (violation :: others) := by
    intro rewrites current byChapter counted violation others verdict
    exact unrefused state (reads_of_opens opens viewed)
      ⟨reconciliation, current, byChapter, violation, others, derives, rewrites, counted, verdict⟩
  refine dispatch_intact opens (fun action edit built => ?_) fun action => ?_
  · cases derived_of_derive derives with
    | recount names current byChapter settled counted =>
        cases built
        exact safe_rewriteWordCounts viewed (accepted rfl _ _ counted) _
    | pendingTurn pending text missing names recorded read =>
        rcases action_tornTurn pending.operation text missing names with turn | turn
        · rw [turn] at action
          cases action
        · rw [turn] at action
          cases action
    | _ => cases action
  · refine safe_pendingTurnEdit viewed fun incomplete writes => accepted ?_
    rcases action with action | action <;>
      simp [rewritesCounts, recomputes, action, incomplete, writes]

/-- A turn that rewrites the counts when it is completed is not `reconcile`'s own. -/
theorem foreign_of_writesState {pending : PendingTurn} {missing : List String}
    {reconciliation : Reconciliation Value} (held : world.stateToml.isSome)
    (read : missingDeclaredPaths pending.paths world.disk = .ok missing)
    (same : reconciliation.missingPaths = missing) (writes : writesState reconciliation = true) :
    pending ≠ pendingRecord reconcileOperation reconcilePaths := by
  rintro rfl
  have texts : pathTexts (pendingRecord reconcileOperation reconcilePaths).paths = reconcilePaths := rfl
  rw [missingDeclaredPaths_eq_ok, texts] at read
  rw [writesState_of_own held (same.trans read.2)] at writes
  cases writes

/-- Opening `reconcile`'s turn changes the text of `state.toml`, unless the turn was there. -/
theorem opened_changes {document : Document toml} (opens : openDocument world = .ok document)
    (viewed : documentToState interp document = .ok state)
    (foreign : state.pendingTurn ≠ some (pendingRecord reconcileOperation reconcilePaths)) :
    some (document.edit (openPendingTurn reconcileOperation reconcilePaths)).dump ≠
      world.stateToml := by
  intro same
  obtain ⟨text, found, parsed⟩ := openDocument_ok opens
  rw [found, Option.some.injEq] at same
  have reparsed := Document.parse_dump
    (document.edit (openPendingTurn reconcileOperation reconcilePaths))
  rw [same, parsed, Except.ok.injEq] at reparsed
  have reviewed := viewed_of_opened viewed
  rw [documentToState, ← reparsed] at reviewed
  rw [documentToState, reviewed, Except.ok.injEq] at viewed
  exact foreign (congrArg State.pendingTurn viewed).symm

/-- A bracket around a refused rewriting of the counts ends in the refusal, its record written. -/
theorem bracket_refused {document : Document toml} (opens : openDocument world = .ok document)
    (viewed : documentToState interp document = .ok state)
    (foreign : state.pendingTurn ≠ some (pendingRecord reconcileOperation reconcilePaths))
    {current : Int} {byChapter : Dict String Int} {violation : Violation} {others : List Violation}
    (verdict : validateState interp (state.recounted current byChapter) = .ok (violation :: others))
    {edit : Document toml → Command toml (Document toml)} (context : String)
    (edits : ∀ opened next, documentToState interp opened = .ok state.opened → Rewrites world next →
      edit opened next = rewriteWordCounts interp opened current byChapter context next)
    (now logLine : String) (outcome : CommandOutcome) :
    ∃ next messages, next.stateToml ≠ world.stateToml ∧
      (runReconcileBracket now edit logLine >>= fun _ => pure outcome) world =
        ⟨[next], .error (.stateInputError messages)⟩ := by
  obtain ⟨text, found, -⟩ := openDocument_ok opens
  have held : world.stateToml.isSome := by rw [found]; rfl
  have opened := viewed_of_opened viewed
  obtain ⟨messages, refusal⟩ := @refusal_of_verdict interp (state.opened.recounted current byChapter)
    violation others verdict context
  have run := bracket_opens opens held now logLine edit
  have rest : bracketRest now logLine edit
      (document.edit (openPendingTurn reconcileOperation reconcilePaths))
      (World.withState held
        (document.edit (openPendingTurn reconcileOperation reconcilePaths)).dump) =
      ⟨[], .error (.stateInputError messages)⟩ := by
    unfold bracketRest
    refine Prog.bind_error _ ?_
    rw [edits _ _ opened ⟨held, _, rfl⟩, rewriteWordCounts_run opened, refusal]
    rfl
  dsimp only at run
  rw [rest] at run
  exact ⟨_, messages, opened_changes opens viewed foreign, Prog.bind_error world run⟩

/-- A refused recount leaves the record of `reconcile` in the state file. -/
theorem reconcile_breaks (now : String) (reads : Reads interp world state)
    (refused : RecountRefused interp state world.disk) :
    ∃ next messages, next.stateToml ≠ world.stateToml ∧
      reconcile interp now world = ⟨[next], .error (.stateInputError messages)⟩ := by
  obtain ⟨document, opens, viewed⟩ := except_bind_eq_ok.mp reads
  obtain ⟨reconciliation, current, byChapter, violation, others, derives, rewrites, counted, verdict⟩ :=
    refused
  obtain ⟨text, found, -⟩ := openDocument_ok opens
  have held : world.stateToml.isSome := by rw [found]; rfl
  have enacts : reconcile interp now world = enactReconciliation interp now reconciliation world :=
    reconcileView_enacts opens viewed derives
  rw [enacts]
  have turn : ∀ pending missing, state.pendingTurn = some pending →
      missingDeclaredPaths pending.paths world.disk = .ok missing →
      reconciliation.missingPaths = missing →
      reconciliation.action = .rollbackPendingTurn ∨ reconciliation.action = .completePendingTurn →
      ∃ next messages, next.stateToml ≠ world.stateToml ∧
        enactReconciliation interp now reconciliation world =
          ⟨[next], .error (.stateInputError messages)⟩ := by
    intro pending missing recorded read same action
    have edits : completesSetChapters interp reconciliation = false ∧
        writesState reconciliation = true := by
      rcases action with action | action <;> simpa [rewritesCounts, recomputes, action] using rewrites
    have enacted : enactReconciliation interp now reconciliation world =
        (runReconcileBracket now (pendingTurnEdit interp reconciliation)
          (reconciliation.action.text ++ ": " ++ reconciliation.detail) >>= fun _ =>
            pure (writeOutcome reconciliation)) world := by
      rcases action with action | action <;> simp only [enactReconciliation, dispatchAction, action]
    rw [enacted]
    refine bracket_refused opens viewed ?_ verdict "reconcile complete-pending-turn"
      (fun opened next viewed' rewritten => ?_) now _ _
    · rw [recorded, Ne, Option.some.injEq]
      exact foreign_of_writesState held read same edits.2
    · unfold pendingTurnEdit turnEdit recomputeCounts stateViewOrStateError
      rw [if_neg (by simp [edits.1]), if_neg (by simp [edits.2]),
        Prog.bind_quiet _ (by rw [Prog.observe_apply, viewed', guardStateInput_ok])]
      rw [← rewritten.disk] at counted
      rw [Prog.observe_bind_ok next counted]
  cases derived_of_derive derives with
  | explained pending missing recorded read => exact turn pending missing recorded read rfl (.inr rfl)
  | pendingTurn pending text missing names recorded read =>
      exact turn pending missing recorded read (missingPaths_tornTurn ..) (action_tornTurn ..)
  | refuse | recreateLog | none => cases rewrites
  | recount names current' byChapter' settled counted' =>
      rw [counted, Except.ok.injEq, Prod.mk.injEq] at counted'
      obtain ⟨rfl, rfl⟩ := counted'
      refine bracket_refused opens viewed ?_ verdict "reconcile recount"
        (fun opened next _ _ => rfl) now _ _
      rw [settled]
      simp

/-- Whatever `state.toml` holds, a refusal leaves it intact exactly when it is not a recount refused
by `reconcile`. -/
theorem refusal_intact_iff (interp : Interpreter) (now : String) (world : World toml.Text)
    (invocation : Invocation) :
    RefusalIntact invocation world (run interp now invocation world) ↔
      ¬(invocation = .reconcile ∧
        ∃ state, Reads interp world state ∧ RecountRefused interp state world.disk) := by
  constructor
  · rintro intact ⟨rfl, state, reads, refused⟩
    obtain ⟨next, messages, changed, ran⟩ := reconcile_breaks now reads refused
    change RefusalIntact .reconcile world (reconcile interp now world) at intact
    rw [ran] at intact
    exact changed (intact.stateError messages rfl)
  · intro unrefused
    by_cases other : invocation = .reconcile
    · subst other
      exact reconcile_intact fun state reads refused => unrefused ⟨rfl, state, reads, refused⟩
    · exact .of_late (late_run other) other

end Intact

/-- An interpreter without rounding that reads the literals of the thresholds as what they say. -/
def thresholdReader : Interpreter :=
  Interpreter.exact (fun text =>
    (KnittingGate.all.find? fun gate => thresholdLiteral gate == text).map KnittingGate.literal)
    fun _ => ⟨.date, 0⟩

/-- The text decodes to a document with a record. -/
def holdsRecord (text : Tomlkit.structural.Text) : Bool :=
  match Tomlkit.structural.parse text with
  | .ok body => (body.lookup "pending_turn").isSome
  | .error _ => false

/-- Reconciling `crossedWorld` ends in a `StateInputError` and leaves a record that was not there
before. -/
theorem crossed_recount_breaks :
    (run thresholdReader "" .reconcile crossedWorld).result = .error (.stateInputError
        ["reconcile recount would violate: gate-ratio-consistent",
         "knitting gates disagree with the drafted ratio: done_30=False but drafted ratio 0.3000 " ++
           "is above threshold 0.30"]) ∧
      ((run thresholdReader "" .reconcile crossedWorld).final crossedWorld).stateToml ≠
        crossedWorld.stateToml ∧
      ¬∀ (interp : Interpreter) (now : String) (world : World Tomlkit.structural.Text)
          (invocation : Invocation),
        RefusalIntact invocation world (run interp now invocation world) := by
  have refused : (run thresholdReader "" .reconcile crossedWorld).result =
      .error (.stateInputError
        ["reconcile recount would violate: gate-ratio-consistent",
         "knitting gates disagree with the drafted ratio: done_30=False but drafted ratio 0.3000 " ++
           "is above threshold 0.30"]) :=
    raised?_eq_some.mp (by decide +kernel)
  have before : crossedWorld.stateToml.map holdsRecord = some false := by decide +kernel
  have after : ((run thresholdReader "" .reconcile crossedWorld).final crossedWorld).stateToml.map
      holdsRecord = some true := by decide +kernel
  have changed : ((run thresholdReader "" .reconcile crossedWorld).final crossedWorld).stateToml ≠
      crossedWorld.stateToml := by
    intro same
    rw [same, before] at after
    cases after
  exact ⟨refused, changed, fun intact =>
    changed ((intact thresholdReader "" crossedWorld .reconcile).stateError _ refused)⟩

end NovelRalph.Untyped
