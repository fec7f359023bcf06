import NovelRalph.System.CrashRecovery
import NovelRalph.System.MissingDirs

/-!
# How a run of `reconcile` ends

Each action ends in one of a few ways. A receipt needs a log that can be opened;
a recount needs a validator that accepts the counts; the directories of a
completed turn need places that are no files. Where what is needed is there, the
run returns, and it ends where its action leads; otherwise it raises, and the
fault is that of the first step that failed.
-/

namespace NovelRalph

section Ends

variable {toml : Tomlkit} {arith : RatioArithmetic} {now : String} {world next : World toml.Text}
  {state : State} {reconciliation : Reconciliation String}

/-! ## Receipts -/

/-- A log that cannot be opened fails the receipt. -/
theorem appendLine_fails (closed : ¬LogOpen world) (line : String) :
    ∃ fault, (appendLine line : Command toml Unit) world = ⟨[], .error (.os fault)⟩ := by
  have refuses : ∃ fault, world.openLog = .error (.os fault) := by
    unfold World.openLog
    split
    · next inside =>
        split
        · exact ⟨_, rfl⟩
        · next regular =>
            refine absurd ⟨inside.2, fun none => ?_⟩ closed
            by_contra stored
            exact regular ⟨by rw [none]; rfl, Option.isSome_iff_ne_none.mpr stored⟩
    · split <;> exact ⟨_, rfl⟩
  obtain ⟨fault, refused⟩ := refuses
  exact ⟨fault, Prog.bind_error world (Prog.perform_error world refused)⟩

/-- A log that can be opened takes the receipt. -/
theorem appendLine_opens (held : world.stateToml.isSome) (opens : LogOpen world) (line : String) :
    ∃ opened, (appendLine line : Command toml Unit) world = ⟨[opened, opened.appendLog line], .ok ()⟩ ∧
      opened.stateToml = world.stateToml := by
  have opening : ∃ opened, world.openLog = .ok opened ∧ opened.stateToml = world.stateToml := by
    unfold World.openLog
    rw [dif_pos ⟨(world.stateHeld held).1, opens.free⟩, if_neg]
    · exact ⟨_, rfl, rfl⟩
    · rintro ⟨none, stored⟩
      rw [opens.plain (Option.isNone_iff_eq_none.mp none)] at stored
      cases stored
  obtain ⟨opened, opened', same⟩ := opening
  exact ⟨opened, Prog.bind_ok world (Prog.perform_ok world opened'), same⟩

/-- The end of a bracket: the receipt, and the replacement that clears the record. -/
def bracketEnd (now logLine : String) (edited : Document toml) : Command toml Unit := do
  appendRecoveryEntry now logLine
  writeDocumentAtomically (edited.edit clearPendingTurn)

/-- The end of a bracket returns when the log can be opened, and leaves the document it closed. -/
theorem bracketEnd_returns (held : world.stateToml.isSome) (opens : LogOpen world) (logLine : String)
    (edited : Document toml) : (bracketEnd now logLine edited world).result = .ok () ∧
      ((bracketEnd now logLine edited world).final world).stateToml =
        some (edited.edit clearPendingTurn).dump := by
  obtain ⟨opened, receipt, same⟩ :=
    appendLine_opens held opens ("- " ++ now ++ " reconcile: " ++ logLine ++ "\n")
  have held' : (opened.appendLog ("- " ++ now ++ " reconcile: " ++ logLine ++ "\n")).stateToml.isSome := by
    show opened.stateToml.isSome = true
    rw [same]
    exact held
  have written := World.replaceState_of_held held' (edited.edit clearPendingTurn).dump
  have run : bracketEnd now logLine edited world = ⟨[opened,
      opened.appendLog ("- " ++ now ++ " reconcile: " ++ logLine ++ "\n"),
      World.withState held' (edited.edit clearPendingTurn).dump], .ok ()⟩ := by
    unfold bracketEnd
    refine (Prog.bind_ok world receipt).trans ?_
    rw [writeDocumentAtomically, Prog.perform_ok _ written]
    rfl
  rw [run]
  exact ⟨rfl, rfl⟩

/-- Otherwise it fails at the log. -/
theorem bracketEnd_fails (closed : ¬LogOpen world) (logLine : String) (edited : Document toml) :
    ∃ fault, bracketEnd now logLine edited world = ⟨[], .error (.os fault)⟩ := by
  obtain ⟨fault, receipt⟩ := appendLine_fails closed ("- " ++ now ++ " reconcile: " ++ logLine ++ "\n")
  exact ⟨fault, Prog.bind_error world receipt⟩

/-- Replacing the state file makes no difference to the log. -/
theorem logOpen_rewrites (rewrites : Rewrites world next) : LogOpen next ↔ LogOpen world := by
  obtain ⟨held, text, rfl⟩ := rewrites
  exact ⟨fun ⟨free, plain⟩ => ⟨free, plain⟩, fun ⟨free, plain⟩ => ⟨free, plain⟩⟩

/-! ## Brackets -/

section Bracket

variable {edit : Document toml → Command toml (Document toml)} {logLine : String}

/-- A bracket around an edit without effects needs the log, and nothing else. -/
theorem quietBracket_result (shows : Shows world state)
    (quiet : ∀ opened next, documentToState opened = .ok state.recorded → Rewrites world next →
      ∃ edited, edit opened next = ⟨[], .ok edited⟩) :
    (LogOpen world → (runReconcileBracket now edit logLine world).result = .ok ()) ∧
      (¬LogOpen world → ∃ fault,
        (runReconcileBracket now edit logLine world).result = .error (.os fault)) := by
  obtain ⟨opened, next, viewed, rewrites, shows', run⟩ := bracket_run now shows logLine edit
  obtain ⟨edited, goesOn⟩ := quiet opened next viewed rewrites
  have result : (runReconcileBracket now edit logLine world).result =
      (bracketEnd now logLine edited next).result := by
    rw [run]
    show (bracketRest now logLine edit opened next).result = _
    exact congrArg Run.result (Prog.bind_quiet next goesOn)
  rw [result]
  refine ⟨fun opens => ?_, fun closed => ?_⟩
  · exact (bracketEnd_returns shows'.held ((logOpen_rewrites rewrites).mpr opens) logLine edited).1
  · obtain ⟨fault, fails⟩ := @bracketEnd_fails toml now next
      (fun opens => closed ((logOpen_rewrites rewrites).mp opens)) logLine edited
    exact ⟨fault, by rw [fails]⟩

end Bracket

/-! ## Runs that return -/

variable {outcome : CommandOutcome}

/-- A run that exits 0 enacts a repair or has nothing to do, and returns its payload. -/
theorem outcome_of_exits (shows : Shows world state)
    (exits : exitCodeOf (reconcile arith now world).result = some 0) :
    ∃ reconciliation, deriveReconciliation state world.disk = .ok reconciliation ∧
      (reconcile arith now world).result = .ok (writeOutcome reconciliation) ∧
      (Repairing reconciliation.action ∨ reconciliation = noReconciliation) := by
  obtain ⟨outcome, returned, success⟩ := exitCodeOf_eq_zero.mp exits
  cases derives : deriveReconciliation state world.disk with
  | error fault =>
      rw [reconcile_run shows, Prog.bind_error world (by rw [Prog.observe_apply, derives])] at returned
      cases returned
  | ok reconciliation =>
      have bracketed : Repairing reconciliation.action → reconciliation.action ≠ .recreateLog →
          (reconcile arith now world).result = .ok (writeOutcome reconciliation) := by
        intro repairing other
        obtain ⟨edit, logLine, -, run⟩ :=
          @reconcile_brackets toml arith world reconciliation now state shows derives repairing other
        rw [run] at returned ⊢
        obtain ⟨trail, middle, first, -⟩ := Prog.bind_returns world returned
        exact congrArg Run.result (Prog.bind_ok world first)
      have turn : reconciliation.action = .rollbackPendingTurn ∨
          reconciliation.action = .completePendingTurn →
          (reconcile arith now world).result = .ok (writeOutcome reconciliation) ∧
            Repairing reconciliation.action := by
        intro action
        have repairing : Repairing reconciliation.action :=
          action.elim (fun rolls => Or.inr (Or.inr (Or.inl rolls)))
            (fun completes => Or.inr (Or.inl completes))
        refine ⟨bracketed repairing ?_, repairing⟩
        rcases action with action | action <;> rw [action] <;> decide
      refine ⟨reconciliation, rfl, ?_⟩
      cases derived_of_derive derives with
      | explained pending recorded operation => exact (turn (Or.inr rfl)).imp_right Or.inl
      | pendingTurn pending recorded =>
          exact (turn (action_classifyPendingTurn ..)).imp_right Or.inl
      | recount names table settled counted =>
          exact ⟨bracketed (Or.inl rfl) ReconcileAction.noConfusion, Or.inl (Or.inl rfl)⟩
      | recreateLog settled =>
          have run : reconcile arith now world = (appendRecoveryEntry now ("recreate-log: " ++
              (@recreateLogReconciliation String).detail) >>= fun _ =>
                pure (writeOutcome (@recreateLogReconciliation String))) world :=
            reconcile_enacts shows derives
          refine ⟨?_, Or.inl (Or.inr (Or.inr (Or.inr rfl)))⟩
          rw [run] at returned ⊢
          obtain ⟨trail, middle, first, -⟩ := Prog.bind_returns world returned
          exact congrArg Run.result (Prog.bind_ok world first)
      | none settled =>
          rw [reconcile_idle shows derives]
          exact ⟨rfl, Or.inr rfl⟩
      | refuse names =>
          have run : reconcile arith now world = refuseOutcome now (refuseReconciliation names) world :=
            reconcile_enacts shows derives
          rw [run] at returned
          obtain ⟨trail, middle, -, value⟩ := Prog.bind_returns world returned
          cases value
          cases success

/-- A bracket that returns: its edit did, and it went on where the edit ended. -/
theorem bracket_returned (shows : Shows world state) {logLine : String}
    {edit : Document toml → Command toml (Document toml)}
    (returned : (runReconcileBracket now edit logLine world).result = .ok ()) :
    ∃ opened next trail edited, documentToState opened = .ok state.recorded ∧ Rewrites world next ∧
      Shows next state.recorded ∧ edit opened next = ⟨trail, .ok edited⟩ ∧
      LogOpen (trail.getLastD next) ∧ (runReconcileBracket now edit logLine world).final world =
        (bracketEnd now logLine edited (trail.getLastD next)).final (trail.getLastD next) := by
  obtain ⟨opened, next, viewed, rewrites, shows', run⟩ := bracket_run now shows logLine edit
  have rest : (bracketRest now logLine edit opened next).result = .ok () := by
    rw [run] at returned
    exact returned
  obtain ⟨trail, edited, edits, ending⟩ := Prog.bind_returns next rest
  refine ⟨opened, next, trail, edited, viewed, rewrites, shows', edits, ?_, ?_⟩
  · by_contra closed
    obtain ⟨fault, fails⟩ := @bracketEnd_fails toml now _ closed logLine edited
    have ends : (bracketEnd now logLine edited (trail.getLastD next)).result = .ok () := ending
    rw [fails] at ends
    cases ends
  · have goesOn : bracketRest now logLine edit opened next = _ := Prog.bind_ok next edits
    rw [run]
    refine (Run.final_append world [next] (bracketRest now logLine edit opened next) _).trans ?_
    rw [goesOn]
    exact Run.final_append next trail _ _

/-- A completed `set-chapters` turn that returns has made its directories and cleared its record. -/
theorem completed_of_returned (shows : Shows world state)
    (derives : deriveReconciliation state world.disk = .ok reconciliation)
    (completes : completesSetChapters reconciliation = true)
    (returned : (reconcile arith now world).result = .ok outcome) :
    (createMissingChapterDirs reconciliation world).result = .ok () ∧
      Stands (world.carved reconciliation) true state.settled
        ((reconcile arith now world).final world) := by
  have turn : reconciliation.action = .rollbackPendingTurn ∨
      reconciliation.action = .completePendingTurn :=
    Or.inr (completesSetChapters_iff.mp completes).1
  have run : reconcile arith now world = (runReconcileBracket now (pendingTurnEdit arith reconciliation)
      (reconciliation.action.text ++ ": " ++ reconciliation.detail) >>= fun _ =>
        pure (writeOutcome reconciliation)) world :=
    (reconcile_enacts shows derives).trans (congrFun (enactReconciliation_of_turn arith now turn) world)
  rw [run] at returned ⊢
  rw [Prog.final_bind_pure]
  obtain ⟨effects, done, bracketed, -⟩ := Prog.bind_returns world returned
  obtain ⟨opened, next, trail, edited, viewed, rewrites, shows', edits, opens, ends⟩ :=
    bracket_returned shows (congrArg Run.result bracketed)
  have stands := Stands.of_rewrites rewrites shows'
  have layouts : next.layout = world.layout := congrArg Disk.layout rewrites.disk
  -- the edit made the directories, in the tree under the record of `reconcile`
  have made : (createMissingChapterDirs reconciliation : Command toml Unit) next = ⟨trail, .ok ()⟩ ∧
      edited = opened := by
    unfold pendingTurnEdit turnEdit recomputeCounts at edits
    rw [if_pos completes] at edits
    cases making : (createMissingChapterDirs reconciliation : Command toml Unit) next with
    | mk steps result =>
        cases result with
        | error fault =>
            rw [Prog.bind_error next making] at edits
            cases edits
        | ok value =>
            rw [Prog.bind_ok next making, Prog.pure_apply, List.append_nil] at edits
            cases edits
            exact ⟨rfl, rfl⟩
  obtain ⟨making, rfl⟩ := made
  have carved : trail.getLastD next = next.carved reconciliation := by
    unfold World.carved
    rw [making]
    rfl
  rw [carved] at opens ends
  have shows'' : Shows (next.carved reconciliation) state.recorded := shows'.of_eq stateToml_carved
  have closing : Prog.Achieves
      (Stands (next.carved reconciliation) (next.carved reconciliation).log.isSome state.recorded)
      (bracketEnd now (reconciliation.action.text ++ ": " ++ reconciliation.detail) edited)
      (fun _ => True) (fun _ => Stands (next.carved reconciliation) true state.settled) :=
    achieves_closing opens now _ viewed (fun _ _ => trivial) (fun _ _ => trivial)
  obtain ⟨-, -, -, closed⟩ := closing (next.carved reconciliation) (Stands.refl shows'')
  have kept : Stands (world.carved reconciliation) world.log.isSome state.recorded
      (next.carved reconciliation) := stands_carved shows.held stands
  refine ⟨?_, ?_⟩
  · rw [createMissingChapterDirs_returns (world.stateHeld shows.held).1, ← layouts, ← stands.cwd,
      ← createMissingChapterDirs_returns (next.stateHeld shows'.held).1, making]
  · rw [ends]
    exact kept.trans closed

/-- The state that a repair which makes no directory leads to, under its record. -/
def repairedState (state : State) (disk : Disk) (reconciliation : Reconciliation String) : State :=
  if rewritesCounts reconciliation then state.counted disk else state

/-- Any other repair that returns leaves the tree standing, with its record cleared. -/
theorem repaired_of_returned (shows : Shows world state)
    (derives : deriveReconciliation state world.disk = .ok reconciliation)
    (repairing : Repairing reconciliation.action)
    (incomplete : completesSetChapters reconciliation = false)
    (returned : (reconcile arith now world).result = .ok outcome) :
    Stands world true (repairedState state world.disk reconciliation).settled
      ((reconcile arith now world).final world) := by
  have opens := logOpen_of_returned shows derives repairing returned
  have counts : rewritesCounts reconciliation = true →
      (Coherent arith (state.counted world.disk) →
        Repairs arith now world state (state.counted world.disk)) →
      Stands world true (repairedState state world.disk reconciliation).settled
        ((reconcile arith now world).final world) := by
    intro rewrites repairs
    unfold repairedState
    rw [if_pos rewrites]
    by_cases coherent : Coherent arith (state.counted world.disk)
    · exact (repairs coherent).final
    · obtain ⟨⟨fault, stalled⟩, -⟩ := @stalls toml arith now world state reconciliation shows derives
        rewrites coherent
      rw [returned] at stalled
      cases stalled
  have clears : rewritesCounts reconciliation = false → Repairs arith now world state state →
      Stands world true (repairedState state world.disk reconciliation).settled
        ((reconcile arith now world).final world) := by
    intro keeps repairs
    unfold repairedState
    rw [if_neg (by rw [keeps]; exact Bool.false_ne_true)]
    exact repairs.final
  cases (deriveReconciliation_iff (readable_of_derive derives)).mp derives with
  | explained pending recorded explains =>
      rw [completesSetChapters_iff.mpr ⟨rfl, congrArg some explains.1⟩] at incomplete
      cases incomplete
  | coverGap gap => exact counts rfl (Repairs.recount opens shows derives)
  | recount settled agreed stale => exact counts rfl (Repairs.recount opens shows derives)
  | recreateLog settled agreed current absent =>
      exact clears rfl (Repairs.recreateLog opens shows settled derives)
  | refuse => rcases repairing with action | action | action | action <;> cases action
  | none => rcases repairing with action | action | action | action <;> cases action
  | pendingTurn pending recorded agreed =>
      have turn := action_classifyPendingTurn world.disk pending [InvariantName.pendingTurnCleared]
      cases writes : writesState
          (classifyPendingTurn world.disk pending [InvariantName.pendingTurnCleared]) with
      | false =>
          refine clears ?_ (Repairs.clears opens shows derives turn (fun completes => ?_) writes)
          · rcases turn with action | action <;> simp [rewritesCounts, recomputes, action, writes]
          · rw [incomplete] at completes
            cases completes
      | true =>
          refine counts ?_ (Repairs.turnCounts opens shows derives turn incomplete writes)
          rcases turn with action | action <;> simp [rewritesCounts, recomputes, action, incomplete, writes]

end Ends

end NovelRalph
