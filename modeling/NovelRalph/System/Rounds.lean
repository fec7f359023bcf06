import NovelRalph.System.Refusal
import NovelRalph.System.Standing

/-!
# One run of `reconcile`

A repair which makes no directory takes the state to `after`: the same state,
or the state with the counts of the drafts. Its cuts show the record of
`reconcile` until the last effect, which clears it. `Repairs` is that run, and
each rule of the derivation that can be enacted is an instance of it; a recount
that would be incoherent stalls under the record instead.
-/

namespace NovelRalph

/-- The state with the counts of the drafts. -/
def State.counted (state : State) (disk : Disk) : State :=
  state.recounted (disk.recountTable state.chapters)

section Round

variable {toml : Tomlkit} {arith : RatioArithmetic} {now : String} {world : World toml.Text}
  {state after : State} {reconciliation : Reconciliation String}

/-- At a cut of the bracket the record stands, or the repaired state without it. -/
def Between (base : World toml.Text) (state after : State) (world : World toml.Text) : Prop :=
  (∃ logged, Stands base logged state.recorded world) ∨ Stands base true after.settled world

/-- From this world `reconcile` exits 0 and takes the shown state to `after`. -/
structure Repairs (arith : RatioArithmetic) (now : String) (world : World toml.Text)
    (state after : State) : Prop where
  cuts : ∀ left ∈ (reconcile arith now world).trail, Between world state after left
  exits : ∃ outcome, (reconcile arith now world).result = .ok outcome ∧ outcome.code = .success
  final : Stands world true after.settled ((reconcile arith now world).final world)

/-- A bracket around an edit without effects of its own. -/
theorem achieves_quietBracket (opens : LogOpen world) {logged : Bool} (now logLine : String)
    {edit : Document toml → Command toml (Document toml)}
    (quiet : ∀ opened next, documentToState opened = .ok state.recorded →
      Stands world logged state.recorded next →
      ∃ edited, edit opened next = ⟨[], .ok edited⟩ ∧ documentToState edited = .ok after.recorded) :
    Prog.Achieves (Stands world logged state) (runReconcileBracket now edit logLine)
      (Between world state after) (fun _ => Stands world true after.settled) := by
  refine achieves_bracket opens now logLine (fun opened viewed next stands => ?_)
    (fun _ stands => Or.inl ⟨_, stands⟩) (fun _ stands => Or.inl ⟨_, stands⟩) (fun _ => Or.inr)
  obtain ⟨edited, run, reads⟩ := quiet opened next viewed stands
  rw [run]
  exact ⟨fun left member => (List.not_mem_nil member).elim, edited, rfl, stands, reads⟩

/-- A quiet bracket makes the whole run of `reconcile` a repair. -/
theorem Repairs.of_bracket (opens : LogOpen world) (shows : Shows world state)
    {edit : Document toml → Command toml (Document toml)} {logLine : String}
    {outcome : CommandOutcome} (success : outcome.code = .success)
    (run : reconcile arith now world =
      (runReconcileBracket now edit logLine >>= fun _ => pure outcome) world)
    (quiet : ∀ opened next, documentToState opened = .ok state.recorded →
      Stands world world.log.isSome state.recorded next →
      ∃ edited, edit opened next = ⟨[], .ok edited⟩ ∧ documentToState edited = .ok after.recorded) :
    Repairs arith now world state after := by
  have triple := (achieves_quietBracket opens now logLine quiet).thenReturn outcome
  obtain ⟨cuts, value, returned, rfl, final⟩ := triple world (Stands.refl shows)
  rw [← run] at cuts returned final
  exact ⟨cuts, ⟨value, returned, success⟩, final⟩

/-- Rewriting the counts is quiet when the recounted state is coherent. -/
theorem rewriteWordCounts_quiet {document : Document toml} {table : Dict String Int}
    (viewed : documentToState document = .ok state.recorded)
    (coherent : Coherent arith (state.recounted table)) (context : String) (next : World toml.Text) :
    ∃ edited, rewriteWordCounts arith document table.values.sum table context next =
        ⟨[], .ok edited⟩ ∧
      documentToState edited = .ok (state.recounted table).recorded := by
  refine ⟨document.editAll [setCurrent table.values.sum, setByChapter table], ?_, ?_⟩
  · have approved : refuseIfIncoherent (spelledVerdict arith)
        { state.recounted table with pendingTurn := some reconcileRecord } context noRemedy =
          .ok () := refuseIfIncoherent_eq_ok.mpr (coherent_withPending.mpr coherent)
    rw [rewriteWordCounts_run viewed, approved]
    rfl
  · have reads := parse_recounted viewed table
    rwa [documentToState, Document.body_editAll]

/-- A turn is cleared when no declared path is missing that its repair would make or rewrite. -/
theorem Repairs.clears (opens : LogOpen world) (shows : Shows world state)
    (derives : deriveReconciliation state world.disk = .ok reconciliation)
    (turn : reconciliation.action = .rollbackPendingTurn ∨
      reconciliation.action = .completePendingTurn)
    (made : completesSetChapters reconciliation = true → reconciliation.missingPaths = [])
    (kept : writesState reconciliation = false) : Repairs arith now world state state := by
  refine Repairs.of_bracket opens shows rfl ((reconcile_enacts shows derives).trans
    (congrFun (enactReconciliation_of_turn arith now turn) world)) fun opened next viewed _ => ?_
  refine ⟨opened, ?_, viewed⟩
  cases completes : completesSetChapters reconciliation
  · exact pendingTurnEdit_clears completes kept
  · unfold pendingTurnEdit turnEdit recomputeCounts createMissingChapterDirs
    rw [if_pos completes, made completes]
    rfl

/-- A turn that lost the counts is closed with the counts of the drafts. -/
theorem Repairs.turnCounts (opens : LogOpen world) (shows : Shows world state)
    (derives : deriveReconciliation state world.disk = .ok reconciliation)
    (turn : reconciliation.action = .rollbackPendingTurn ∨
      reconciliation.action = .completePendingTurn)
    (incomplete : completesSetChapters reconciliation = false)
    (writes : writesState reconciliation = true)
    (coherent : Coherent arith (state.counted world.disk)) :
    Repairs arith now world state (state.counted world.disk) := by
  have readable := readable_of_derive derives
  refine Repairs.of_bracket opens shows rfl ((reconcile_enacts shows derives).trans
    (congrFun (enactReconciliation_of_turn arith now turn) world)) fun opened next viewed stands => ?_
  have counted : next.disk.recountWords state.recorded.chapters =
      .ok ((world.disk.recountTable state.chapters).values.sum,
        world.disk.recountTable state.chapters) := by
    rw [stands.disk shows.held rfl]
    exact Disk.recountWords_of_readable readable.drafts
  rw [pendingTurnEdit_writes incomplete writes viewed counted]
  exact rewriteWordCounts_quiet viewed coherent _ next

/-- A turn with no directories to make is cleared, or its counts are rewritten. -/
theorem Repairs.turn_cases (opens : LogOpen world) (shows : Shows world state)
    (derives : deriveReconciliation state world.disk = .ok reconciliation)
    (turn : reconciliation.action = .rollbackPendingTurn ∨
      reconciliation.action = .completePendingTurn)
    (made : completesSetChapters reconciliation = true → reconciliation.missingPaths = []) :
    Repairs arith now world state state ∨
      rewritesCounts reconciliation = true ∧ (Coherent arith (state.counted world.disk) →
        Repairs arith now world state (state.counted world.disk)) := by
  cases writes : writesState reconciliation with
  | false => exact Or.inl (Repairs.clears opens shows derives turn made writes)
  | true =>
      have incomplete : completesSetChapters reconciliation = false := by
        rw [Bool.eq_false_iff]
        intro completes
        rw [writesState, made completes] at writes
        cases writes
      refine Or.inr ⟨?_, Repairs.turnCounts opens shows derives turn incomplete writes⟩
      rcases turn with action | action <;> simp [rewritesCounts, recomputes, action, incomplete, writes]

/-- A recount is a repair when the recounted state is coherent. -/
theorem Repairs.recount (opens : LogOpen world) (shows : Shows world state)
    {names : List InvariantName}
    (derives : deriveReconciliation state world.disk = .ok (recountReconciliation names
      (world.disk.recountTable state.chapters).values.sum (world.disk.recountTable state.chapters)))
    (coherent : Coherent arith (state.counted world.disk)) :
    Repairs arith now world state (state.counted world.disk) :=
  Repairs.of_bracket opens shows rfl ((reconcile_enacts shows derives).trans
    (enactReconciliation_recount _ _)) fun _ next viewed _ =>
      rewriteWordCounts_quiet viewed coherent _ next

/-- Recreating the log is a repair. -/
theorem Repairs.recreateLog (opens : LogOpen world) (shows : Shows world state)
    (settled : state.pendingTurn = none)
    (derives : deriveReconciliation state world.disk = .ok recreateLogReconciliation) :
    Repairs arith now world state state := by
  have same := State.settled_of_none settled
  have run : reconcile arith now world = (appendRecoveryEntry now ("recreate-log: " ++
      (@recreateLogReconciliation String).detail) >>= fun _ =>
        pure (writeOutcome (@recreateLogReconciliation String))) world := reconcile_enacts shows derives
  obtain ⟨cuts, value, returned, rfl, final⟩ := (achieves_receipt opens _).thenReturn
    (writeOutcome (@recreateLogReconciliation String)) world (Stands.refl shows)
  refine ⟨fun left member => Or.inr ?_, ⟨writeOutcome (@recreateLogReconciliation String), ?_, rfl⟩, ?_⟩
  · rw [run] at member
    rw [same]
    exact cuts left member
  · rw [run]
    exact returned
  · rw [run, same]
    exact final

/-- Nothing to do is nothing done. -/
theorem reconcile_idle (shows : Shows world state)
    (derives : deriveReconciliation state world.disk = .ok noReconciliation) :
    reconcile arith now world = ⟨[], .ok (writeOutcome (@noReconciliation String))⟩ :=
  reconcile_enacts shows derives

/-- A refusal appends its receipt and leaves the rest as it was. -/
theorem reconcile_refuses (opens : LogOpen world) (shows : Shows world state)
    {names : List InvariantName}
    (derives : deriveReconciliation state world.disk = .ok (refuseReconciliation names)) :
    (∃ outcome, (reconcile arith now world).result = .ok outcome) ∧
      Stands world true state ((reconcile arith now world).final world) ∧
      ((reconcile arith now world).final world).stateToml = world.stateToml := by
  have run : reconcile arith now world = refuseOutcome now (refuseReconciliation names) world :=
    reconcile_enacts shows derives
  obtain ⟨-, value, returned, -, held⟩ := (Prog.Achieves.thenReturn (achieves_appendLine opens
    world.stateToml _) _) world ⟨Stands.refl shows, rfl⟩
  rw [run]
  exact ⟨⟨value, returned⟩, held⟩

/-- Completing a `set-chapters` turn closes it on the tree its directories have made. -/
theorem reconcile_completes (shows : Shows world state)
    (derives : deriveReconciliation state world.disk = .ok reconciliation)
    (completes : completesSetChapters reconciliation = true)
    (made : ∀ next, Stands world world.log.isSome state.recorded next →
      (createMissingChapterDirs reconciliation next).result = .ok () ∧
        LogOpen ((createMissingChapterDirs reconciliation next).final next)) :
    Shows ((reconcile arith now world).final world) state.settled ∧
      ((reconcile arith now world).final world).log.isSome = true ∧
      LogOpen ((reconcile arith now world).final world) := by
  have turn : reconciliation.action = .rollbackPendingTurn ∨
      reconciliation.action = .completePendingTurn :=
    Or.inr (completesSetChapters_iff.mp completes).1
  have dirs : Prog.Achieves (Stands world world.log.isSome state.recorded)
      (createMissingChapterDirs reconciliation : Command toml Unit) (fun _ => True)
      (fun _ next => Shows next state.recorded ∧ LogOpen next) := by
    intro next stands
    have kept : Prog.Always (fun world => Shows world state.recorded)
        (createMissingChapterDirs reconciliation : Command toml Unit) :=
      Prog.Always.forEach fun path _ => always_makeDirs (always_shows_makeDirsAt _ _)
    obtain ⟨returned, opens⟩ := made next stands
    exact ⟨fun _ _ => trivial, (), returned, kept.final stands.shows, opens⟩
  have rest : ∀ opened, documentToState opened = .ok state.recorded →
      Prog.Achieves (Stands world world.log.isSome state.recorded)
        (bracketRest now (reconciliation.action.text ++ ": " ++ reconciliation.detail)
          (pendingTurnEdit arith reconciliation) opened) (fun _ => True)
        (fun _ next => Shows next state.settled ∧ next.log.isSome = true ∧ LogOpen next) := by
    intro opened viewed
    have edit : Prog.Achieves (Stands world world.log.isSome state.recorded)
        (pendingTurnEdit arith reconciliation opened) (fun _ => True)
        (fun edited next => (Shows next state.recorded ∧ LogOpen next) ∧ edited = opened) := by
      unfold pendingTurnEdit turnEdit recomputeCounts
      rw [if_pos completes]
      exact (dirs.thenReturn opened).weaken (fun _ start => start) (fun _ left => left)
        (fun _ _ finish => ⟨finish.2, finish.1⟩)
    refine Prog.Achieves.bind_fact edit ?_
    rintro edited rfl next ⟨shows', opens⟩
    obtain ⟨cuts, value, returned, finish⟩ := achieves_closing opens now
      (reconciliation.action.text ++ ": " ++ reconciliation.detail) viewed
      (fun _ _ => trivial) (fun _ _ => trivial) next (Stands.refl shows')
    exact ⟨cuts, value, returned, finish.shows, finish.log, finish.logOpen opens⟩
  have bracket := (achieves_opening rest fun _ _ => trivial).thenReturn (writeOutcome reconciliation)
  obtain ⟨-, value, -, -, held⟩ := bracket world (Stands.refl shows)
  rw [reconcile_enacts shows derives, enactReconciliation_of_turn arith now turn]
  exact held

end Round

end NovelRalph
