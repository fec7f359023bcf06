import NovelRalph.Commands.Containment
import NovelRalph.Commands.ScanContainment
import NovelRalph.System.CarvedTree
import NovelRalph.System.Enactment
import NovelRalph.System.OneCount

/-!
# What leaves the commands

`reconcile` reads the tree, divides, appends to the log and makes directories
without a guard. It is contained on a readable tree whose record can be read, where
the counts it rewrites can be divided, the directories it makes meet no file and the
log can be opened when there is a receipt to write. Together with the other seven
commands this says exactly on which trees no raw fault leaves any of them.
-/

namespace NovelRalph

/-! ## What `reconcile` does -/

section Conditions

variable (state : State) (disk : Disk)

/-- There is nothing to repair but, perhaps, an absent log. -/
def Undisturbed : Prop :=
  state.pendingTurn = none ∧ refusal state disk = false ∧ drift state disk = false

/-- A turn that is not one of `set-chapters` to complete has lost its `state.toml`. -/
def LostCounts (pending : PendingTurn) : Prop :=
  ¬(pending.operation = setChaptersOperation ∧
      unrecoverablePaths (missingDeclaredPaths pending.paths disk) = []) ∧
    ∃ path ∈ missingDeclaredPaths pending.paths disk, endsWith path "state.toml" = true

/-- `reconcile` rewrites the counts. -/
def Recounting : Prop :=
  CoverGap state disk ∨ refusal state disk = false ∧
    (state.pendingTurn = none ∧ drift state disk = true ∨
      ∃ pending, state.pendingTurn = some pending ∧ LostCounts disk pending)

variable {state disk} {reconciliation : Reconciliation String}

theorem writesState_iff : writesState reconciliation = true ↔
    ∃ path ∈ reconciliation.missingPaths, endsWith path "state.toml" = true := by
  unfold writesState
  rw [List.any_eq_true]

/-- A broken bijection is a refusal. -/
theorem refusal_of_broken (broken : bijectionBroken state disk false = true) :
    refusal state disk = true := by
  unfold refusal
  rw [broken, Bool.true_or]

/-- Among the derived reconciliations these rewrite the counts. -/
theorem rewritesCounts_iff (derives : deriveReconciliation state disk = .ok reconciliation) :
    rewritesCounts reconciliation = true ↔ Recounting state disk := by
  have readable := readable_of_derive derives
  have refused : refusal state disk = true → ¬CoverGap state disk → ¬Recounting state disk := by
    rintro refused noGap (gap | ⟨agreed, -⟩)
    · exact noGap gap
    · rw [refused] at agreed
      cases agreed
  have noGap : refusal state disk = false → ¬CoverGap state disk := by
    intro agreed gap
    rw [refusal_of_broken gap.2.2.1] at agreed
    cases agreed
  cases (deriveReconciliation_iff readable).mp derives with
  | explained pending recorded explains =>
      refine iff_of_false ?_ (refused (refusal_of_broken explains.2.1) fun gap => ?_)
      · have completes : completesSetChapters (completeSetChaptersTurn disk pending) = true :=
          completesSetChapters_iff.mpr ⟨rfl, congrArg some explains.1⟩
        have kept : rewritesCounts (completeSetChaptersTurn disk pending) =
            (!completesSetChapters (completeSetChaptersTurn disk pending) &&
              writesState (completeSetChaptersTurn disk pending)) := rfl
        rw [kept, completes]
        exact Bool.false_ne_true
      · rw [gap.1] at recorded
        cases recorded
  | coverGap gap => exact iff_of_true rfl (Or.inl gap)
  | refuse explanation unexplained noGap fires =>
      exact iff_of_false Bool.false_ne_true (refused fires noGap)
  | pendingTurn pending recorded agreed =>
      have missing := missingPaths_classifyPendingTurn disk pending [InvariantName.pendingTurnCleared]
      have operation := operation_classifyPendingTurn disk pending [InvariantName.pendingTurnCleared]
      have completes : completesSetChapters
          (classifyPendingTurn disk pending [InvariantName.pendingTurnCleared]) = true ↔
          pending.operation = setChaptersOperation ∧
            unrecoverablePaths (missingDeclaredPaths pending.paths disk) = [] := by
        rw [completesSetChapters_iff, completes_classifyPendingTurn, operation, Option.some.injEq,
          and_comm]
      have rewrites : rewritesCounts
          (classifyPendingTurn disk pending [InvariantName.pendingTurnCleared]) = true ↔
          LostCounts disk pending := by
        unfold LostCounts
        rw [← completes, ← missing, ← writesState_iff]
        rcases action_classifyPendingTurn disk pending [InvariantName.pendingTurnCleared] with
          action | action <;> simp [rewritesCounts, recomputes, action]
      rw [rewrites]
      constructor
      · exact fun lost => Or.inr ⟨agreed, Or.inr ⟨pending, recorded, lost⟩⟩
      · rintro (gap | ⟨-, ⟨settled, -⟩ | ⟨other, recorded', lost⟩⟩)
        · exact absurd gap (noGap agreed)
        · rw [settled] at recorded
          cases recorded
        · rw [recorded, Option.some.injEq] at recorded'
          exact recorded' ▸ lost
  | recount settled agreed stale => exact iff_of_true rfl (Or.inr ⟨agreed, Or.inl ⟨settled, stale⟩⟩)
  | recreateLog settled agreed current absent =>
      refine iff_of_false Bool.false_ne_true ?_
      rintro (gap | ⟨-, ⟨-, stale⟩ | ⟨other, recorded, -⟩⟩)
      · exact noGap agreed gap
      · rw [current] at stale
        cases stale
      · rw [settled] at recorded
        cases recorded
  | none settled agreed current present =>
      refine iff_of_false Bool.false_ne_true ?_
      rintro (gap | ⟨-, ⟨-, stale⟩ | ⟨other, recorded, -⟩⟩)
      · exact noGap agreed gap
      · rw [current] at stale
        cases stale
      · rw [settled] at recorded
        cases recorded

/-- These are derived from an undisturbed tree. -/
theorem undisturbed_iff (derives : deriveReconciliation state disk = .ok reconciliation) :
    Undisturbed state disk ↔
      reconciliation.action = .none ∨ reconciliation.action = .recreateLog := by
  have readable := readable_of_derive derives
  cases (deriveReconciliation_iff readable).mp derives with
  | explained pending recorded explains =>
      refine iff_of_false (fun undisturbed => ?_) (by simp [completeSetChaptersTurn, tornSetChapters])
      rw [undisturbed.1] at recorded
      cases recorded
  | coverGap gap =>
      refine iff_of_false (fun undisturbed => ?_) (by simp [recountReconciliation])
      have agreed := undisturbed.2.1
      rw [refusal_of_broken gap.2.2.1] at agreed
      cases agreed
  | refuse explanation unexplained noGap fires =>
      refine iff_of_false (fun undisturbed => ?_) (by simp [refuseReconciliation])
      have agreed := undisturbed.2.1
      rw [fires] at agreed
      cases agreed
  | pendingTurn pending recorded agreed =>
      refine iff_of_false (fun undisturbed => ?_) ?_
      · rw [undisturbed.1] at recorded
        cases recorded
      · rcases action_classifyPendingTurn disk pending [InvariantName.pendingTurnCleared] with
          action | action <;> simp [action]
  | recount settled agreed stale =>
      refine iff_of_false (fun undisturbed => ?_) (by simp [recountReconciliation])
      have current := undisturbed.2.2
      rw [stale] at current
      cases current
  | recreateLog settled agreed current absent =>
      exact iff_of_true ⟨settled, agreed, current⟩ (Or.inr rfl)
  | none settled agreed current present => exact iff_of_true ⟨settled, agreed, current⟩ (Or.inl rfl)

end Conditions

/-! ## How its runs end -/

section Ends

variable {toml : Tomlkit} {arith : RatioArithmetic} {now : String} {world : World toml.Text}
  {state : State} {reconciliation : Reconciliation String}

/-- The receipt alone is contained when the log can be opened. -/
theorem contained_appendLine (held : world.stateToml.isSome) (line : String) :
    Contained ((appendLine line : Command toml Unit) world).result ↔ LogOpen world := by
  by_cases opens : LogOpen world
  · obtain ⟨opened, run, -⟩ := appendLine_opens held opens line
    rw [run]
    exact iff_of_true confined_ok opens
  · obtain ⟨fault, run⟩ := appendLine_fails opens line
    rw [run]
    exact iff_of_false (fun contained => contained _ rfl) opens

/-- So is a bracket around an edit without effects. -/
theorem contained_quietBracket (shows : Shows world state)
    {edit : Document toml → Command toml (Document toml)} {logLine : String}
    (quiet : ∀ opened next, documentToState opened = .ok state.recorded → Rewrites world next →
      ∃ edited, edit opened next = ⟨[], .ok edited⟩) :
    Contained (runReconcileBracket now edit logLine world).result ↔ LogOpen world := by
  obtain ⟨returns, fails⟩ := @quietBracket_result toml now world state edit logLine shows quiet
  by_cases opens : LogOpen world
  · rw [returns opens]
    exact iff_of_true confined_ok opens
  · obtain ⟨fault, failed⟩ := fails opens
    rw [failed]
    exact iff_of_false (fun contained => contained _ rfl) opens

/-- A coherent state can be judged: no number of it is to be spelled. -/
theorem Judgeable.of_coherent (coherent : Coherent arith state) : Judgeable arith state := by
  refine ⟨fun number breached => ?_, fun positive => ?_⟩
  · rw [coherent.breachNumbers] at breached
    cases breached
  · obtain ⟨ratio, divided, -⟩ := coherent.gates positive
    exact ⟨ratio, divided⟩

/-- Rewriting the counts is contained when they can be judged, and the receipt when they are
coherent. -/
theorem contained_recounting (shows : Shows world state)
    (derives : deriveReconciliation state world.disk = .ok reconciliation)
    (rewrites : rewritesCounts reconciliation = true) :
    Contained (reconcile arith now world).result ↔
      Judgeable arith (state.counted world.disk) ∧
        (Coherent arith (state.counted world.disk) → LogOpen world) := by
  have readable := readable_of_derive derives
  have counted := Disk.recountWords_of_readable readable.drafts
  by_cases coherent : Coherent arith (state.counted world.disk)
  · rw [and_iff_right (Judgeable.of_coherent coherent), forall_prop_of_true coherent]
    have quiet : ∀ {edit : Document toml → Command toml (Document toml)} {logLine : String}
        (context : String),
        reconcile arith now world = (runReconcileBracket now edit logLine >>= fun _ =>
          pure (writeOutcome reconciliation)) world →
        (∀ opened next, documentToState opened = .ok state.recorded → Rewrites world next →
          edit opened next = rewriteWordCounts arith opened
            (world.disk.recountTable state.chapters).values.sum
            (world.disk.recountTable state.chapters) context next) →
        (Contained (reconcile arith now world).result ↔ LogOpen world) := by
      intro edit logLine context run edits
      rw [run, Prog.result_bind_pure, Contained, confined_map]
      refine contained_quietBracket shows fun opened next viewed rewritten => ?_
      obtain ⟨edited, rewrote, -⟩ := rewriteWordCounts_quiet viewed coherent context next
      exact ⟨edited, (edits opened next viewed rewritten).trans rewrote⟩
    have turn : reconciliation.action = .rollbackPendingTurn ∨
        reconciliation.action = .completePendingTurn →
        (Contained (reconcile arith now world).result ↔ LogOpen world) := by
      intro action
      have edits : completesSetChapters reconciliation = false ∧ writesState reconciliation = true := by
        rcases action with action | action <;> simpa [rewritesCounts, recomputes, action] using rewrites
      refine quiet "reconcile complete-pending-turn" ((reconcile_enacts shows derives).trans
        (congrFun (enactReconciliation_of_turn arith now action) world)) fun opened next viewed kept => ?_
      exact pendingTurnEdit_writes edits.1 edits.2 viewed (by rw [kept.disk]; exact counted)
    cases derived_of_derive derives with
    | explained pending recorded operation => exact turn (Or.inr rfl)
    | pendingTurn pending recorded => exact turn (action_classifyPendingTurn ..)
    | recount names table settled counts =>
        rw [counted, Except.ok.injEq, Prod.mk.injEq] at counts
        obtain ⟨-, rfl⟩ := counts
        exact quiet "reconcile recount" ((reconcile_enacts shows derives).trans
          (enactReconciliation_recount _ _)) fun _ _ _ _ => rfl
    | refuse | recreateLog | none => cases rewrites
  · obtain ⟨next, context, fault, -, -, -, refused, run⟩ :=
      reconcile_stalls now shows derives rewrites counted coherent
    have verdict : Contained (refuseIfIncoherent (spelledVerdict arith)
        { state.recounted (world.disk.recountTable state.chapters) with
          pendingTurn := some reconcileRecord } context noRemedy) ↔
        Judgeable arith (state.counted world.disk) :=
      contained_refuseIfIncoherent.trans
        ⟨fun judged => ⟨judged.spelled, judged.divides⟩, fun judged => ⟨judged.spelled, judged.divides⟩⟩
    rw [refused] at verdict
    rw [run, and_iff_left fun other => absurd other coherent]
    exact confined_error.trans (confined_error.symm.trans verdict)

/-- Clearing the record of a turn is contained when the log can be opened. -/
theorem contained_clearing (shows : Shows world state)
    (derives : deriveReconciliation state world.disk = .ok reconciliation)
    (turn : reconciliation.action = .rollbackPendingTurn ∨
      reconciliation.action = .completePendingTurn)
    (incomplete : completesSetChapters reconciliation = false)
    (kept : writesState reconciliation = false) :
    Contained (reconcile arith now world).result ↔ LogOpen world := by
  have run : reconcile arith now world = _ := (reconcile_enacts shows derives).trans
    (congrFun (enactReconciliation_of_turn arith now turn) world)
  rw [run, Prog.result_bind_pure, Contained, confined_map]
  exact contained_quietBracket shows fun opened next _ _ =>
    ⟨opened, pendingTurnEdit_clears incomplete kept⟩

/-- A refusal is contained when the log can be opened. -/
theorem contained_refusing (shows : Shows world state)
    (derives : deriveReconciliation state world.disk = .ok reconciliation)
    (refuses : reconciliation.action = .refuse) :
    Contained (reconcile arith now world).result ↔ LogOpen world := by
  have run : (reconcile arith now : Command toml CommandOutcome) world =
      refuseOutcome now reconciliation world := by
    rw [reconcile_enacts shows derives, enactReconciliation, dispatchAction, refuses]
  unfold refuseOutcome at run
  rw [run, Prog.result_bind_pure, Contained, confined_map]
  exact contained_appendLine shows.held _

/-- An undisturbed tree is left alone, or gets its log, which is absent. -/
theorem contained_undisturbed (shows : Shows world state)
    (derives : deriveReconciliation state world.disk = .ok reconciliation)
    (undisturbed : Undisturbed state world.disk) :
    Contained (reconcile arith now world).result := by
  rcases (undisturbed_iff derives).mp undisturbed with idle | recreates
  · rw [reconcile_enacts shows derives, enactReconciliation, dispatchAction, idle]
    exact confined_ok
  · have absent : world.disk.exists? world.disk.logFile = false := by
      cases (deriveReconciliation_iff (readable_of_derive derives)).mp derives with
      | recreateLog settled agreed current absent => exact absent
      | pendingTurn pending recorded =>
          rcases action_classifyPendingTurn world.disk pending
            [InvariantName.pendingTurnCleared] with action | action <;>
            rw [action] at recreates <;> cases recreates
      | explained | coverGap | refuse | recount | none => cases recreates
    have free : (world.layout (logLoc world.cwd)).isSome = false := absent
    have opens : LogOpen world := .of_regular (Or.inr (by simpa using free))
    rw [reconcile_enacts shows derives, enactReconciliation, dispatchAction, recreates,
      Prog.result_bind_pure,
      Contained, confined_map]
    exact (contained_appendLine shows.held _).mpr opens

/-- The end of a bracket is contained when the log can be opened. -/
theorem contained_bracketEnd (held : world.stateToml.isSome) (logLine : String)
    (edited : Document toml) :
    Contained (bracketEnd now logLine edited world).result ↔ LogOpen world := by
  by_cases opens : LogOpen world
  · rw [(bracketEnd_returns held opens logLine edited).1]
    exact iff_of_true confined_ok opens
  · obtain ⟨fault, failed⟩ := @bracketEnd_fails toml now world opens logLine edited
    rw [failed]
    exact iff_of_false (fun contained => contained _ rfl) opens

/-- Directories that cannot be made raise an `OSError` or a `ValueError`. -/
theorem unhandled_of_createMissing {fault : Fault}
    (raised : (createMissingChapterDirs reconciliation world).result = .error fault) :
    ¬fault.Handled := by
  have only : Prog.RaisesOnly (fun fault => ¬fault.Handled)
      (createMissingChapterDirs reconciliation : Command toml Unit) :=
    Prog.RaisesOnly.forEach fun _ => raises_makeDirs (fun _ => id) id _
  exact only world fault raised

/-- Completing a `set-chapters` turn is contained when its paths are taken, nothing blocks their
places, none of them is the log, and the log can be opened. -/
theorem contained_completing (shows : Shows world state)
    (derives : deriveReconciliation state world.disk = .ok reconciliation)
    (completes : completesSetChapters reconciliation = true) :
    Contained (reconcile arith now world).result ↔
      ((∀ path ∈ reconciliation.missingPaths, Taken path) ∧
        ∀ place ∈ madePlaces world reconciliation,
          world.layout.blocked place = false ∧ place ≠ logLoc world.cwd) ∧ LogOpen world := by
  have turn : reconciliation.action = .rollbackPendingTurn ∨
      reconciliation.action = .completePendingTurn :=
    Or.inr (completesSetChapters_iff.mp completes).1
  have run : reconcile arith now world = _ := (reconcile_enacts shows derives).trans
    (congrFun (enactReconciliation_of_turn arith now turn) world)
  rw [run, Prog.result_bind_pure, Contained, confined_map]
  obtain ⟨opened, next, -, rewrites, shows', bracket⟩ := bracket_run now shows
    (reconciliation.action.text ++ ": " ++ reconciliation.detail) (pendingTurnEdit arith reconciliation)
  have cwd : next.cwd = world.cwd := by
    obtain ⟨held, text, rfl⟩ := rewrites
    rfl
  have layouts : next.layout = world.layout := congrArg Disk.layout rewrites.disk
  have returns : (createMissingChapterDirs reconciliation next).result = .ok () ↔
      (∀ path ∈ reconciliation.missingPaths, Taken path) ∧
        ∀ place ∈ madePlaces world reconciliation, world.layout.blocked place = false := by
    have made := @createMissingChapterDirs_returns toml next reconciliation
      (next.stateHeld shows'.held).1
    rwa [layouts, cwd] at made
  have edits : pendingTurnEdit arith reconciliation opened =
      (createMissingChapterDirs reconciliation >>= fun _ => pure opened) := by
    unfold pendingTurnEdit turnEdit recomputeCounts
    rw [if_pos completes]
  rw [bracket]
  unfold bracketRest
  rw [edits]
  cases making : (createMissingChapterDirs reconciliation : Command toml Unit) next with
  | mk trail result =>
      cases result with
      | error fault =>
          have raised : (createMissingChapterDirs reconciliation next).result = .error fault := by
            rw [making]
          rw [Prog.bind_error next (Prog.bind_error next making)]
          refine iff_of_false (fun contained => unhandled_of_createMissing raised (contained _ rfl)) ?_
          rintro ⟨⟨taken, clear⟩, -⟩
          rw [returns.mpr ⟨taken, fun place member => (clear place member).1⟩] at raised
          cases raised
      | ok value =>
          obtain ⟨taken, clear⟩ := returns.mp (by rw [making])
          have ended : trail.getLastD next = next.carved reconciliation := by
            unfold World.carved
            rw [making]
            rfl
          have edited : (createMissingChapterDirs reconciliation >>= fun _ => pure opened) next =
              ⟨trail, .ok opened⟩ := by
            rw [Prog.bind_ok next making, Prog.pure_apply, List.append_nil]
          have held : (next.carved reconciliation).stateToml.isSome := by
            rw [stateToml_carved]
            exact shows'.held
          have ending : Contained (bracketEnd now
              (reconciliation.action.text ++ ": " ++ reconciliation.detail) opened
              (trail.getLastD next)).result ↔
                LogOpen world ∧ logLoc world.cwd ∉ madePlaces world reconciliation := by
            rw [ended, contained_bracketEnd held, logOpen_carved (next.stateHeld shows'.held).1, layouts,
              cwd, Layout.cleared_eq_self.mpr clear, logOpen_rewrites rewrites]
          rw [Prog.bind_ok next edited]
          refine Iff.trans ending ?_
          constructor
          · rintro ⟨opens, apart⟩
            exact ⟨⟨taken, fun place member =>
              ⟨clear place member, fun same => apart (same ▸ member)⟩⟩, opens⟩
          · rintro ⟨⟨-, places⟩, opens⟩
            exact ⟨opens, fun member => (places _ member).2 rfl⟩

/-- What a run of `reconcile` needs after its derivation. -/
structure Enactable (arith : RatioArithmetic) (world : World toml.Text) (state : State) : Prop where
  judged : Recounting state world.disk → Judgeable arith (state.counted world.disk)
  /-- The system takes every path to be made, nothing blocks its places, and none is the log. -/
  places : ∀ pending, Completes state world.disk pending →
    (∀ path ∈ missingDeclaredPaths pending.paths world.disk, Taken path) ∧
      ∀ place ∈ declaredPlaces (missingDeclaredPaths pending.paths world.disk) (workingLoc world.cwd),
        world.layout.blocked place = false ∧ place ≠ logLoc world.cwd
  /-- A receipt is written unless there is nothing to repair, or the counts are refused. -/
  log : (Recounting state world.disk → Coherent arith (state.counted world.disk)) →
    Undisturbed state world.disk ∨ LogOpen world

/-- A reconciliation that completes a turn of `set-chapters` rewrites no counts. -/
theorem rewritesCounts_of_completes (completes : completesSetChapters reconciliation = true) :
    rewritesCounts reconciliation = false := by
  unfold rewritesCounts recomputes
  rw [(completesSetChapters_iff.mp completes).1, completes]
  rfl

/-- After a derivation, `reconcile` is contained when it has what it needs. -/
theorem contained_enacting (shows : Shows world state)
    (derives : deriveReconciliation state world.disk = .ok reconciliation) :
    Contained (reconcile arith now world).result ↔ Enactable arith world state := by
  have recounts := rewritesCounts_iff derives
  have quiet := undisturbed_iff derives
  by_cases completes : completesSetChapters reconciliation = true
  · obtain ⟨pending, due, missing⟩ := completes_of_derives derives completes
    have unrecounted : ¬Recounting state world.disk := by
      rw [← recounts, rewritesCounts_of_completes completes]
      exact Bool.false_ne_true
    have disturbed : ¬Undisturbed state world.disk := by
      rw [quiet, (completesSetChapters_iff.mp completes).1]
      simp
    rw [contained_completing shows derives completes, madePlaces, missing]
    constructor
    · rintro ⟨places, opens⟩
      refine ⟨fun recounting => absurd recounting unrecounted, fun other again => ?_, fun _ => Or.inr opens⟩
      rw [due.unique again]
      exact places
    · intro enactable
      refine ⟨enactable.places pending due, ?_⟩
      exact (enactable.log fun recounting => absurd recounting unrecounted).resolve_left disturbed
  · have unmade : ∀ pending, ¬Completes state world.disk pending := by
      intro pending due
      obtain ⟨other, derives', completing, -⟩ := due.derives
      rw [derives, Except.ok.injEq] at derives'
      exact completes (derives' ▸ completing)
    by_cases rewrites : rewritesCounts reconciliation = true
    · have recounting := recounts.mp rewrites
      have disturbed : ¬Undisturbed state world.disk := by
        rw [quiet]
        rintro (idle | recreates)
        · rw [rewritesCounts, recomputes, idle] at rewrites
          cases rewrites
        · rw [rewritesCounts, recomputes, recreates] at rewrites
          cases rewrites
      rw [contained_recounting shows derives rewrites]
      constructor
      · rintro ⟨judged, opens⟩
        exact ⟨fun _ => judged, fun pending due => absurd due (unmade pending),
          fun coherent => Or.inr (opens (coherent recounting))⟩
      · intro enactable
        refine ⟨enactable.judged recounting, fun coherent => ?_⟩
        exact (enactable.log fun _ => coherent).resolve_left disturbed
    · have unrecounted := mt recounts.mpr rewrites
      have needsLog : Enactable arith world state ↔ Undisturbed state world.disk ∨ LogOpen world := by
        constructor
        · exact fun enactable => enactable.log fun recounting => absurd recounting unrecounted
        · exact fun needed => ⟨fun recounting => absurd recounting unrecounted,
            fun pending due => absurd due (unmade pending), fun _ => needed⟩
      rw [needsLog]
      by_cases undisturbed : Undisturbed state world.disk
      · exact iff_of_true (contained_undisturbed shows derives undisturbed) (Or.inl undisturbed)
      · rw [or_iff_right undisturbed]
        rw [quiet, not_or] at undisturbed
        have turn : reconciliation.action = .rollbackPendingTurn ∨
            reconciliation.action = .completePendingTurn →
            (Contained (reconcile arith now world).result ↔ LogOpen world) := by
          intro action
          have incomplete := Bool.not_eq_true _ ▸ completes
          refine contained_clearing shows derives action incomplete (Bool.eq_false_iff.mpr fun writes => ?_)
          rcases action with action | action <;>
            exact rewrites (by rw [rewritesCounts, recomputes, action, incomplete, writes]; rfl)
        cases action : reconciliation.action with
        | none => exact absurd action undisturbed.1
        | recreateLog => exact absurd action undisturbed.2
        | recount => exact absurd (by rw [rewritesCounts, recomputes, action]) rewrites
        | refuse => exact contained_refusing shows derives action
        | completePendingTurn => exact turn (Or.inr action)
        | rollbackPendingTurn => exact turn (Or.inl action)

/-- `reconcile` is contained on a readable tree without an odd record, where it has what it needs. -/
theorem contained_reconcile (shows : Shows world state) :
    Contained (reconcile arith now world).result ↔ Readable state world.disk ∧
      ¬OddRecord state world.disk ∧ Enactable arith world state := by
  rw [reconcile_run shows, Prog.result_observe_bind]
  refine (confined_bind.trans (and_congr_left fun _ => contained_derive caught_read)).trans ?_
  rw [and_assoc]
  refine and_congr_right fun readable => and_congr_right fun even => ?_
  obtain ⟨reconciliation, derives⟩ := derives_iff.mpr ⟨readable, even⟩
  have enacts := @contained_enacting toml arith now world state reconciliation shows derives
  rw [reconcile_enacts shows derives] at enacts
  rw [← enacts]
  constructor
  · exact fun contained => contained reconciliation derives
  · intro contained other derives'
    rw [derives, Except.ok.injEq] at derives'
    exact derives' ▸ contained

end Ends

/-! ## All the commands -/

section Commands

variable {toml : Tomlkit} (arith : FloatArithmetic) (engine : RegexEngine) (tomllib : Tomllib)
  (now : String) (pack ledger : Resource) (chapter : Option Int) (world : World toml.Text) (state : State)

/-- No raw fault leaves any of the eight commands, `desloppify` in either of its modes. -/
structure AllContained : Prop where
  check : Contained (check arith.toRatioArithmetic world).result
  recount : Contained (recount arith.toRatioArithmetic world).result
  reconcile : Contained (reconcile arith.toRatioArithmetic now world).result
  compile : Contained (compileManuscript world).result
  checkCompiled : Contained (checkCompiled world).result
  done : Contained (novelDone world).result
  wordcount : Contained (wordcount arith world).result
  desloppify :
    Confined ScanFault.Handled (desloppify engine arith tomllib pack chapter world).result
  ledger : Confined ScanFault.Handled (ledgerScan engine tomllib ledger world).result

/-- What the commands need of a tree, a record, some quotients, a pack and a ledger. -/
structure Survivable : Prop where
  readable : Readable state world.disk
  even : ¬OddRecord state world.disk
  enactable : Enactable arith.toRatioArithmetic world state
  recorded : Judgeable arith.toRatioArithmetic state
  recounted : Judgeable arith.toRatioArithmetic (state.counted world.disk)
  report : ReportFits arith state.wordCounts.target state.chapters
    (world.disk.recountTable state.chapters)
  loads : ¬pack.NotUtf8 ∧ ¬tomllib.Refuses pack ∧
    ∀ raw, tomllib.Decodes pack raw → ¬PackSlips engine raw
  shown : ∀ rulepack, loadRulepack engine tomllib pack = .ok rulepack →
    SelectionSpelled state.chapters chapter ∧
      ∀ selected, selectChapters state.chapters chapter = .ok selected →
        PackShown arith rulepack
          (selected.map fun entry => ⟨entry.number, world.disk.draftBody entry.number⟩)
  ledgerLoads : ¬ledger.NotUtf8 ∧ ¬tomllib.Refuses ledger ∧
    ∀ raw, tomllib.Decodes ledger raw → ¬LedgerSlips engine raw
  ledgerShown : ∀ devices, loadLedger engine tomllib ledger = .ok devices →
    LedgerShown devices ((sortedChapters state.chapters).map fun entry =>
      ⟨entry.number, world.disk.draftBody entry.number⟩)

end Commands

/-- A selection is of the manifest. -/
theorem mem_of_selectChapters {manifest selected : List ChapterEntry} {chapter : Option Int}
    (selects : selectChapters manifest chapter = .ok selected) {entry : ChapterEntry}
    (member : entry ∈ selected) : entry ∈ manifest := by
  cases chapter with
  | none =>
      cases selects
      exact mem_sortedChapters.mp member
  | some number =>
      unfold selectChapters at selects
      dsimp only at selects
      split at selects
      · obtain ⟨_, -, refused⟩ := except_bind_eq_ok.mp selects
        cases refused
      · cases selects
        exact mem_sortedChapters.mp (List.mem_of_mem_filter member)

/-- No raw fault leaves any of the commands exactly where they have what they need. -/
theorem all_contained_iff {toml : Tomlkit} {arith : FloatArithmetic} {engine : RegexEngine}
    {tomllib : Tomllib} {now : String} {pack ledger : Resource} {chapter : Option Int}
    {world : World toml.Text} {state : State} (shows : Shows world state) :
    AllContained arith engine tomllib now pack ledger chapter world ↔
      Survivable arith engine tomllib pack ledger chapter world state := by
  constructor
  · intro all
    obtain ⟨readable, even, enactable⟩ := (contained_reconcile shows).mp all.reconcile
    obtain ⟨loads, shown⟩ := (contained_desloppify shows).mp all.desloppify
    obtain ⟨ledgerLoads, ledgerShown⟩ := (contained_ledgerScan shows).mp all.ledger
    exact {
      readable, even, enactable
      recorded := ((contained_check shows).mp all.check).1
      recounted := (contained_recount shows).mp all.recount readable.drafts
      report := (contained_wordcount shows).mp all.wordcount readable.drafts
      loads
      shown := fun rulepack loaded => by
        obtain ⟨spelled, shows⟩ := shown rulepack loaded
        refine ⟨spelled, fun selected selects => shows selected selects fun entry member => ?_⟩
        exact readable.drafts entry (mem_of_selectChapters selects member)
      ledgerLoads
      ledgerShown := fun devices loaded => ledgerShown devices loaded readable.drafts }
  · intro survivable
    exact {
      check := (contained_check shows).mpr
        ⟨survivable.recorded, fun odd => survivable.even odd.2⟩
      recount := (contained_recount shows).mpr fun _ => survivable.recounted
      reconcile := (contained_reconcile shows).mpr
        ⟨survivable.readable, survivable.even, survivable.enactable⟩
      compile := contained_compile shows
      checkCompiled := contained_checkCompiled shows
      done := contained_novelDone shows
      wordcount := (contained_wordcount shows).mpr fun _ => survivable.report
      desloppify := (contained_desloppify shows).mpr ⟨survivable.loads,
        fun rulepack loaded => ⟨(survivable.shown rulepack loaded).1, fun selected selects _ =>
          (survivable.shown rulepack loaded).2 selected selects⟩⟩
      ledger := (contained_ledgerScan shows).mpr ⟨survivable.ledgerLoads,
        fun devices loaded _ => survivable.ledgerShown devices loaded⟩ }

/-- The text of a ledger with one device. -/
def oneDeviceText : String :=
  "schema_version = 1\n[[device]]\nid = \"letter\"\npattern = \"a\"\nmax_count = 1\n"

/-- A decoder of the pack with one rule and of this ledger. -/
def scanTomllib : Tomllib where
  parse text :=
    if text = oneDeviceText then .ok [("schema_version", .int 1),
      ("device", .array [.table [("id", .str "letter"), ("pattern", .str "a"), ("max_count", .int 1)]])]
    else oneRuleTomllib.parse text

/-- A manuscript of two words, scanned with a pack of one rule and a ledger of one device. -/
theorem all_contained_reversed : Survivable .doubles literalEngine scanTomllib
    ⟨"pack.toml", .ok oneRuleText.toUTF8⟩ ⟨"ledger.toml", .ok oneDeviceText.toUTF8⟩ none
    reversedWorld reversedState :=
  (@all_contained_iff _ _ _ _ "" _ _ _ _ _ shows_reversed).mp
    ⟨by decide +kernel, by decide +kernel, by decide +kernel, by decide +kernel, by decide +kernel,
      by decide +kernel, by decide +kernel, by decide +kernel, by decide +kernel⟩

/-- The same manuscript with a draft in another encoding. -/
def garbledWorld : World Tomlkit.structural.Text :=
  reversedWorld.putFile ["draft.md", "chapter-01", "manuscript", "working"] .notUtf8

theorem shows_garbled : Shows garbledWorld reversedState := shown?_eq_some.mp (by decide +kernel)

/-- `reconcile` meets the draft outside a guard, and the decode fault leaves it. -/
theorem garbled_draft_escapes :
    ¬∀ (world : World Tomlkit.structural.Text) (state : State), Shows world state →
      AllContained .doubles literalEngine scanTomllib "" ⟨"pack.toml", .ok oneRuleText.toUTF8⟩
        ⟨"ledger.toml", .ok oneDeviceText.toUTF8⟩ none world := by
  intro contained
  have raised : (reconcile RatioArithmetic.doubles "" garbledWorld).result =
      .error .unicodeDecodeError := raised?_eq_some.mp (by decide +kernel)
  exact (contained garbledWorld reversedState shows_garbled).reconcile _ raised

end NovelRalph
