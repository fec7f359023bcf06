import NovelRalph.System.GateDeadlock
import NovelRalph.System.Lifecycle
import NovelRalph.System.TwoRecounts

/-!
# The guarded machine

What the seven single-file mutators are for: guarded steps between states. The
guards speak of the state and the drafts alone; no validator is run.

On the states of a run from `init` the commands are exactly this machine. A
command whose guard holds exits 0 and writes the machine's next state, and any
other has no effect at all.
-/

namespace NovelRalph

/-! ## Guards and steps -/

/-- There is no target, or the total is below every knitting threshold of it. -/
def heldBack (arith : RatioArithmetic) (target total : Int) : Bool :=
  decide (target ≤ 0) ||
    match arith.quotient total target with
    | some ratio => KnittingGate.all.all fun gate => decide (ratio < arith.threshold gate)
    | none => false

/-- No knitting gate is to be recorded true. -/
def GateSelection.lowers (selection : GateSelection) : Bool :=
  KnittingGate.all.all fun gate => decide (selection.knitting gate ≠ some true)

/-- Where the machine moves on a command; `none` where the guard fails. -/
def State.respond (arith : RatioArithmetic) (disk : Disk) (state : State) :
    Invocation → Option State
  | .setCursor chapter scene beat =>
      if [chapter, scene, beat].any tooLong then none
      else if cursorCoherent chapter scene beat state.chapters.length then
        some { state with drafting := { state.drafting with
          currentChapter := chapter, currentScene := scene, currentBeat := beat } }
      else none
  | .advancePhase =>
      match Phase.order[state.phase.current.index + 1]? with
      | some successor =>
          if successor = .drafting ∧ state.chapters = [] then none
          else some { state with phase := {
            current := successor, completed := state.phase.completed ++ [state.phase.current] } }
      | none => none
  | .recount =>
      match disk.recountWords state.chapters with
      | .ok (total, table) =>
          if heldBack arith state.wordCounts.target total then some (state.recounted table)
          else none
      | .error _ => none
  | .setGate selection =>
      if selection.anySet && (decide (state.wordCounts.target ≤ 0) || selection.lowers) then
        some { state with gates := selection.apply state.gates }
      else none
  | .completeFinalPass =>
      some { state with gates := { state.gates with final := { finalPassComplete := true } } }
  | .setFangirl lastChapter =>
      if [lastChapter].any tooLong then none
      else if 0 ≤ lastChapter ∧ lastChapter ≤ state.chapters.length then
        some { state with drafting := { state.drafting with
          fangirl := { lastChapterPassed := lastChapter } } }
      else none
  | .setCriticPass pass =>
      if [pass].any tooLong then none
      else if 1 ≤ pass then
        some { state with drafting := { state.drafting with
          critic := { state.drafting.critic with passNumber := pass } } }
      else none
  | .setChapters _ => none
  | .reconcile => none

/-! ## The states of a run -/

/-- Coherent, with chapter numbers that were spelled, without a clean pass, and without a recorded
gate while there is a target. -/
structure Ungated (arith : RatioArithmetic) (state : State) : Prop where
  coherent : Coherent arith state
  spelled : ∀ entry ∈ state.chapters, tooLong entry.number = false
  unclean : state.drafting.critic.consecutiveClean = 0
  down : 0 < state.wordCounts.target → ∀ gate, state.gates.knitting.flag gate = false

section States

variable {arith : RatioArithmetic} {state next : State} {invocation : Invocation}

theorem ungated_initial (arith : RatioArithmetic) (title slug : String) (target : Int)
    (createdAt : String) : Ungated arith (initialState title slug target createdAt) where
  coherent := coherent_initial arith title slug target createdAt
  spelled _ member := absurd member List.not_mem_nil
  unclean := rfl
  down _ gate := by cases gate <;> rfl

/-- The target is the one `init` was given. -/
theorem Effect.target (effect : Effect arith state invocation next) :
    next.wordCounts.target = state.wordCounts.target := by
  cases effect with
  | mutated mutates _ => cases mutates <;> rfl
  | planned accepted pending => rfl
  | recovered recovers => cases recovers <;> rfl

/-- No invocation passes a critic or records a gate. -/
theorem Effect.ungated (effect : Effect arith state invocation next)
    (holds : Ungated arith state) : Ungated arith next := by
  refine ⟨effect.coherent holds.coherent, ?_, ?_, fun positive gate => ?_⟩
  · cases effect with
    | mutated mutates _ => cases mutates <;> exact holds.spelled
    | planned accepted pending => exact accepted.spelled
    | recovered recovers => cases recovers <;> exact holds.spelled
  · cases effect with
    | mutated mutates _ => cases mutates <;> exact holds.unclean
    | planned accepted pending => exact holds.unclean
    | recovered recovers => cases recovers <;> exact holds.unclean
  · rw [effect.target] at positive
    exact (effect.gatesDown positive ⟨holds.coherent, rfl, holds.down positive⟩).down gate

/-- A held-back total agrees with gates that are all down. -/
theorem gates_of_heldBack {target total : Int} (held : heldBack arith target total = true)
    (positive : 0 < target) : ∃ ratio, arith.quotient total target = some ratio ∧
      ∀ gate, ratio < arith.threshold gate := by
  unfold heldBack at held
  rw [decide_eq_false (not_le.mpr positive), Bool.false_or] at held
  cases divided : arith.quotient total target with
  | none =>
      rw [divided] at held
      cases held
  | some ratio =>
      rw [divided] at held
      exact ⟨ratio, rfl, fun gate =>
        of_decide_eq_true (List.all_eq_true.mp held gate (KnittingGate.mem_all gate))⟩

/-- A total that agrees with gates that are all down is held back. -/
theorem heldBack_of_gates {target total : Int}
    (agrees : 0 < target → ∃ ratio, arith.quotient total target = some ratio ∧
      ∀ gate, false = decide (arith.threshold gate ≤ ratio)) :
    heldBack arith target total = true := by
  unfold heldBack
  by_cases positive : 0 < target
  · obtain ⟨ratio, divided, below⟩ := agrees positive
    rw [divided, decide_eq_false (not_le.mpr positive), Bool.false_or]
    exact List.all_eq_true.mpr fun gate _ => decide_eq_true
      (not_le.mp (of_decide_eq_false (below gate).symm))
  · rw [decide_eq_true (not_lt.mp positive), Bool.true_or]

theorem GateSelection.lowers_iff {selection : GateSelection} :
    selection.lowers = true ↔ ∀ gate, selection.knitting gate ≠ some true := by
  unfold GateSelection.lowers
  rw [List.all_eq_true]
  exact ⟨fun all gate => of_decide_eq_true (all gate (KnittingGate.mem_all gate)),
    fun all gate _ => decide_eq_true (all gate)⟩

/-- The phases up to a successor. -/
theorem Phase.take_successor {phase successor : Phase}
    (succeeds : Phase.order[phase.index + 1]? = some successor) :
    Phase.order.take phase.index ++ [phase] = Phase.order.take successor.index := by
  rw [Phase.index_of_getElem? succeeds, List.take_add_one, Phase.order_getElem?_index]
  rfl

/-- The machine steps from state to state of a run. -/
theorem Ungated.respond_coherent {disk : Disk} (ungated : Ungated arith state)
    (responds : state.respond arith disk invocation = some next) : Coherent arith next := by
  have coherent := ungated.coherent
  cases invocation with
  | setCursor chapter scene beat =>
      simp only [State.respond, Option.ite_none_left_eq_some, Option.ite_none_right_eq_some,
        Option.some.injEq] at responds
      obtain ⟨-, cursor, rfl⟩ := responds
      exact { coherent with cursor := cursor }
  | advancePhase =>
      cases succeeds : Phase.order[state.phase.current.index + 1]? with
      | none => simp [State.respond, succeeds] at responds
      | some successor =>
          simp only [State.respond, succeeds, Option.ite_none_left_eq_some,
            Option.some.injEq] at responds
          obtain ⟨-, rfl⟩ := responds
          refine { coherent with completed := ?_ }
          show state.phase.completed ++ [state.phase.current] = _
          rw [coherent.completed]
          exact Phase.take_successor succeeds
  | recount =>
      cases counted : disk.recountWords state.chapters with
      | error fault => simp [State.respond, counted] at responds
      | ok result =>
          obtain ⟨total, table⟩ := result
          simp only [State.respond, counted, Option.ite_none_right_eq_some,
            Option.some.injEq] at responds
          obtain ⟨held, rfl⟩ := responds
          have same : total = table.values.sum := Disk.recountWords_total counted
          refine { coherent with
            sum := rfl, clean_le_drafted := ?_, gates := fun positive => ?_ }
          · show state.drafting.critic.consecutiveClean ≤ _
            rw [ungated.unclean]
            exact Int.natCast_nonneg _
          · obtain ⟨ratio, divided, below⟩ := gates_of_heldBack held positive
            refine ⟨ratio, by rw [← divided, same]; rfl, fun gate => ?_⟩
            rw [decide_eq_false (not_le.mpr (below gate))]
            exact ungated.down positive gate
  | setGate selection =>
      simp only [State.respond, Option.ite_none_right_eq_some, Option.some.injEq,
        Bool.and_eq_true, Bool.or_eq_true, decide_eq_true_eq, GateSelection.lowers_iff] at responds
      obtain ⟨⟨-, lowers⟩, rfl⟩ := responds
      refine { coherent with gates := fun positive => ?_ }
      obtain ⟨ratio, divided, flags⟩ := coherent.gates positive
      refine ⟨ratio, divided, fun gate => ?_⟩
      rw [← flags gate]
      show (selection.apply state.gates).knitting.flag gate = _
      rw [selection.flag_apply, ungated.down positive gate]
      cases named : selection.knitting gate with
      | none => rfl
      | some flag =>
          cases flag with
          | false => rfl
          | true => exact absurd named (lowers.resolve_left (not_le.mpr positive) gate)
  | completeFinalPass =>
      cases responds
      exact { coherent with }
  | setFangirl lastChapter =>
      simp only [State.respond, Option.ite_none_left_eq_some, Option.ite_none_right_eq_some,
        Option.some.injEq] at responds
      obtain ⟨-, -, rfl⟩ := responds
      exact { coherent with }
  | setCriticPass pass =>
      simp only [State.respond, Option.ite_none_left_eq_some, Option.ite_none_right_eq_some,
        Option.some.injEq] at responds
      obtain ⟨-, -, rfl⟩ := responds
      exact { coherent with }
  | setChapters chapters => cases responds
  | reconcile => cases responds

end States

/-! ## The commands are the machine -/

section Commands

variable {toml : Tomlkit} {arith : RatioArithmetic} {now : String} {world : World toml.Text}
  {state next : State} {invocation : Invocation}

/-- What an accepted command does: one replacement of `state.toml`, and exit 0. -/
def Steps (world : World toml.Text) (next : State)
    (run : Run (World toml.Text) Fault CommandOutcome) : Prop :=
  ∃ later outcome, run = ⟨[later], .ok outcome⟩ ∧ outcome.code = .success ∧
    Rewrites world later ∧ Shows later next

/-- A plan whose edits propose a coherent state is carried out. -/
theorem steps_of_plan {plan : World toml.Text → State → Except Fault (MutationPlan State)}
    {planned : MutationPlan State} (shows : Shows world state) (plans : plan world state = .ok planned)
    (success : planned.outcome.code = .success)
    (proposes : ∀ body, parseState body = .ok state →
      parseState (planned.edits.foldl Table.edit body) = .ok next)
    (coherent : Coherent arith next) : Steps world next (mutateState arith plan world) := by
  rcases @mutateState_cases toml arith plan world with
    ⟨fault, refused⟩ | ⟨prior, chosen, body, proposed, text, held, shows', plans', read, reread, -,
      parsed, accepted⟩
  · obtain ⟨text, held⟩ := Option.isSome_iff_exists.mp shows.held
    rw [(mutateState_run shows held plans proposes).1 coherent] at refused
    cases refused
  · rw [shows'.unique shows] at plans' read
    rw [plans, Except.ok.injEq] at plans'
    subst plans'
    rw [proposes body read, Except.ok.injEq] at reread
    subst reread
    exact ⟨_, _, accepted, success, ⟨held, text, rfl⟩,
      shows_withState held parsed (proposes body read)⟩

/-- A command whose guard holds makes the machine's step. -/
theorem steps_of_respond (shows : Shows world state) (ungated : Ungated arith state)
    (responds : state.respond arith world.disk invocation = some next) :
    Steps world next (invocation.run arith now world) := by
  have coherent := ungated.respond_coherent responds
  cases invocation with
  | setCursor chapter scene beat =>
      simp only [State.respond, Option.ite_none_left_eq_some, Option.ite_none_right_eq_some,
        Option.some.injEq] at responds
      obtain ⟨short, -, rfl⟩ := responds
      exact steps_of_plan shows (except_bind_eq_ok.mpr ⟨(), if_neg short, rfl⟩) rfl
        (fun body read =>
          parse_setCurrentBeat (parse_setCurrentScene (parse_setCurrentChapter read _) _) _) coherent
  | advancePhase =>
      cases succeeds : Phase.order[state.phase.current.index + 1]? with
      | none => simp [State.respond, succeeds] at responds
      | some successor =>
          simp only [State.respond, succeeds, Option.ite_none_left_eq_some,
            Option.some.injEq] at responds
          obtain ⟨planned, rfl⟩ := responds
          have found : successorOrStateError state.phase.current = .ok successor := by
            unfold successorOrStateError
            rw [succeeds]
          have allowed : ¬ (successor = .drafting && state.chapters.isEmpty) = true := by
            simpa using planned
          obtain ⟨plan, same, planned, plans, edits, success⟩ : ∃ plan,
              (advancePhase arith : Command toml CommandOutcome) = mutateState arith plan ∧
              ∃ planned, plan world state = .ok planned ∧ planned.edits =
                [setCompleted (state.phase.completed ++ [state.phase.current]),
                  setCurrentPhase successor] ∧ planned.outcome.code = .success := by
            refine ⟨_, rfl, {
              edits := _
              context := "advance-phase"
              remedy := noRemedy
              outcome := {
                code := .success
                result := [("from", .str state.phase.current.value), ("to", .str successor.value)]
                messages := ["advanced phase from " ++ reprText state.phase.current.value ++
                  " to " ++ reprText successor.value] } },
              except_bind_eq_ok.mpr ⟨(), refuseIfIncoherent_eq_ok.mpr ungated.coherent,
                except_bind_eq_ok.mpr ⟨successor, found, ?_⟩⟩, rfl, rfl⟩
            exact if_neg allowed
          show Steps world _ (advancePhase arith world)
          rw [same]
          refine steps_of_plan shows plans success (fun body read => ?_) coherent
          rw [edits]
          exact parse_setCurrentPhase (parse_setCompleted read _) _
  | recount =>
      cases counted : world.disk.recountWords state.chapters with
      | error fault => simp [State.respond, counted] at responds
      | ok result =>
          obtain ⟨total, table⟩ := result
          simp only [State.respond, counted, Option.ite_none_right_eq_some,
            Option.some.injEq] at responds
          obtain ⟨-, rfl⟩ := responds
          have same : total = table.values.sum := Disk.recountWords_total counted
          subst same
          exact steps_of_plan shows (except_bind_eq_ok.mpr
            ⟨_, guardStateInput_eq_ok.mpr counted, rfl⟩) rfl
            (fun body read => parse_recounted read table) coherent
  | setGate selection =>
      simp only [State.respond, Option.ite_none_right_eq_some, Option.some.injEq,
        Bool.and_eq_true] at responds
      obtain ⟨⟨supplied, -⟩, rfl⟩ := responds
      have body : ((Invocation.setGate selection).run arith now : Command toml CommandOutcome) =
          assertGates arith selection := if_pos supplied
      rw [body]
      exact steps_of_plan shows rfl rfl (fun body read => selection.parse_edits read) coherent
  | completeFinalPass =>
      cases responds
      exact steps_of_plan shows rfl rfl
        (fun body read => parse_setFinalPassComplete read true) coherent
  | setFangirl lastChapter =>
      simp only [State.respond, Option.ite_none_left_eq_some, Option.ite_none_right_eq_some,
        Option.some.injEq] at responds
      obtain ⟨short, within, rfl⟩ := responds
      exact steps_of_plan shows (except_bind_eq_ok.mpr ⟨(), if_neg short, if_pos within⟩) rfl
        (fun body read => parse_setLastChapterPassed read _) coherent
  | setCriticPass pass =>
      simp only [State.respond, Option.ite_none_left_eq_some, Option.ite_none_right_eq_some,
        Option.some.injEq] at responds
      obtain ⟨short, positive, rfl⟩ := responds
      exact steps_of_plan shows
        (except_bind_eq_ok.mpr ⟨(), if_neg short, if_neg (not_lt.mpr positive)⟩) rfl
        (fun body read => parse_setCriticPass read _) coherent
  | setChapters chapters => cases responds
  | reconcile => cases responds

/-- A recount that has an effect has counted the drafts. -/
theorem counted_of_recount (shows : Shows world state) {later : World toml.Text}
    (cut : later ∈ (recount arith world).trail) : ∃ total table,
      world.disk.recountWords state.chapters = .ok (total, table) ∧
      Coherent arith (state.recounted table) := by
  rcases @mutateState_cases toml arith _ world with
    ⟨fault, run⟩ | ⟨prior, chosen, body, proposed, text, held, shows', plans, read, reread,
      coherent, -, -⟩
  · rw [recount, run] at cut
    cases cut
  · rw [shows'.unique shows] at plans read
    obtain ⟨⟨total, table⟩, counted, plans⟩ := except_bind_eq_ok.mp plans
    rw [guardStateInput_eq_ok] at counted
    cases plans
    have same : total = table.values.sum := Disk.recountWords_total counted
    subst same
    rw [recountPlan_edits, parse_recounted read, Except.ok.injEq] at reread
    exact ⟨_, table, counted, reread ▸ coherent⟩

/-- A mutator that has an effect has spelled its integers. -/
theorem spelled_of_cut {plan : World toml.Text → State → Except Fault (MutationPlan State)}
    {numbers : List Int} {rest : World toml.Text → State → Except Fault (MutationPlan State)}
    (guarded : ∀ world prior, plan world prior = spelled numbers >>= fun _ => rest world prior)
    {later : World toml.Text} (cut : later ∈ (mutateState arith plan world).trail) :
    ¬ numbers.any tooLong = true := by
  rcases @mutateState_cases toml arith plan world with
    ⟨fault, run⟩ | ⟨prior, chosen, body, proposed, text, -, -, plans, -⟩
  · rw [run] at cut
    cases cut
  · intro long
    rw [guarded, spelled, if_pos long] at plans
    cases plans

/-- A command that has an effect has its guard hold. -/
theorem responds_of_cut (shows : Shows world state) (ungated : Ungated arith state)
    (single : invocation.singleFile = true) {later : World toml.Text}
    (cut : later ∈ (invocation.run arith now world).trail) :
    ∃ next, state.respond arith world.disk invocation = some next := by
  rcases @singleFile_cases toml arith now world invocation single with ⟨fault, run⟩ |
    ⟨outcome, -, run⟩ | ⟨prior, proposed, written, outcome, shows', mutates, coherent, -, -, run⟩
  · rw [run] at cut
    cases cut
  · rw [run] at cut
    cases cut
  · rw [shows'.unique shows] at mutates
    cases mutates with
    | setCursor chapter scene beat =>
        have short := spelled_of_cut (fun _ _ => rfl) cut
        exact ⟨_, (if_neg short).trans (if_pos coherent.cursor)⟩
    | advancePhase successor succeeds planned =>
        refine ⟨{ state with phase := {
          current := successor, completed := state.phase.completed ++ [state.phase.current] } }, ?_⟩
        rw [State.respond, succeeds]
        exact if_neg fun both => planned both.1 both.2
    | recount table =>
        obtain ⟨total, table, counted, coherent⟩ := counted_of_recount shows cut
        have same : total = table.values.sum := Disk.recountWords_total counted
        refine ⟨state.recounted table, ?_⟩
        rw [State.respond, counted]
        refine if_pos (heldBack_of_gates fun positive => ?_)
        obtain ⟨ratio, divided, flags⟩ := coherent.gates positive
        refine ⟨ratio, by rw [same]; exact divided, fun gate => ?_⟩
        rw [← flags gate]
        exact (ungated.down positive gate).symm
    | setGate selection =>
        have supplied : selection.anySet = true := by
          by_contra bare
          have body : ((Invocation.setGate selection).run arith now : Command toml CommandOutcome) =
              pure _ := if_neg bare
          rw [body] at cut
          cases cut
        refine ⟨_, if_pos ?_⟩
        rw [supplied, Bool.true_and, Bool.or_eq_true, decide_eq_true_eq,
          GateSelection.lowers_iff]
        by_cases positive : 0 < state.wordCounts.target
        · refine Or.inr fun gate raised => ?_
          rw [assertGates_refused shows ungated.coherent positive raised
            (ungated.down positive gate)] at cut
          cases cut
        · exact Or.inl (not_lt.mp positive)
    | completeFinalPass => exact ⟨_, rfl⟩
    | setFangirl lastChapter within =>
        have short := spelled_of_cut (fun _ _ => rfl) cut
        exact ⟨_, (if_neg short).trans (if_pos within)⟩
    | setCriticPass pass positive =>
        have short := spelled_of_cut (fun _ _ => rfl) cut
        exact ⟨_, (if_neg short).trans (if_pos positive)⟩

/-- On a state of a run, a single-file mutator is a step of the machine or without any effect. -/
theorem run_eq_respond (shows : Shows world state) (ungated : Ungated arith state)
    (single : invocation.singleFile = true) :
    (∀ next, state.respond arith world.disk invocation = some next →
      Steps world next (invocation.run arith now world)) ∧
    (state.respond arith world.disk invocation = none →
      (invocation.run arith now world).trail = [] ∧
        exitCodeOf (invocation.run arith now world).result ≠ some 0) := by
  refine ⟨fun next responds => steps_of_respond shows ungated responds, fun refuses => ?_⟩
  have quiet : (invocation.run arith now world).trail = [] := by
    refine List.eq_nil_iff_forall_not_mem.mpr fun later cut => ?_
    obtain ⟨next, responds⟩ := responds_of_cut shows ungated single cut
    rw [refuses] at responds
    cases responds
  refine ⟨quiet, fun exits => ?_⟩
  obtain ⟨outcome, returned, success⟩ := exitCodeOf_eq_zero.mp exits
  rcases @singleFile_cases toml arith now world invocation single with ⟨fault, run⟩ |
    ⟨outcome', usage, run⟩ | ⟨_, _, _, _, -, -, -, -, -, run⟩
  · rw [run] at returned
    cases returned
  · rw [run] at returned
    cases returned
    rw [usage] at success
    cases success
  · rw [run] at quiet
    cases quiet

end Commands

/-! ## Over every run -/

section Throughout

variable {toml : Tomlkit} {arith : RatioArithmetic} {title slug : String} {target : Int}
  {createdAt : String} {start world : World toml.Text} {state : State}

/-- What a run from `init` shows is coherent, and no gate is recorded while there is a target. -/
theorem Created.ungated (created : Created title slug target createdAt start)
    (run : Runs arith start world) (shows : Shows world state) : Ungated arith state := by
  have initial : Holds (Ungated arith) start :=
    created.holds (ungated_initial arith title slug target createdAt)
  obtain ⟨other, shows', ungated⟩ := run.preserves
    (fun _ _ _ holds effect => effect.ungated holds) initial shows.held
  rw [shows.unique shows']
  exact ungated

/-- Over every run from `init` the single-file mutators are the machine: a command whose guard
holds exits 0 and rewrites `state.toml` to the machine's next state, and any other leaves the tree
as it is and does not exit 0. -/
theorem machine_throughout (arith : RatioArithmetic)
    (created : Created title slug target createdAt start) (run : Runs arith start world)
    (shows : Shows world state) (invocation : Invocation) (single : invocation.singleFile = true)
    (now : String) :
    (∀ next, state.respond arith world.disk invocation = some next →
      Steps world next (invocation.run arith now world)) ∧
    (state.respond arith world.disk invocation = none →
      (invocation.run arith now world).trail = [] ∧
        exitCodeOf (invocation.run arith now world).result ≠ some 0) :=
  run_eq_respond shows (created.ungated run shows) single

theorem shows_initialWorld : Shows (initialWorld 1000)
    (initialState "Title" "slug" 1000 "2024-01-01T00:00:00Z") :=
  shown?_eq_some.mp (by decide +kernel)

/-- After `init` the 30% gate cannot be raised and a recount is carried out. -/
theorem machine_throughout_initial :
    ((Invocation.setGate ⟨some true, none, none, none⟩).run .doubles "" (initialWorld 1000)).trail =
        [] ∧
      ∃ next, Steps (initialWorld 1000) next (recount .doubles (initialWorld 1000)) := by
  have machine := fun invocation single => machine_throughout .doubles created_initialWorld .refl
    shows_initialWorld invocation single ""
  refine ⟨((machine (.setGate ⟨some true, none, none, none⟩) rfl).2 (by decide +kernel)).1, ?_⟩
  have counts : ((initialState "Title" "slug" 1000 "2024-01-01T00:00:00Z").respond .doubles
      (initialWorld 1000).disk .recount).isSome = true := by decide +kernel
  obtain ⟨next, responds⟩ := Option.isSome_iff_exists.mp counts
  exact ⟨next, (machine .recount rfl).1 next responds⟩

end Throughout

end NovelRalph
