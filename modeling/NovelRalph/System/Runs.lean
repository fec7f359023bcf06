import Mathlib.Logic.Relation
import NovelRalph.Commands.Bracket
import NovelRalph.Commands.Gates
import NovelRalph.Commands.Init

/-!
# Whole runs

The nine load-edit-rewrite commands, what any cut of any of them can have made
of the state, and the worlds that are reached from `init` by invocations, by
crashes between two of their effects, and by edits to anything but `state.toml`.

An invariant of the state is proved on `Effect` once; `Runs.preserves` and
`Created.holds` carry it to every reached world.
-/

namespace NovelRalph

/-- The nine commands that rewrite `state.toml`, with their arguments. -/
inductive Invocation where
  | setCursor (chapter scene beat : Int)
  | advancePhase
  | setChapters (chapters : List ChapterPlanEntry)
  | recount
  | reconcile
  | setGate (selection : GateSelection)
  | completeFinalPass
  | setFangirl (lastChapter : Int)
  | setCriticPass (pass : Int)

namespace Invocation

variable {toml : Tomlkit} (arith : RatioArithmetic) (now : String)

/-- The command body an invocation runs, with the clock it reads. -/
def run : Invocation → Command toml CommandOutcome
  | .setCursor chapter scene beat => NovelRalph.setCursor arith chapter scene beat
  | .advancePhase => NovelRalph.advancePhase arith
  | .setChapters chapters => setChaptersCommand arith now chapters
  | .recount => NovelRalph.recount arith
  | .reconcile => NovelRalph.reconcile arith now
  | .setGate selection => setGateCommand arith selection
  | .completeFinalPass => NovelRalph.completeFinalPass arith
  | .setFangirl lastChapter => NovelRalph.setFangirl arith lastChapter
  | .setCriticPass pass => NovelRalph.setCriticPass arith pass

/-- Whether the command replaces `state.toml` once, with no other effect. -/
def singleFile : Invocation → Bool
  | .setChapters _ | .reconcile => false
  | _ => true

end Invocation

/-! ## The effect of one invocation -/

/-- What a single-file mutator makes of the state it read. -/
inductive Mutates (arith : RatioArithmetic) (state : State) : Invocation → State → Prop where
  | setCursor (chapter scene beat : Int) :
      Mutates arith state (.setCursor chapter scene beat)
        { state with drafting := { state.drafting with
            currentChapter := chapter, currentScene := scene, currentBeat := beat } }
  | advancePhase (successor : Phase)
      (succeeds : Phase.order[state.phase.current.index + 1]? = some successor)
      (planned : successor = .drafting → state.chapters ≠ []) :
      Mutates arith state .advancePhase
        { state with phase := {
            current := successor, completed := state.phase.completed ++ [state.phase.current] } }
  | recount (table : Dict String Int) : Mutates arith state .recount (state.recounted table)
  | setGate (selection : GateSelection) :
      Mutates arith state (.setGate selection) { state with gates := selection.apply state.gates }
  | completeFinalPass :
      Mutates arith state .completeFinalPass
        { state with gates := { state.gates with final := { finalPassComplete := true } } }
  | setFangirl (lastChapter : Int) (within : 0 ≤ lastChapter ∧ lastChapter ≤ state.chapters.length) :
      Mutates arith state (.setFangirl lastChapter)
        { state with drafting := { state.drafting with
            fangirl := { lastChapterPassed := lastChapter } } }
  | setCriticPass (pass : Int) (positive : 1 ≤ pass) :
      Mutates arith state (.setCriticPass pass)
        { state with drafting := { state.drafting with
            critic := { state.drafting.critic with passNumber := pass } } }

/-- What an invocation can have made of the state at one of its cuts. -/
inductive Effect (arith : RatioArithmetic) (state : State) : Invocation → State → Prop where
  | mutated {invocation : Invocation} {next : State} (mutates : Mutates arith state invocation next)
      (coherent : Coherent arith next) : Effect arith state invocation next
  | planned {chapters : List ChapterPlanEntry} (accepted : PlanAccepted arith state chapters)
      (pending : Option PendingTurn) :
      Effect arith state (.setChapters chapters)
        { state.planned chapters with pendingTurn := pending }
  | recovered {next : State} (recovers : Recovered arith state next) :
      Effect arith state .reconcile next

/-- No invocation makes a coherent state incoherent, at any cut. -/
theorem Effect.coherent {arith : RatioArithmetic} {state next : State} {invocation : Invocation}
    (effect : Effect arith state invocation next) (holds : Coherent arith state) :
    Coherent arith next := by
  cases effect with
  | mutated mutates coherent => exact coherent
  | planned accepted pending => exact coherent_withPending.mpr accepted.coherent
  | recovered recovers =>
      cases recovers with
      | record pending => exact coherent_withPending.mpr holds
      | counts table pending coherent => exact coherent_withPending.mpr coherent

section Cuts

variable {toml : Tomlkit} {arith : RatioArithmetic} {now : String} {world : World toml.Text}

/-- A single-file mutator ends without effects, or its one effect is its change of the state. -/
theorem singleFile_cases {invocation : Invocation} (single : invocation.singleFile = true) :
    (∃ fault, invocation.run arith now world = ⟨[], .error fault⟩) ∨
    (∃ outcome, outcome.code = .usageError ∧
      invocation.run arith now world = ⟨[], .ok outcome⟩) ∨
    ∃ prior proposed next outcome, Shows world prior ∧ Mutates arith prior invocation proposed ∧
      Coherent arith proposed ∧ Rewrites world next ∧ Shows next proposed ∧
      invocation.run arith now world = ⟨[next], .ok outcome⟩ := by
  cases invocation with
  | setChapters chapters => cases single
  | reconcile => cases single
  | setCursor chapter scene beat =>
      refine (mutateState_steps ?_).imp_right Or.inr
      intro prior planned body chosen read
      obtain ⟨_, -, chosen⟩ := except_bind_eq_ok.mp chosen
      cases chosen
      exact ⟨_, parse_setCurrentBeat (parse_setCurrentScene (parse_setCurrentChapter read _) _) _,
        .setCursor chapter scene beat⟩
  | advancePhase =>
      refine (mutateState_steps ?_).imp_right Or.inr
      intro prior planned body chosen read
      obtain ⟨-, -, chosen⟩ := except_bind_eq_ok.mp chosen
      obtain ⟨successor, succeeds, chosen⟩ := except_bind_eq_ok.mp chosen
      have next : Phase.order[prior.phase.current.index + 1]? = some successor := by
        unfold successorOrStateError at succeeds
        split at succeeds <;> cases succeeds
        assumption
      by_cases unplanned : (successor = .drafting && prior.chapters.isEmpty) = true
      · simp [unplanned, throw, throwThe, MonadExceptOf.throw, bind, Except.bind] at chosen
      · simp only [unplanned] at chosen
        cases chosen
        refine ⟨_, parse_setCurrentPhase (parse_setCompleted read _) _, .advancePhase _ next ?_⟩
        rintro rfl empty
        simp [empty] at unplanned
  | recount =>
      refine (mutateState_steps ?_).imp_right Or.inr
      intro prior planned body chosen read
      obtain ⟨⟨current, table⟩, counted, chosen⟩ := except_bind_eq_ok.mp chosen
      have total : current = table.values.sum :=
        Disk.recountWords_total (guardStateInput_eq_ok.mp counted)
      cases chosen
      subst total
      exact ⟨_, parse_recounted read table, .recount table⟩
  | setGate selection =>
      by_cases supplied : selection.anySet = true
      · have body : ((Invocation.setGate selection).run arith now : Command toml CommandOutcome) =
            assertGates arith selection := if_pos supplied
        rw [body]
        refine (mutateState_steps ?_).imp_right Or.inr
        intro prior planned body chosen read
        cases chosen
        exact ⟨_, selection.parse_edits read, .setGate selection⟩
      · have body : ((Invocation.setGate selection).run arith now : Command toml CommandOutcome) =
            pure _ := if_neg supplied
        rw [body]
        exact Or.inr (Or.inl ⟨_, rfl, rfl⟩)
  | completeFinalPass =>
      refine (mutateState_steps ?_).imp_right Or.inr
      intro prior planned body chosen read
      cases chosen
      exact ⟨_, parse_setFinalPassComplete read true, .completeFinalPass⟩
  | setFangirl lastChapter =>
      refine (mutateState_steps ?_).imp_right Or.inr
      intro prior planned body chosen read
      obtain ⟨_, -, chosen⟩ := except_bind_eq_ok.mp chosen
      by_cases within : 0 ≤ lastChapter ∧ lastChapter ≤ prior.chapters.length
      · simp only [if_pos within] at chosen
        cases chosen
        exact ⟨_, parse_setLastChapterPassed read _, .setFangirl lastChapter within⟩
      · simp only [if_neg within] at chosen
        cases chosen
  | setCriticPass pass =>
      refine (mutateState_steps ?_).imp_right Or.inr
      intro prior planned body chosen read
      obtain ⟨_, -, chosen⟩ := except_bind_eq_ok.mp chosen
      by_cases small : pass < 1
      · simp only [if_pos small] at chosen
        cases chosen
      · simp only [if_neg small] at chosen
        cases chosen
        exact ⟨_, parse_setCriticPass read _, .setCriticPass pass (by omega)⟩

/-- A world with no readable state sees no effect of any command. -/
theorem shows_of_cut {invocation : Invocation} {next : World toml.Text}
    (cut : next ∈ (invocation.run arith now world).trail) : ∃ state, Shows world state := by
  by_cases single : invocation.singleFile = true
  · rcases singleFile_cases single with ⟨fault, run⟩ | ⟨outcome, -, run⟩ | ⟨prior, -, -, -, shows, -⟩
    · rw [run] at cut
      cases cut
    · rw [run] at cut
      cases cut
    · exact ⟨prior, shows⟩
  · cases invocation with
    | setChapters chapters =>
        change next ∈ (setChaptersCommand arith now chapters world).trail at cut
        unfold setChaptersCommand populateChapters at cut
        rcases opening_cases _ world with ⟨fault, run⟩ | ⟨document, state, shows, -⟩
        · rw [run] at cut
          cases cut
        · exact ⟨state, shows⟩
    | reconcile =>
        change next ∈ (reconcile arith now world).trail at cut
        unfold NovelRalph.reconcile reconcileView at cut
        rcases opening_cases _ world with ⟨fault, run⟩ | ⟨document, state, shows, -⟩
        · rw [run] at cut
          cases cut
        · exact ⟨state, shows⟩
    | _ => exact absurd rfl single

/-- Every cut of every invocation shows the effect of that invocation. -/
theorem effect_of_cut {state : State} (shows : Shows world state) {invocation : Invocation}
    {next : World toml.Text} (cut : next ∈ (invocation.run arith now world).trail) :
    ∃ after, Shows next after ∧ Effect arith state invocation after := by
  by_cases single : invocation.singleFile = true
  · rcases singleFile_cases single with ⟨fault, run⟩ | ⟨outcome, -, run⟩ |
      ⟨prior, proposed, written, outcome, shows', mutates, coherent, -, after, run⟩
    · rw [run] at cut
      cases cut
    · rw [run] at cut
      cases cut
    · rw [run, List.mem_singleton] at cut
      subst cut
      rw [shows'.unique shows] at mutates
      exact ⟨proposed, after, .mutated mutates coherent⟩
  · cases invocation with
    | setChapters chapters =>
        obtain ⟨accepted, pending, after⟩ :=
          (ensures_setChapters now chapters state world shows).1 next cut
        exact ⟨_, after, .planned accepted pending⟩
    | reconcile =>
        obtain ⟨after, shows', recovers⟩ := (ensures_reconcile now state world shows).1 next cut
        exact ⟨after, shows', .recovered recovers⟩
    | _ => exact absurd rfl single

end Cuts

/-! ## Runs from `init` -/

section Runs

variable {toml : Tomlkit} {arith : RatioArithmetic}

/-- One process, possibly killed, or one edit that leaves `state.toml` alone. -/
inductive Transition (arith : RatioArithmetic) (world : World toml.Text) : World toml.Text → Prop where
  | edit {next : World toml.Text} (place : next.cwd = world.cwd)
      (kept : next.stateToml = world.stateToml) : Transition arith world next
  | invoke (invocation : Invocation) (now : String) {next : World toml.Text}
      (cut : next ∈ (invocation.run arith now world).trail) : Transition arith world next

/-- Any number of transitions. -/
def Runs (arith : RatioArithmetic) : World toml.Text → World toml.Text → Prop :=
  Relation.ReflTransGen (Transition arith)

/-- A world which `init` leaves behind, possibly killed. -/
def Created (title slug : String) (target : Int) (createdAt : String) (world : World toml.Text) :
    Prop :=
  ∃ start, world ∈ (initCommand createdAt title slug target start).trail

/-- Whatever `state.toml` holds, it reads as a state of which `inv` holds. -/
def Holds (inv : State → Prop) (world : World toml.Text) : Prop :=
  world.stateToml.isSome → ∃ state, Shows world state ∧ inv state

/-- At every cut of `init` there is no `state.toml` yet, or it reads as the initial state. -/
theorem Created.cases {title slug : String} {target : Int} {createdAt : String}
    {world : World toml.Text} (created : Created title slug target createdAt world) :
    world.stateToml = none ∨ Shows world (initialState title slug target createdAt) := by
  obtain ⟨start, cut⟩ := created
  have absentKept : ∀ (base : World toml.Text → Loc) (path : PosixPath),
      Prog.Always (fun world : World toml.Text => world.stateToml = none) (makeDirsAt base path) := by
    intro base path
    refine always_makeDirsAt fun world loc absent => ?_
    unfold World.addDir
    split <;> exact absent
  have viewed : documentToState (buildInitialDocument title slug target createdAt : Document toml) =
      .ok (initialState title slug target createdAt) := by
    rw [documentToState, buildInitialDocument, Document.body_editAll]
    exact parse_initial title slug target createdAt
  have triple : Prog.Ensures (fun _ => True)
      (initCommand createdAt title slug target : Command toml CommandOutcome)
      (fun world => world.stateToml = none ∨
        Shows world (initialState title slug target createdAt)) (fun _ _ => True) := by
    have waits : ∀ {α : Type} {program : Command toml α},
        Prog.Always (fun world : World toml.Text => world.stateToml = none) program →
        Prog.Ensures (fun world : World toml.Text => world.stateToml = none) program
          (fun world => world.stateToml = none ∨
            Shows world (initialState title slug target createdAt))
          (fun _ world => world.stateToml = none) := fun always =>
      (Prog.Ensures.of_always always).weaken (fun _ start => start) (fun _ => Or.inl)
        (fun _ _ finish => finish)
    unfold initCommand
    refine Prog.Ensures.bind (Prog.Ensures.observe fun world there _ looked =>
      (show there = false → world.stateToml = none from ?_)) fun there => ?_
    · rintro rfl
      have free : world.layout (stateLoc world.cwd) = none := by
        simpa [World.exists?] using looked
      by_contra held
      refine (World.layout_eq_none.mp free).2 (Or.inl ⟨?_, rfl⟩)
      exact Option.isSome_iff_ne_none.mpr held
    cases there with
    | true => exact Prog.Ensures.raise
    | false =>
        refine Prog.Ensures.bind ((waits (absentKept _ _)).weaken (fun _ absent => absent rfl)
          (fun _ left => left) (fun _ _ finish => finish)) fun _ => ?_
        refine Prog.Ensures.bind (waits (Prog.Always.forEach fun name _ => absentKept _ _))
          fun _ => ?_
        refine Prog.Ensures.bind (waits (Prog.Always.observe _)) fun _ => ?_
        refine Prog.Ensures.bind ((ensures_write viewed).weaken (fun _ start => start)
          (fun _ => Or.inr) (fun _ _ finish => finish)) fun _ => ?_
        have truncates : Prog.Always
            (fun world => Shows world (initialState title slug target createdAt))
            (Prog.perform World.truncateLog : Command toml Unit) := by
          refine Prog.Always.perform fun world next shows truncated => shows.of_eq ?_
          unfold World.truncateLog at truncated
          split at truncated
          · split at truncated <;> cases truncated
            rfl
          · split at truncated <;> cases truncated
        refine Prog.Ensures.bind ((Prog.Ensures.of_always truncates).weaken (fun _ start => start)
          (fun _ => Or.inr) (fun _ _ _ => trivial)) fun _ => ?_
        refine Prog.Ensures.bind (Prog.Ensures.observe fun _ _ _ _ => trivial) fun _ => ?_
        exact Prog.Ensures.pure fun _ _ => trivial
  exact (triple start trivial).1 world cut

/-- The world which `init` makes of an empty root, with the editor on decoded tables. -/
def initialWorld (target : Int) : World Tomlkit.structural.Text :=
  let start := World.bare Tomlkit.structural.Text
  (initCommand "2024-01-01T00:00:00Z" "Title" "slug" target : Command Tomlkit.structural _) start
    |>.final start

/-- The state file that `init` leaves there. -/
theorem stateToml_initialWorld {target : Int} (short : tooLong target = false) :
    (initialWorld target).stateToml = some (.ok
      ((initialEdits "Title" "slug" target "2024-01-01T00:00:00Z").foldl Table.edit [])) := by
  unfold initialWorld initCommand
  rw [spelled_singleton.mpr short]
  rfl

theorem created_initialWorld :
    Created "Title" "slug" 1000 "2024-01-01T00:00:00Z" (initialWorld 1000) :=
  ⟨World.bare _, Run.final_mem_trail (by decide +kernel)⟩

/-- What holds of the initial state holds of every world `init` leaves behind. -/
theorem Created.holds {title slug : String} {target : Int} {createdAt : String}
    {world : World toml.Text} {inv : State → Prop}
    (created : Created title slug target createdAt world)
    (initial : inv (initialState title slug target createdAt)) : Holds inv world := by
  intro held
  rcases created.cases with absent | shows
  · rw [absent] at held
    cases held
  · exact ⟨_, shows, initial⟩

/-- What every effect preserves, every transition preserves. -/
theorem Transition.preserves {inv : State → Prop}
    (step : ∀ state invocation next, inv state → Effect arith state invocation next → inv next)
    {world next : World toml.Text} (transition : Transition arith world next)
    (holds : Holds inv world) : Holds inv next := by
  intro held
  cases transition with
  | edit place kept =>
      obtain ⟨state, shows, good⟩ := holds (by rwa [kept] at held)
      exact ⟨state, shows.of_eq kept, good⟩
  | invoke invocation now cut =>
      obtain ⟨state, shows⟩ := shows_of_cut cut
      obtain ⟨prior, shows', good⟩ := holds shows.held
      obtain ⟨after, later, effect⟩ := effect_of_cut shows' cut
      exact ⟨after, later, step prior invocation after good effect⟩

/-- What every effect preserves holds after every run. -/
theorem Runs.preserves {inv : State → Prop}
    (step : ∀ state invocation next, inv state → Effect arith state invocation next → inv next)
    {world later : World toml.Text} (run : Runs arith world later) (holds : Holds inv world) :
    Holds inv later := by
  induction run with
  | refl => exact holds
  | tail _ transition inductionHypothesis => exact transition.preserves step inductionHypothesis

end Runs

end NovelRalph
