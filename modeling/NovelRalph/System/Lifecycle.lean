import NovelRalph.System.Runs

/-!
# Coherence and progress over whole runs

The state of every world reached from `init` is coherent, its manifest is what a
plan was accepted as, and its phase only moves forward. Each is proved of one
effect and carried over runs by the rules of `NovelRalph.System.Runs`.
-/

namespace NovelRalph

/-- The phase at a position of the order has that index. -/
theorem Phase.index_of_getElem? {position : Nat} {phase : Phase}
    (there : Phase.order[position]? = some phase) : phase.index = position := by
  have listed : phase.index < Phase.order.length := by
    cases phase <;> decide
  have distinct : Phase.order.Nodup := by decide
  refine (List.getElem?_inj listed distinct).mp ?_
  rw [there, Phase.order_getElem?_index]

/-- What holds of the state in every reached world. -/
structure Lifecycle (arith : RatioArithmetic) (state : State) : Prop where
  coherent : Coherent arith state
  manifest : WellPlanned state.chapters
  populated : Phase.drafting.index ≤ state.phase.current.index → state.chapters ≠ []
  fangirl : 0 ≤ state.drafting.fangirl.lastChapterPassed ∧
    state.drafting.fangirl.lastChapterPassed ≤ state.chapters.length

/-- One state is a later one of the same novel. -/
structure Progress (before after : State) : Prop where
  phase : before.phase.current.index ≤ after.phase.current.index
  manifest : before.chapters ≠ [] → after.chapters = before.chapters

section Step

variable {arith : RatioArithmetic} {state next : State} {invocation : Invocation}

theorem Progress.refl (state : State) : Progress state state :=
  ⟨le_refl _, fun _ => rfl⟩

theorem Progress.trans {first second third : State} (early : Progress first second)
    (late : Progress second third) : Progress first third where
  phase := early.phase.trans late.phase
  manifest populated := by
    have kept := early.manifest populated
    rw [late.manifest (by rwa [kept]), kept]

/-- `done` is the last phase. -/
theorem Progress.done {before after : State} (progress : Progress before after)
    (finished : before.phase.current = .done) : after.phase.current = .done := by
  have later := progress.phase
  rw [finished] at later
  refine Phase.index_injective (le_antisymm ?_ later)
  cases after.phase.current <;> decide

/-- One invocation moves the phase by at most one and keeps a populated manifest. -/
theorem Effect.progress (effect : Effect arith state invocation next) :
    Progress state next ∧ next.phase.current.index ≤ state.phase.current.index + 1 := by
  cases effect with
  | mutated mutates coherent =>
      cases mutates with
      | advancePhase successor succeeds planned =>
          have moved := Phase.index_of_getElem? succeeds
          refine ⟨⟨?_, fun _ => rfl⟩, ?_⟩
          · show state.phase.current.index ≤ successor.index
            omega
          · show successor.index ≤ state.phase.current.index + 1
            omega
      | _ => exact ⟨⟨le_refl _, fun _ => rfl⟩, Nat.le_succ _⟩
  | planned accepted pending =>
      exact ⟨⟨le_refl _, fun populated => absurd accepted.empty populated⟩, Nat.le_succ _⟩
  | recovered recovers =>
      cases recovers <;> exact ⟨⟨le_refl _, fun _ => rfl⟩, Nat.le_succ _⟩

/-- One invocation keeps the lifecycle invariant. -/
theorem Effect.lifecycle (effect : Effect arith state invocation next)
    (holds : Lifecycle arith state) : Lifecycle arith next := by
  have coherent := effect.coherent holds.coherent
  cases effect with
  | mutated mutates _ =>
      cases mutates with
      | advancePhase successor succeeds planned =>
          refine ⟨coherent, holds.manifest, fun late => ?_, holds.fangirl⟩
          have moved := Phase.index_of_getElem? succeeds
          by_cases drafting : successor = .drafting
          · exact planned drafting
          · have differs : successor.index ≠ Phase.drafting.index :=
              fun same => drafting (Phase.index_injective same)
            have past : Phase.drafting.index ≤ successor.index := late
            exact holds.populated (by omega)
      | setFangirl lastChapter within => exact ⟨coherent, holds.manifest, holds.populated, within⟩
      | _ => exact ⟨coherent, holds.manifest, holds.populated, holds.fangirl⟩
  | planned accepted pending =>
      obtain ⟨nonEmpty, planned⟩ := wellPlanned_of_accepted accepted.accepted
      refine ⟨coherent, planned, fun _ => nonEmpty, holds.fangirl.1, ?_⟩
      have bound := holds.fangirl.2
      rw [accepted.empty] at bound
      exact bound.trans (Int.natCast_nonneg _)
  | recovered recovers =>
      cases recovers <;> exact ⟨coherent, holds.manifest, holds.populated, holds.fangirl⟩

/-- The state `init` writes has not begun. -/
theorem lifecycle_initial (arith : RatioArithmetic) (title slug : String) (target : Int)
    (createdAt : String) : Lifecycle arith (initialState title slug target createdAt) where
  coherent := coherent_initial arith title slug target createdAt
  manifest := ⟨rfl, List.nodup_nil, fun _ member => absurd member List.not_mem_nil⟩
  populated late := absurd late (show ¬ Phase.drafting.index ≤ Phase.premise.index by decide)
  fangirl := ⟨le_refl 0, le_refl 0⟩

end Step

/-- The initial world after one `advance-phase`. -/
def advancedWorld : World Tomlkit.structural.Text :=
  (advancePhase .exact (initialWorld 1000)).final (initialWorld 1000)

theorem runs_advancedWorld : Runs .exact (initialWorld 1000) advancedWorld :=
  .single (.invoke .advancePhase "" (Run.final_mem_trail (by decide +kernel)))

section Throughout

variable {toml : Tomlkit} {arith : RatioArithmetic} {title slug : String} {target : Int}
  {createdAt : String} {start world : World toml.Text}

/-- Every content `state.toml` ever has after `init` reads as a state without a violation. -/
theorem coherent_throughout (created : Created title slug target createdAt start)
    (run : Runs arith start world) :
    ∀ text, world.stateToml = some text → ∃ body state, toml.parse text = .ok body ∧
      parseState body = .ok state ∧ validateState arith state = .ok [] := by
  intro text held
  have holds : Holds (Coherent arith) world :=
    run.preserves (fun _ _ _ holds effect => effect.coherent holds)
      (created.holds (coherent_initial arith title slug target createdAt))
  obtain ⟨state, ⟨text', body, held', parsed, read⟩, coherent⟩ := holds (by rw [held]; rfl)
  rw [held, Option.some.injEq] at held'
  subst held'
  exact ⟨body, state, parsed, read, validateState_eq_nil.mpr coherent⟩

/-- One `advance-phase` after `init` leaves a content without a violation. -/
theorem coherent_throughout_advanced :
    ∃ text body state, advancedWorld.stateToml = some text ∧
      Tomlkit.structural.parse text = .ok body ∧ parseState body = .ok state ∧
      validateState .exact state = .ok [] := by
  have written : advancedWorld.stateToml.isSome = true := by decide +kernel
  obtain ⟨text, held⟩ := Option.isSome_iff_exists.mp written
  obtain ⟨body, state, facts⟩ :=
    coherent_throughout created_initialWorld runs_advancedWorld text held
  exact ⟨text, body, state, held, facts⟩

/-- Every reached world shows a lifecycle state, and what it shows from then on is its progress. -/
theorem lifecycle_throughout (created : Created title slug target createdAt start)
    (run : Runs arith start world) : Holds (Lifecycle arith) world :=
  run.preserves (fun _ _ _ holds effect => effect.lifecycle holds)
    (created.holds (lifecycle_initial arith title slug target createdAt))

theorem progress_throughout {state : State} (shows : Shows world state)
    {later : World toml.Text} (run : Runs arith world later) :
    ∃ after, Shows later after ∧ Progress state after := by
  have start : Holds (Progress state) world := fun _ => ⟨state, shows, Progress.refl state⟩
  have kept : later.stateToml.isSome := by
    clear start
    induction run with
    | refl => exact shows.held
    | tail _ transition inductionHypothesis =>
        cases transition with
        | edit place kept => rwa [kept]
        | invoke invocation now cut =>
            obtain ⟨prior, shows'⟩ := shows_of_cut cut
            obtain ⟨after, shows'', -⟩ := effect_of_cut shows' cut
            exact shows''.held
  exact run.preserves (fun _ _ _ holds effect => holds.trans effect.progress.1) start kept

/-- The lifecycle is monotone over every run from `init`. -/
theorem lifecycle_monotone (created : Created title slug target createdAt start)
    (run : Runs arith start world) :
    (world.stateToml.isSome → ∃ state, Shows world state) ∧
    ∀ state, Shows world state →
      (state.phase.completed = Phase.order.take state.phase.current.index ∧
        (Phase.drafting.index ≤ state.phase.current.index → state.chapters ≠ []) ∧
        state.chapters.map ChapterEntry.number = rangeFromOne state.chapters.length ∧
        (state.chapters.map ChapterEntry.slug).Nodup ∧
        (∀ chapter ∈ state.chapters, 0 < chapter.targetWords) ∧
        0 ≤ state.drafting.currentChapter ∧
        state.drafting.currentChapter ≤ state.chapters.length ∧
        0 ≤ state.drafting.fangirl.lastChapterPassed ∧
        state.drafting.fangirl.lastChapterPassed ≤ state.chapters.length) ∧
      (∀ invocation now, ∀ next ∈ (Invocation.run arith now invocation world).trail,
        ∃ after, Shows next after ∧ state.phase.current.index ≤ after.phase.current.index ∧
          after.phase.current.index ≤ state.phase.current.index + 1) ∧
      ∀ later, Runs arith world later →
        ∃ after, Shows later after ∧ state.phase.current.index ≤ after.phase.current.index ∧
          (state.phase.current = .done → after.phase.current = .done) ∧
          (state.chapters ≠ [] → after.chapters = state.chapters) := by
  have holds := lifecycle_throughout created run
  refine ⟨fun held => (holds held).imp fun _ => And.left, fun state shows => ⟨?_, ?_, ?_⟩⟩
  · obtain ⟨other, shows', lifecycle⟩ := holds shows.held
    rw [shows'.unique shows] at lifecycle
    obtain ⟨coherent, manifest, populated, fangirl⟩ := lifecycle
    have cursor := coherent.cursor
    simp only [cursorCoherent, Bool.and_eq_true, decide_eq_true_eq] at cursor
    exact ⟨coherent.completed, populated, manifest.numbered, manifest.slugs, manifest.targets,
      cursor.1.1.1.1, cursor.1.1.1.2, fangirl⟩
  · intro invocation now next cut
    obtain ⟨after, shows', effect⟩ := effect_of_cut shows cut
    exact ⟨after, shows', effect.progress.1.phase, effect.progress.2⟩
  · intro later onward
    obtain ⟨after, shows', progress⟩ := progress_throughout shows onward
    exact ⟨after, shows', progress.phase, progress.done, progress.manifest⟩

/-- One `advance-phase` after `init` moves the phase from index 0 to index 1. -/
theorem lifecycle_monotone_advanced :
    ∃ state, Shows advancedWorld state ∧ state.phase.current = .treatment ∧
      state.phase.completed = Phase.order.take state.phase.current.index := by
  have written : advancedWorld.stateToml.isSome = true := by decide +kernel
  obtain ⟨readable, facts⟩ := lifecycle_monotone created_initialWorld runs_advancedWorld
  obtain ⟨state, shows⟩ := readable written
  have moved : (shown? advancedWorld).map (fun state => state.phase.current) = some .treatment := by
    decide +kernel
  rw [shown?_eq_some.mpr shows, Option.map_some, Option.some.injEq] at moved
  exact ⟨state, shows, moved, (facts state shows).1.1⟩

end Throughout

end NovelRalph
