import NovelRalph.System.Runs

/-!
# What a successful command leaves alone

Each of the eight mutators other than `reconcile` owns a few fields of the state.
All of them keep to their fields, with one exception: `set-chapters` brackets its
turn with its own `[pending_turn]` record and clears it, so a record which an
earlier torn turn had left is lost.
-/

namespace NovelRalph

/-- The state afterwards is the state before, but for the command's own fields. -/
def OwnFieldsOnly (invocation : Invocation) (before after : State) : Prop :=
  match invocation with
  | .setCursor _ _ _ =>
      after = { before with drafting := { before.drafting with
        currentChapter := after.drafting.currentChapter
        currentScene := after.drafting.currentScene
        currentBeat := after.drafting.currentBeat } }
  | .advancePhase => after = { before with phase := after.phase }
  | .setChapters _ =>
      after = { before with
        chapters := after.chapters
        wordCounts := { before.wordCounts with byChapter := after.wordCounts.byChapter } }
  | .recount =>
      after = { before with wordCounts := { before.wordCounts with
        current := after.wordCounts.current
        byChapter := after.wordCounts.byChapter } }
  | .setGate selection =>
      after = { before with gates := after.gates } ∧
      (∀ gate, selection.knitting gate = none →
        after.gates.knitting.flag gate = before.gates.knitting.flag gate) ∧
      (selection.final = none → after.gates.final = before.gates.final)
  | .completeFinalPass =>
      after = { before with gates := { before.gates with final := after.gates.final } }
  | .setFangirl _ =>
      after = { before with drafting := { before.drafting with fangirl := after.drafting.fangirl } }
  | .setCriticPass _ =>
      after = { before with drafting := { before.drafting with critic := {
        before.drafting.critic with passNumber := after.drafting.critic.passNumber } } }
  | .reconcile => True

/-- Whether an invocation is one of `set-chapters`. -/
def Invocation.plansChapters : Invocation → Bool
  | .setChapters _ => true
  | _ => false

section Frame

variable {toml : Tomlkit} {arith : RatioArithmetic} {now : String} {world : World toml.Text}
  {state : State} {invocation : Invocation}

/-- A single-file mutator keeps to its own fields. -/
theorem Mutates.ownFieldsOnly {next : State} (mutates : Mutates arith state invocation next) :
    OwnFieldsOnly invocation state next ∧ next.pendingTurn = state.pendingTurn := by
  cases mutates with
  | setGate selection =>
      refine ⟨⟨rfl, fun gate unnamed => ?_, fun unnamed => ?_⟩, rfl⟩
      · cases gate <;> exact congrArg (fun flag => Option.getD flag _) unnamed
      · exact congrArg FinalGate.mk (congrArg (fun flag => Option.getD flag _) unnamed)
  | _ => exact ⟨rfl, rfl⟩

/-- A successful command keeps to its fields unless it is `set-chapters` over a record. -/
theorem own_fields_only_iff (shows : Shows world state) (mutator : invocation ≠ .reconcile)
    (exits : exitCodeOf (invocation.run arith now world).result = some 0) :
    ∃ after, Shows ((invocation.run arith now world).final world) after ∧
      ((OwnFieldsOnly invocation state after ∧ after.pendingTurn = state.pendingTurn) ↔
        ¬ (invocation.plansChapters = true ∧ state.pendingTurn.isSome = true)) := by
  obtain ⟨outcome, returned, success⟩ := exitCodeOf_eq_zero.mp exits
  by_cases single : invocation.singleFile = true
  · have other : invocation.plansChapters = false := by
      cases invocation <;> first | rfl | cases single
    rcases @singleFile_cases toml arith now world invocation single with ⟨fault, run⟩ |
      ⟨usage, code, run⟩ | ⟨prior, proposed, next, written, shows', mutates, -, -, after, run⟩
    · rw [run] at returned
      cases returned
    · rw [run] at returned
      cases returned
      rw [code] at success
      cases success
    · rw [shows'.unique shows] at mutates
      rw [run]
      refine ⟨proposed, after, fun _ => by simp [other], fun _ => mutates.ownFieldsOnly⟩
  · cases invocation with
    | setChapters chapters =>
        obtain ⟨accepted, after⟩ :=
          (ensures_setChapters now chapters state world shows).2 outcome returned
        refine ⟨_, after, ?_⟩
        cases recorded : state.pendingTurn with
        | none => simp [OwnFieldsOnly, State.planned, recorded]
        | some pending => simp [Invocation.plansChapters]
    | reconcile => exact absurd rfl mutator
    | _ => exact absurd rfl single

end Frame

/-! ## A record left by a torn turn -/

/-- The initial state with the record of a torn `reconcile`. -/
def tornTable : Table :=
  ((initialEdits "Title" "slug" 1000 "2024-01-01T00:00:00Z") ++
    [openPendingTurn reconcileOperation reconcilePaths]).foldl Table.edit []

def tornWorld : World Tomlkit.structural.Text :=
  (initialWorld 1000).putState (.ok tornTable)

/-- What `tornWorld` shows. -/
def tornState : State :=
  { initialState "Title" "slug" 1000 "2024-01-01T00:00:00Z" with
    pendingTurn := some reconcileRecord }

theorem shows_torn : Shows tornWorld tornState :=
  shown?_eq_some.mp (by decide +kernel)

/-- `set-chapters` over the record of another torn turn exits 0 and the record is gone. -/
theorem torn_record_lost :
    Shows tornWorld tornState ∧ tornState.pendingTurn.isSome = true ∧
      exitCodeOf (setChaptersCommand .doubles "" [⟨1, "one", "One", 10⟩] tornWorld).result = some 0 ∧
      ∃ after,
        Shows ((setChaptersCommand .doubles "" [⟨1, "one", "One", 10⟩] tornWorld).final tornWorld)
          after ∧
        after.pendingTurn = none ∧
        ¬ OwnFieldsOnly (.setChapters [⟨1, "one", "One", 10⟩]) tornState after := by
  refine ⟨shows_torn, rfl, by decide +kernel,
    { tornState.planned [⟨1, "one", "One", 10⟩] with pendingTurn := none },
    shown?_eq_some.mp (by decide +kernel), rfl, fun kept => ?_⟩
  have lost := congrArg State.pendingTurn kept
  cases lost

/-- A `set-cursor` over the same record keeps it. -/
theorem own_fields_only_torn :
    ∃ after, Shows ((setCursor .doubles 0 0 0 tornWorld).final tornWorld) after ∧
      after.pendingTurn = tornState.pendingTurn := by
  obtain ⟨after, shows, framed⟩ :=
    @own_fields_only_iff Tomlkit.structural .doubles "" tornWorld tornState (.setCursor 0 0 0)
      shows_torn (fun same => by cases same) (by decide +kernel)
  exact ⟨after, shows, (framed.mpr fun both => by cases both.1).2⟩

end NovelRalph
