import NovelRalph.System.Runs

/-!
# The knitting gates and their remedy

A recount that crosses a knitting threshold is refused until the gate is set,
and `set-gate` is refused until the counts are rewritten: it judges the counts
on disk, which a coherent state's gates already agree with. Following the
printed remedy therefore changes nothing, and no gate of a novel with a positive
target is ever recorded true.
-/

namespace NovelRalph

/-- A recounted state breaks one rule only: it has crossed gates it records as false. -/
structure OnlyLaggingGates (arith : RatioArithmetic) (state : State) : Prop where
  verdict : ∃ detail, validateState arith state = .ok [⟨.gateRatioConsistent, detail⟩]
  behind : ∀ gate ∈ remedyGates arith state, state.gates.knitting.flag gate = false

/-- The `set-gate` call that sets the given gates true. -/
def GateSelection.raising (gates : List KnittingGate) : GateSelection where
  knitting30 := if .done30 ∈ gates then some true else none
  knitting50 := if .done50 ∈ gates then some true else none
  knitting80 := if .done80 ∈ gates then some true else none
  final := none

/-- The ways to follow a remedy: one call for all named gates, or one for each in any order. -/
inductive RemedyCalls (named : List KnittingGate) : List GateSelection → Prop where
  | once : RemedyCalls named [.raising named]
  | each (order : List KnittingGate) (complete : order.Perm named) :
      RemedyCalls named (order.map fun gate => .raising [gate])

section Remedy

variable {toml : Tomlkit} {arith : RatioArithmetic} {now : String} {world : World toml.Text}
  {state : State}

/-- The world after uninterrupted invocations, one after the other. -/
def runInTurn (arith : RatioArithmetic) (now : String) (invocations : List Invocation)
    (world : World toml.Text) : World toml.Text :=
  invocations.foldl (fun world invocation => (invocation.run arith now world).final world) world

/-- After the calls, `recount` exits 0 with the drafts' counts and every named gate true. -/
def RemedySucceeds (arith : RatioArithmetic) (now : String) (state : State)
    (world : World toml.Text) (calls : List GateSelection) : Prop :=
  let table := world.disk.recountTable state.chapters
  let repaired := runInTurn arith now (calls.map .setGate) world
  ∃ outcome after, (recount arith repaired).result = .ok outcome ∧ outcome.code = .success ∧
    Shows ((recount arith repaired).final repaired) after ∧
    after.wordCounts.byChapter = table ∧ after.wordCounts.current = table.values.sum ∧
    ∀ gate ∈ remedyGates arith (state.recounted table), after.gates.knitting.flag gate = true

theorem GateSelection.flag_apply (selection : GateSelection) (gates : Gates) (gate : KnittingGate) :
    (selection.apply gates).knitting.flag gate =
      (selection.knitting gate).getD (gates.knitting.flag gate) := by
  cases gate <;> rfl

theorem GateSelection.knitting_raising {gates : List KnittingGate} {gate : KnittingGate}
    (member : gate ∈ gates) : (GateSelection.raising gates).knitting gate = some true := by
  cases gate <;> exact if_pos member

/-- Every call of a remedy raises one of the named gates. -/
theorem RemedyCalls.raises {named : List KnittingGate} {calls : List GateSelection}
    (remedy : RemedyCalls named calls) (nonEmpty : named ≠ []) {call : GateSelection}
    (member : call ∈ calls) : ∃ gate ∈ named, call.knitting gate = some true := by
  cases remedy with
  | once =>
      obtain ⟨gate, rest, rfl⟩ := List.exists_cons_of_ne_nil nonEmpty
      rw [List.mem_singleton.mp member]
      exact ⟨gate, List.mem_cons_self, GateSelection.knitting_raising List.mem_cons_self⟩
  | each order complete =>
      obtain ⟨gate, listed, rfl⟩ := List.mem_map.mp member
      exact ⟨gate, complete.mem_iff.mp listed,
        GateSelection.knitting_raising (List.mem_singleton_self gate)⟩

/-- A state that breaks the gate rule has a gate to name. -/
theorem OnlyLaggingGates.named (lagging : OnlyLaggingGates arith state) :
    remedyGates arith state ≠ [] := by
  obtain ⟨detail, verdict⟩ := lagging.verdict
  have fires := checkGate_of_reported verdict List.mem_cons_self rfl
  obtain ⟨positive, ratio, divided, disagree⟩ := disagreement_of_checkGate fires
  unfold remedyGates
  rw [if_neg (by omega), divided]
  exact disagree

/-- From a coherent state with a positive target, raising a gate that is false is refused. -/
theorem assertGates_refused (shows : Shows world state) (coherent : Coherent arith state)
    (positive : 0 < state.wordCounts.target) {selection : GateSelection} {gate : KnittingGate}
    (raised : selection.knitting gate = some true)
    (behind : state.gates.knitting.flag gate = false) :
    ((Invocation.setGate selection).run arith now world).trail = [] := by
  rcases @singleFile_cases toml arith now world (.setGate selection) rfl with ⟨fault, run⟩ |
    ⟨outcome, -, run⟩ | ⟨prior, proposed, next, outcome, shows', mutates, coherent', -, -, -⟩
  · rw [run]
  · rw [run]
  · rw [shows'.unique shows] at mutates
    cases mutates with
    | setGate _ =>
        obtain ⟨ratio, divided, flags⟩ := coherent.gates positive
        obtain ⟨ratio', divided', flags'⟩ := coherent'.gates positive
        have same : ratio = ratio' := Option.some.inj (divided.symm.trans divided')
        have clash := flags' gate
        rw [← same, ← flags gate, behind] at clash
        rw [show (State.gates _).knitting.flag gate = true by
          rw [selection.flag_apply, raised]; rfl] at clash
        cases clash

/-- Invocations without effects leave the world as it was. -/
theorem runInTurn_quiet {invocations : List Invocation}
    (quiet : ∀ invocation ∈ invocations, (invocation.run arith now world).trail = []) :
    runInTurn arith now invocations world = world := by
  induction invocations with
  | nil => rfl
  | cons invocation rest inductionHypothesis =>
      have first : (invocation.run arith now world).final world = world := by
        rw [Run.final, quiet invocation List.mem_cons_self]
        rfl
      unfold runInTurn at inductionHypothesis ⊢
      rw [List.foldl_cons, first]
      exact inductionHypothesis fun later member => quiet later (List.mem_cons_of_mem _ member)

/-- A recount whose proposal breaks a rule does not return. -/
theorem recount_refused (shows : Shows world state)
    (readable : ∀ entry ∈ state.chapters, world.disk.DraftReadable entry.number)
    (incoherent : ¬ Coherent arith (state.recounted (world.disk.recountTable state.chapters)))
    (outcome : CommandOutcome) : (recount arith world).result ≠ .ok outcome := by
  intro returned
  rcases @mutateState_cases toml arith _ world with
    ⟨fault, run⟩ | ⟨prior, planned, body, proposed, text, held, shows', chosen, read, reread,
      coherent, -, -⟩
  · rw [recount, run] at returned
    cases returned
  · rw [shows'.unique shows] at chosen read
    rw [Disk.recountWords_of_readable readable] at chosen
    cases chosen
    rw [recountPlan_edits, parse_recounted read, Except.ok.injEq] at reread
    exact incoherent (reread ▸ coherent)

/-- However the remedy is followed, the world stays as it is and the recount is refused again. -/
theorem remedy_stalls (shows : Shows world state) (coherent : Coherent arith state)
    (positive : 0 < state.wordCounts.target)
    (readable : ∀ entry ∈ state.chapters, world.disk.DraftReadable entry.number)
    (lagging : OnlyLaggingGates arith (state.recounted (world.disk.recountTable state.chapters)))
    {calls : List GateSelection}
    (remedy : RemedyCalls
      (remedyGates arith (state.recounted (world.disk.recountTable state.chapters))) calls) :
    runInTurn arith now (calls.map .setGate) world = world ∧
      ¬ RemedySucceeds arith now state world calls := by
  have unchanged : runInTurn arith now (calls.map .setGate) world = world := by
    refine runInTurn_quiet fun invocation member => ?_
    obtain ⟨call, listed, rfl⟩ := List.mem_map.mp member
    obtain ⟨gate, named, raised⟩ := remedy.raises lagging.named listed
    exact assertGates_refused shows coherent positive raised (lagging.behind gate named)
  refine ⟨unchanged, ?_⟩
  rintro ⟨outcome, after, returned, -⟩
  rw [unchanged] at returned
  refine recount_refused shows readable (fun coherent' => ?_) outcome returned
  obtain ⟨detail, verdict⟩ := lagging.verdict
  rw [validateState_eq_nil.mpr coherent'] at verdict
  cases verdict

end Remedy

/-! ## No gate is ever raised -/

/-- Coherent, with the target `init` was given and no knitting gate recorded true. -/
structure GatesDown (arith : RatioArithmetic) (target : Int) (state : State) : Prop where
  coherent : Coherent arith state
  target_eq : state.wordCounts.target = target
  down : ∀ gate, state.gates.knitting.flag gate = false

section Reach

variable {arith : RatioArithmetic} {target : Int} {state next : State} {invocation : Invocation}

/-- With a positive target no invocation raises a gate. -/
theorem Effect.gatesDown (positive : 0 < target) (effect : Effect arith state invocation next)
    (holds : GatesDown arith target state) : GatesDown arith target next := by
  have coherent := effect.coherent holds.coherent
  cases effect with
  | mutated mutates _ =>
      cases mutates with
      | setGate selection =>
          refine ⟨coherent, holds.target_eq, fun gate => ?_⟩
          -- The table is the one on disk, so the flags it calls for are the recorded ones.
          have positive' : 0 < state.wordCounts.target := by rw [holds.target_eq]; exact positive
          obtain ⟨ratio, divided, flags⟩ := holds.coherent.gates positive'
          obtain ⟨ratio', divided', flags'⟩ := coherent.gates positive'
          have same : ratio = ratio' := Option.some.inj (divided.symm.trans divided')
          rw [flags' gate, ← same, ← flags gate, holds.down gate]
      | _ => exact ⟨coherent, holds.target_eq, holds.down⟩
  | planned accepted pending => exact ⟨coherent, holds.target_eq, holds.down⟩
  | recovered recovers => cases recovers <;> exact ⟨coherent, holds.target_eq, holds.down⟩

theorem gates_never_raised {toml : Tomlkit} {title slug createdAt : String}
    {start world : World toml.Text} (positive : 0 < target)
    (created : Created title slug target createdAt start) (run : Runs arith start world)
    (shows : Shows world state) (gate : KnittingGate) : state.gates.knitting.flag gate = false := by
  have initial : GatesDown arith target (initialState title slug target createdAt) :=
    ⟨coherent_initial arith title slug target createdAt, rfl, fun gate => by cases gate <;> rfl⟩
  have holds : Holds (GatesDown arith target) world :=
    run.preserves (fun _ _ _ holds effect => effect.gatesDown positive holds)
      (created.holds initial)
  obtain ⟨other, shows', down⟩ := holds shows.held
  rw [shows.unique shows']
  exact down.down gate

end Reach

/-- Following the remedy never succeeds, and no run from `init` ever records a gate as true. -/
theorem gate_remedy_never_succeeds {toml : Tomlkit} (arith : RatioArithmetic) :
    (∀ (world : World toml.Text) state now, Shows world state → Coherent arith state →
      0 < state.wordCounts.target →
      (∀ entry ∈ state.chapters, world.disk.DraftReadable entry.number) →
      OnlyLaggingGates arith (state.recounted (world.disk.recountTable state.chapters)) →
      ∀ calls, RemedyCalls
        (remedyGates arith (state.recounted (world.disk.recountTable state.chapters))) calls →
      runInTurn arith now (calls.map .setGate) world = world ∧
        ¬ RemedySucceeds arith now state world calls) ∧
    ∀ title slug target createdAt, 0 < target → ∀ start world : World toml.Text,
      Created title slug target createdAt start → Runs arith start world →
      ∀ state, Shows world state → ∀ gate, state.gates.knitting.flag gate = false :=
  ⟨fun _ _ _ shows coherent positive readable lagging _ remedy =>
      remedy_stalls shows coherent positive readable lagging remedy,
    fun _ _ _ _ positive _ _ created run _ shows gate =>
      gates_never_raised positive created run shows gate⟩

/-! ## A novel of ten words whose only chapter has three -/

/-- The draft crosses the first threshold before any count was taken. -/
def crossedWorld : World Tomlkit.structural.Text :=
  ((setChaptersCommand .doubles "2024-01-02T00:00:00Z" [⟨1, "one", "One", 10⟩]
    (initialWorld 10)).final (initialWorld 10)).putFile
      ["draft.md", "chapter-01", "manuscript", "working"] (.text "a b c")

/-- What `crossedWorld` shows. -/
def crossedState : State :=
  { initialState "Title" "slug" 10 "2024-01-01T00:00:00Z" with
    chapters := [⟨1, "one", "One", 10⟩]
    wordCounts := { target := 10, current := 0, byChapter := Dict.ofPairs [("01", 0)] } }

theorem shows_crossed : Shows crossedWorld crossedState :=
  shown?_eq_some.mp (by decide +kernel)

theorem coherent_crossed : Coherent .doubles crossedState :=
  validateState_eq_nil.mp (by decide +kernel)

theorem readable_crossed :
    ∀ entry ∈ crossedState.chapters, crossedWorld.disk.DraftReadable entry.number := by
  intro entry member
  rw [List.mem_singleton.mp member]
  exact ⟨by decide +kernel, Or.inl ⟨"a b c", by decide +kernel⟩⟩

theorem lagging_crossed : OnlyLaggingGates .doubles
    (crossedState.recounted (crossedWorld.disk.recountTable crossedState.chapters)) where
  verdict := ⟨"knitting gates disagree with the drafted ratio: done_30=False but drafted ratio " ++
    "0.3000 is above threshold 0.30", by decide +kernel⟩
  behind := by decide +kernel

theorem remedy_crossed : RemedyCalls
    (remedyGates .doubles (crossedState.recounted
      (crossedWorld.disk.recountTable crossedState.chapters))) [.raising [.done30]] := by
  have named : remedyGates .doubles (crossedState.recounted
      (crossedWorld.disk.recountTable crossedState.chapters)) = [.done30] := by decide +kernel
  rw [named]
  exact .once

/-- The recount of `crossedWorld` is refused over one lagging gate, and the remedy does not help. -/
theorem crossed_remedy_fails :
    ∃ state, Shows crossedWorld state ∧ Coherent .doubles state ∧ 0 < state.wordCounts.target ∧
      (∀ entry ∈ state.chapters, crossedWorld.disk.DraftReadable entry.number) ∧
      (exitCodeOf (recount .doubles crossedWorld).result = some 3) ∧
      OnlyLaggingGates .doubles
        (state.recounted (crossedWorld.disk.recountTable state.chapters)) ∧
      RemedyCalls (remedyGates .doubles (state.recounted
        (crossedWorld.disk.recountTable state.chapters))) [.raising [.done30]] ∧
      ¬ RemedySucceeds .doubles "" state crossedWorld [.raising [.done30]] :=
  ⟨crossedState, shows_crossed, coherent_crossed, by decide, readable_crossed, by decide +kernel,
    lagging_crossed, remedy_crossed,
    (remedy_stalls shows_crossed coherent_crossed (by decide) readable_crossed lagging_crossed
      remedy_crossed).2⟩

/-- The theorem at `crossedWorld`, and at a world `init` leaves behind. -/
theorem gate_remedy_never_succeeds_crossed :
    ¬ RemedySucceeds .doubles "" crossedState crossedWorld [.raising [.done30]] ∧
      ∃ state, Shows (initialWorld 1000) state ∧ state.gates.knitting.done30 = false := by
  obtain ⟨stalls, closed⟩ := @gate_remedy_never_succeeds Tomlkit.structural .doubles
  refine ⟨(stalls crossedWorld crossedState "" shows_crossed coherent_crossed (by decide)
    readable_crossed lagging_crossed _ remedy_crossed).2, ?_⟩
  have written : (shown? (initialWorld 1000)).isSome = true := by decide +kernel
  obtain ⟨state, found⟩ := Option.isSome_iff_exists.mp written
  have shows := shown?_eq_some.mp found
  exact ⟨state, shows,
    closed _ _ 1000 _ (by decide) _ _ created_initialWorld .refl state shows .done30⟩

end NovelRalph
