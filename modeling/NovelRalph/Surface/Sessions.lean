import NovelRalph.Surface.Verdicts
import NovelRalph.System.OwnTurns

/-!
# Sessions of processes

A session starts from a tree without `state.toml` and goes on by processes of
`novel` with any arguments, each possibly killed between two effects, and by
edits that leave `state.toml` alone or delete it. It refines the abstract machine on states:
what `state.toml` shows is reached from the state some `init` wrote by effects
of the nine mutators. The checkers have no effect at all.
-/

namespace NovelRalph

/-! ## What a process leaves behind -/

section Quiet

variable {toml : Tomlkit}

theorem quiet_loadOrStateError : Prog.Quiet (loadOrStateError : Command toml State) :=
  Prog.Quiet.observe _

theorem quiet_check (arith : RatioArithmetic) :
    Prog.Quiet (check arith : Command toml CommandOutcome) := by
  refine Prog.Quiet.bind ?_ fun report => Prog.Quiet.pure _
  unfold checkReport
  refine Prog.Quiet.bind quiet_loadOrStateError fun state => ?_
  refine Prog.Quiet.bind (Prog.Quiet.observe _) fun pureState => ?_
  refine Prog.Quiet.bind (Prog.Quiet.observe _) fun diskEvidence => ?_
  by_cases silent : diskEvidence = []
  · rw [if_pos silent]
    exact Prog.Quiet.pure _
  · rw [if_neg silent]
    exact Prog.Quiet.bind (Prog.Quiet.observe _) fun _ => Prog.Quiet.pure _

theorem quiet_novelDone : Prog.Quiet (novelDone : Command toml CommandOutcome) :=
  Prog.Quiet.bind quiet_loadOrStateError fun _ =>
    Prog.Quiet.bind (Prog.Quiet.observe _) fun _ => Prog.Quiet.observe _

theorem quiet_checkCompiled : Prog.Quiet (checkCompiled : Command toml CommandOutcome) := by
  refine Prog.Quiet.bind quiet_loadOrStateError fun state => ?_
  refine Prog.Quiet.bind (Prog.Quiet.observe _) fun _ => ?_
  refine Prog.Quiet.bind (Prog.Quiet.observe _) fun verdict => ?_
  by_cases current : compileIsCurrent verdict = true
  · rw [if_pos current]
    exact Prog.Quiet.pure _
  · rw [if_neg current]
    exact Prog.Quiet.pure _

theorem quiet_wordcount (arith : FloatArithmetic) :
    Prog.Quiet (wordcount arith : Command toml (ReportOutcome WordcountReport)) := by
  refine Prog.Quiet.bind ?_ fun sourced =>
    Prog.Quiet.bind (Prog.Quiet.observe _) fun _ => Prog.Quiet.observe _
  exact Prog.Quiet.bind quiet_loadOrStateError fun _ =>
    Prog.Quiet.bind (Prog.Quiet.observe _) fun _ => Prog.Quiet.pure _

theorem quiet_sourceChapters (chapter : Option Int) :
    Prog.Quiet (sourceChapters chapter : Command toml (List ScannedChapter)) :=
  Prog.Quiet.bind quiet_loadOrStateError fun _ =>
    Prog.Quiet.bind (Prog.Quiet.observe _) fun _ => Prog.Quiet.observe _

/-- A scan is quiet, whether its pack or ledger loads or not. -/
theorem quiet_dispatchScan (host : Host) (chapter : Option Int) (pack ledger : Option Resource) :
    Prog.Quiet (host.dispatchScan chapter pack ledger) := by
  unfold Host.dispatchScan
  cases ledger with
  | some path =>
      cases chapter with
      | some number => exact Prog.Quiet.raise _
      | none =>
          refine Prog.Quiet.bind ?_ fun _ => Prog.Quiet.pure _
          unfold ledgerScan
          cases loadLedger host.engine host.tomllib path with
          | ok ledger =>
              exact Prog.Quiet.mapFault (Prog.Quiet.bind (Prog.Quiet.bind (quiet_sourceChapters _)
                fun _ => Prog.Quiet.pure _) fun _ => Prog.Quiet.observe _)
          | error fault =>
              cases fault <;> first | exact Prog.Quiet.raise _ | exact Prog.Quiet.pure _
  | none =>
      refine Prog.Quiet.bind ?_ fun _ => Prog.Quiet.pure _
      unfold desloppify
      cases loadRulepack host.engine host.tomllib (pack.getD host.offendersPack) with
      | ok rulepack =>
          exact Prog.Quiet.mapFault (Prog.Quiet.bind (Prog.Quiet.bind (quiet_sourceChapters _)
            fun _ => Prog.Quiet.observe _) fun _ => Prog.Quiet.observe _)
      | error fault =>
          cases fault <;> first | exact Prog.Quiet.raise _ | exact Prog.Quiet.pure _

/-- Serialising the outcome adds no effect. -/
theorem trail_wired (program : Command toml CommandOutcome) (world : World toml.Text) :
    (wired program world).trail = (program world).trail :=
  Prog.Quiet.trail_bind _ (fun _ => Prog.Quiet.observe _) world

/-- `init` refuses where a `state.toml` is. -/
theorem init_refuses {world : World toml.Text} {now title slug : String} {target : Int}
    (held : world.stateToml.isSome) :
    (initCommand now title slug target world).trail = [] := by
  have there : world.exists? (stateLoc world.cwd) = true := World.layout_stateLoc held
  unfold initCommand
  have looked : (Except.ok (world.exists? (stateLoc world.cwd)) : Except Fault Bool) = .ok true := by
    rw [there]
  rw [Prog.observe_bind_ok world looked]
  rfl

/-- `compile` replaces its file and nothing else. -/
theorem compile_cut {world next : World toml.Text} (cut : next ∈ (compileManuscript world).trail) :
    World.SameBut world.disk.compiledManuscript world next := by
  have writes : ∀ rendered (outcome : CommandOutcome), ∀ next ∈
      ((writeCompiled rendered >>= fun _ => pure outcome : Command toml _) world).trail,
        World.SameBut world.disk.compiledManuscript world next := by
    intro rendered outcome next left
    rw [Prog.trail_bind_pure] at left
    unfold writeCompiled Prog.perform at left
    split at left
    · next written applies =>
        rw [List.mem_singleton.mp left]
        exact (World.replaceFile_ok (guardStateInput_eq_ok.mp applies)).1
    · cases left
  unfold compileManuscript at cut
  rcases Prog.observe_bind_cases world _ _ with ⟨fault, -, run⟩ | ⟨state, -, run⟩
  · rw [loadOrStateError, run] at cut
    cases cut
  rw [loadOrStateError, run] at cut
  beta_reduce at cut
  rcases Prog.observe_bind_cases world _ _ with ⟨fault, -, run⟩ | ⟨_, -, run⟩
  · rw [run] at cut
    cases cut
  rw [run] at cut
  rcases Prog.observe_bind_cases world _ _ with ⟨fault, -, run⟩ | ⟨bodies, -, run⟩
  · rw [run] at cut
    cases cut
  rw [run] at cut
  exact writes _ _ next cut

end Quiet

/-- The operations that only look. -/
def Operation.looks : Operation → Bool
  | .check => true
  | .done => true
  | .compile readOnly => readOnly
  | .desloppify _ _ _ => true
  | .wordcount => true
  | .init _ _ _ => false
  | .mutate _ => false

section Bodies

variable {host : Host} {now : String} {world next : World host.toml.Text} {operation : Operation}

/-- An operation that only looks has no effect. -/
theorem body_quiet (looks : operation.looks = true) : Prog.Quiet (host.body now operation) := by
  cases operation with
  | init title slug target => cases looks
  | mutate invocation => cases looks
  | check => exact fun world => (trail_wired _ world).trans (quiet_check _ world)
  | done => exact fun world => (trail_wired _ world).trans (quiet_novelDone world)
  | compile readOnly =>
      cases looks
      exact fun world => (trail_wired _ world).trans (quiet_checkCompiled world)
  | desloppify chapter pack ledger =>
      exact Prog.Quiet.bind (Prog.Quiet.attempt (quiet_dispatchScan host chapter pack ledger))
        fun _ => Prog.Quiet.observe _
  | wordcount =>
      exact Prog.Quiet.bind (Prog.Quiet.mapFault (quiet_wordcount host.arith))
        fun _ => Prog.Quiet.pure _

/-- The effects of an operation: those of `init`, of a mutator, or of `compile`. -/
inductive Leaves (host : Host) (now : String) (world : World host.toml.Text) :
    Operation → World host.toml.Text → Prop where
  | init (title slug : String) (target : Int) {next : World host.toml.Text}
      (cut : next ∈ (initCommand now title slug target world).trail) :
      Leaves host now world (.init title slug target) next
  | mutate (invocation : Invocation) {next : World host.toml.Text}
      (cut : next ∈ (invocation.run host.arith.toRatioArithmetic now world).trail) :
      Leaves host now world (.mutate invocation) next
  | compile {next : World host.toml.Text} (cut : next ∈ (compileManuscript world).trail) :
      Leaves host now world (.compile false) next

theorem leaves_of_body (cut : next ∈ (host.body now operation world).trail) :
    Leaves host now world operation next := by
  by_cases looks : operation.looks = true
  · rw [body_quiet looks world] at cut
    cases cut
  · cases operation with
    | init title slug target => exact .init title slug target (trail_wired _ world ▸ cut)
    | mutate invocation => exact .mutate invocation (trail_wired _ world ▸ cut)
    | compile readOnly =>
        cases readOnly with
        | true => exact absurd rfl looks
        | false => exact .compile (trail_wired _ world ▸ cut)
    | _ => exact absurd rfl looks

/-- What a process leaves behind, its operation does. -/
theorem leaves_of_main {cyclopts : List String → Parsed} {argv : List String}
    (cut : next ∈ (host.main now cyclopts argv world).trail) :
    ∃ operation, cyclopts (argv.filter fun token => token ≠ humanFlag) = .command operation ∧
      Leaves host now world operation next := by
  rw [(@main_cases host now cyclopts argv world).1] at cut
  have residual : (parseGlobalFlags argv).2 = argv.filter fun token => token ≠ humanFlag := rfl
  rw [residual] at cut
  cases parsed : cyclopts (argv.filter fun token => token ≠ humanFlag) with
  | usageFault text =>
      rw [parsed] at cut
      cases cut
  | help =>
      rw [parsed] at cut
      cases cut
  | command operation =>
      rw [parsed] at cut
      exact ⟨operation, rfl, leaves_of_body cut⟩

end Bodies

/-! ## Sessions -/

section Sessions

variable {host : Host} {cyclopts : List String → Parsed} {start world : World host.toml.Text}

/-- A process, possibly killed, or an edit that leaves `state.toml` alone or deletes it. -/
inductive Step (host : Host) (cyclopts : List String → Parsed) (world : World host.toml.Text) :
    World host.toml.Text → Prop where
  | edit {next : World host.toml.Text} (place : next.cwd = world.cwd)
      (kept : next.stateToml = world.stateToml ∨ next.stateToml = none) :
      Step host cyclopts world next
  | process (now : String) (argv : List String) {next : World host.toml.Text}
      (cut : next ∈ (host.main now cyclopts argv world).trail) : Step host cyclopts world next

/-- Any number of processes and edits. -/
def Session (host : Host) (cyclopts : List String → Parsed) :
    World host.toml.Text → World host.toml.Text → Prop :=
  Relation.ReflTransGen (Step host cyclopts)

/-- The abstract machine: effects of the nine mutators, one after the other. -/
def Evolves (arith : RatioArithmetic) : State → State → Prop :=
  Relation.ReflTransGen fun before after => ∃ invocation, Effect arith before invocation after

/-- A run of invocations shows states the abstract machine goes through. -/
theorem Runs.evolves {toml : Tomlkit} {arith : RatioArithmetic} {origin world : World toml.Text}
    {first state : State} (run : Runs arith origin world) (shows : Shows origin first)
    (shows' : Shows world state) : Evolves arith first state := by
  induction run generalizing state with
  | refl =>
      rw [shows.unique shows']
      exact .refl
  | tail _ transition inductionHypothesis =>
      cases transition with
      | edit place kept => exact inductionHypothesis (shows'.of_eq kept.symm)
      | invoke invocation now cut =>
          obtain ⟨prior, shown⟩ := shows_of_cut cut
          obtain ⟨after, shown', effect⟩ := effect_of_cut shown cut
          rw [shows'.unique shown']
          exact (inductionHypothesis shown).tail ⟨invocation, effect⟩

/-- A run keeps its `state.toml`. -/
theorem Runs.held {toml : Tomlkit} {arith : RatioArithmetic} {origin world : World toml.Text}
    (run : Runs arith origin world) (held : origin.stateToml.isSome) : world.stateToml.isSome := by
  induction run with
  | refl => exact held
  | tail _ transition inductionHypothesis =>
      cases transition with
      | edit place kept => rwa [kept]
      | invoke invocation now cut =>
          obtain ⟨prior, shown⟩ := shows_of_cut cut
          obtain ⟨after, shown', -⟩ := effect_of_cut shown cut
          exact shown'.held

/-- A session has no `state.toml` yet, or it is a run from what some `init` left behind. -/
theorem Session.cases (session : Session host cyclopts start world)
    (absent : start.stateToml = none) :
    world.stateToml = none ∨ ∃ title slug target createdAt, ∃ origin : World host.toml.Text,
      Created title slug target createdAt origin ∧ origin.stateToml.isSome ∧
        Runs host.arith.toRatioArithmetic origin world := by
  induction session with
  | refl => exact Or.inl absent
  | @tail middle next _ step inductionHypothesis =>
      have quiet : middle.stateToml = none → next.stateToml = middle.stateToml →
          next.stateToml = none := fun none same => same.trans none
      cases step with
      | edit place kept =>
          rcases kept with kept | deleted
          · rcases inductionHypothesis with none | ⟨title, slug, target, createdAt, origin, created,
              held, run⟩
            · exact Or.inl (quiet none kept)
            · exact Or.inr ⟨title, slug, target, createdAt, origin, created, held,
                run.tail (.edit place kept)⟩
          · exact Or.inl deleted
      | process now argv cut =>
          obtain ⟨operation, -, leaves⟩ := leaves_of_main cut
          rcases inductionHypothesis with none | ⟨title, slug, target, createdAt, origin, created,
            held, run⟩
          · cases leaves with
            | init title slug target cut =>
                cases kept : next.stateToml with
                | none => exact Or.inl rfl
                | some text =>
                    exact Or.inr ⟨title, slug, target, now, next, ⟨middle, cut⟩,
                      by rw [kept]; rfl, .refl⟩
            | mutate invocation cut =>
                obtain ⟨state, shows⟩ := shows_of_cut cut
                have held := shows.held
                rw [none] at held
                cases held
            | compile cut => exact Or.inl (quiet none (compile_cut cut).stateToml)
          · refine Or.inr ⟨title, slug, target, createdAt, origin, created, held, ?_⟩
            cases leaves with
            | init title slug target cut =>
                rw [init_refuses (run.held held)] at cut
                cases cut
            | mutate invocation cut => exact run.tail (.invoke invocation now cut)
            | compile cut => exact run.tail (.edit (compile_cut cut).cwd (compile_cut cut).stateToml)

/-- Every session refines the abstract machine: a `state.toml` that is there shows a state which
the machine reaches from the one that some `init` wrote, with a record that fits its manifest. -/
theorem session_refines (session : Session host cyclopts start world) (absent : start.stateToml = none)
    (held : world.stateToml.isSome) :
    ∃ title slug target createdAt state, Shows world state ∧
      Evolves host.arith.toRatioArithmetic (initialState title slug target createdAt) state ∧
      Coherent host.arith.toRatioArithmetic state ∧ OwnRecord state := by
  rcases session.cases absent with none | ⟨title, slug, target, createdAt, origin, created, there, run⟩
  · rw [none] at held
    cases held
  · have initial : Shows origin (initialState title slug target createdAt) := by
      rcases created.cases with none | shows
      · rw [none] at there
        cases there
      · exact shows
    have coherent : Holds (Coherent host.arith.toRatioArithmetic) origin :=
      created.holds (coherent_initial _ title slug target createdAt)
    obtain ⟨state, shows, good⟩ := run.preserves
      (fun _ _ _ holds effect => effect.coherent holds) coherent held
    exact ⟨title, slug, target, createdAt, state, shows, run.evolves initial shows, good,
      created.ownRecord run shows⟩

/-! ### A session of one `init` -/

/-- A parser that knows `novel state init` only. -/
def initParser (tokens : List String) : Parsed :=
  if tokens = ["state", "init"] then .command (.init "Title" "slug" 1000)
  else .usageFault "unknown command"

theorem initialWorld_left : initialWorld 1000 ∈
    (structuralHost.main "2024-01-01T00:00:00Z" initParser ["state", "init"]
      (World.bare structuralHost.toml.Text)).trail := by
  rw [main_cases.1]
  show initialWorld 1000 ∈ (wired _ (World.bare structuralHost.toml.Text)).trail
  rw [trail_wired]
  exact Run.final_mem_trail (by decide +kernel)

theorem session_initialWorld : Session structuralHost initParser
    (World.bare structuralHost.toml.Text) (initialWorld 1000) :=
  .single (.process _ _ initialWorld_left)

theorem session_refines_initial : ∃ state, Shows (initialWorld 1000) state ∧ OwnRecord state := by
  obtain ⟨-, -, -, -, state, shows, -, -, own⟩ := session_refines session_initialWorld
    rfl (by decide +kernel)
  exact ⟨state, shows, own⟩

end Sessions

/-! ## The footprint of a process -/

section Footprint

variable {toml : Tomlkit} {arith : RatioArithmetic} {now : String} {world cut : World toml.Text}
  {state : State}

/-- A directory of the working tree that `init` makes. -/
def Skeleton (cwd place : Loc) : Prop :=
  place = workingLoc cwd ∨ ∃ name ∈ initSubdirectories, place = name :: workingLoc cwd

/-- All a process may have done to the tree, `state.toml` aside. -/
structure ProcessFootprint (world cut : World toml.Text) : Prop where
  cwd : cut.cwd = world.cwd
  /-- A `state.toml` is never lost. -/
  held : world.stateToml.isSome → cut.stateToml.isSome
  /-- Of the other files only the compiled manuscript is replaced. -/
  files : ∀ loc, loc ≠ world.disk.compiledManuscript →
    cut.files.lookup loc = world.files.lookup loc
  /-- The log is appended to, and emptied only where no `state.toml` was. -/
  log : cut.log = world.log ∨ (∃ receipt, cut.log = some (world.log.getD "" ++ receipt)) ∨
    (world.stateToml = none ∧ cut.log = some "")
  kept : world.dirs ⊆ cut.dirs
  /-- New directories are those of the working tree and of the manifest. -/
  made : ∀ place ∈ cut.dirs, place ∈ world.dirs ∨ Skeleton world.cwd place ∨
    ∃ state, Shows cut state ∧ ∃ number ∈ state.numbers, place = world.disk.chapterDir number

theorem Spared.processFootprint (spared : Spared world cut) (held : cut.stateToml.isSome)
    (made : ∀ place ∈ cut.dirs, place ∈ world.dirs ∨ Skeleton world.cwd place ∨
      ∃ state, Shows cut state ∧ ∃ number ∈ state.numbers, place = world.disk.chapterDir number) :
    ProcessFootprint world cut where
  cwd := spared.cwd
  held _ := held
  files loc _ := by rw [spared.files]
  log := spared.log.imp_right Or.inl
  kept := spared.kept
  made := made

/-- The directories are those of before and some allowed ones. -/
def Within (world : World toml.Text) (allowed : Loc → Prop) (later : World toml.Text) : Prop :=
  later.cwd = world.cwd ∧ ∀ place ∈ later.dirs, place ∈ world.dirs ∨ allowed place

/-- Making a plain path keeps what adding the places along it keeps. -/
theorem always_makeDirsAt_plain {inv : World toml.Text → Prop} {base : World toml.Text → Loc}
    {here : Loc} (based : ∀ later, inv later → base later = here) {parts : List String}
    (plain : ".." ∉ parts)
    (adds : ∀ later names, names ≠ [] → names <:+ parts.reverse → inv later →
      inv (later.addDir (names ++ here))) :
    Prog.Always inv (makeDirsAt base ⟨"", parts⟩ : Command toml Unit) := by
  intro later holds
  have start : (PosixPath.mk "" parts).start (base later) = here := based later holds
  have always := World.dirStore.always_mkdirs_plain here (by simpa using plain) adds
  unfold makeDirsAt
  rw [start]
  exact Prog.Always.mapFault always later holds

theorem Within.addDir {allowed : Loc → Prop} {later : World toml.Text} {place : Loc}
    (within : Within world allowed later) (permitted : allowed place) :
    Within world allowed (later.addDir place) := by
  refine ⟨(World.cwd_addDir _).trans within.1, fun other member => ?_⟩
  rcases dirs_addDir_cases later place with same | added
  · exact within.2 other (same ▸ member)
  · rw [added] at member
    rcases Finset.mem_insert.mp member with rfl | old
    · exact Or.inr permitted
    · exact within.2 other old

theorem Within.always_write {allowed : Loc → Prop} (document : Document toml) :
    Prog.Always (Within world allowed) (writeDocumentAtomically document) := by
  refine Prog.Always.perform fun later next within written => ?_
  obtain ⟨cwd, -, -, dirs⟩ := World.replaceState_ok written
  exact ⟨cwd.trans within.1, fun place member => within.2 place (dirs ▸ member)⟩

theorem Within.always_append {allowed : Loc → Prop} (line : String) :
    Prog.Always (Within world allowed) (appendLine line) := by
  refine Prog.Always.bind (Prog.Always.perform fun later next within opened => ?_) fun _ =>
    Prog.Always.perform fun later next within appended => ?_
  · obtain ⟨cwd, -, -, dirs⟩ := World.openLog_ok opened
    exact ⟨cwd.trans within.1, fun place member => within.2 place (dirs ▸ member)⟩
  · cases appended
    exact within

/-- The second half of `set-chapters` spares the tree and stays within it. -/
theorem always_writeManifestTurn {inv : World toml.Text → Prop}
    (writes : ∀ document : Document toml, Prog.Always inv (writeDocumentAtomically document))
    (appends : ∀ line, Prog.Always inv (appendLine line : Command toml Unit))
    (document : Document toml) (ordered : List ChapterPlanEntry)
    (makes : ∀ entry ∈ ordered, Prog.Always inv
      (makeDirs ⟨"", ["manuscript", chapterDirName entry.number]⟩ : Command toml Unit)) :
    Prog.Always inv (writeManifestTurn now document ordered) :=
  Prog.Always.bind (writes _) fun _ => Prog.Always.bind (Prog.Always.forEach makes) fun _ =>
    Prog.Always.bind (appends _) fun _ => writes _

theorem always_setChapters {inv : World toml.Text → Prop}
    (writes : ∀ document : Document toml, Prog.Always inv (writeDocumentAtomically document))
    (appends : ∀ line, Prog.Always inv (appendLine line : Command toml Unit))
    (chapters : List ChapterPlanEntry)
    (makes : ∀ entry ∈ orderedChapters chapters, Prog.Always inv
      (makeDirs ⟨"", ["manuscript", chapterDirName entry.number]⟩ : Command toml Unit)) :
    Prog.Always inv (setChaptersCommand arith now chapters : Command toml CommandOutcome) := by
  unfold setChaptersCommand populateChapters
  refine Prog.Always.bind (Prog.Always.observe _) fun document => ?_
  refine Prog.Always.bind (Prog.Always.observe _) fun prior => ?_
  by_cases populated : prior.chapters ≠ []
  · rw [if_pos populated]
    exact Prog.Always.raise _
  · rw [if_neg populated]
    refine Prog.Always.bind (Prog.Always.observe _) fun _ => ?_
    refine Prog.Always.bind (Prog.Always.observe _) fun _ => ?_
    refine Prog.Always.bind (Prog.Always.observe _) fun proposed => ?_
    refine Prog.Always.bind (Prog.Always.observe _) fun _ => ?_
    exact Prog.Always.bind (always_writeManifestTurn writes appends _ _ makes) fun _ =>
      Prog.Always.pure _

/-- `set-chapters` makes the directories of its plan. -/
theorem footprint_setChapters {chapters : List ChapterPlanEntry}
    (left : cut ∈ (setChaptersCommand arith now chapters world).trail) : ProcessFootprint world cut := by
  have spared : Spared world cut := by
    refine always_setChapters Spared.always_write Spared.always_append chapters ?_ world
      (Spared.refl world) cut left
    exact fun entry _ => always_makeDirs (always_makeDirsAt fun _ loc held => held.addDir loc)
  let allowed : Loc → Prop := fun place => place = world.disk.manuscript ∨
    ∃ entry ∈ orderedChapters chapters, place = world.disk.chapterDir entry.number
  have within : Within world allowed cut := by
    refine always_setChapters Within.always_write Within.always_append chapters
      (fun entry listed => ?_) world ⟨rfl, fun place there => Or.inl there⟩ cut left
    refine always_makeDirs
      (always_makeDirsAt_plain (fun later within => congrArg workingLoc within.1) ?_ ?_)
    · have plain := @chapterDirName_plain entry.number
      simp [Ne.symm plain.2.2]
    · intro later names named suffix within
      refine within.addDir ?_
      rcases List.suffix_cons_iff.mp suffix with whole | rest
      · exact Or.inr ⟨entry, listed, by rw [whole]; rfl⟩
      · rcases List.suffix_cons_iff.mp rest with outer | none
        · exact Or.inl (by rw [outer]; rfl)
        · exact absurd (List.suffix_nil.mp none) named
  have reached : cut ∈ ((Invocation.setChapters chapters).run arith now world).trail := left
  obtain ⟨prior, shows⟩ := shows_of_cut reached
  obtain ⟨after, shown, effect⟩ := effect_of_cut shows reached
  refine spared.processFootprint shown.held fun place there => ?_
  rcases within.2 place there with old | rfl | ⟨entry, listed, rfl⟩
  · exact Or.inl old
  · exact Or.inr (Or.inl (Or.inr ⟨"manuscript", by decide, rfl⟩))
  · refine Or.inr (Or.inr ⟨after, shown, entry.number, ?_, rfl⟩)
    cases effect with
    | mutated mutates coherent => cases mutates
    | planned accepted pending =>
        exact List.mem_map.mpr ⟨entry.record, List.mem_map_of_mem listed, rfl⟩

/-- Every place on the way to a directory is one. -/
theorem mem_dirs_of_suffix {place below : Loc} (leads : place <:+ below)
    (there : below ∈ world.dirs) : place ∈ world.dirs := by
  induction below with
  | nil => rwa [List.suffix_nil.mp leads]
  | cons name parent inductionHypothesis =>
      rcases List.suffix_cons_iff.mp leads with rfl | within
      · exact there
      · exact inductionHypothesis within (world.rooted _ there)

/-- A narrow footprint is one of a process. -/
theorem Narrow.processFootprint (narrow : Narrow world state cut) (shows : Shows world state) :
    ProcessFootprint world cut := by
  obtain ⟨current, byChapter, pending, shown⟩ := narrow.shown
  refine narrow.spared.processFootprint shown.held fun place there => ?_
  rcases narrow.made place there with old | ⟨number, listed, leads⟩
  · exact Or.inl old
  · rcases List.suffix_cons_iff.mp leads with rfl | outer
    · exact Or.inr (Or.inr ⟨_, shown, number, List.mem_toFinset.mp listed, rfl⟩)
    · rcases List.suffix_cons_iff.mp outer with rfl | within
      · exact Or.inr (Or.inl (Or.inr ⟨"manuscript", by decide, rfl⟩))
      · exact Or.inl (mem_dirs_of_suffix within (world.stateHeld shows.held).1)

/-- What `init` has done at a cut: the working tree, and an empty log at most. -/
structure Founded (world cut : World toml.Text) : Prop where
  files : cut.files = world.files
  log : cut.log = world.log ∨ cut.log = some ""
  kept : world.dirs ⊆ cut.dirs
  within : Within world (Skeleton world.cwd) cut

theorem Founded.always_init {title slug : String} {target : Int} :
    Prog.Always (Founded world) (initCommand now title slug target : Command toml CommandOutcome) := by
  have makes : ∀ parts : List String, ".." ∉ parts →
      (∀ names, names ≠ [] → names <:+ parts.reverse → Skeleton world.cwd (names ++ world.cwd)) →
      Prog.Always (Founded world) (makeDirsAt World.cwd ⟨"", parts⟩ : Command toml Unit) := by
    intro parts plain permitted
    refine always_makeDirsAt_plain (fun later founded => founded.within.1) plain ?_
    intro later names named suffix founded
    exact {
      files := (World.files_addDir _).trans founded.files
      log := by rw [World.log_addDir]; exact founded.log
      kept := founded.kept.trans (World.subset_dirs_addDir _)
      within := founded.within.addDir (permitted names named suffix) }
  unfold initCommand
  refine Prog.Always.bind (Prog.Always.observe _) fun there => ?_
  cases there with
  | true => exact Prog.Always.raise _
  | false =>
      refine Prog.Always.bind (makes ["working"] (by decide) ?_) fun _ => ?_
      · intro names named suffix
        rcases List.suffix_cons_iff.mp suffix with rfl | none
        · exact Or.inl rfl
        · exact absurd (List.suffix_nil.mp none) named
      refine Prog.Always.bind (Prog.Always.forEach fun name listed => makes ["working", name] ?_ ?_)
        fun _ => ?_
      · have plain : ∀ name ∈ initSubdirectories, ".." ∉ ["working", name] := by decide
        exact plain name listed
      · intro names named suffix
        rcases List.suffix_cons_iff.mp suffix with rfl | outer
        · exact Or.inr ⟨name, listed, rfl⟩
        · rcases List.suffix_cons_iff.mp outer with rfl | none
          · exact Or.inl rfl
          · exact absurd (List.suffix_nil.mp none) named
      refine Prog.Always.bind (Prog.Always.observe _) fun _ => ?_
      refine Prog.Always.bind (Prog.Always.perform fun later next founded written => ?_) fun _ => ?_
      · obtain ⟨cwd, files, log, dirs⟩ := World.replaceState_ok written
        exact ⟨files.trans founded.files, log ▸ founded.log, dirs ▸ founded.kept,
          cwd.trans founded.within.1, fun place member => founded.within.2 place (dirs ▸ member)⟩
      refine Prog.Always.bind (Prog.Always.perform fun later next founded emptied => ?_) fun _ => ?_
      · unfold World.truncateLog at emptied
        split at emptied
        · split at emptied <;> cases emptied
          exact ⟨founded.files, Or.inr rfl, founded.kept, founded.within⟩
        · split at emptied <;> cases emptied
      exact Prog.Always.bind (Prog.Always.observe _) fun _ => Prog.Always.pure _

/-- `init` has an effect only where no `state.toml` is. -/
theorem footprint_init {title slug : String} {target : Int}
    (left : cut ∈ (initCommand now title slug target world).trail) : ProcessFootprint world cut := by
  have absent : world.stateToml = none := by
    by_contra held
    rw [init_refuses (Option.isSome_iff_ne_none.mpr held)] at left
    cases left
  have founded := Founded.always_init world
    ⟨rfl, Or.inl rfl, Finset.Subset.refl _, rfl, fun _ there => Or.inl there⟩ cut left
  exact {
    cwd := founded.within.1
    held := fun held => by rw [absent] at held; cases held
    files := fun loc _ => by rw [founded.files]
    log := founded.log.imp_right fun emptied => Or.inr ⟨absent, emptied⟩
    kept := founded.kept
    made := fun place there => (founded.within.2 place there).imp_right Or.inl }

/-- A single-file mutator has the state replaced and nothing else. -/
theorem footprint_singleFile {invocation : Invocation} (single : invocation.singleFile = true)
    (left : cut ∈ (invocation.run arith now world).trail) : ProcessFootprint world cut := by
  rcases @singleFile_cases toml arith now world invocation single with ⟨fault, run⟩ |
    ⟨outcome, -, run⟩ | ⟨prior, proposed, written, outcome, -, -, -, rewrites, shown, run⟩
  · rw [run] at left
    cases left
  · rw [run] at left
    cases left
  · rw [run] at left
    obtain ⟨held, text, rfl⟩ := rewrites
    rw [List.mem_singleton.mp left]
    exact {
      cwd := rfl
      held := fun _ => rfl
      files := fun loc _ => rfl
      log := Or.inl rfl
      kept := Finset.Subset.refl _
      made := fun place there => Or.inl there }

/-- `compile` replaces the compiled manuscript. -/
theorem footprint_compile (left : cut ∈ (compileManuscript world).trail) :
    ProcessFootprint world cut :=
  have same := compile_cut left
  { cwd := same.cwd
    held := fun held => by rw [same.stateToml]; exact held
    files := same.files
    log := Or.inl same.log
    kept := by rw [same.dirs]
    made := fun place there => Or.inl (same.dirs ▸ there) }

end Footprint

section Processes

variable {host : Host} {cyclopts : List String → Parsed} {start world next : World host.toml.Text}

/-- In every session, what a process leaves behind at any cut is within its footprint, and only
an operation that does more than look leaves anything. -/
theorem process_footprint (session : Session host cyclopts start world)
    (absent : start.stateToml = none) (now : String) (argv : List String)
    (cut : next ∈ (host.main now cyclopts argv world).trail) :
    ProcessFootprint world next ∧
      ∃ operation, cyclopts (argv.filter fun token => token ≠ humanFlag) = .command operation ∧
        operation.looks = false := by
  obtain ⟨operation, parsed, leaves⟩ := leaves_of_main cut
  cases leaves with
  | init title slug target left => exact ⟨footprint_init left, _, parsed, rfl⟩
  | compile left => exact ⟨footprint_compile left, _, parsed, rfl⟩
  | mutate invocation left =>
      refine ⟨?_, _, parsed, rfl⟩
      by_cases single : invocation.singleFile = true
      · exact footprint_singleFile single left
      · cases invocation with
        | setChapters chapters => exact footprint_setChapters left
        | reconcile =>
            obtain ⟨state, shows⟩ := shows_of_cut left
            have held := shows.held
            rcases session.cases absent with none | ⟨title, slug, target, createdAt, origin, created,
              -, run⟩
            · rw [none] at held
              cases held
            · exact ((created.ownRecord run shows).narrow shows next left).processFootprint shows
        | _ => exact absurd rfl single

/-- The process that leaves the initial tree keeps to its footprint. -/
theorem process_footprint_initial :
    ProcessFootprint (World.bare Tomlkit.structural.Text) (initialWorld 1000) :=
  (@process_footprint structuralHost _ _ _ _ Relation.ReflTransGen.refl rfl _ _
    initialWorld_left).1

end Processes

end NovelRalph
