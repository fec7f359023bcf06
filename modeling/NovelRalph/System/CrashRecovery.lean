import NovelRalph.System.Settling

/-!
# Recovering from a killed `reconcile`

A run of `reconcile` that exits 0 can be killed at any of its cuts. When the
manifest is in bijection with the directories, no directory is left to be made
and the drafts' counts are coherent, re-running `reconcile` from any cut comes
to rest with the state and the directories that the uncut run leads to. In every
other case the cut after the first effect is lost: the record of `reconcile` has
replaced whatever explained the state it was to repair.
-/

namespace NovelRalph

/-- Two states that differ at most in the order of their count tables. -/
structure SameContent (left right : State) : Prop where
  table : ∀ key, left.wordCounts.byChapter.get? key = right.wordCounts.byChapter.get? key
  rest : { left with wordCounts := { left.wordCounts with
    byChapter := right.wordCounts.byChapter } } = right

namespace SameContent

variable {left middle right : State}

theorem refl (state : State) : SameContent state state := ⟨fun _ => rfl, rfl⟩

theorem symm (same : SameContent left right) : SameContent right left where
  table key := (same.table key).symm
  rest := by
    have rest := same.rest
    rw [← rest]

theorem trans (first : SameContent left middle) (second : SameContent middle right) :
    SameContent left right where
  table key := (first.table key).trans (second.table key)
  rest := by
    have rest := second.rest
    rw [← first.rest] at rest
    exact rest

/-- The same content has the same record. -/
theorem pendingTurn (same : SameContent left right) : left.pendingTurn = right.pendingTurn := by
  have records := congrArg State.pendingTurn same.rest
  exact records

end SameContent

section Recovery

variable {toml : Tomlkit} {arith : RatioArithmetic} {clock : Nat → String} {now : String}
  {world next : World toml.Text} {state after : State} {reconciliation : Reconciliation String}

/-- Re-runs from the cut, none a refusal, reach what re-runs to rest make of the uncut run. -/
def Recovers (arith : RatioArithmetic) (clock : Nat → String) (uncut cut : World toml.Text) : Prop :=
  ∃ more runs resting recovered,
    Rests arith (fun later => clock (more + later)) (rerun arith clock more uncut) ∧
    Shows (rerun arith clock more uncut) resting ∧
    (∀ earlier < runs, actionAt (rerun arith clock earlier cut) ≠ some .refuse) ∧
    Shows (rerun arith clock runs cut) recovered ∧ recovered.pendingTurn = none ∧
    SameContent recovered resting ∧
    (rerun arith clock runs cut).dirs = (rerun arith clock more uncut).dirs

/-- Every cut of a run of `reconcile` recovers to what the uncut run leads to. -/
def CrashSafe (arith : RatioArithmetic) (now : String) (clock : Nat → String)
    (world : World toml.Text) : Prop :=
  ∀ cut ∈ (reconcile arith now world).trail,
    Recovers arith clock ((reconcile arith now world).final world) cut

/-- The actions that repair something. -/
def Repairing (action : ReconcileAction) : Prop :=
  action = .recount ∨ action = .completePendingTurn ∨ action = .rollbackPendingTurn ∨
    action = .recreateLog

/-- What a repair must start from to be safe at every cut. -/
structure CutSafe (arith : RatioArithmetic) (state : State) (disk : Disk) : Prop where
  whole : bijectionBroken state disk false = false
  /-- A `set-chapters` turn that is completed has no path left to make. -/
  made : ∀ pending, state.pendingTurn = some pending → pending.operation = setChaptersOperation →
    missingDeclaredPaths pending.paths disk = [] ∨
      unrecoverablePaths (missingDeclaredPaths pending.paths disk) ≠ []
  counted : Coherent arith (state.counted disk)

/-! ## From the cuts of a calm repair -/

/-- The end of the runs has the content of the recounted state. -/
theorem Ends.sameContent {disk : Disk} {final : State} (ends : Ends disk state final)
    (coherent : Coherent arith state) (agreed : refusal state disk = false) :
    SameContent final (state.counted disk).settled := by
  rcases ends with ⟨rfl, current⟩ | rfl
  · have same := table_of_current agreed current
    have total : state.wordCounts.current = (disk.recountTable state.chapters).values.sum :=
      coherent.sum.symm.trans (Dict.sum_values_eq same)
    refine ⟨same, ?_⟩
    show { state with pendingTurn := none, wordCounts := { state.wordCounts with
      byChapter := disk.recountTable state.chapters } } = _
    rw [State.settled, State.counted, State.recounted, ← total]
  · exact SameContent.refl _

/-- A state that has its counts ends as it is. -/
theorem Ends.of_counted {disk : Disk} {final : State}
    (ends : Ends disk (state.counted disk).settled final) : Ends disk state final :=
  Or.inr (ends.elim (fun same => same.1) id)

/-- The end is the same on every world of the tree. -/
theorem Ends.moved {logged : Bool} {final : State} (stands : Stands world logged after next)
    (ends : Ends next.disk state final) : Ends world.disk state final := by
  unfold Ends State.counted at ends ⊢
  rwa [stands.sameManuscript.drift, stands.sameManuscript.recountTable] at ends

/-- From every cut of a calm repair the runs converge to the one end. -/
theorem Between.converges (between : Between world state after next) (calm : Calm state world)
    (enacted : after = state ∨ after = state.counted world.disk)
    (counted : Coherent arith (state.counted world.disk)) :
    ∃ bound, Converges arith clock bound next (Ends world.disk state) := by
  have settles : ∀ {base : World toml.Text} {logged : Bool} (clock : Nat → String),
      Stands world logged state.settled base →
      Converges arith clock 2 base (Ends world.disk state) := by
    intro base logged clock stands
    have same := stands.sameManuscript
    have calm' : Calm state.settled base :=
      Calm.moved stands (calm.readable.congr rfl) calm.agreed calm.opens
    have coherent : Coherent arith (state.settled.counted base.disk) := by
      unfold State.counted
      rw [same.recountTable]
      exact coherent_withPending.mpr counted
    exact (calm'.converges rfl fun _ => coherent).imp fun final ends => Ends.moved stands ends
  rcases between with ⟨logged, stands⟩ | stands
  · have calm' := Calm.moved stands (calm.readable.congr rfl) calm.agreed calm.opens
    obtain ⟨action, repairs⟩ := @Calm.closes toml arith (clock 0) next state calm'
    refine ⟨3, Converges.after (fun refused => ?_) repairs.final
      (settles _ (stands.trans repairs.final))⟩
    rw [action] at refused
    cases refused
  · rcases enacted with rfl | rfl
    · exact ⟨2, settles clock stands⟩
    · have same := stands.sameManuscript
      have calm' := Calm.moved stands (calm.readable.congr rfl) calm.agreed calm.opens
      have current : drift (state.counted world.disk).settled next.disk = false :=
        same.drift.trans (drift_counted state world.disk)
      refine ⟨2, (calm'.converges rfl fun stale => ?_).imp fun final ends =>
        Ends.of_counted (Ends.moved stands ends)⟩
      rw [current] at stale
      cases stale

/-- Converging runs recover what the uncut run converges to. -/
theorem recovers_of_converges {uncut cut : World toml.Text} {bound bound' : Nat} {target : State}
    {ends : State → Prop} (resting : Converges arith clock bound uncut ends)
    (recovering : Converges arith clock bound' cut ends)
    (content : ∀ final, ends final → SameContent final target) (settled : target.pendingTurn = none)
    (dirs : cut.dirs = uncut.dirs) : Recovers arith clock uncut cut := by
  obtain ⟨more, -, _, final, rests, -, stands, ending⟩ := resting
  obtain ⟨runs, -, _, recovered, -, unrefused, stands', ending'⟩ := recovering
  have same := content recovered ending'
  refine ⟨more, runs, final, recovered, rests, stands.shows, unrefused, stands'.shows,
    same.pendingTurn.trans settled, same.trans (content final ending).symm, ?_⟩
  rw [stands'.dirs, stands.dirs, dirs]

/-- A calm repair is safe at every cut. -/
theorem Repairs.crashSafe (repairs : Repairs arith now world state after) (calm : Calm state world)
    (coherent : Coherent arith state) (enacted : after = state ∨ after = state.counted world.disk)
    (counted : Coherent arith (state.counted world.disk)) : CrashSafe arith now clock world := by
  intro cut member
  have between := repairs.cuts cut member
  obtain ⟨bound, resting⟩ := Between.converges (Or.inr repairs.final) calm enacted counted
  obtain ⟨bound', recovering⟩ := between.converges calm enacted counted
  refine recovers_of_converges resting recovering
    (fun final ends => ends.sameContent coherent calm.agreed) rfl ?_
  rw [repairs.final.dirs]
  rcases between with ⟨logged, stands⟩ | stands
  · exact stands.dirs
  · exact stands.dirs

end Recovery

/-! ## What an exit 0 tells -/

section Exits

variable {toml : Tomlkit} {arith : RatioArithmetic} {base world : World toml.Text}
  {reconciliation : Reconciliation String} {now logLine : String}

/-- The world is `base` with another state file and, perhaps, more directories. -/
structure Grows (base world : World toml.Text) : Prop where
  cwd : world.cwd = base.cwd
  files : world.files = base.files
  log : world.log = base.log
  dirs : base.dirs ⊆ world.dirs

theorem always_grows_write (document : Document toml) :
    Prog.Always (Grows base) (writeDocumentAtomically document) := by
  refine Prog.Always.perform fun world next grows written => ?_
  obtain ⟨cwd, files, log, dirs⟩ := World.replaceState_ok written
  exact ⟨cwd.trans grows.cwd, files.trans grows.files, log.trans grows.log,
    by rw [dirs]; exact grows.dirs⟩

theorem Grows.refl (world : World toml.Text) : Grows world world :=
  ⟨rfl, rfl, rfl, Finset.Subset.refl _⟩

theorem Grows.addDir (grows : Grows base world) (loc : Loc) : Grows base (world.addDir loc) where
  cwd := by rw [World.cwd_addDir, grows.cwd]
  files := by rw [World.files_addDir, grows.files]
  log := by rw [World.log_addDir, grows.log]
  dirs := grows.dirs.trans (World.subset_dirs_addDir loc)

theorem always_grows_makeDirs (path : PosixPath) :
    Prog.Always (Grows base) (makeDirs path : Command toml Unit) :=
  always_makeDirs (always_makeDirsAt fun _ loc grown => grown.addDir loc)

/-- A path below the working tree of `base` is taken, and leads to a directory. -/
def Made (base : World toml.Text) (path : PosixPath) (world : World toml.Text) : Prop :=
  path.refused "working" = false ∧
    World.dirStore.isDir (path.start (workingLoc base.cwd)) world path.parts.reverse = true

/-- What has been made is there as long as the directories are. -/
theorem Made.mono {path : PosixPath} {next : World toml.Text} (made : Made base path world)
    (kept : world.dirs ⊆ next.dirs) : Made base path next :=
  ⟨made.1, World.dirStore.isDir_mono _ (fun _ there =>
    World.layout_eq_dir.mpr (kept (World.layout_eq_dir.mp there))) made.2⟩

/-- Making a path that returns has made it. -/
theorem ensures_makeDirs (path : PosixPath) :
    Prog.Ensures (Grows base) (makeDirs path) (fun _ => True)
      (fun _ world => Made base path world ∧ Grows base world) := by
  intro world grows
  have kept := (always_grows_makeDirs path).final grows
  by_cases refused : path.refused "working" = true
  · obtain ⟨fault, raised⟩ := makeDirs_refused refused world
    rw [raised] at kept ⊢
    exact ⟨fun _ _ => trivial, fun value returned => nomatch returned⟩
  have makes : Prog.Ensures (fun _ => True) (Prog.mapFault Fault.os
      (World.dirStore.mkdirs (path.start (workingLoc base.cwd)) path.parts.reverse))
      (fun _ => True) (fun _ (world : World toml.Text) =>
        World.dirStore.isDir (path.start (workingLoc base.cwd)) world path.parts.reverse = true) :=
    (DirStore.ensures_mkdirs (fun _ _ _ here free => World.layout_addDir_makes here free)
      (fun _ loc _ there => World.layout_addDir_keeps loc there) _).mapFault
  have place : workingLoc world.cwd = workingLoc base.cwd := by rw [grows.cwd]
  have taken : path.refused "working" = false := Bool.not_eq_true _ ▸ refused
  have run : (makeDirs path : Command toml Unit) world = Prog.mapFault Fault.os
      (World.dirStore.mkdirs (path.start (workingLoc base.cwd)) path.parts.reverse) world := by
    rw [makeDirs_taken taken]
    exact congrArg (fun place => Prog.mapFault Fault.os
      (World.dirStore.mkdirs (path.start place) path.parts.reverse) world) place
  have made := (makes world trivial).2
  rw [run] at kept ⊢
  exact ⟨fun _ _ => trivial, fun value returned => ⟨⟨taken, made value returned⟩, kept⟩⟩

/-- Making the missing directories of a turn makes all of them, if it returns. -/
theorem ensures_createMissing (paths : List String) :
    Prog.Ensures (Grows base)
      (Prog.forEach paths fun path => makeDirs (declaredPath path) : Command toml Unit)
      (fun _ => True)
      (fun _ world => Grows base world ∧ ∀ path ∈ paths, Made base (declaredPath path) world) := by
  induction paths with
  | nil => exact Prog.Ensures.pure fun world grows => ⟨grows, fun path member => by cases member⟩
  | cons path rest inductionHypothesis =>
      refine Prog.Ensures.bind (ensures_makeDirs _) fun _ => ?_
      have keeps : Prog.Always (Made base (declaredPath path))
          (Prog.forEach rest fun path => makeDirs (declaredPath path) : Command toml Unit) :=
        Prog.Always.forEach fun other _ => always_makeDirs
          (always_makeDirsAt fun _ loc made => made.mono (World.subset_dirs_addDir loc))
      refine (inductionHypothesis.and_always keeps).weaken (fun _ start => start.symm)
        (fun _ left => left) ?_
      rintro _ world ⟨⟨grows, later⟩, first⟩
      refine ⟨grows, fun other member => ?_⟩
      rcases List.mem_cons.mp member with rfl | member
      · exact first
      · exact later other member

/-- A line that was appended was appended to a log that can be opened. -/
theorem ensures_appendLine_open {kept : World toml.Text → Prop}
    (stable : ∀ world next, world.dirs ⊆ next.dirs → kept world → kept next) (line : String) :
    Prog.Ensures (fun world => Grows base world ∧ kept world) (appendLine line) (fun _ => True)
      (fun _ world => LogOpen base ∧ world.log.isSome = true ∧ kept world) := by
  have opening : Prog.Ensures (fun world => Grows base world ∧ kept world)
      (Prog.perform World.openLog : Command toml Unit) (fun _ => True)
      (fun _ world => LogOpen base ∧ world.log.isSome = true ∧ kept world) := by
    refine Prog.Ensures.perform fun world next start opened => ⟨trivial, ?_⟩
    obtain ⟨grows, holds⟩ := start
    unfold World.openLog at opened
    split at opened
    · next inside =>
        split at opened
        · cases opened
        · next regular =>
            cases opened
            refine ⟨⟨fun member => ?_, fun none => ?_⟩, rfl, stable world _ (fun _ => id) holds⟩
            · rw [grows.cwd] at inside
              exact inside.2 (grows.dirs member)
            · rw [grows.cwd, grows.files, grows.log, none] at regular
              by_contra stored
              exact regular ⟨rfl, Option.isSome_iff_ne_none.mpr stored⟩
    · split at opened <;> cases opened
  refine Prog.Ensures.bind opening fun _ => Prog.Ensures.perform fun world next held appended => ?_
  cases appended
  refine ⟨trivial, held.1, ?_, stable world _ (fun _ => id) held.2.2⟩
  show (world.log.map _).isSome = true
  rw [Option.isSome_map, held.2.1]

/-- A bracket that returns had a log to open, and what its edit made is still there. -/
theorem ensures_bracket_open {kept : World toml.Text → Prop}
    (stable : ∀ world next, world.dirs ⊆ next.dirs → kept world → kept next)
    {edit : Document toml → Command toml (Document toml)}
    (edits : ∀ opened, Prog.Ensures (Grows base) (edit opened) (fun _ => True)
      (fun _ world => Grows base world ∧ kept world)) :
    Prog.Ensures (Grows base) (runReconcileBracket now edit logLine) (fun _ => True)
      (fun _ world => LogOpen base ∧ world.log.isSome = true ∧ kept world) := by
  unfold runReconcileBracket
  refine Prog.Ensures.bind (Prog.Ensures.observe fun world document grows _ => grows) fun document => ?_
  refine Prog.Ensures.bind ((Prog.Ensures.of_always (always_grows_write _)).weaken
    (fun _ start => start) (fun _ _ => trivial) (fun _ _ grows => grows)) fun _ => ?_
  refine Prog.Ensures.bind (edits _) fun edited => ?_
  refine Prog.Ensures.bind (ensures_appendLine_open stable _) fun _ => ?_
  refine Prog.Ensures.perform fun world next held written => ⟨trivial, held.1, ?_⟩
  unfold World.replaceState at written
  split at written
  · cases written
    exact ⟨held.2.1, stable world _ (fun _ => id) held.2.2⟩
  · split at written <;> cases written

theorem always_grows_pendingTurnEdit (document : Document toml) :
    Prog.Always (Grows base) (pendingTurnEdit arith reconciliation document) := by
  unfold pendingTurnEdit turnEdit recomputeCounts
  split
  · exact Prog.Always.bind (Prog.Always.forEach fun path _ => always_grows_makeDirs _) fun _ =>
      Prog.Always.pure _
  · split
    · exact Prog.Always.pure _
    · exact Prog.Always.bind (Prog.Always.observe _) fun _ =>
        Prog.Always.bind (Prog.Always.observe _) fun _ => always_rewriteWordCounts _ _ _ _

variable {state : State} {outcome : CommandOutcome}

/-- A repair other than recreating the log is a bracket, whose edit makes directories at most. -/
theorem reconcile_brackets (shows : Shows world state)
    (derives : deriveReconciliation state world.disk = .ok reconciliation)
    (repairing : Repairing reconciliation.action)
    (bracketed : reconciliation.action ≠ .recreateLog) :
    ∃ (edit : Document toml → Command toml (Document toml)) (logLine : String),
      (∀ opened, Prog.Always (Grows world) (edit opened)) ∧
      reconcile arith now world = (runReconcileBracket now edit logLine >>= fun _ =>
        pure (writeOutcome reconciliation)) world := by
  have enacts := @reconcile_enacts toml arith state now world shows reconciliation derives
  have turn : reconciliation.action = .rollbackPendingTurn ∨
      reconciliation.action = .completePendingTurn →
      ∃ (edit : Document toml → Command toml (Document toml)) (logLine : String),
        (∀ opened, Prog.Always (Grows world) (edit opened)) ∧
        reconcile arith now world = (runReconcileBracket now edit logLine >>= fun _ =>
          pure (writeOutcome reconciliation)) world := by
    intro action
    exact ⟨_, _, fun opened => always_grows_pendingTurnEdit opened,
      enacts.trans (congrFun (enactReconciliation_of_turn arith now action) world)⟩
  cases derived_of_derive derives with
  | explained pending recorded operation => exact turn (Or.inr rfl)
  | pendingTurn pending recorded => exact turn (action_classifyPendingTurn ..)
  | recount names table settled counted =>
      exact ⟨_, _, fun opened => always_rewriteWordCounts _ _ _ _,
        enacts.trans (enactReconciliation_recount _ _)⟩
  | recreateLog settled => exact absurd rfl bracketed
  | refuse names => rcases repairing with action | action | action | action <;> cases action
  | none settled => rcases repairing with action | action | action | action <;> cases action

/-- A repair that returned had a log to open. -/
theorem logOpen_of_returned (shows : Shows world state)
    (derives : deriveReconciliation state world.disk = .ok reconciliation)
    (repairing : Repairing reconciliation.action)
    (returned : (reconcile arith now world).result = .ok outcome) : LogOpen world := by
  have grows : Grows world world := ⟨rfl, rfl, rfl, Finset.Subset.refl _⟩
  by_cases recreates : reconciliation.action = .recreateLog
  · rw [reconcile_enacts shows derives] at returned
    simp only [enactReconciliation, dispatchAction, recreates] at returned
    obtain ⟨trail, middle, appended, -⟩ := Prog.bind_returns world returned
    have opened := (@ensures_appendLine_open toml world (fun _ => True) (fun _ _ _ kept => kept)
      _ world ⟨grows, trivial⟩).2 middle (congrArg Run.result appended)
    exact opened.1
  · obtain ⟨edit, logLine, edits, run⟩ := @reconcile_brackets toml arith world reconciliation now
      state shows derives repairing recreates
    rw [run] at returned
    obtain ⟨trail, middle, bracketed, -⟩ := Prog.bind_returns world returned
    have opened := (@ensures_bracket_open toml world now logLine (fun _ => True)
      (fun _ _ _ kept => kept) _
      (fun opened => (Prog.Ensures.of_always (edits opened)).weaken (fun _ start => start)
        (fun _ _ => trivial) (fun _ _ held => ⟨held, trivial⟩)) world grows).2 middle
        (congrArg Run.result bracketed)
    exact opened.1

/-- The first cut of a bracket shows the record of `reconcile` on the tree as it was. -/
theorem first_cut (shows : Shows world state)
    (derives : deriveReconciliation state world.disk = .ok reconciliation)
    (repairing : Repairing reconciliation.action)
    (bracketed : reconciliation.action ≠ .recreateLog) :
    ∃ next ∈ (reconcile arith now world).trail,
      Stands world world.log.isSome state.recorded next := by
  obtain ⟨edit, logLine, -, run⟩ := @reconcile_brackets toml arith world reconciliation now
    state shows derives repairing bracketed
  obtain ⟨opened, next, -, rewrites, shows', bracket⟩ := bracket_run now shows logLine edit
  refine ⟨next, ?_, Stands.of_rewrites rewrites shows'⟩
  rw [run]
  refine Prog.mem_trail_bind world ?_
  rw [bracket]
  exact List.mem_cons_self

end Exits

/-! ## What the first cut loses -/

section Lost

variable {toml : Tomlkit} {arith : RatioArithmetic} {clock : Nat → String} {now : String}
  {base world next uncut : World toml.Text} {state after : State} {logged : Bool}
  {reconciliation : Reconciliation String}

/-- Under no record of `set-chapters` a run of `reconcile` leaves the tree standing. -/
theorem stands_reconcile (opens : LogOpen base) (stands : Stands base logged state world)
    (plain : ∀ pending, state.pendingTurn = some pending → pending.operation ≠ setChaptersOperation) :
    ∃ later after, Stands base later after ((reconcile arith now world).final world) ∧
      ∀ pending, after.pendingTurn = some pending → pending.operation ≠ setChaptersOperation := by
  have opens' := stands.logOpen opens
  have recorded : ∀ pending, state.recorded.pendingTurn = some pending →
      pending.operation ≠ setChaptersOperation := by
    rintro pending same
    cases same
    decide
  have settled : ∀ state : State, ∀ pending, state.settled.pendingTurn = some pending →
      pending.operation ≠ setChaptersOperation := fun _ _ none => by cases none
  cases derives : deriveReconciliation state world.disk with
  | error fault =>
      have idle := @rerun_of_error toml arith (fun _ => now) world state fault stands.shows derives 1
      change (reconcile arith now world).final world = world at idle
      rw [idle]
      exact ⟨logged, state, stands, plain⟩
  | ok reconciliation =>
      have rewritten : rewritesCounts reconciliation = true →
          (Coherent arith (state.counted world.disk) →
            Repairs arith now world state (state.counted world.disk)) →
          ∃ later after, Stands base later after ((reconcile arith now world).final world) ∧
            ∀ pending, after.pendingTurn = some pending →
              pending.operation ≠ setChaptersOperation := by
        intro rewrites repairs
        by_cases coherent : Coherent arith (state.counted world.disk)
        · exact ⟨_, _, stands.trans (repairs coherent).final, settled _⟩
        · exact ⟨_, _, stands.trans (stalls stands.shows derives rewrites coherent).2, recorded⟩
      cases (deriveReconciliation_iff (readable_of_derive derives)).mp derives with
      | explained pending named explains => exact absurd explains.1 (plain pending named)
      | coverGap gap => exact rewritten rfl (Repairs.recount opens' stands.shows derives)
      | recount none agreed stale => exact rewritten rfl (Repairs.recount opens' stands.shows derives)
      | refuse _ _ _ _ =>
          obtain ⟨-, kept, -⟩ := @reconcile_refuses toml arith now world state opens' stands.shows _
            derives
          exact ⟨_, _, stands.trans kept, plain⟩
      | pendingTurn pending named agreed =>
          have incomplete := incomplete_of_plain plain derives
          rcases @Repairs.turn_cases toml arith now world state _ opens' stands.shows derives
            (action_classifyPendingTurn ..) (fun completes => by
              rw [incomplete] at completes
              cases completes) with cleared | ⟨rewrites, counts⟩
          · exact ⟨_, _, stands.trans cleared.final, settled _⟩
          · exact rewritten rewrites counts
      | recreateLog none agreed current absent =>
          exact ⟨_, _, stands.trans (Repairs.recreateLog opens' stands.shows none derives :
            Repairs arith now world state state).final, settled _⟩
      | none none agreed current present =>
          rw [reconcile_idle stands.shows derives]
          exact ⟨logged, state, stands, plain⟩

/-- Under no record of `set-chapters` the runs leave the tree standing. -/
theorem stands_rerun (opens : LogOpen base) (stands : Stands base logged state world)
    (plain : ∀ pending, state.pendingTurn = some pending → pending.operation ≠ setChaptersOperation)
    (runs : Nat) : (rerun arith clock runs world).dirs = base.dirs := by
  have kept := @rerun_keeps toml arith clock world (fun world => ∃ later after,
    Stands base later after world ∧ ∀ pending, after.pendingTurn = some pending →
      pending.operation ≠ setChaptersOperation)
    (fun now world ⟨_, _, stands, plain⟩ => stands_reconcile opens stands plain)
    ⟨logged, state, stands, plain⟩ runs
  obtain ⟨later, after, stands, -⟩ := kept
  exact stands.dirs

/-- The record of `reconcile` explains no refusal: the first run from the cut refuses. -/
theorem lost_refusal (readable : Readable state world.disk)
    (refused : refusal state world.disk = true) (stands : Stands world logged state.recorded next) :
    ¬ Recovers arith clock uncut next := by
  rintro ⟨more, runs, resting, recovered, -, -, unrefused, shows, settled, -⟩
  have same := stands.sameManuscript
  have refuses : ∃ names, deriveReconciliation state.recorded next.disk =
      .ok (refuseReconciliation names) :=
    derives_refusal (same.readable (readable.congr rfl))
      (fun pending recorded => by cases recorded; decide) (fun gap => by cases gap.1)
      (same.refusal.trans refused)
  obtain ⟨names, derives⟩ := refuses
  cases runs with
  | zero =>
      rw [shows.unique stands.shows] at settled
      cases settled
  | succ runs => exact unrefused 0 (Nat.succ_pos runs) (actionAt_of_derive stands.shows derives)

/-- The record of `reconcile` declares no directory: the runs from the cut make none. -/
theorem lost_directory (opens : LogOpen world) (stands : Stands world logged state.recorded next)
    (opens' : LogOpen uncut) (shows : Shows uncut after) (settled : after.pendingTurn = none)
    {paths : List String} {path : String} (missing : path ∈ missingDeclaredPaths paths world.disk)
    (made : Made world (declaredPath path) uncut) : ¬ Recovers arith clock uncut next := by
  rintro ⟨more, runs, resting, recovered, -, -, -, -, -, -, dirs⟩
  rw [stands_rerun opens stands (fun pending recorded => by cases recorded; decide) runs,
    stands_rerun opens' (Stands.refl shows) (fun pending recorded => by
      rw [settled] at recorded
      cases recorded) more] at dirs
  obtain ⟨taken, there⟩ : Made world (declaredPath path) world := made.mono (by rw [dirs])
  obtain ⟨loc, arrives, here⟩ := (World.dirStore.isDir_iff _).mp there
  rw [List.reverse_reverse] at arrives
  have occupied : (declaredPath path).occupies world.layout (workingLoc world.cwd) "working" =
      true := by
    unfold PosixPath.occupies
    change world.layout.walk _ _ = _ at arrives
    rw [taken, arrives]
    change world.layout loc = _ at here
    dsimp only
    rw [here]
    rfl
  have unoccupied := (List.mem_filter.mp missing).2
  change (!(declaredPath path).occupies world.layout (workingLoc world.cwd) "working") = true
    at unoccupied
  rw [occupied] at unoccupied
  cases unoccupied

/-- A hindered run leads nowhere to rest. -/
theorem lost_rest (hindered : Hindered arith world state reconciliation) :
    ¬ Recovers arith clock ((reconcile arith now world).final world) next := by
  rintro ⟨more, runs, resting, recovered, rests, -⟩
  have busy := @Hindered.busy toml arith (fun run => if run = 0 then now else clock (run - 1)) world
    state reconciliation hindered (1 + more)
  rw [rerun_add] at busy
  have clocks : (fun later => if 1 + later = 0 then now else clock (1 + later - 1)) = clock := by
    funext later
    rw [if_neg (by omega), Nat.add_sub_cancel_left]
  rw [clocks] at busy
  exact rests.idle.elim busy.1 busy.2

/-! ## Exactly when a repair is safe at every cut -/

/-- A repair of a tree in bijection with the manifest is not one of a refusal. -/
theorem agreed_of_whole (derives : deriveReconciliation state world.disk = .ok reconciliation)
    (repairing : Repairing reconciliation.action)
    (whole : bijectionBroken state world.disk false = false) :
    refusal state world.disk = false := by
  by_contra refused
  rw [Bool.not_eq_false] at refused
  cases (deriveReconciliation_iff (readable_of_derive derives)).mp derives with
  | explained pending recorded explains => rw [explains.2.1] at whole; cases whole
  | coverGap gap => rw [gap.2.2.1] at whole; cases whole
  | refuse _ _ _ _ => rcases repairing with action | action | action | action <;> cases action
  | pendingTurn pending recorded agreed => rw [refused] at agreed; cases agreed
  | recount settled agreed stale => rw [refused] at agreed; cases agreed
  | recreateLog settled agreed current absent => rw [refused] at agreed; cases agreed
  | none settled agreed current present => rw [refused] at agreed; cases agreed

/-- A repair that starts from what it must is safe at every cut. -/
theorem crashSafe_of_cutSafe (shows : Shows world state) (coherent : Coherent arith state)
    (derives : deriveReconciliation state world.disk = .ok reconciliation)
    (repairing : Repairing reconciliation.action) (opens : LogOpen world)
    (safe : CutSafe arith state world.disk) : CrashSafe arith now clock world := by
  have readable := readable_of_derive derives
  have agreed := agreed_of_whole derives repairing safe.whole
  have calm : Calm state world := ⟨shows, readable, agreed, opens⟩
  have recounts : Repairs arith now world state (state.counted world.disk) →
      CrashSafe arith now clock world := fun repairs =>
    repairs.crashSafe calm coherent (Or.inr rfl) safe.counted
  have clears : Repairs arith now world state state → CrashSafe arith now clock world :=
    fun repairs => repairs.crashSafe calm coherent (Or.inl rfl) safe.counted
  cases (deriveReconciliation_iff readable).mp derives with
  | explained pending recorded explains =>
      have whole := safe.whole
      rw [explains.2.1] at whole
      cases whole
  | coverGap gap => exact recounts (Repairs.recount opens shows derives safe.counted)
  | recount settled _ stale => exact recounts (Repairs.recount opens shows derives safe.counted)
  | recreateLog settled _ current absent => exact clears (Repairs.recreateLog opens shows settled derives)
  | refuse _ _ _ _ => rcases repairing with action | action | action | action <;> cases action
  | none settled _ _ _ => rcases repairing with action | action | action | action <;> cases action
  | pendingTurn pending recorded _ =>
      have made : completesSetChapters (classifyPendingTurn world.disk pending
          [InvariantName.pendingTurnCleared]) = true →
          (classifyPendingTurn world.disk pending
            [InvariantName.pendingTurnCleared]).missingPaths = [] := by
        intro completes
        obtain ⟨action, operation⟩ := completesSetChapters_iff.mp completes
        rw [operation_classifyPendingTurn, Option.some.injEq] at operation
        rw [missingPaths_classifyPendingTurn]
        have complete := completes_classifyPendingTurn.mp action
        exact (safe.made pending recorded operation).resolve_right fun lost => lost complete
      rcases @Repairs.turn_cases toml arith now world state _ opens shows derives
        (action_classifyPendingTurn ..) made with cleared | ⟨-, counts⟩
      · exact clears cleared
      · exact recounts (counts safe.counted)

/-- A run that makes the directories of a turn is not safe at its first cut. -/
theorem lost_turn (shows : Shows world state)
    (derives : deriveReconciliation state world.disk = .ok reconciliation)
    (completes : completesSetChapters reconciliation = true)
    {outcome : CommandOutcome} (returned : (reconcile arith now world).result = .ok outcome)
    {paths : List String} {path : String} (missing : path ∈ missingDeclaredPaths paths world.disk)
    (listed : path ∈ reconciliation.missingPaths)
    (stands : Stands world logged state.recorded next) :
    ¬ Recovers arith clock ((reconcile arith now world).final world) next := by
  have grows : Grows world world := ⟨rfl, rfl, rfl, Finset.Subset.refl _⟩
  have turn : reconciliation.action = .rollbackPendingTurn ∨
      reconciliation.action = .completePendingTurn :=
    Or.inr (completesSetChapters_iff.mp completes).1
  have run := (@reconcile_enacts toml arith state now world shows reconciliation derives).trans
    (congrFun (enactReconciliation_of_turn arith now turn) world)
  rw [run] at returned ⊢
  obtain ⟨trail, middle, bracketed, -⟩ := Prog.bind_returns world returned
  have edits : ∀ opened, Prog.Ensures (Grows world) (pendingTurnEdit arith reconciliation opened)
      (fun _ => True) (fun _ left => Grows world left ∧ Made world (declaredPath path) left) := by
    intro opened
    unfold pendingTurnEdit turnEdit recomputeCounts
    rw [if_pos completes]
    exact Prog.Ensures.bind (ensures_createMissing _) fun _ =>
      Prog.Ensures.pure fun left held => ⟨held.1, held.2 path listed⟩
  obtain ⟨opens, held, made⟩ := (ensures_bracket_open (fun _ _ kept made => Made.mono made kept)
    edits world grows).2 middle (congrArg Run.result bracketed)
  obtain ⟨after, shows', -, settled⟩ := (ensures_runReconcileBracket now _ (fun _ _ viewed =>
    ensures_pendingTurnEdit viewed reconciliation) world shows).2 middle
      (congrArg Run.result bracketed)
  rw [Prog.final_bind_pure]
  exact lost_directory opens stands (LogOpen.of_regular (Or.inl held)) shows' settled missing made

/-- A repair that starts from anything else is lost at its first cut. -/
theorem cutSafe_of_crashSafe (shows : Shows world state) (coherent : Coherent arith state)
    (derives : deriveReconciliation state world.disk = .ok reconciliation)
    (repairing : Repairing reconciliation.action) (opens : LogOpen world)
    {outcome : CommandOutcome} (returned : (reconcile arith now world).result = .ok outcome)
    (safe : CrashSafe arith now clock world) : CutSafe arith state world.disk := by
  have readable := readable_of_derive derives
  have derivation := (deriveReconciliation_iff readable).mp derives
  have whole : bijectionBroken state world.disk false = false := by
    by_contra broken
    rw [Bool.not_eq_false] at broken
    have refused : refusal state world.disk = true := by rw [refusal, broken, Bool.true_or]
    have bracketed : reconciliation.action ≠ .recreateLog := by
      intro recreates
      cases derivation with
      | recreateLog _ agreed _ _ => rw [refused] at agreed; cases agreed
      | pendingTurn pending _ agreed => rw [refused] at agreed; cases agreed
      | _ => cases recreates
    obtain ⟨next, member, stands⟩ := @first_cut toml arith world reconciliation now state shows
      derives repairing bracketed
    exact lost_refusal readable refused stands (safe next member)
  have agreed := agreed_of_whole derives repairing whole
  have made : ∀ pending, state.pendingTurn = some pending →
      pending.operation = setChaptersOperation →
      missingDeclaredPaths pending.paths world.disk = [] ∨
        unrecoverablePaths (missingDeclaredPaths pending.paths world.disk) ≠ [] := by
    intro pending recorded operation
    by_contra unmade
    obtain ⟨missing, complete⟩ := not_or.mp unmade
    rw [not_not] at complete
    obtain ⟨path, member⟩ := List.exists_mem_of_ne_nil _ missing
    have same := derivation.of_agreed recorded agreed
    have action : reconciliation.action = .completePendingTurn := by
      rw [same]
      exact completes_classifyPendingTurn.mpr complete
    have completes : completesSetChapters reconciliation = true := by
      rw [completesSetChapters_iff, same, operation_classifyPendingTurn, operation]
      exact ⟨completes_classifyPendingTurn.mpr complete, rfl⟩
    obtain ⟨next, cut, stands⟩ := @first_cut toml arith world reconciliation now state shows
      derives repairing (by rw [action]; decide)
    refine lost_turn shows derives completes returned member ?_ stands (safe next cut)
    rw [same, missingPaths_classifyPendingTurn]
    exact member
  refine ⟨whole, made, ?_⟩
  by_contra incoherent
  have stale : drift state world.disk = true := by
    by_contra current
    exact incoherent (coherent_counted coherent agreed (Bool.eq_false_iff.mpr current))
  have bracketed : reconciliation.action ≠ .recreateLog := by
    intro recreates
    cases derivation with
    | recreateLog _ _ current _ => rw [stale] at current; cases current
    | pendingTurn pending _ _ =>
        rcases action_classifyPendingTurn world.disk pending [InvariantName.pendingTurnCleared]
          with action | action <;> rw [action] at recreates <;> cases recreates
    | _ => cases recreates
  obtain ⟨next, member, -⟩ := @first_cut toml arith world reconciliation now state shows
    derives repairing bracketed
  have hindered : Hindered arith world state reconciliation := by
    refine ⟨shows, opens, derives, agreed, stale, incoherent, fun completes => ?_⟩
    obtain ⟨action, operation⟩ := completesSetChapters_iff.mp completes
    cases recorded : state.pendingTurn with
    | none =>
        rw [incomplete_of_plain (fun _ some => by rw [recorded] at some; cases some) derives]
          at completes
        cases completes
    | some pending =>
        rw [derivation.of_agreed recorded agreed] at action operation ⊢
        rw [operation_classifyPendingTurn, Option.some.injEq] at operation
        rw [missingPaths_classifyPendingTurn]
        exact (made pending recorded operation).resolve_right fun lost =>
          lost (completes_classifyPendingTurn.mp action)
  exact lost_rest hindered (safe next member)

end Lost

/-- A repair that exits 0 is safe at every cut exactly when it starts from what `CutSafe` asks. -/
theorem crash_safe_iff {toml : Tomlkit} (arith : RatioArithmetic) (now : String)
    (clock : Nat → String) (world : World toml.Text) (state : State)
    (reconciliation : Reconciliation String) (shows : Shows world state) (coherent : Coherent arith state)
    (derives : deriveReconciliation state world.disk = .ok reconciliation)
    (repairing : Repairing reconciliation.action)
    (exits : exitCodeOf (reconcile arith now world).result = some 0) :
    CrashSafe arith now clock world ↔ CutSafe arith state world.disk := by
  obtain ⟨outcome, returned, -⟩ := exitCodeOf_eq_zero.mp exits
  have opens := logOpen_of_returned shows derives repairing returned
  exact ⟨cutSafe_of_crashSafe shows coherent derives repairing opens returned,
    crashSafe_of_cutSafe shows coherent derives repairing opens⟩

/-! ## A plan of one chapter, killed before its directory was made -/

/-- The first cut of `set-chapters` on a fresh novel. -/
def plannedWorld : World Tomlkit.structural.Text :=
  (setChaptersCommand .exact "" [⟨1, "one", "One", 500⟩] (initialWorld 1000)).trail.headD
    (initialWorld 1000)

/-- What `plannedWorld` shows. -/
def plannedState : State :=
  { droppedState.planned [⟨1, "one", "One", 500⟩] with
    pendingTurn := some ⟨setChaptersOperation, declaredPaths [⟨1, "one", "One", 500⟩]⟩ }

theorem shows_planned : Shows plannedWorld plannedState := shown?_eq_some.mp (by decide +kernel)

theorem coherent_planned : Coherent .exact plannedState :=
  validateState_eq_nil.mp (by decide +kernel)

theorem derives_planned : deriveReconciliation plannedState plannedWorld.disk =
    .ok (completeSetChaptersTurn plannedWorld.disk
      ⟨setChaptersOperation, declaredPaths [⟨1, "one", "One", 500⟩]⟩) := by decide +kernel

/-- Completing the plan exits 0, and is lost when it is killed before it makes the directory. -/
theorem completion_not_crash_safe :
    Shows plannedWorld plannedState ∧ Coherent .exact plannedState ∧
      Readable plannedState plannedWorld.disk ∧
      actionAt plannedWorld = some .completePendingTurn ∧
      exitCodeOf (reconcile .exact "" plannedWorld).result = some 0 ∧
      ∀ clock, ¬ CrashSafe .exact "" clock plannedWorld := by
  refine ⟨shows_planned, coherent_planned, readable_of_derive derives_planned,
    actionAt_of_derive shows_planned derives_planned, by decide +kernel, fun clock safe => ?_⟩
  obtain ⟨next, cut, stands⟩ := @first_cut _ .exact plannedWorld _ "" plannedState shows_planned
    derives_planned (Or.inr (Or.inl rfl)) (by decide)
  exact lost_refusal (readable_of_derive derives_planned) (by decide +kernel) stands (safe next cut)

/-- Recreating a lost log is safe at every cut, completing the plan is not. -/
theorem crash_safe_dropped :
    CrashSafe .exact "" (fun _ => "") droppedWorld ∧
      ¬ CrashSafe .exact "" (fun _ => "") plannedWorld := by
  have recreates : deriveReconciliation droppedState droppedWorld.disk =
      .ok recreateLogReconciliation := by decide +kernel
  constructor
  · refine (crash_safe_iff .exact "" _ droppedWorld droppedState _ shows_dropped coherent_dropped
      recreates (Or.inr (Or.inr (Or.inr rfl))) (by decide +kernel)).mpr ⟨by decide +kernel, ?_, ?_⟩
    · intro pending recorded
      cases recorded
    · exact validateState_eq_nil.mp (by decide +kernel)
  · intro safe
    have start := (crash_safe_iff .exact "" _ plannedWorld plannedState _ shows_planned
      coherent_planned derives_planned (Or.inr (Or.inl rfl)) (by decide +kernel)).mp safe
    have broken : bijectionBroken plannedState plannedWorld.disk false = true := by decide +kernel
    rw [start.whole] at broken
    cases broken

end NovelRalph
