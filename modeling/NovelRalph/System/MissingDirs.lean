import NovelRalph.Base.Carve
import NovelRalph.System.Rounds

/-!
# The directories of a completed turn

Completing a `set-chapters` turn makes its missing declared paths as they are
spelled: from `working/`, or from the root when a path is absolute, and through
whatever places they lead. `World.carved` is the tree this leaves behind. It
differs from the tree before in directories at the places up to the first
regular file, or name that is too long, in the way; when there is one, or a path
that no system call takes, the turn is not completed.
-/

namespace NovelRalph

/-- The system takes the text of a declared path. -/
def Taken (path : String) : Prop := (declaredPath path).refused "working" = false

instance : DecidablePred Taken := fun _ => inferInstanceAs (Decidable (_ = _))

/-- The declared paths before the first one that is not taken. -/
def takenPaths (paths : List String) : List String := paths.takeWhile fun path => decide (Taken path)

/-- These paths, each with the place it starts from. -/
def declaredRoutes (paths : List String) (working : Loc) : List (Loc × List String) :=
  (takenPaths paths).map fun path => ((declaredPath path).start working, (declaredPath path).parts)

/-- The places that declared paths lead through, up to the first path that is not taken. -/
def declaredPlaces (paths : List String) (working : Loc) : List Loc :=
  DirStore.route (declaredRoutes paths working)

theorem takenPaths_eq_self {paths : List String} :
    takenPaths paths = paths ↔ ∀ path ∈ paths, Taken path := by
  unfold takenPaths
  rw [List.takeWhile_eq_self_iff]
  simp

theorem declaredRoutes_taken {path : String} (taken : Taken path) (rest : List String)
    (working : Loc) : declaredRoutes (path :: rest) working =
      ((declaredPath path).start working, (declaredPath path).parts) :: declaredRoutes rest working := by
  simp [declaredRoutes, takenPaths, taken]

theorem declaredRoutes_refused {path : String} (refused : ¬Taken path) (rest : List String)
    (working : Loc) : declaredRoutes (path :: rest) working = [] := by
  simp [declaredRoutes, takenPaths, refused]

theorem mem_declaredPlaces {paths : List String} {working place : Loc} :
    place ∈ declaredPlaces paths working ↔ ∃ path ∈ takenPaths paths,
      place ∈ Layout.places ((declaredPath path).start working) (declaredPath path).parts := by
  unfold declaredPlaces declaredRoutes DirStore.route
  simp

section Carved

variable {toml : Tomlkit} {world next : World toml.Text} {reconciliation : Reconciliation String}

namespace World

/-- The root is a directory as soon as there is any. -/
theorem root_mem {Text : Type} {world : World Text} {loc : Loc} (there : loc ∈ world.dirs) :
    [] ∈ world.dirs := by
  induction loc with
  | nil => exact there
  | cons name parent inductionHypothesis => exact inductionHypothesis (world.rooted _ there)

/-- A free place that a step from a directory leads to lies in a directory. -/
theorem stepInto_inside {Text : Type} {world : World Text} {loc : Loc} {name : String}
    (here : world.layout loc = some .dir) (free : world.layout (Layout.stepInto loc name) = none) :
    (Layout.stepInto loc name).tail ∈ world.dirs := by
  unfold Layout.stepInto at free ⊢
  split at free
  · have parent := layout_eq_dir.mpr (world.rooted loc (layout_eq_dir.mp here))
    rw [parent] at free
    cases free
  · next plain =>
      rw [if_neg plain]
      exact layout_eq_dir.mp here

/-- Adding a directory changes the layout in one place. -/
theorem dirStore_lawful (Text : Type) : (dirStore : DirStore (World Text)).Lawful where
  makes world loc name here free other := by
    show (world.addDir (Layout.stepInto loc name)).layout other = _
    have dirs := dirs_addDir (stepInto_inside here free) free
    have files : (world.addDir (Layout.stepInto loc name)).holdsFile other ↔
        world.holdsFile other := by
      unfold holdsFile
      simp
    unfold layout
    rw [dirs]
    by_cases same : other = Layout.stepInto loc name
    · simp [same]
    · simp [same, files, dirStore, layout]
  spares world loc free other := by
    show (world.addDir loc).layout other = world.layout other ∨
      other = loc ∧ (world.addDir loc).layout other = some .dir
    have files : (world.addDir loc).holdsFile other ↔ world.holdsFile other := by
      unfold holdsFile
      simp
    by_cases inside : loc.tail ∈ world.dirs
    · have dirs := dirs_addDir inside free
      by_cases same : other = loc
      · refine Or.inr ⟨same, layout_eq_dir.mpr ?_⟩
        rw [dirs, same]
        exact Finset.mem_insert_self _ _
      · refine Or.inl ?_
        unfold layout
        rw [dirs]
        simp [same, files]
    · have same : world.addDir loc = world := by
        unfold addDir
        rw [dif_neg fun both => inside both.1]
      rw [same]
      exact Or.inl rfl

/-- The tree after the missing paths of a reconciliation were made. -/
def carved (world : World toml.Text) (reconciliation : Reconciliation String) : World toml.Text :=
  (createMissingChapterDirs reconciliation world).final world

end World

/-- What making directories leaves alone. -/
theorem always_createMissingChapterDirs (inv : World toml.Text → Prop)
    (keeps : ∀ world loc, inv world → inv (World.addDir world loc)) :
    Prog.Always inv (createMissingChapterDirs reconciliation : Command toml Unit) :=
  Prog.Always.forEach fun _ _ => always_makeDirs (always_makeDirsAt keeps)

/-- Making the missing paths makes those before the first refused one from fixed places, and returns
when none is refused. -/
theorem createMissingChapterDirs_runs (paths : List String) (world : World toml.Text) :
    (Prog.forEach paths (fun path => (makeDirs (declaredPath path) : Command toml Unit)) world).trail =
        (Prog.forEach (declaredRoutes paths (workingLoc world.cwd))
          (fun path => World.dirStore.mkdirs path.1 path.2.reverse) world).trail ∧
      ((Prog.forEach paths (fun path => (makeDirs (declaredPath path) : Command toml Unit))
          world).result = .ok () ↔
        (∀ path ∈ paths, Taken path) ∧
        (Prog.forEach (declaredRoutes paths (workingLoc world.cwd))
          (fun path => World.dirStore.mkdirs path.1 path.2.reverse) world).result = .ok ()) := by
  induction paths generalizing world with
  | nil => exact ⟨rfl, by simp [declaredRoutes, takenPaths, Prog.forEach, Prog.done]⟩
  | cons path rest inductionHypothesis =>
      by_cases taken : Taken path
      · have cwd : Prog.Always (fun later : World toml.Text => later.cwd = world.cwd)
            (World.dirStore.mkdirs ((declaredPath path).start (workingLoc world.cwd))
              (declaredPath path).parts.reverse) :=
          World.dirStore.always_mkdirs _ (fun later loc _ same => (World.cwd_addDir loc).trans same) _
        have same := cwd.final rfl
        have first : (makeDirs (declaredPath path) : Command toml Unit) world =
            Prog.mapFault Fault.os (World.dirStore.mkdirs
              ((declaredPath path).start (workingLoc world.cwd))
              (declaredPath path).parts.reverse) world := by
          rw [makeDirs_taken taken]
          rfl
        rw [declaredRoutes_taken taken, Prog.forEach_cons, Prog.forEach_cons, List.forall_mem_cons,
          and_iff_right taken]
        cases run : World.dirStore.mkdirs ((declaredPath path).start (workingLoc world.cwd))
            (declaredPath path).parts.reverse world with
        | mk trail result =>
            cases result with
            | error fault =>
                have failed : (makeDirs (declaredPath path) : Command toml Unit) world =
                    ⟨trail, .error (.os fault)⟩ := by
                  rw [first, Prog.mapFault, run]
                  rfl
                rw [Prog.bind_error world failed, Prog.bind_error world run]
                exact ⟨rfl, by simp⟩
            | ok value =>
                have made : (makeDirs (declaredPath path) : Command toml Unit) world =
                    ⟨trail, .ok ()⟩ := by
                  rw [first, Prog.mapFault, run]
                  rfl
                rw [run] at same
                have later := inductionHypothesis (trail.getLastD world)
                change (trail.getLastD world).cwd = world.cwd at same
                rw [same] at later
                rw [Prog.bind_ok world made, Prog.bind_ok world run]
                exact ⟨congrArg (trail ++ ·) later.1, later.2⟩
      · have refused : (declaredPath path).refused "working" = true := by
          unfold Taken at taken
          simpa using taken
        obtain ⟨fault, stops⟩ := @makeDirs_refused toml _ refused world
        rw [declaredRoutes_refused taken, Prog.forEach_cons, Prog.bind_error world stops]
        refine ⟨rfl, ?_⟩
        simp only [reduceCtorEq, false_iff, not_and]
        exact fun all => absurd (all path List.mem_cons_self) taken

section Working

variable (working : workingLoc world.cwd ∈ world.dirs)

include working

/-- Declared paths start from directories. -/
theorem starts_declared (paths : List String) :
    ∀ path ∈ declaredRoutes paths (workingLoc world.cwd),
      World.dirStore.layout world path.1 = some .dir := by
  intro path member
  obtain ⟨declared, -, rfl⟩ := List.mem_map.mp member
  refine World.layout_eq_dir.mpr ?_
  unfold PosixPath.start
  dsimp only
  split
  · exact working
  · exact World.root_mem working

/-- Completing fills the places of the missing paths up to the first blocked one. -/
theorem layout_carved : (world.carved reconciliation).layout = world.layout.filled
    (world.layout.cleared (declaredPlaces reconciliation.missingPaths (workingLoc world.cwd))) := by
  have leaves := DirStore.layout_mkdirsAll (World.dirStore_lawful toml.Text)
    (starts_declared working reconciliation.missingPaths)
  have final : (Prog.forEach (declaredRoutes reconciliation.missingPaths (workingLoc world.cwd))
      (fun path => World.dirStore.mkdirs path.1 path.2.reverse) world).final world =
        world.carved reconciliation :=
    congrArg (fun trail => trail.getLastD world)
      (createMissingChapterDirs_runs reconciliation.missingPaths world).1.symm
  rw [final] at leaves
  exact leaves

/-- The missing paths can be made exactly when all are taken and none of their places is blocked. -/
theorem createMissingChapterDirs_returns :
    (createMissingChapterDirs reconciliation world).result = .ok () ↔
      (∀ path ∈ reconciliation.missingPaths, Taken path) ∧
        ∀ place ∈ declaredPlaces reconciliation.missingPaths (workingLoc world.cwd),
          world.layout.blocked place = false :=
  (createMissingChapterDirs_runs reconciliation.missingPaths world).2.trans
    (and_congr_right fun _ => DirStore.mkdirsAll_returns (World.dirStore_lawful toml.Text)
      (starts_declared working reconciliation.missingPaths))

theorem mem_dirs_carved {loc : Loc} : loc ∈ (world.carved reconciliation).dirs ↔ loc ∈ world.dirs ∨
    loc ∈ world.layout.cleared
      (declaredPlaces reconciliation.missingPaths (workingLoc world.cwd)) := by
  rw [← World.layout_eq_dir, layout_carved working, Layout.filled]
  split
  · next made => simp [made]
  · next unmade => rw [World.layout_eq_dir, or_iff_left unmade]

/-- An invariant which the cleared places keep holds at every cut of their making. -/
theorem always_carved {inv : World toml.Text → Prop} (holds : inv world)
    (adds : ∀ later, inv later → ∀ place ∈ world.layout.cleared
      (declaredPlaces reconciliation.missingPaths (workingLoc world.cwd)), inv (later.addDir place)) :
    ∀ cut ∈ ((createMissingChapterDirs reconciliation : Command toml Unit) world).trail, inv cut := by
  have kept := DirStore.always_carve (World.dirStore_lawful toml.Text)
    (fun later held place member => adds later held place member) holds
  intro cut member
  have alike := DirStore.mkdirsAll_carves (World.dirStore_lawful toml.Text)
    (starts_declared working reconciliation.missingPaths)
  have trail := (createMissingChapterDirs_runs reconciliation.missingPaths world).1.trans alike.trail
  exact kept cut (trail ▸ member)

end Working

section Fields

@[simp]
theorem cwd_carved : (world.carved reconciliation).cwd = world.cwd :=
  (always_createMissingChapterDirs (fun later => later.cwd = world.cwd)
    fun _ loc same => (World.cwd_addDir loc).trans same).final rfl

@[simp]
theorem files_carved : (world.carved reconciliation).files = world.files :=
  (always_createMissingChapterDirs (fun later => later.files = world.files)
    fun _ loc same => (World.files_addDir loc).trans same).final rfl

@[simp]
theorem log_carved : (world.carved reconciliation).log = world.log :=
  (always_createMissingChapterDirs (fun later => later.log = world.log)
    fun _ loc same => (World.log_addDir loc).trans same).final rfl

@[simp]
theorem stateToml_carved : (world.carved reconciliation).stateToml = world.stateToml :=
  (always_createMissingChapterDirs (fun later => later.stateToml = world.stateToml)
    fun _ loc same => (World.stateToml_addDir loc).trans same).final rfl

end Fields

/-- The log can be opened afterwards when it could before and is none of the places. -/
theorem logOpen_carved (working : workingLoc world.cwd ∈ world.dirs) :
    LogOpen (world.carved reconciliation) ↔ LogOpen world ∧ logLoc world.cwd ∉
      world.layout.cleared
        (declaredPlaces reconciliation.missingPaths (workingLoc world.cwd)) := by
  constructor
  · rintro ⟨free, plain⟩
    rw [cwd_carved, mem_dirs_carved working, not_or] at free
    rw [log_carved, files_carved, cwd_carved] at plain
    exact ⟨⟨free.1, plain⟩, free.2⟩
  · rintro ⟨⟨free, plain⟩, apart⟩
    refine ⟨?_, ?_⟩
    · rw [cwd_carved, mem_dirs_carved working, not_or]
      exact ⟨free, apart⟩
    · rw [log_carved, files_carved, cwd_carved]
      exact plain

/-- Under the record of `reconcile` the same directories are made. -/
theorem stands_carved {after : State} (held : world.stateToml.isSome)
    (stands : Stands world world.log.isSome after next) :
    Stands (world.carved reconciliation) world.log.isSome after (next.carved reconciliation) := by
  have working := (world.stateHeld held).1
  have working' := (next.stateHeld stands.shows.held).1
  have layouts : next.layout = world.layout := congrArg Disk.layout (stands.disk held rfl)
  refine ⟨?_, ?_, ?_, ?_, ?_, ?_⟩
  · rw [cwd_carved, cwd_carved, stands.cwd]
  · rw [files_carved, files_carved, stands.files]
  · ext loc
    rw [mem_dirs_carved working, mem_dirs_carved working', layouts, stands.cwd, stands.dirs]
  · rw [log_carved, stands.log]
  · rw [log_carved]
    exact id
  · exact stands.shows.of_eq stateToml_carved

end Carved

/-! ## When a turn is completed -/

section Completion

variable {state : State} {disk : Disk} {reconciliation : Reconciliation String} {pending : PendingTurn}

/-- `reconcile` completes this record of `set-chapters`. -/
structure Completes (state : State) (disk : Disk) (pending : PendingTurn) : Prop where
  recorded : state.pendingTurn = some pending
  operation : pending.operation = setChaptersOperation
  readable : Readable state disk
  /-- The record explains a break, or nothing is refused and only recomputable files are missing. -/
  due : Explains state disk pending ∨ refusal state disk = false ∧
    unrecoverablePaths (missingDeclaredPaths pending.paths disk) = []

/-- A derivation that completes a `set-chapters` turn completes the record of the state. -/
theorem completes_of_derives (derives : deriveReconciliation state disk = .ok reconciliation)
    (completing : completesSetChapters reconciliation = true) :
    ∃ pending, Completes state disk pending ∧
      reconciliation.missingPaths = missingDeclaredPaths pending.paths disk := by
  have readable := readable_of_derive derives
  obtain ⟨action, operation⟩ := completesSetChapters_iff.mp completing
  cases (deriveReconciliation_iff readable).mp derives with
  | explained pending recorded explains =>
      exact ⟨pending, ⟨recorded, explains.1, readable, Or.inl explains⟩, rfl⟩
  | pendingTurn pending recorded agreed =>
      rw [operation_classifyPendingTurn, Option.some.injEq] at operation
      have missing := missingPaths_classifyPendingTurn disk pending [InvariantName.pendingTurnCleared]
      exact ⟨pending, ⟨recorded, operation, readable,
        Or.inr ⟨agreed, completes_classifyPendingTurn.mp action⟩⟩, missing⟩
  | coverGap => cases action
  | refuse => cases action
  | recount => cases action
  | recreateLog => cases action
  | none => cases action

/-- A record that is due is completed. -/
theorem Completes.derives (completes : Completes state disk pending) :
    ∃ reconciliation, deriveReconciliation state disk = .ok reconciliation ∧
      completesSetChapters reconciliation = true ∧
      reconciliation.missingPaths = missingDeclaredPaths pending.paths disk := by
  obtain ⟨recorded, operation, readable, explains | ⟨agreed, recoverable⟩⟩ := completes
  · refine ⟨_, (deriveReconciliation_iff readable).mpr (.explained pending recorded explains), ?_, rfl⟩
    exact completesSetChapters_iff.mpr ⟨rfl, congrArg some operation⟩
  · refine ⟨_, (deriveReconciliation_iff readable).mpr (.pendingTurn pending recorded agreed), ?_,
      missingPaths_classifyPendingTurn ..⟩
    refine completesSetChapters_iff.mpr ⟨completes_classifyPendingTurn.mpr recoverable, ?_⟩
    rw [operation_classifyPendingTurn, operation]

/-- At most one record is completed. -/
theorem Completes.unique {other : PendingTurn} (completes : Completes state disk pending)
    (again : Completes state disk other) : other = pending := by
  have same := again.recorded.symm.trans completes.recorded
  exact Option.some.inj same

end Completion

/-! ## One planned chapter under the record of a torn turn -/

/-- One planned chapter, and a `set-chapters` record that declares some paths. -/
def declaringTable (paths : List String) : Table :=
  ((initialEdits "Title" "slug" 1000 "2024-01-01T00:00:00Z") ++
    [setChapters [⟨1, "one", "One", 500⟩], setByChapter (Dict.ofPairs [("01", 0)]),
      openPendingTurn setChaptersOperation paths]).foldl Table.edit []

def declaringWorld (paths : List String) : World Tomlkit.structural.Text :=
  (initialWorld 1000).putState (.ok (declaringTable paths))

/-- What `declaringWorld` shows. -/
def declaringState (paths : List String) : State :=
  { initialState "Title" "slug" 1000 "2024-01-01T00:00:00Z" with
    chapters := [⟨1, "one", "One", 500⟩]
    wordCounts := { target := 1000, current := 0, byChapter := Dict.ofPairs [("01", 0)] }
    pendingTurn := some ⟨setChaptersOperation, paths⟩ }

end NovelRalph
