import NovelRalph.State.DiskEvidence

/-!
# The file system a command runs in

A `World` is the directory tree around the process: the current directory, the
text of `working/state.toml`, the content of `working/log.md`, every other file,
and the directories. Everything stands in a directory, by construction.

The commands change it through atomic effects: replacing `state.toml`, appending
to `log.md`, making one directory, and replacing the compiled manuscript. Each
comes with what it leaves alone; `World.disk` is what the detectors see of the
result.

The two replacements go through a temporary file beside the target. A process that
is killed inside one leaves it there; this tree does not show it, and no command
looks at it. What one replacement does step by step, a left temporary file included,
is the subject of `State.AtomicWrite`.
-/

namespace NovelRalph

/-- The content of a regular file. -/
inductive File where
  | text (content : String)
  | notUtf8
  | unreadable
  deriving DecidableEq, Repr

/-- `working/` below a current directory. -/
def workingLoc (cwd : Loc) : Loc := "working" :: cwd

/-- `working/state.toml`. -/
def stateLoc (cwd : Loc) : Loc := "state.toml" :: workingLoc cwd

/-- `working/log.md`. -/
def logLoc (cwd : Loc) : Loc := "log.md" :: workingLoc cwd

theorem stateLoc_ne_logLoc (cwd : Loc) : stateLoc cwd ≠ logLoc cwd := by
  simp [stateLoc, logLoc]

/-- The tree around a process; `Text` is the type of texts of `state.toml`. -/
structure World (Text : Type) where
  cwd : Loc
  stateToml : Option Text
  log : Option String
  files : List (Loc × File)
  dirs : Finset Loc
  /-- Every directory lies in a directory. -/
  rooted : ∀ loc ∈ dirs, loc.tail ∈ dirs
  /-- Every file lies in a directory. -/
  filed : ∀ entry ∈ files, entry.1.tail ∈ dirs
  stateHeld : stateToml.isSome → workingLoc cwd ∈ dirs ∧ stateLoc cwd ∉ dirs
  logHeld : log.isSome → workingLoc cwd ∈ dirs ∧ logLoc cwd ∉ dirs

namespace World

variable {Text : Type} (world : World Text)

/-- Whether a place holds a regular file, directories aside. -/
def holdsFile (loc : Loc) : Prop :=
  (world.stateToml.isSome ∧ loc = stateLoc world.cwd) ∨
    (world.log.isSome ∧ loc = logLoc world.cwd) ∨ (world.files.lookup loc).isSome

instance (loc : Loc) : Decidable (world.holdsFile loc) :=
  inferInstanceAs (Decidable (_ ∨ _ ∨ _))

/-- What stands where. -/
def layout : Layout := fun loc =>
  if loc ∈ world.dirs then some .dir else if world.holdsFile loc then some .file else none

variable {world}

theorem layout_eq_dir {loc : Loc} : world.layout loc = some .dir ↔ loc ∈ world.dirs := by
  unfold layout
  split
  · next member => simp [member]
  · next absent =>
      split <;> simp [absent]

theorem layout_eq_none {loc : Loc} :
    world.layout loc = none ↔ loc ∉ world.dirs ∧ ¬ world.holdsFile loc := by
  unfold layout
  by_cases member : loc ∈ world.dirs <;> by_cases file : world.holdsFile loc <;>
    simp [member, file]

/-- A state file that is there is somewhere. -/
theorem layout_stateLoc (held : world.stateToml.isSome) :
    (world.layout (stateLoc world.cwd)).isSome := by
  rw [Option.isSome_iff_ne_none, Ne, layout_eq_none, not_and_not_right]
  exact fun _ => Or.inl ⟨held, rfl⟩

/-- A log that is there is somewhere. -/
theorem layout_logLoc (held : world.log.isSome) : (world.layout (logLoc world.cwd)).isSome := by
  rw [Option.isSome_iff_ne_none, Ne, layout_eq_none, not_and_not_right]
  exact fun _ => Or.inr (Or.inl ⟨held, rfl⟩)

/-- Everything lies in a directory. -/
theorem layout_closed : world.layout.Closed := by
  intro loc there
  rw [layout_eq_dir]
  unfold layout at there
  split at there
  · next member => exact world.rooted loc member
  · split at there
    · next file =>
        rcases file with ⟨held, rfl⟩ | ⟨held, rfl⟩ | stored
        · exact (world.stateHeld held).1
        · exact (world.logHeld held).1
        · obtain ⟨entry, member, same⟩ := List.lookup_isSome_iff.mp stored
          have spelled : loc = entry.1 := by simpa using same
          rw [spelled]
          exact world.filed entry member
    · cases there

variable (world)

/-- `path.read_text(encoding="utf-8")` of a file other than `state.toml` and `log.md`. -/
def read (loc : Loc) : Except Fault String :=
  match world.layout loc with
  | none => .error (.os (world.layout.missingFault loc))
  | some .dir => .error (.os .isADirectory)
  | some .file =>
      match world.files.lookup loc with
      | some (.text content) => .ok (String.ofList (translateNewlines content.toList))
      | some .notUtf8 => .error .unicodeDecodeError
      | some .unreadable => .error (.os .permission)
      | none => .error (.os .permission)

/-- What the detectors see. -/
def disk : Disk where
  working := workingLoc world.cwd
  layout := world.layout
  dirs := world.dirs
  read := world.read
  read_missing loc absent := by simp [read, absent]
  read_found loc there := by
    unfold read
    cases found : world.layout loc with
    | none => simp [found] at there
    | some kind =>
        cases kind with
        | dir => simp
        | file =>
            cases world.files.lookup loc with
            | none => simp
            | some file => cases file <;> simp

/-- `path.exists()` of a place. -/
def exists? (loc : Loc) : Bool := (world.layout loc).isSome

/-- The text of `working/state.toml`. -/
def readState : Except Fault Text :=
  match world.stateToml with
  | some text => .ok text
  | none =>
      match world.layout (stateLoc world.cwd) with
      | none => .error (.os (world.layout.missingFault (stateLoc world.cwd)))
      | some .dir => .error (.os .isADirectory)
      | some .file => .error (.os .permission)

/-- Replace `working/state.toml` in one step. -/
def replaceState (text : Text) : Except Fault (World Text) :=
  if held : workingLoc world.cwd ∈ world.dirs ∧ stateLoc world.cwd ∉ world.dirs then
    .ok { world with stateToml := some text, stateHeld := fun _ => held }
  else if stateLoc world.cwd ∈ world.dirs then .error (.os .isADirectory)
  else .error (.os (world.layout.missingFault (stateLoc world.cwd)))

/-- Open `working/log.md` for appending; this creates it when it is absent. -/
def openLog : Except Fault (World Text) :=
  if held : workingLoc world.cwd ∈ world.dirs ∧ logLoc world.cwd ∉ world.dirs then
    if world.log.isNone ∧ (world.files.lookup (logLoc world.cwd)).isSome then
      .error (.os .permission)
    else .ok { world with log := some (world.log.getD ""), logHeld := fun _ => held }
  else if logLoc world.cwd ∈ world.dirs then .error (.os .isADirectory)
  else .error (.os (world.layout.missingFault (logLoc world.cwd)))

/-- Write a line at the end of the opened `working/log.md`. -/
def appendLog (line : String) : World Text :=
  { world with
    log := world.log.map fun content => content ++ line
    logHeld := fun present => world.logHeld (by simpa using present) }

/-- Write an empty `working/log.md`, over whatever it held. -/
def truncateLog : Except Fault (World Text) :=
  if held : workingLoc world.cwd ∈ world.dirs ∧ logLoc world.cwd ∉ world.dirs then
    if world.log.isNone ∧ (world.files.lookup (logLoc world.cwd)).isSome then
      .error (.os .permission)
    else .ok { world with log := some "", logHeld := fun _ => held }
  else if logLoc world.cwd ∈ world.dirs then .error (.os .isADirectory)
  else .error (.os (world.layout.missingFault (logLoc world.cwd)))

/-- Make a directory at a free place inside a directory. -/
def addDir (loc : Loc) : World Text :=
  if free : loc.tail ∈ world.dirs ∧ world.layout loc = none then
    { world with
      dirs := insert loc world.dirs
      rooted := by
        intro place member
        rcases Finset.mem_insert.mp member with rfl | old
        · exact Finset.mem_insert_of_mem free.1
        · exact Finset.mem_insert_of_mem (world.rooted place old)
      filed := fun entry member => Finset.mem_insert_of_mem (world.filed entry member)
      stateHeld := fun some => ⟨Finset.mem_insert_of_mem (world.stateHeld some).1, fun member => by
        rcases Finset.mem_insert.mp member with same | old
        · exact (layout_eq_none.mp free.2).2 (Or.inl ⟨some, same.symm⟩)
        · exact (world.stateHeld some).2 old⟩
      logHeld := fun some => ⟨Finset.mem_insert_of_mem (world.logHeld some).1, fun member => by
        rcases Finset.mem_insert.mp member with same | old
        · exact (layout_eq_none.mp free.2).2 (Or.inr (Or.inl ⟨some, same.symm⟩))
        · exact (world.logHeld some).2 old⟩ }
  else world

/-- The directories as a store for `mkdir`. -/
def dirStore : DirStore (World Text) := ⟨layout, addDir⟩

variable {world} {next : World Text}

/-- A replaced state file leaves the tree and the log as they were. -/
theorem replaceState_ok {text : Text} (written : world.replaceState text = .ok next) :
    next.cwd = world.cwd ∧ next.files = world.files ∧ next.log = world.log ∧
      next.dirs = world.dirs := by
  unfold replaceState at written
  split at written
  · cases written
    exact ⟨rfl, rfl, rfl, rfl⟩
  · split at written <;> cases written

/-- An opened log is there, and holds what it held. -/
theorem openLog_ok (opened : world.openLog = .ok next) :
    next.cwd = world.cwd ∧ next.files = world.files ∧ next.log = some (world.log.getD "") ∧
      next.dirs = world.dirs := by
  unfold openLog at opened
  split at opened
  · split at opened
    · cases opened
    · cases opened
      exact ⟨rfl, rfl, rfl, rfl⟩
  · split at opened <;> cases opened

variable (world)

/-- A root directory that is the current directory, and nothing else. -/
def bare (Text : Type) : World Text where
  cwd := []
  stateToml := none
  log := none
  files := []
  dirs := {[]}
  rooted loc member := by rw [Finset.mem_singleton] at member ⊢; rw [member]; rfl
  filed _ member := absurd member List.not_mem_nil
  stateHeld held := by cases held
  logHeld held := by cases held

/-- A user writes a file into an existing directory. -/
def putFile (loc : Loc) (file : File) (world : World Text) : World Text :=
  if inside : loc.tail ∈ world.dirs then
    { world with
      files := (loc, file) :: world.files
      filed := fun entry member => by
        rcases List.mem_cons.mp member with rfl | old
        · exact inside
        · exact world.filed entry old }
  else world

@[simp]
theorem putFile_stateToml (loc : Loc) (file : File) (world : World Text) :
    (world.putFile loc file).stateToml = world.stateToml := by
  unfold putFile
  split <;> rfl

/-- Replace a file in one step; the directory it lies in has to be there. -/
def replaceFile (loc : Loc) (content : String) : Except Fault (World Text) :=
  if inside : loc.tail ∈ world.dirs ∧ loc ∉ world.dirs then
    .ok { world with
      files := (loc, .text content) :: world.files
      filed := fun entry member => by
        rcases List.mem_cons.mp member with rfl | old
        · exact inside.1
        · exact world.filed entry old }
  else if loc ∈ world.dirs then .error (.os .isADirectory)
  else .error (.os (world.layout.missingFault loc))

/-- A user deletes the log. -/
def dropLog (world : World Text) : World Text :=
  { world with log := none, logHeld := fun held => by cases held }

/-- A user writes the state file by hand, if the directory for it is there. -/
def putState (text : Text) (world : World Text) : World Text :=
  match world.replaceState text with
  | .ok next => next
  | .error _ => world

/-! ## Making a directory -/

section AddDir

variable {world}

@[simp]
theorem cwd_addDir (loc : Loc) : (world.addDir loc).cwd = world.cwd := by
  unfold addDir
  split <;> rfl

@[simp]
theorem stateToml_addDir (loc : Loc) : (world.addDir loc).stateToml = world.stateToml := by
  unfold addDir
  split <;> rfl

@[simp]
theorem log_addDir (loc : Loc) : (world.addDir loc).log = world.log := by
  unfold addDir
  split <;> rfl

@[simp]
theorem files_addDir (loc : Loc) : (world.addDir loc).files = world.files := by
  unfold addDir
  split <;> rfl

theorem dirs_addDir {loc : Loc} (inside : loc.tail ∈ world.dirs) (free : world.layout loc = none) :
    (world.addDir loc).dirs = insert loc world.dirs := by
  unfold addDir
  rw [dif_pos ⟨inside, free⟩]

theorem subset_dirs_addDir (loc : Loc) : world.dirs ⊆ (world.addDir loc).dirs := by
  unfold addDir
  split
  · exact Finset.subset_insert _ _
  · exact Finset.Subset.refl _

/-- Every directory is still one. -/
theorem layout_addDir_keeps (loc : Loc) {other : Loc} (there : world.layout other = some .dir) :
    (world.addDir loc).layout other = some .dir :=
  layout_eq_dir.mpr (subset_dirs_addDir loc (layout_eq_dir.mp there))

/-- A step to a free place leads into the directory, and makes one there. -/
theorem layout_addDir_makes {loc : Loc} {name : String} (here : world.layout loc = some .dir)
    (free : world.layout (Layout.stepInto loc name) = none) :
    (world.addDir (Layout.stepInto loc name)).layout (Layout.stepInto loc name) = some .dir := by
  have inside : (Layout.stepInto loc name).tail ∈ world.dirs := by
    unfold Layout.stepInto at free ⊢
    split at free
    · have parent := layout_eq_dir.mpr (world.rooted loc (layout_eq_dir.mp here))
      rw [parent] at free
      cases free
    · next plain =>
        rw [if_neg plain]
        exact layout_eq_dir.mp here
  rw [layout_eq_dir, dirs_addDir inside free]
  exact Finset.mem_insert_self _ _

end AddDir

/-! ## Replacing the state file -/

section Replace

variable {world}

/-- The world with another text in its state file. -/
def withState (held : world.stateToml.isSome) (text : Text) : World Text :=
  { world with stateToml := some text, stateHeld := fun _ => world.stateHeld held }

/-- A present state file can be replaced. -/
theorem replaceState_of_held (held : world.stateToml.isSome) (text : Text) :
    world.replaceState text = .ok (withState held text) := by
  unfold replaceState
  rw [dif_pos (world.stateHeld held)]
  rfl

@[simp]
theorem layout_withState (held : world.stateToml.isSome) (text : Text) :
    (withState held text).layout = world.layout := by
  funext loc
  refine if_congr Iff.rfl rfl (if_congr ?_ rfl rfl)
  unfold holdsFile
  rw [held]
  rfl

/-- The detectors do not see the text of the state file. -/
@[simp]
theorem disk_withState (held : world.stateToml.isSome) (text : Text) :
    (withState held text).disk = world.disk := by
  have reads : (withState held text).read = world.read := by
    funext loc
    simp only [read, layout_withState]
    rfl
  ext1
  · rfl
  · exact layout_withState held text
  · rfl
  · exact reads

end Replace

/-! ## Replacing a file -/

/-- `next` is `world` but for what one file holds. -/
structure SameBut (loc : Loc) (world next : World Text) : Prop where
  cwd : next.cwd = world.cwd
  stateToml : next.stateToml = world.stateToml
  log : next.log = world.log
  dirs : next.dirs = world.dirs
  files : ∀ other, other ≠ loc → next.files.lookup other = world.files.lookup other

/-- What replacing a file does, when it does anything. -/
theorem replaceFile_ok {world next : World Text} {loc : Loc} {content : String}
    (replaced : world.replaceFile loc content = .ok next) :
    SameBut loc world next ∧ next.files.lookup loc = some (.text content) ∧
      loc.tail ∈ world.dirs ∧ loc ∉ world.dirs := by
  unfold replaceFile at replaced
  split at replaced
  · next inside =>
      cases replaced
      refine ⟨⟨rfl, rfl, rfl, rfl, fun other differs => ?_⟩, ?_, inside⟩
      · rw [List.lookup_cons, beq_eq_false_iff_ne.mpr differs]
      · rw [List.lookup_cons_self]
  · split at replaced <;> cases replaced

/-- A file can be replaced where its directory is and no directory stands. -/
theorem replaceFile_succeeds {world : World Text} {loc : Loc} (inside : loc.tail ∈ world.dirs)
    (free : loc ∉ world.dirs) (content : String) :
    ∃ next, world.replaceFile loc content = .ok next :=
  ⟨_, dif_pos ⟨inside, free⟩⟩

/-- Replacing a file puts it there. -/
theorem replaceFile_eq_putFile {world : World Text} {loc : Loc} (inside : loc.tail ∈ world.dirs)
    (free : loc ∉ world.dirs) (content : String) :
    world.replaceFile loc content = .ok (world.putFile loc (.text content)) := by
  unfold replaceFile putFile
  rw [dif_pos ⟨inside, free⟩, dif_pos inside]

namespace SameBut

variable {world next : World Text} {loc : Loc}

/-- Elsewhere the same things stand. -/
theorem layout (same : SameBut loc world next) {other : Loc} (differs : other ≠ loc) :
    next.layout other = world.layout other := by
  have file : next.holdsFile other ↔ world.holdsFile other := by
    unfold holdsFile
    rw [same.stateToml, same.log, same.cwd, same.files other differs]
  unfold World.layout
  rw [same.dirs]
  exact if_congr Iff.rfl rfl (if_congr file rfl rfl)

/-- The way to a place that does not lead through the file is the same. -/
theorem missingFault (same : SameBut loc world next) {other : Loc} (apart : ¬ loc <:+ other) :
    next.layout.missingFault other = world.layout.missingFault other := by
  induction other with
  | nil => rfl
  | cons name parent inductionHypothesis =>
      have outside : ¬ loc <:+ parent := fun within => apart (within.trans (List.suffix_cons _ _))
      have differs : parent ≠ loc := fun here => outside (here ▸ List.suffix_refl _)
      unfold Layout.missingFault
      rw [same.layout differs, inductionHypothesis outside]

/-- A place that does not lie at or below the file reads the same. -/
theorem read (same : SameBut loc world next) {other : Loc} (apart : ¬ loc <:+ other) :
    next.read other = world.read other := by
  have differs : other ≠ loc := fun here => apart (here ▸ List.suffix_refl _)
  unfold World.read
  rw [same.layout differs, same.missingFault apart, same.files other differs]

/-- The replaced file reads as its content, up to universal newlines. -/
theorem read_replaced (same : SameBut loc world next) {content : String}
    (held : next.files.lookup loc = some (.text content)) (free : loc ∉ world.dirs) :
    next.read loc = .ok (String.ofList (translateNewlines content.toList)) := by
  have stored : next.holdsFile loc := Or.inr (Or.inr (by rw [held]; rfl))
  have file : next.layout loc = some .file := by
    unfold World.layout
    rw [same.dirs, if_neg free, if_pos stored]
  unfold World.read
  rw [file, held]

end SameBut

end World

end NovelRalph
