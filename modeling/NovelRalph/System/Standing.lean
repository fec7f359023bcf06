import NovelRalph.Commands.Bracket
import NovelRalph.State.Agreement

/-!
# A tree under a changing state file

Between two runs of `reconcile` that make no directory, the world stays the same
but for the state file and the log. `Stands` says so, together with what the
state file shows; what the detector asks of the manuscript is then answered
alike, and only the presence of the log can have changed.

On a tree whose log can be opened the parts of the bracket return, and the
triples here give every cut and the end of a run in terms of `Stands`.
-/

namespace NovelRalph

/-- `log.md` can be opened for appending. -/
structure LogOpen {Text : Type} (world : World Text) : Prop where
  free : logLoc world.cwd ∉ world.dirs
  plain : world.log = none → world.files.lookup (logLoc world.cwd) = none

/-- An absent `log.md`, or a regular file of that name, can be opened. -/
theorem LogOpen.of_regular {Text : Type} {world : World Text}
    (regular : world.log.isSome ∨ world.layout (logLoc world.cwd) = none) : LogOpen world := by
  rcases regular with held | absent
  · refine ⟨(world.logHeld held).2, fun none => ?_⟩
    rw [none] at held
    cases held
  · obtain ⟨free, unheld⟩ := World.layout_eq_none.mp absent
    refine ⟨free, fun _ => ?_⟩
    by_contra stored
    exact unheld (Or.inr (Or.inr (Option.isSome_iff_ne_none.mpr stored)))

/-- The state under the record of a running `reconcile`. -/
def State.recorded (state : State) : State := { state with pendingTurn := some reconcileRecord }

/-- The state without a record. -/
def State.settled (state : State) : State := { state with pendingTurn := none }

theorem State.settled_of_none {state : State} (settled : state.pendingTurn = none) :
    state.settled = state := by
  unfold State.settled
  rw [← settled]

section Stands

variable {toml : Tomlkit}

/-- The world is `base` but for its log and its state file, which shows `state`. -/
structure Stands (base : World toml.Text) (logged : Bool) (state : State) (world : World toml.Text) :
    Prop where
  cwd : world.cwd = base.cwd
  files : world.files = base.files
  dirs : world.dirs = base.dirs
  log : world.log.isSome = logged
  kept : base.log.isSome = true → logged = true
  shows : Shows world state

namespace Stands

variable {base world next : World toml.Text} {logged later : Bool} {state after : State}

theorem refl (shows : Shows world state) : Stands world world.log.isSome state world :=
  ⟨rfl, rfl, rfl, rfl, id, shows⟩

theorem trans (first : Stands base logged state world) (second : Stands world later after next) :
    Stands base later after next where
  cwd := second.cwd.trans first.cwd
  files := second.files.trans first.files
  dirs := second.dirs.trans first.dirs
  log := second.log
  kept held := second.kept (by rw [first.log]; exact first.kept held)
  shows := second.shows

theorem logOpen (stands : Stands base logged state world) (opens : LogOpen base) : LogOpen world where
  free := by
    rw [stands.cwd, stands.dirs]
    exact opens.free
  plain none := by
    rw [stands.cwd, stands.files]
    refine opens.plain ?_
    cases held : base.log with
    | none => rfl
    | some content =>
        have there := stands.kept (by rw [held]; rfl)
        rw [← stands.log, none] at there
        cases there

/-- Replacing the state file leaves the tree standing. -/
theorem of_rewrites (rewrites : Rewrites base next) (shows : Shows next after) :
    Stands base base.log.isSome after next := by
  obtain ⟨held, text, rfl⟩ := rewrites
  exact ⟨rfl, rfl, rfl, rfl, id, shows⟩

/-- A directory made in both trees. -/
theorem addDir (stands : Stands base logged state world) {loc : Loc} (inside : loc.tail ∈ base.dirs)
    (free : base.layout loc = none) (free' : world.layout loc = none) :
    Stands (base.addDir loc) logged state (world.addDir loc) where
  cwd := by rw [World.cwd_addDir, World.cwd_addDir, stands.cwd]
  files := by rw [World.files_addDir, World.files_addDir, stands.files]
  dirs := by
    rw [World.dirs_addDir inside free, World.dirs_addDir (by rw [stands.dirs]; exact inside) free',
      stands.dirs]
  log := by rw [World.log_addDir, stands.log]
  kept := by
    rw [World.log_addDir]
    exact stands.kept
  shows := stands.shows.of_eq (World.stateToml_addDir loc)

/-- Outside the state file and the log, the same places are taken. -/
theorem layout (stands : Stands base logged state world) {loc : Loc}
    (noState : loc ≠ stateLoc base.cwd) (noLog : loc ≠ logLoc base.cwd) :
    world.layout loc = base.layout loc := by
  have held : world.holdsFile loc ↔ base.holdsFile loc := by
    unfold World.holdsFile
    rw [stands.cwd, stands.files]
    simp [noState, noLog]
  unfold World.layout
  rw [stands.dirs]
  exact if_congr Iff.rfl rfl (if_congr held rfl rfl)

/-- Below `manuscript/` the same places are taken. -/
theorem layout_manuscript (stands : Stands base logged state world) (names : List String) :
    world.layout (names ++ base.disk.manuscript) = base.layout (names ++ base.disk.manuscript) := by
  have apart : ∀ name, name ≠ "manuscript" →
      names ++ base.disk.manuscript ≠ name :: workingLoc base.cwd := by
    intro name other same
    cases names with
    | nil =>
        rw [List.nil_append] at same
        exact other (List.cons.inj same).1.symm
    | cons first rest =>
        have lengths := congrArg List.length same
        simp [Disk.manuscript, World.disk] at lengths
        omega
  exact stands.layout (apart "state.toml" (by decide)) (apart "log.md" (by decide))

/-- The two trees hold the same manuscript. -/
theorem sameManuscript (stands : Stands base logged state world) :
    SameManuscript base.disk world.disk := by
  have working : workingLoc base.cwd ∈ base.dirs := by
    have inside := (world.stateHeld stands.shows.held).1
    rwa [stands.cwd, stands.dirs] at inside
  have missing : ∀ names, world.layout.missingFault (names ++ base.disk.manuscript) =
      base.layout.missingFault (names ++ base.disk.manuscript) := by
    intro names
    induction names with
    | nil =>
        have here : world.layout (workingLoc base.cwd) = some .dir :=
          World.layout_eq_dir.mpr (by rw [stands.dirs]; exact working)
        have there : base.layout (workingLoc base.cwd) = some .dir :=
          World.layout_eq_dir.mpr working
        change world.layout.missingFault ("manuscript" :: workingLoc base.cwd) =
          base.layout.missingFault ("manuscript" :: workingLoc base.cwd)
        rw [Layout.missingFault, Layout.missingFault, here, there]
    | cons name rest inductionHypothesis =>
        rw [List.cons_append, Layout.missingFault, Layout.missingFault,
          stands.layout_manuscript rest, inductionHypothesis]
  refine ⟨?_, stands.dirs, stands.layout_manuscript, fun names => ?_⟩
  · show workingLoc world.cwd = workingLoc base.cwd
    rw [stands.cwd]
  · show world.read _ = base.read _
    unfold World.read
    rw [stands.layout_manuscript names, missing names, stands.files]

/-- With the log where it was, the detectors see the same tree. -/
theorem disk (stands : Stands base logged state world) (held : base.stateToml.isSome)
    (same : logged = base.log.isSome) : world.disk = base.disk := by
  have layouts : world.layout = base.layout := by
    funext loc
    have files : world.holdsFile loc ↔ base.holdsFile loc := by
      unfold World.holdsFile
      rw [stands.cwd, stands.files, stands.log, same, stands.shows.held, held]
    unfold World.layout
    rw [stands.dirs]
    exact if_congr Iff.rfl rfl (if_congr files rfl rfl)
  have reads : world.read = base.read := by
    funext loc
    unfold World.read
    rw [layouts, stands.files]
  ext1
  · show workingLoc world.cwd = workingLoc base.cwd
    rw [stands.cwd]
  · exact layouts
  · exact stands.dirs
  · exact reads

/-- The detector looks for the log where it is. -/
theorem logFile (stands : Stands base logged state world) (opens : LogOpen base) :
    world.disk.exists? world.disk.logFile = logged := by
  have open' := stands.logOpen opens
  rw [← stands.log, Bool.eq_iff_iff]
  show (world.layout (logLoc world.cwd)).isSome = true ↔ _
  constructor
  · intro there
    by_contra absent
    have none : world.log = none := by simpa using absent
    rw [Option.isSome_iff_ne_none] at there
    refine there (World.layout_eq_none.mpr ⟨open'.free, ?_⟩)
    rintro (⟨-, same⟩ | ⟨held, -⟩ | stored)
    · exact stateLoc_ne_logLoc _ same.symm
    · exact absent held
    · rw [open'.plain none] at stored
      cases stored
  · exact World.layout_logLoc

end Stands

/-! ## The parts of the bracket return -/

section Parts

variable {base : World toml.Text} {logged : Bool} {state after : State}
  {cut : World toml.Text → Prop}

theorem achieves_load :
    Prog.Achieves (Stands base logged state) (loadDocumentOrStateError : Command toml (Document toml))
      cut (fun document world => Stands base logged state world ∧
        documentToState document = .ok state) := by
  refine Prog.Achieves.observe fun world stands => ?_
  obtain ⟨document, opens, viewed⟩ := stands.shows.opens
  exact ⟨document, by rw [opens, guardStateInput_ok], stands, viewed⟩

theorem achieves_view {document : Document toml} (viewed : documentToState document = .ok state)
    {pre : World toml.Text → Prop} :
    Prog.Achieves pre (stateViewOrStateError documentToState document) cut
      (fun value world => pre world ∧ value = state) :=
  Prog.Achieves.observe fun _ start => ⟨state, guardStateInput_eq_ok.mpr viewed, start, rfl⟩

theorem achieves_write {document : Document toml} (viewed : documentToState document = .ok after) :
    Prog.Achieves (Stands base logged state) (writeDocumentAtomically document)
      (Stands base logged after) (fun _ => Stands base logged after) := by
  refine Prog.Achieves.perform fun world stands => ?_
  have written : Stands base logged after (World.withState stands.shows.held document.dump) :=
    ⟨stands.cwd, stands.files, stands.dirs, stands.log, stands.kept,
      shows_withState stands.shows.held document.parse_dump viewed⟩
  exact ⟨_, World.replaceState_of_held stands.shows.held _, written, written⟩

/-- Appending a line creates the log if need be, and changes nothing else. -/
theorem achieves_appendLine (opens : LogOpen base) (text : Option toml.Text) (line : String) :
    Prog.Achieves (fun world => Stands base logged state world ∧ world.stateToml = text)
      (appendLine line)
      (fun world => Stands base true state world ∧ world.stateToml = text)
      (fun _ world => Stands base true state world ∧ world.stateToml = text) := by
  have opening : ∀ world, Stands base logged state world ∧ world.stateToml = text →
      ∃ next, world.openLog = .ok next ∧ Stands base true state next ∧ next.stateToml = text := by
    rintro world ⟨stands, same⟩
    have here := stands.logOpen opens
    unfold World.openLog
    rw [dif_pos ⟨(world.stateHeld stands.shows.held).1, here.free⟩, if_neg]
    · exact ⟨_, rfl, ⟨stands.cwd, stands.files, stands.dirs, rfl, fun _ => rfl,
        stands.shows.of_eq rfl⟩, same⟩
    · rintro ⟨none, stored⟩
      rw [here.plain (Option.isNone_iff_eq_none.mp none)] at stored
      cases stored
  have writing : ∀ world, Stands base true state world ∧ world.stateToml = text →
      Stands base true state (world.appendLog line) ∧ (world.appendLog line).stateToml = text := by
    rintro world ⟨stands, same⟩
    refine ⟨⟨stands.cwd, stands.files, stands.dirs, ?_, stands.kept, stands.shows.of_eq rfl⟩, same⟩
    show (world.log.map _).isSome = true
    rw [Option.isSome_map, stands.log]
  refine Prog.Achieves.bind (Prog.Achieves.perform fun world start => ?_) fun _ =>
    Prog.Achieves.perform fun world start => ⟨_, rfl, writing world start, writing world start⟩
  obtain ⟨next, opened, there⟩ := opening world start
  exact ⟨next, opened, there, there⟩

theorem achieves_receipt (opens : LogOpen base) (line : String) :
    Prog.Achieves (Stands base logged state) (appendLine line) (Stands base true state)
      (fun _ => Stands base true state) := by
  intro world stands
  exact (achieves_appendLine opens world.stateToml line).weaken (fun _ start => start)
    (fun _ left => left.1) (fun _ _ finish => finish.1) world ⟨stands, rfl⟩

/-- The end of the bracket: the receipt, and the replacement that clears the record. -/
theorem achieves_closing (opens : LogOpen base) (now logLine : String) {edited : Document toml}
    (reads : documentToState edited = .ok after.recorded)
    (received : ∀ world, Stands base true state.recorded world → cut world)
    (settled : ∀ world, Stands base true after.settled world → cut world) :
    Prog.Achieves (Stands base logged state.recorded)
      (do appendRecoveryEntry now logLine; writeDocumentAtomically (edited.edit clearPendingTurn)) cut
      (fun _ => Stands base true after.settled) := by
  refine Prog.Achieves.bind ((achieves_receipt opens _).weaken (fun _ start => start) received
    (fun _ _ finish => finish)) fun _ => ?_
  have cleared : documentToState (edited.edit clearPendingTurn) = .ok after.settled := by
    have reads' := parse_clearPendingTurn reads
    rwa [documentToState, Document.body_edit]
  exact (achieves_write cleared).weaken (fun _ start => start) settled (fun _ _ finish => finish)

/-- The bracket lands its record, and then does the rest. -/
theorem achieves_opening {now logLine : String} {edit : Document toml → Command toml (Document toml)}
    {post : Unit → World toml.Text → Prop}
    (rest : ∀ opened, documentToState opened = .ok state.recorded →
      Prog.Achieves (Stands base logged state.recorded) (bracketRest now logLine edit opened) cut post)
    (recorded : ∀ world, Stands base logged state.recorded world → cut world) :
    Prog.Achieves (Stands base logged state) (runReconcileBracket now edit logLine) cut post := by
  unfold runReconcileBracket
  refine Prog.Achieves.bind_fact achieves_load fun document viewed => ?_
  have opened : documentToState (document.edit (openPendingTurn reconcileOperation reconcilePaths)) =
      .ok state.recorded := by
    rw [documentToState, Document.body_edit]
    exact parse_openPendingTurn viewed _ _
  exact Prog.Achieves.bind ((achieves_write opened).weaken (fun _ start => start) recorded
    (fun _ _ finish => finish)) fun _ => rest _ opened

/-- The bracket around an edit that returns; the edit may leave another tree behind. -/
theorem achieves_bracket {grown : World toml.Text} (opens : LogOpen grown) (now logLine : String)
    {edit : Document toml → Command toml (Document toml)}
    (edits : ∀ opened, documentToState opened = .ok state.recorded →
      Prog.Achieves (Stands base logged state.recorded) (edit opened) cut
        (fun edited world => Stands grown logged state.recorded world ∧
          documentToState edited = .ok after.recorded))
    (recorded : ∀ world, Stands base logged state.recorded world → cut world)
    (received : ∀ world, Stands grown true state.recorded world → cut world)
    (settled : ∀ world, Stands grown true after.settled world → cut world) :
    Prog.Achieves (Stands base logged state) (runReconcileBracket now edit logLine) cut
      (fun _ => Stands grown true after.settled) := by
  refine achieves_opening (fun opened viewed => ?_) recorded
  refine Prog.Achieves.bind_fact (edits opened viewed) fun edited reads => ?_
  exact achieves_closing opens now logLine reads received settled

end Parts

end Stands

end NovelRalph
