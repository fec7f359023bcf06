import NovelRalph.System.MissingDirs

/-!
# The footprint of one run of `reconcile`

At every cut of a run no file but `state.toml` and `log.md` has changed, the log
has at most grown, the state has kept everything but its counts and its record,
and no directory is gone. New directories come only from completing a
`set-chapters` turn. They are those of the manifest exactly when the missing
declared paths lead through no other free place.
-/

namespace NovelRalph

section Footprint

variable {toml : Tomlkit} {arith : RatioArithmetic} {now : String} {world : World toml.Text}
  {state : State} {reconciliation : Reconciliation String}

section Always

variable {inv : World toml.Text → Prop}

variable (writes : ∀ document : Document toml, Prog.Always inv (writeDocumentAtomically document))
  (appends : ∀ line, Prog.Always inv (appendLine line : Command toml Unit))

include writes appends

theorem always_runReconcileBracket {edit : Document toml → Command toml (Document toml)}
    (edits : ∀ document, Prog.Always inv (edit document)) (logLine : String) :
    Prog.Always inv (runReconcileBracket now edit logLine) :=
  Prog.Always.bind (Prog.Always.observe _) fun _ =>
    Prog.Always.bind (writes _) fun _ =>
      Prog.Always.bind (edits _) fun _ =>
        Prog.Always.bind (appends _) fun _ => writes _

/-- What every write, every receipt and the directories keep, enacting a reconciliation keeps. -/
theorem always_enactReconciliation
    (makes : completesSetChapters reconciliation = true →
      Prog.Always inv (createMissingChapterDirs reconciliation : Command toml Unit)) :
    Prog.Always inv (enactReconciliation arith now reconciliation : Command toml CommandOutcome) := by
  have receipt : ∀ (line : String) (outcome : CommandOutcome), Prog.Always inv
      (do appendRecoveryEntry now line; return outcome : Command toml CommandOutcome) :=
    fun line outcome => Prog.Always.bind (appends _) fun _ => Prog.Always.pure _
  have turn : ∀ document, Prog.Always inv (pendingTurnEdit arith reconciliation document) := by
    intro document
    unfold pendingTurnEdit turnEdit recomputeCounts
    split
    · next completing => exact Prog.Always.bind (makes completing) fun _ => Prog.Always.pure _
    · split
      · exact Prog.Always.pure _
      · exact Prog.Always.bind (Prog.Always.observe _) fun _ =>
          Prog.Always.bind (Prog.Always.observe _) fun _ => always_rewriteWordCounts _ _ _ _
  have counts : ∀ edit, recountEdit (rewriteWordCounts arith) reconciliation = .ok edit →
      ∀ document : Document toml, Prog.Always inv (edit document) := by
    intro edit built document
    unfold recountEdit at built
    split at built
    · cases built
      exact always_rewriteWordCounts _ _ _ _
    · cases built
  unfold enactReconciliation dispatchAction
  cases reconciliation.action with
  | none => exact Prog.Always.pure _
  | refuse => exact receipt _ _
  | recreateLog => exact receipt _ _
  | recount =>
      exact Prog.Always.bind_check fun edit built =>
        Prog.Always.bind (always_runReconcileBracket writes appends (counts edit built) _) fun _ =>
          Prog.Always.pure _
  | completePendingTurn =>
      exact Prog.Always.bind (always_runReconcileBracket writes appends turn _) fun _ =>
        Prog.Always.pure _
  | rollbackPendingTurn =>
      exact Prog.Always.bind (always_runReconcileBracket writes appends turn _) fun _ =>
        Prog.Always.pure _

end Always

/-- What every effect of `reconcile` leaves alone. -/
structure Spared (world cut : World toml.Text) : Prop where
  cwd : cut.cwd = world.cwd
  /-- No file but the state and the log is changed, truncated or deleted. -/
  files : cut.files = world.files
  /-- The log is at most appended to. -/
  log : cut.log = world.log ∨ ∃ receipt, cut.log = some (world.log.getD "" ++ receipt)
  /-- No directory is deleted. -/
  kept : world.dirs ⊆ cut.dirs

/-- What depends on the directories alone is kept by writes and receipts. -/
theorem always_write_dirs (inv : Finset Loc → Prop) (document : Document toml) :
    Prog.Always (fun later : World toml.Text => inv later.dirs) (writeDocumentAtomically document) := by
  refine Prog.Always.perform fun later next holds written => ?_
  rw [(World.replaceState_ok written).2.2.2]
  exact holds

theorem always_append_dirs (inv : Finset Loc → Prop) (line : String) :
    Prog.Always (fun later : World toml.Text => inv later.dirs) (appendLine line) := by
  refine Prog.Always.bind (Prog.Always.perform fun later next holds opened => ?_) fun _ =>
    Prog.Always.perform fun later next holds appended => ?_
  · rw [(World.openLog_ok opened).2.2.2]
    exact holds
  · cases appended
    exact holds

namespace Spared

theorem refl (world : World toml.Text) : Spared world world :=
  ⟨rfl, rfl, Or.inl rfl, Finset.Subset.refl _⟩

theorem always_write (document : Document toml) :
    Prog.Always (Spared world) (writeDocumentAtomically document) := by
  refine Prog.Always.perform fun later next spared written => ?_
  obtain ⟨cwd, files, log, dirs⟩ := World.replaceState_ok written
  exact ⟨cwd.trans spared.cwd, files.trans spared.files, by rw [log]; exact spared.log,
    by rw [dirs]; exact spared.kept⟩

/-- A receipt stands behind what the log held. -/
theorem always_append (line : String) : Prog.Always (Spared world) (appendLine line) := by
  refine Prog.Always.bind (Prog.Always.perform fun later next spared opened => ?_) fun _ =>
    Prog.Always.perform fun later next spared appended => ?_
  · obtain ⟨cwd, files, log, dirs⟩ := World.openLog_ok opened
    refine ⟨cwd.trans spared.cwd, files.trans spared.files, Or.inr ?_, by rw [dirs]; exact spared.kept⟩
    rcases spared.log with same | ⟨receipt, grown⟩
    · exact ⟨"", by rw [log, same, String.append_empty]⟩
    · exact ⟨receipt, by rw [log, grown, Option.getD_some]⟩
  · cases appended
    refine ⟨spared.cwd, spared.files, ?_, spared.kept⟩
    change later.log.map (· ++ line) = _ ∨ ∃ receipt, later.log.map (· ++ line) = _
    rcases spared.log with same | ⟨receipt, grown⟩
    · rw [same]
      cases world.log with
      | none => exact Or.inl rfl
      | some content => exact Or.inr ⟨line, rfl⟩
    · exact Or.inr ⟨receipt ++ line, by rw [grown, Option.map_some, String.append_assoc]⟩

theorem addDir {later : World toml.Text} (spared : Spared world later) (loc : Loc) :
    Spared world (later.addDir loc) where
  cwd := (World.cwd_addDir loc).trans spared.cwd
  files := (World.files_addDir loc).trans spared.files
  log := by
    rw [World.log_addDir]
    exact spared.log
  kept := spared.kept.trans (World.subset_dirs_addDir loc)

/-- Enacting a reconciliation spares the tree. -/
theorem always_enact :
    Prog.Always (Spared world) (enactReconciliation arith now reconciliation) :=
  always_enactReconciliation always_write always_append fun _ =>
    always_createMissingChapterDirs _ fun _ loc spared => spared.addDir loc

end Spared

/-- A place that `reconcile` may make a directory. -/
def OfManifest (world : World toml.Text) (state : State) (place : Loc) : Prop :=
  ∃ number ∈ state.manifest, place <:+ world.disk.chapterDir number

/-- What one run of `reconcile` may have done to the tree. -/
structure Narrow (world : World toml.Text) (state : State) (cut : World toml.Text) : Prop where
  spared : Spared world cut
  /-- The state keeps everything but its counts and its record. -/
  shown : ∃ current byChapter pending, Shows cut { state with
    wordCounts := { state.wordCounts with current, byChapter }, pendingTurn := pending }
  /-- Only directories of manifest chapters, and parents of those, are made. -/
  made : ∀ place ∈ cut.dirs, place ∈ world.dirs ∨ OfManifest world state place

/-- A directory made at a place of no manifest chapter is beyond the footprint. -/
theorem not_narrow_of_made {cut : World toml.Text} {place : Loc} (free : world.layout place = none)
    (made : cut.layout place = some .dir)
    (foreign : ∀ number ∈ state.manifest, ¬place <:+ world.disk.chapterDir number) :
    ¬Narrow world state cut := by
  intro narrow
  rcases narrow.made place (World.layout_eq_dir.mp made) with there | ⟨number, listed, within⟩
  · exact (World.layout_eq_none.mp free).1 there
  · exact foreign number listed within

/-! ## The directories a run makes -/

section Dirs

variable {inv : Finset Loc → Prop} {logLine : String}

theorem dirs_addDir_cases (later : World toml.Text) (loc : Loc) :
    (later.addDir loc).dirs = later.dirs ∨ (later.addDir loc).dirs = insert loc later.dirs := by
  unfold World.addDir
  split
  · exact Or.inr rfl
  · exact Or.inl rfl

/-- Without a `set-chapters` turn to complete, no directory is made. -/
theorem dirs_of_incomplete (incomplete : completesSetChapters reconciliation = false) :
    ∀ cut ∈ (enactReconciliation arith now reconciliation world).trail, cut.dirs = world.dirs := by
  have kept : Prog.Always (fun later => later.dirs = world.dirs)
      (enactReconciliation arith now reconciliation : Command toml CommandOutcome) := by
    refine always_enactReconciliation (fun _ => always_write_dirs (fun dirs => dirs = world.dirs) _)
      (fun _ => always_append_dirs (fun dirs => dirs = world.dirs) _) fun completing => ?_
    rw [incomplete] at completing
    cases completing
  exact kept world rfl

/-- The edit of a completed turn makes the cleared places, one at a time. -/
theorem ensures_completing {next : World toml.Text} (rewrites : Rewrites world next)
    (held : next.stateToml.isSome) (completing : completesSetChapters reconciliation = true)
    (holds : inv world.dirs)
    (adds : ∀ dirs, inv dirs → ∀ place ∈ world.layout.cleared
      (declaredPlaces reconciliation.missingPaths (workingLoc world.cwd)), inv (insert place dirs))
    (opened : Document toml) :
    Prog.Ensures (fun later => later = next) (pendingTurnEdit arith reconciliation opened)
      (fun later => inv later.dirs) (fun _ later => inv later.dirs) := by
  have layouts : next.layout = world.layout := congrArg Disk.layout rewrites.disk
  have cwd : next.cwd = world.cwd := by
    obtain ⟨there, text, rfl⟩ := rewrites
    rfl
  have start : inv next.dirs := by
    rw [rewrites.dirs]
    exact holds
  have cuts : ∀ cut ∈ ((createMissingChapterDirs reconciliation : Command toml Unit) next).trail,
      inv cut.dirs := by
    refine always_carved (next.stateHeld held).1 start fun later kept place member => ?_
    rw [layouts, cwd] at member
    rcases dirs_addDir_cases later place with same | added
    · rw [same]
      exact kept
    · rw [added]
      exact adds later.dirs kept place member
  have made : Prog.Ensures (fun later => later = next)
      (createMissingChapterDirs reconciliation : Command toml Unit)
      (fun later => inv later.dirs) (fun _ later => inv later.dirs) := by
    rintro later rfl
    refine ⟨cuts, fun _ _ => ?_⟩
    rcases List.mem_cons.mp (Run.final_mem_cuts later _) with same | member
    · rw [same]
      exact start
    · exact cuts _ member
  unfold pendingTurnEdit turnEdit recomputeCounts
  rw [if_pos completing]
  exact Prog.Ensures.bind made fun _ => Prog.Ensures.pure fun _ kept => kept

/-- Completing a turn adds the cleared places to the directories, and no others. -/
theorem dirs_of_completing (inv : Finset Loc → Prop) (shows : Shows world state)
    (completing : completesSetChapters reconciliation = true) (holds : inv world.dirs)
    (adds : ∀ dirs, inv dirs → ∀ place ∈ world.layout.cleared
      (declaredPlaces reconciliation.missingPaths (workingLoc world.cwd)), inv (insert place dirs)) :
    ∀ cut ∈ (runReconcileBracket now (pendingTurnEdit arith reconciliation) logLine world).trail,
      inv cut.dirs := by
  obtain ⟨opened, next, -, rewrites, shows', run⟩ :=
    bracket_run now shows logLine (pendingTurnEdit arith reconciliation)
  have rest : Prog.Ensures (fun later => later = next)
      (bracketRest now logLine (pendingTurnEdit arith reconciliation) opened)
      (fun later => inv later.dirs) (fun _ _ => True) := by
    refine Prog.Ensures.bind
      (ensures_completing rewrites shows'.held completing holds adds opened) fun edited => ?_
    exact (Prog.Ensures.of_always (Prog.Always.bind (always_append_dirs inv _) fun _ =>
      always_write_dirs inv _)).weaken (fun _ kept => kept) (fun _ kept => kept) (fun _ _ _ => trivial)
  rw [run]
  intro cut member
  rcases List.mem_cons.mp member with rfl | later
  · rw [rewrites.dirs]
    exact holds
  · exact (rest next rfl).1 cut later

/-- Some cut of completing a turn has all the cleared places. -/
theorem cut_of_completing (shows : Shows world state)
    (completing : completesSetChapters reconciliation = true) :
    ∃ cut ∈ (runReconcileBracket now (pendingTurnEdit arith reconciliation) logLine world).trail,
      ∀ place ∈ world.layout.cleared
        (declaredPlaces reconciliation.missingPaths (workingLoc world.cwd)), place ∈ cut.dirs := by
  obtain ⟨opened, next, -, rewrites, shows', run⟩ :=
    bracket_run now shows logLine (pendingTurnEdit arith reconciliation)
  have layouts : next.layout = world.layout := congrArg Disk.layout rewrites.disk
  have cwd : next.cwd = world.cwd := by
    obtain ⟨there, text, rfl⟩ := rewrites
    rfl
  refine ⟨next.carved reconciliation, ?_, fun place member => ?_⟩
  · rw [run]
    rcases List.mem_cons.mp (Run.final_mem_cuts next
      ((createMissingChapterDirs reconciliation : Command toml Unit) next)) with same | made
    · exact List.mem_cons.mpr (Or.inl same)
    · refine List.mem_cons_of_mem _ (Prog.mem_trail_bind next ?_)
      unfold pendingTurnEdit turnEdit recomputeCounts
      rw [if_pos completing]
      exact Prog.mem_trail_bind next made
  · rw [mem_dirs_carved (next.stateHeld shows'.held).1, layouts, cwd]
    exact Or.inr member

end Dirs

/-! ## A narrow footprint -/

/-- At every cut the tree is spared, and the state keeps all but its counts and its record. -/
theorem spared_and_shown (shows : Shows world state) :
    ∀ cut ∈ (reconcile arith now world).trail, Spared world cut ∧
      ∃ current byChapter pending, Shows cut { state with
        wordCounts := { state.wordCounts with current, byChapter }, pendingTurn := pending } := by
  intro cut member
  refine ⟨?_, ?_⟩
  · rw [reconcile_run shows] at member
    rcases Prog.observe_bind_cases world _ _ with ⟨fault, -, run⟩ | ⟨reconciliation, -, run⟩
    · rw [run] at member
      cases member
    · rw [run] at member
      exact Spared.always_enact world (Spared.refl world) cut member
  · obtain ⟨after, shown, recovered⟩ := (ensures_reconcile now state world shows).1 cut member
    cases recovered with
    | record pending => exact ⟨_, _, pending, shown⟩
    | counts table pending coherent => exact ⟨_, _, pending, shown⟩

/-- One run keeps its narrow footprint exactly when the paths it makes are those of the manifest. -/
theorem footprint_narrow_iff (arith : RatioArithmetic) (now : String) (shows : Shows world state) :
    (∀ cut ∈ (reconcile arith now world).trail, Narrow world state cut) ↔
      ∀ pending, Completes state world.disk pending → ∀ place ∈ world.layout.cleared
        (declaredPlaces (missingDeclaredPaths pending.paths world.disk) (workingLoc world.cwd)),
          place ∈ world.dirs ∨ OfManifest world state place := by
  constructor
  · intro narrow pending completes place member
    obtain ⟨reconciliation, derives, completing, missing⟩ := completes.derives
    rw [← missing] at member
    have turn : reconciliation.action = .rollbackPendingTurn ∨
        reconciliation.action = .completePendingTurn :=
      Or.inr (completesSetChapters_iff.mp completing).1
    obtain ⟨cut, onTrail, made⟩ := @cut_of_completing toml arith now world state reconciliation
      (reconciliation.action.text ++ ": " ++ reconciliation.detail) shows completing
    refine (narrow cut ?_).made place (made place member)
    rw [reconcile_enacts shows derives, enactReconciliation_of_turn arith now turn]
    exact Prog.mem_trail_bind world onTrail
  · intro condition cut member
    obtain ⟨spared, shown⟩ := spared_and_shown shows cut member
    refine ⟨spared, shown, ?_⟩
    rw [reconcile_run shows] at member
    rcases Prog.observe_bind_cases world _ _ with ⟨fault, -, run⟩ | ⟨reconciliation, derives, run⟩
    · rw [run] at member
      cases member
    rw [run] at member
    by_cases completing : completesSetChapters reconciliation = true
    · obtain ⟨pending, completes, missing⟩ := completes_of_derives derives completing
      have allowed := condition pending completes
      rw [← missing] at allowed
      have turn : reconciliation.action = .rollbackPendingTurn ∨
          reconciliation.action = .completePendingTurn :=
        Or.inr (completesSetChapters_iff.mp completing).1
      rw [enactReconciliation_of_turn arith now turn, Prog.trail_bind_pure] at member
      refine dirs_of_completing (fun dirs =>
        ∀ place ∈ dirs, place ∈ world.dirs ∨ OfManifest world state place) shows completing
        (fun place there => Or.inl there) (fun dirs holds place made other there => ?_) cut member
      rcases Finset.mem_insert.mp there with rfl | old
      · exact allowed _ made
      · exact holds other old
    · have incomplete : completesSetChapters reconciliation = false := by simpa using completing
      rw [dirs_of_incomplete incomplete cut member]
      exact fun place there => Or.inl there

end Footprint

/-! ## A record that declares a chapter of the root -/

/-- The declared path is absolute, and reads as the directory of the missing chapter 1. -/
def strayPaths : List String := ["working/state.toml", "/manuscript/chapter-01"]

theorem shows_stray : Shows (declaringWorld strayPaths) (declaringState strayPaths) :=
  shown?_eq_some.mp (by decide +kernel)

/-- The run exits 0 and makes `/manuscript/chapter-01`, outside `working/`. -/
theorem footprint_reaches_root :
    Shows (declaringWorld strayPaths) (declaringState strayPaths) ∧
      exitCodeOf (reconcile .exact "" (declaringWorld strayPaths)).result = some 0 ∧
      (declaringWorld strayPaths).layout ["chapter-01", "manuscript"] = none ∧
      ((reconcile .exact "" (declaringWorld strayPaths)).final (declaringWorld strayPaths)).layout
        ["chapter-01", "manuscript"] = some .dir ∧
      ¬∀ cut ∈ (reconcile .exact "" (declaringWorld strayPaths)).trail,
        Narrow (declaringWorld strayPaths) (declaringState strayPaths) cut := by
  have free : (declaringWorld strayPaths).layout ["chapter-01", "manuscript"] = none := by
    decide +kernel
  have made : ((reconcile .exact "" (declaringWorld strayPaths)).final
      (declaringWorld strayPaths)).layout ["chapter-01", "manuscript"] = some .dir := by
    decide +kernel
  have onTrail : (reconcile .exact "" (declaringWorld strayPaths)).final (declaringWorld strayPaths) ∈
      (reconcile .exact "" (declaringWorld strayPaths)).trail :=
    Run.final_mem_trail (by decide +kernel)
  refine ⟨shows_stray, by decide +kernel, free, made, fun narrow => ?_⟩
  exact not_narrow_of_made free made (by decide +kernel) (narrow _ onTrail)

/-- A record that declares the directory as `set-chapters` does keeps the footprint narrow. -/
theorem footprint_narrow_declared :
    0 < (reconcile .exact "" (declaringWorld ["working/manuscript/chapter-01"])).trail.length ∧
      ∀ cut ∈ (reconcile .exact "" (declaringWorld ["working/manuscript/chapter-01"])).trail,
        Narrow (declaringWorld ["working/manuscript/chapter-01"])
          (declaringState ["working/manuscript/chapter-01"]) cut := by
  refine ⟨by decide +kernel, ?_⟩
  refine (footprint_narrow_iff .exact "" (shown?_eq_some.mp (by decide +kernel))).mpr ?_
  intro pending completes
  have recorded : pending = ⟨setChaptersOperation, ["working/manuscript/chapter-01"]⟩ := by
    have same := completes.recorded
    exact (Option.some.inj same).symm
  subst recorded
  intro place member
  have places : (declaringWorld ["working/manuscript/chapter-01"]).layout.cleared
      (declaredPlaces (missingDeclaredPaths ["working/manuscript/chapter-01"]
        (declaringWorld ["working/manuscript/chapter-01"]).disk)
        (workingLoc (declaringWorld ["working/manuscript/chapter-01"]).cwd)) =
      [["manuscript", "working"], ["chapter-01", "manuscript", "working"]] := by decide +kernel
  rw [places] at member
  refine Or.inr ⟨1, by decide +kernel, ?_⟩
  rcases List.mem_cons.mp member with rfl | later
  · decide +kernel
  · rw [List.mem_singleton.mp later]
    decide +kernel

end NovelRalph
