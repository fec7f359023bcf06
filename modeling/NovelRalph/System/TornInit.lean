import NovelRalph.Base.Restart
import NovelRalph.Surface.Sessions

/-!
# A killed `init`

`init` makes the directories of the working tree, writes `state.toml` and empties
the log. As long as there is no `state.toml` it can simply be run again; once there
is one it refuses, but where no `working/` was before one `reconcile` then does the rest.
-/

namespace NovelRalph

section Skeleton

variable {toml : Tomlkit} {world cut : World toml.Text} {now later title slug : String} {target : Int}

/-- The directories of `init`. -/
def makeSkeleton : Command toml Unit :=
  makeDirsAt World.cwd ⟨"", ["working"]⟩ >>= fun _ =>
    Prog.forEach initSubdirectories fun name => makeDirsAt World.cwd ⟨"", ["working", name]⟩

/-- The outcome of `init`. -/
def foundingOutcome (slug : String) : Command toml CommandOutcome := do
  let cwd ← Prog.observe fun world => .ok world.cwd
  return {
    code := .success
    result := [("working_dir", .str (placeText (workingLoc cwd))), ("slug", .str slug)]
    messages := ["initialised working/state.toml"] }

/-- The files of `init`, and its outcome; the target is spelled in the first. -/
def writeFounding (now title slug : String) (target : Int) : Command toml CommandOutcome :=
  (Prog.observe fun _ => spelled [target]) >>= fun _ =>
  writeDocumentAtomically (buildInitialDocument title slug target now) >>= fun _ =>
    (Prog.perform fun world => world.truncateLog) >>= fun _ => foundingOutcome slug

/-- Without a `state.toml`, `init` makes directories and then files. -/
theorem initCommand_split (free : world.exists? (stateLoc world.cwd) = false) :
    initCommand now title slug target world =
      (makeSkeleton >>= fun _ => writeFounding now title slug target) world := by
  have looked : (Except.ok (world.exists? (stateLoc world.cwd)) : Except Fault Bool) = .ok false := by
    rw [free]
  unfold initCommand
  rw [Prog.observe_bind_ok world looked]
  exact (Prog.bind_assoc world _ _ _).symm

/-- The current directory of a process is a directory. -/
def Stationed (cwd : Loc) (world : World toml.Text) : Prop :=
  world.cwd = cwd ∧ world.layout cwd = some .dir

theorem makeDirsAt_alike {cwd : Loc} (parts : List String) (stationed : Stationed cwd world) :
    Run.Alike ((makeDirsAt World.cwd ⟨"", parts⟩ : Command toml Unit) world)
      (World.dirStore.mkdirs cwd parts.reverse world) := by
  have start : (PosixPath.mk "" parts).start world.cwd = cwd := stationed.1
  unfold makeDirsAt
  rw [start]
  exact Prog.mapFault_alike world _ _

/-- Making a path leaves the process where it is, and every directory. -/
theorem always_makeDirsAt_stationed (cwd other : Loc) (parts : List String) :
    Prog.Always (fun world => Stationed cwd world ∧ world.layout other = some .dir)
      (makeDirsAt World.cwd ⟨"", parts⟩ : Command toml Unit) := by
  intro world holds cut left
  rw [(makeDirsAt_alike parts holds.1).trail] at left
  have place : Prog.Always (fun later : World toml.Text => later.cwd = cwd)
      (World.dirStore.mkdirs cwd parts.reverse) :=
    World.dirStore.always_mkdirs _ (fun later loc _ same => (World.cwd_addDir loc).trans same) _
  have dirs := DirStore.always_mkdirs_dirs (World.dirStore_lawful toml.Text) cwd other parts world
    ⟨holds.1.2, holds.2⟩ cut left
  exact ⟨⟨place world holds.1.1 cut left, dirs.1⟩, dirs.2⟩

/-- A path is made, from a directory. -/
def PathMade (cwd : Loc) (parts : List String) (world : World toml.Text) : Prop :=
  ∀ place ∈ Layout.places cwd parts, world.layout place = some .dir

theorem always_pathMade (cwd : Loc) (made parts : List String) :
    Prog.Always (fun world => Stationed cwd world ∧ PathMade cwd made world)
      (makeDirsAt World.cwd ⟨"", parts⟩ : Command toml Unit) := by
  intro world holds cut left
  exact ⟨(always_makeDirsAt_stationed cwd cwd parts world ⟨holds.1, holds.1.2⟩ cut left).1,
    fun place member => (always_makeDirsAt_stationed cwd place parts world
      ⟨holds.1, holds.2 place member⟩ cut left).2⟩

/-- Making a path can be run again. -/
theorem resumes_makeDirsAt (cwd : Loc) (parts : List String) :
    Prog.Resumes (Stationed cwd) (PathMade cwd parts)
      (makeDirsAt World.cwd ⟨"", parts⟩ : Command toml Unit) := by
  refine ((DirStore.resumes_mkdirs (World.dirStore_lawful toml.Text) cwd parts).strengthen
    fun world stationed => stationed.2).of_alike (fun world stationed cut left => ?_)
    fun world => makeDirsAt_alike parts
  rw [← (makeDirsAt_alike parts stationed).trail] at left
  exact (always_makeDirsAt_stationed cwd cwd parts world ⟨stationed, stationed.2⟩ cut left).1

/-- The working tree is made. -/
def SkeletonMade (cwd : Loc) (world : World toml.Text) : Prop :=
  PathMade cwd ["working"] world ∧ ∀ name ∈ initSubdirectories, PathMade cwd ["working", name] world

theorem SkeletonMade.of_dirs {cwd : Loc} (made : SkeletonMade cwd world) (same : cut.dirs = world.dirs) :
    SkeletonMade cwd cut := by
  have still : ∀ place, world.layout place = some .dir → cut.layout place = some .dir := by
    intro place there
    rw [World.layout_eq_dir, same]
    exact World.layout_eq_dir.mp there
  exact ⟨fun place member => still place (made.1 place member),
    fun name listed place member => still place (made.2 name listed place member)⟩

/-- Making the directories of `init` can be run again. -/
theorem resumes_makeSkeleton (cwd : Loc) :
    Prog.Resumes (Stationed cwd) (SkeletonMade cwd) (makeSkeleton : Command toml Unit) := by
  have alone : ∀ parts, Prog.Always (Stationed cwd)
      (makeDirsAt World.cwd ⟨"", parts⟩ : Command toml Unit) :=
    fun parts world stationed cut left =>
      (always_makeDirsAt_stationed cwd cwd parts world ⟨stationed, stationed.2⟩ cut left).1
  refine (resumes_makeDirsAt cwd ["working"]).bind (Prog.Resumes.forEach
    (fun name _ => (resumes_makeDirsAt cwd ["working", name]).strengthen fun _ both => both.1)
    (fun name _ => always_pathMade cwd ["working"] ["working", name])
    fun name _ other _ world holds cut left => ?_) (alone _)
    (Prog.Always.forEach fun name _ => always_pathMade cwd ["working"] ["working", name])
  have working := always_pathMade cwd ["working"] ["working", name] world holds.1 cut left
  exact ⟨working, (always_pathMade cwd ["working", other] ["working", name] world
    ⟨holds.1.1, holds.2⟩ cut left).2⟩

/-- Nothing stands in the place of `state.toml`. -/
def Unfounded (cwd : Loc) (world : World toml.Text) : Prop :=
  world.cwd = cwd ∧ world.layout (stateLoc cwd) = none

theorem Unfounded.absent {cwd : Loc} (unfounded : Unfounded cwd world) : world.stateToml = none := by
  by_contra held
  refine (World.layout_eq_none.mp unfounded.2).2 (Or.inl ⟨Option.isSome_iff_ne_none.mpr held, ?_⟩)
  rw [unfounded.1]

/-- The directories of `init` leave the place of `state.toml` free. -/
theorem always_unfounded (cwd : Loc) :
    Prog.Always (Unfounded cwd) (makeSkeleton : Command toml Unit) := by
  have makes : ∀ parts : List String, ".." ∉ parts →
      (∀ names, names ≠ [] → names <:+ parts.reverse → names ≠ ["state.toml", "working"]) →
      Prog.Always (Unfounded cwd) (makeDirsAt World.cwd ⟨"", parts⟩ : Command toml Unit) := by
    intro parts plain apart
    refine always_makeDirsAt_plain (fun later unfounded => unfounded.1) plain ?_
    intro later names named suffix unfounded
    have free := World.layout_eq_none.mp unfounded.2
    refine ⟨(World.cwd_addDir _).trans unfounded.1, World.layout_eq_none.mpr ⟨fun member => ?_, ?_⟩⟩
    · unfold World.addDir at member
      split at member
      · rcases Finset.mem_insert.mp member with same | old
        · exact apart names named suffix (List.append_cancel_right same.symm)
        · exact free.1 old
      · exact free.1 member
    · unfold World.holdsFile
      rw [World.stateToml_addDir, World.log_addDir, World.files_addDir, World.cwd_addDir]
      exact free.2
  refine Prog.Always.bind (makes ["working"] (by decide) fun names _ suffix => ?_) fun _ =>
    Prog.Always.forEach fun name listed => makes ["working", name] ?_ fun names _ suffix => ?_
  · rintro rfl
    exact absurd suffix (by decide)
  · have plain : ∀ name ∈ initSubdirectories, ".." ∉ ["working", name] := by decide
    exact plain name listed
  · rintro rfl
    have apart : ∀ name ∈ initSubdirectories,
        ¬ ["state.toml", "working"] <:+ ["working", name].reverse := by decide
    exact apart name listed suffix

/-- Writing the files has two effects when it returns. -/
theorem writeFounding_returns {outcome : CommandOutcome}
    (returned : (writeFounding now title slug target world).result = .ok outcome) :
    ∃ written emptied, world.replaceState
        (buildInitialDocument title slug target now : Document toml).dump = .ok written ∧
      written.truncateLog = .ok emptied ∧
      writeFounding now title slug target world = ⟨[written, emptied], .ok outcome⟩ := by
  rcases Prog.observe_bind_cases world (fun _ => spelled [target]) (fun _ =>
      writeDocumentAtomically (buildInitialDocument title slug target now) >>= fun _ =>
        (Prog.perform fun world => world.truncateLog) >>= fun _ => foundingOutcome slug :
      Unit → Command toml CommandOutcome) with ⟨fault, -, run⟩ | ⟨⟨⟩, -, run⟩
  · unfold writeFounding at returned
    rw [run] at returned
    cases returned
  unfold writeFounding at returned ⊢
  rw [run] at returned ⊢
  obtain ⟨trail, ⟨⟩, wrote, rest⟩ := Prog.bind_returns world returned
  obtain ⟨written, replaced, rfl⟩ := Prog.perform_returns wrote
  obtain ⟨trail', ⟨⟩, truncated, rest'⟩ := Prog.bind_returns written rest
  obtain ⟨emptied, cleared, rfl⟩ := Prog.perform_returns truncated
  refine ⟨written, emptied, replaced, cleared, ?_⟩
  have quiet : (foundingOutcome slug : Command toml CommandOutcome) emptied = ⟨[], .ok outcome⟩ := by
    rw [← rest']
    rfl
  have closes : ((Prog.perform fun world => world.truncateLog) >>= fun _ => foundingOutcome slug :
      Command toml CommandOutcome) written = ⟨[emptied], .ok outcome⟩ := by
    rw [Prog.bind_ok written truncated]
    exact congrArg (fun run : Run _ _ _ => (⟨[emptied] ++ run.trail, run.result⟩ : Run _ _ _)) quiet
  rw [Prog.bind_ok world wrote]
  exact congrArg (fun run : Run _ _ _ => (⟨[written] ++ run.trail, run.result⟩ : Run _ _ _)) closes

/-- What an `init` that exits 0 went through. -/
theorem init_stages (exits : exitCodeOf (initCommand now title slug target world).result = some 0) :
    Unfounded world.cwd world ∧ (makeSkeleton world).result = .ok () ∧
      ∃ written emptied outcome, ((makeSkeleton world).final world).replaceState
          (buildInitialDocument title slug target now : Document toml).dump = .ok written ∧
        written.truncateLog = .ok emptied ∧ outcome.code = .success ∧
        initCommand now title slug target world =
          ⟨(makeSkeleton world).trail ++ [written, emptied], .ok outcome⟩ := by
  obtain ⟨outcome, returned, success⟩ := exitCodeOf_eq_zero.mp exits
  have free : world.exists? (stateLoc world.cwd) = false := by
    rw [Bool.eq_false_iff]
    intro there
    unfold initCommand at returned
    have looked : (Except.ok (world.exists? (stateLoc world.cwd)) : Except Fault Bool) = .ok true := by
      rw [there]
    rw [Prog.observe_bind_ok world looked] at returned
    cases returned
  have split := @initCommand_split toml world now title slug target free
  rw [split] at returned
  obtain ⟨trail, ⟨⟩, made, rest⟩ := Prog.bind_returns world returned
  have middle : (makeSkeleton world).final world = trail.getLastD world := by
    rw [made]
    rfl
  have free' : world.layout (stateLoc world.cwd) = none := by
    simpa [World.exists?] using free
  obtain ⟨written, emptied, wrote, truncated, run⟩ := writeFounding_returns rest
  refine ⟨⟨rfl, free'⟩, by rw [made], written, emptied, outcome, middle ▸ wrote, truncated, success, ?_⟩
  rw [split, Prog.bind_ok world made, run, made]

end Skeleton

/-! ## A fresh working tree -/

section Fresh

variable {toml : Tomlkit} {arith : RatioArithmetic} {world cut uncut : World toml.Text}
  {now title slug : String} {target : Int}

/-- The fresh state has no chapters at all. -/
theorem undrafted_initial (title slug : String) (target : Int) (createdAt : String) :
    Undrafted (initialState title slug target createdAt) where
  numbered := rfl
  spelled _ member := absurd member List.not_mem_nil
  short _ member := absurd member List.not_mem_nil
  zeroed _ member := absurd member List.not_mem_nil
  keyed _ member := absurd member List.not_mem_nil
  uncursored := rfl

/-- A fresh state on a tree without chapters. -/
theorem fresh_silent (bare : Unchaptered cut) (title slug : String) (target : Int)
    (createdAt : String) :
    Readable (initialState title slug target createdAt) cut.disk ∧
      refusal (initialState title slug target createdAt) cut.disk = false ∧
      drift (initialState title slug target createdAt) cut.disk = false := by
  have under := undrafted_initial title slug target createdAt
  refine ⟨bare.readable [] (fun _ member => absurd member List.not_mem_nil)
    under.spelled under.short, ?_,
    under.current bare []⟩
  have broken := @Undrafted.broken _ cut (initialState title slug target createdAt) [] [] under bare rfl
  unfold refusal
  have other := under.otherRefusal bare []
  change otherRefusal (initialState title slug target createdAt) cut.disk = false at other
  change bijectionBroken _ cut.disk false = true ↔ _ at broken
  rw [other, Bool.or_false, Bool.eq_false_iff, Ne, broken]
  exact not_not.mpr rfl

/-- With the fresh state and no chapters, `reconcile` at most recreates the log. -/
theorem endsLike_fresh (shows : Shows cut (initialState title slug target now))
    (bare : Unchaptered cut) (opens : LogOpen cut) (dirs : cut.dirs = uncut.dirs) (later : String) :
    EndsLike arith later uncut (initialState title slug target now) cut := by
  obtain ⟨readable, agreed, current⟩ := fresh_silent bare title slug target now
  have calm : Calm (initialState title slug target now) cut := ⟨shows, readable, agreed, opens⟩
  have coherent := coherent_initial arith title slug target now
  cases held : cut.log.isSome with
  | true =>
      have present := (Stands.refl shows).logFile opens
      rw [held] at present
      have idle := @reconcile_idle toml arith later cut _ shows
        ((deriveReconciliation_iff readable).mpr (.none rfl agreed current present))
      refine ⟨?_, ?_, ?_, ?_⟩ <;> rw [idle]
      · rfl
      · exact shows
      · exact dirs
      · exact check_exits_zero shows coherent readable (relaxed_silent rfl agreed current present)
  | false =>
      obtain ⟨-, repairs⟩ := (calm.recreates rfl current held :
        _ ∧ Repairs arith later cut (initialState title slug target now) _)
      obtain ⟨outcome, returned, success⟩ := repairs.exits
      have final := repairs.final
      have calm' := Calm.moved final readable agreed opens
      refine ⟨exitCodeOf_eq_zero.mpr ⟨outcome, returned, success⟩, final.shows,
        final.dirs.trans dirs, check_exits_zero final.shows coherent calm'.readable
          (relaxed_silent rfl calm'.agreed (final.sameManuscript.drift.trans current)
            (final.logFile opens))⟩

section Founding

variable (fresh : world.layout (workingLoc world.cwd) = none) (founded : Founded world cut)

include fresh

include founded

/-- Below the directories of `init` there is nothing. -/
theorem layout_founded {names : List String} (deep : 1 < names.length) :
    cut.layout (names ++ workingLoc cut.cwd) = none := by
  have none := World.layout_below_absent names fresh
  have apart : ∀ name, names ++ workingLoc world.cwd ≠ name :: workingLoc world.cwd := by
    intro name same
    have lengths := congrArg List.length same
    rw [List.length_append, List.length_cons] at lengths
    omega
  rw [founded.within.1]
  refine World.layout_eq_none.mpr ⟨fun member => ?_, ?_⟩
  · rcases founded.within.2 _ member with old | working | ⟨name, -, same⟩
    · exact (World.layout_eq_none.mp none).1 old
    · have lengths := congrArg List.length working
      rw [List.length_append] at lengths
      omega
    · exact apart name same
  · rintro (⟨-, same⟩ | ⟨-, same⟩ | stored)
    · rw [founded.within.1] at same
      exact apart "state.toml" same
    · rw [founded.within.1] at same
      exact apart "log.md" same
    · rw [founded.files] at stored
      exact (World.layout_eq_none.mp none).2 (Or.inr (Or.inr stored))

/-- The log of a fresh working tree can be opened. -/
theorem logOpen_founded : LogOpen cut := by
  have none := World.layout_eq_none.mp (World.layout_below_absent ["log.md"] fresh)
  have place : logLoc cut.cwd = logLoc world.cwd := by rw [founded.within.1]
  refine ⟨fun member => ?_, fun _ => ?_⟩
  · rw [place] at member
    rcases founded.within.2 _ member with old | working | ⟨name, listed, same⟩
    · exact none.1 old
    · have lengths := congrArg List.length working
      simp [logLoc] at lengths
    · rw [← (List.cons.inj same).1] at listed
      exact absurd listed (by decide)
  · rw [place, founded.files]
    by_contra stored
    exact none.2 (Or.inr (Or.inr (Option.isSome_iff_ne_none.mpr stored)))

/-- A fresh working tree with its directories has no chapters. -/
theorem unchaptered_founded (made : SkeletonMade world.cwd cut) : Unchaptered cut where
  manuscript := by
    have listed : "manuscript" ∈ initSubdirectories := by decide
    have there := made.2 _ listed ("manuscript" :: workingLoc world.cwd)
      (List.mem_cons_of_mem _ List.mem_cons_self)
    have place : cut.disk.manuscript = "manuscript" :: workingLoc world.cwd :=
      congrArg (fun cwd => "manuscript" :: workingLoc cwd) founded.within.1
    rw [place]
    exact World.layout_eq_dir.mp there
  chapters name _ := @layout_founded _ world _ fresh founded [name, "manuscript"] (Nat.lt_succ_self 1)
  compiled := @layout_founded _ world _ fresh founded ["compiled.md", "manuscript"] (Nat.lt_succ_self 1)

end Founding

end Fresh

/-! ## Every cut -/

section Torn

variable {toml : Tomlkit} {arith : RatioArithmetic} {world written emptied : World toml.Text}
  {now title slug : String} {target : Int}

/-- An emptied log could be opened. -/
theorem truncateLog_ok {Text : Type} {world next : World Text} (truncated : world.truncateLog = .ok next) :
    LogOpen world ∧ workingLoc world.cwd ∈ world.dirs ∧ next.stateToml = world.stateToml ∧
      next.dirs = world.dirs := by
  unfold World.truncateLog at truncated
  split at truncated
  · next held =>
      split at truncated
      · cases truncated
      · next plain =>
          cases truncated
          refine ⟨⟨held.2, fun none => ?_⟩, held.1, rfl, rfl⟩
          by_contra stored
          exact plain ⟨by rw [none]; rfl, Option.isSome_iff_ne_none.mpr stored⟩
  · split at truncated <;> cases truncated

theorem truncateLog_succeeds {Text : Type} {world : World Text} (opens : LogOpen world)
    (working : workingLoc world.cwd ∈ world.dirs) : ∃ next, world.truncateLog = .ok next := by
  unfold World.truncateLog
  rw [dif_pos ⟨working, opens.free⟩, if_neg fun both => ?_]
  · exact ⟨_, rfl⟩
  · have none := opens.plain (Option.isNone_iff_eq_none.mp both.1)
    rw [none] at both
    cases both.2

theorem replaceState_succeeds {Text : Type} {world written : World Text} {text : Text}
    (wrote : world.replaceState text = .ok written) (other : Text) :
    ∃ next, world.replaceState other = .ok next := by
  unfold World.replaceState at wrote ⊢
  split at wrote
  · next held => exact ⟨_, dif_pos held⟩
  · split at wrote <;> cases wrote

/-- Whether the two files can be written does not depend on the text. -/
theorem writes_any {text : toml.Text} (wrote : world.replaceState text = .ok written)
    (truncated : written.truncateLog = .ok emptied) (other : toml.Text) :
    ∃ written emptied, world.replaceState other = .ok written ∧
      written.truncateLog = .ok emptied := by
  obtain ⟨opens, working, -, -⟩ := truncateLog_ok truncated
  obtain ⟨cwd, files, log, dirs⟩ := World.replaceState_ok wrote
  obtain ⟨next, wrote'⟩ := replaceState_succeeds wrote other
  obtain ⟨cwd', files', log', dirs'⟩ := World.replaceState_ok wrote'
  rw [cwd, dirs, ← cwd', ← dirs'] at working
  have opens' : LogOpen next := by
    obtain ⟨free, plain⟩ := opens
    refine ⟨?_, ?_⟩
    · rw [cwd, dirs] at free
      rw [cwd', dirs']
      exact free
    · rw [cwd, files, log] at plain
      rw [cwd', files', log']
      exact plain
  obtain ⟨emptied', truncated'⟩ := truncateLog_succeeds opens' working
  exact ⟨next, emptied', wrote', truncated'⟩

/-- Where the files were written once they can be written for another novel. -/
theorem writeFounding_any {text : toml.Text} (wrote : world.replaceState text = .ok written)
    (truncated : written.truncateLog = .ok emptied) (now title slug : String) {target : Int}
    (short : tooLong target = false) :
    ∃ outcome, (writeFounding now title slug target world).result = .ok outcome ∧
      outcome.code = .success := by
  obtain ⟨written', emptied', wrote', truncated'⟩ := writes_any wrote truncated
    (buildInitialDocument title slug target now : Document toml).dump
  have writes : (writeDocumentAtomically (buildInitialDocument title slug target now) :
      Command toml Unit) world = ⟨[written'], .ok ()⟩ := Prog.perform_ok world wrote'
  have empties : (Prog.perform fun world => world.truncateLog : Command toml Unit) written' =
      ⟨[emptied'], .ok ()⟩ := Prog.perform_ok written' truncated'
  unfold writeFounding
  rw [Prog.observe_bind_ok world (spelled_singleton.mpr short), Prog.bind_ok world writes]
  show ∃ outcome, (((Prog.perform fun world => world.truncateLog : Command toml Unit) >>= fun _ =>
    foundingOutcome slug) written').result = .ok outcome ∧ outcome.code = .success
  rw [Prog.bind_ok written' empties]
  exact ⟨_, rfl, rfl⟩

/-- A process whose `state.toml` could be written stood in a directory from the start. -/
theorem stationed_of_founded {cut : World toml.Text} (founded : Founded world cut)
    (working : workingLoc cut.cwd ∈ cut.dirs) : Stationed world.cwd world := by
  have inside := cut.rooted _ working
  change cut.cwd ∈ cut.dirs at inside
  rw [founded.within.1] at inside
  refine ⟨rfl, World.layout_eq_dir.mpr ?_⟩
  rcases founded.within.2 _ inside with old | same | ⟨name, -, same⟩
  · exact old
  · have lengths := congrArg List.length same
    rw [workingLoc, List.length_cons] at lengths
    omega
  · have lengths := congrArg List.length same
    rw [workingLoc, List.length_cons, List.length_cons] at lengths
    omega

theorem replaceState_held {Text : Type} {world next : World Text} {text : Text}
    (wrote : world.replaceState text = .ok next) : next.stateToml = some text := by
  unfold World.replaceState at wrote
  split at wrote
  · cases wrote
    rfl
  · split at wrote <;> cases wrote

/-- An `init` goes on where its directories are made. -/
theorem init_continues {cut middle : World toml.Text} (unfounded : Unfounded world.cwd cut)
    (made : (makeSkeleton cut).result = .ok ()) (ends : (makeSkeleton cut).final cut = middle) :
    (initCommand now title slug target cut).result =
        (writeFounding now title slug target middle).result ∧
      (initCommand now title slug target cut).final cut =
        (writeFounding now title slug target middle).final middle := by
  have free : cut.exists? (stateLoc cut.cwd) = false := by
    unfold World.exists?
    rw [unfounded.1, unfounded.2]
    rfl
  rw [initCommand_split free]
  cases run : makeSkeleton cut with
  | mk trail result =>
      rw [run] at made ends
      dsimp only at made
      subst made
      change trail.getLastD cut = middle at ends
      rw [Prog.bind_ok cut run, Run.final_append, ends]
      exact ⟨rfl, rfl⟩

/-- Killed anywhere, an `init` has either left no `state.toml`, and any `init` run again ends as it
would have ended from the start, with 0 when its target can be spelled; or it has written the
initial state, and where there was no `working/` one `reconcile` ends like the uncut run. -/
theorem torn_init_recovers
    (exits : exitCodeOf (initCommand now title slug target world).result = some 0) :
    ∀ cut ∈ (initCommand now title slug target world).cuts world,
      (cut.stateToml = none ∧ ∀ later title slug target,
        (initCommand later title slug target cut).result =
          (initCommand later title slug target world).result ∧
        (initCommand later title slug target cut).final cut =
          (initCommand later title slug target world).final world ∧
        (tooLong target = false →
          exitCodeOf (initCommand later title slug target cut).result = some 0)) ∨
      (Shows cut (initialState title slug target now) ∧
        (world.layout (workingLoc world.cwd) = none → ∀ later,
          EndsLike arith later ((initCommand now title slug target world).final world)
            (initialState title slug target now) cut)) := by
  obtain ⟨unfounded, made, written, emptied, outcome, wrote, truncated, -, run⟩ := init_stages exits
  have founded : ∀ cut ∈ (initCommand now title slug target world).trail, Founded world cut :=
    Founded.always_init world
      ⟨rfl, Or.inl rfl, Finset.Subset.refl _, rfl, fun _ there => Or.inl there⟩
  obtain ⟨-, -, -, dirs⟩ := World.replaceState_ok wrote
  obtain ⟨-, working, kept, dirs'⟩ := truncateLog_ok truncated
  have final : (initCommand now title slug target world).final world = emptied := by
    rw [run]
    simp [Run.final, List.getLastD_eq_getLast?]
  have writtenCut : written ∈ (initCommand now title slug target world).trail := by
    rw [run]
    exact List.mem_append_right _ List.mem_cons_self
  have stationed := stationed_of_founded (founded written writtenCut) working
  have resumes := @resumes_makeSkeleton toml world.cwd
  have skeleton := resumes.ends world stationed made
  -- before `state.toml` the directories are made again, and then the same files
  have reruns : ∀ cut, Unfounded world.cwd cut → (makeSkeleton cut).result = .ok () →
      (makeSkeleton cut).final cut = (makeSkeleton world).final world → ∀ later title slug target,
        (initCommand later title slug target cut).result =
          (initCommand later title slug target world).result ∧
        (initCommand later title slug target cut).final cut =
          (initCommand later title slug target world).final world ∧
        (tooLong target = false →
          exitCodeOf (initCommand later title slug target cut).result = some 0) := by
    intro cut unfounded' made' ends later title slug target
    obtain ⟨result, final⟩ := @init_continues _ _ later title slug target _ _ unfounded' made' ends
    obtain ⟨result', final'⟩ := @init_continues _ _ later title slug target _ _ unfounded made rfl
    rw [result, result', final, final']
    refine ⟨rfl, rfl, fun short => ?_⟩
    obtain ⟨outcome, returned, success⟩ := writeFounding_any wrote truncated later title slug short
    exact exitCodeOf_eq_zero.mpr ⟨outcome, returned, success⟩
  -- with `state.toml` the log alone may be missing
  have ends : ∀ cut ∈ (initCommand now title slug target world).trail, cut.stateToml.isSome →
      SkeletonMade world.cwd cut → cut.dirs = emptied.dirs →
      Shows cut (initialState title slug target now) ∧
        (world.layout (workingLoc world.cwd) = none → ∀ later,
          EndsLike arith later emptied (initialState title slug target now) cut) := by
    intro cut left held made' same
    rcases Created.cases ⟨world, left⟩ with absent | shows
    · rw [absent] at held
      cases held
    · exact ⟨shows, fun fresh later => endsLike_fresh shows
        (unchaptered_founded fresh (founded cut left) made') (logOpen_founded fresh (founded cut left))
        same later⟩
  intro cut member
  rw [final]
  rw [run] at member
  rcases List.mem_cons.mp member with rfl | onTrail
  · exact Or.inl ⟨unfounded.absent, reruns _ unfounded made rfl⟩
  rcases List.mem_append.mp onTrail with early | late
  · have unfounded' := always_unfounded world.cwd world unfounded cut early
    obtain ⟨made', ends'⟩ := resumes.again world stationed made cut early
    exact Or.inl ⟨unfounded'.absent, reruns cut unfounded' made' ends'⟩
  · have held := replaceState_held wrote
    have onTrail' : cut ∈ (initCommand now title slug target world).trail := by
      rw [run]
      exact onTrail
    rcases List.mem_cons.mp late with rfl | last
    · exact Or.inr (ends cut onTrail' (by rw [held]; rfl) (skeleton.of_dirs dirs) dirs'.symm)
    · rw [List.mem_singleton] at last
      subst last
      exact Or.inr (ends cut onTrail' (by rw [kept, held]; rfl) (skeleton.of_dirs (dirs'.trans dirs))
        rfl)

end Torn

/-- The cut before the last effect. -/
theorem beforeLast_mem_cuts {σ ε α : Type} (run : Run σ ε α) (start : σ) :
    run.trail.dropLast.getLastD start ∈ run.cuts start :=
  List.cons_subset_cons _ (List.dropLast_subset _) List.getLastD_mem_cons

/-- The world of an `init` in an empty root that was killed before it emptied the log. -/
def interruptedWorld : World Tomlkit.structural.Text :=
  let start := World.bare Tomlkit.structural.Text
  (initCommand "2024-01-01T00:00:00Z" "Title" "slug" 1000 : Command Tomlkit.structural _) start
    |>.trail.dropLast.getLastD start

/-- After `init` was killed before it emptied the log one `reconcile` leaves a clean tree. -/
theorem torn_init_recovers_bare :
    exitCodeOf (check .exact ((reconcile .exact "" interruptedWorld).final interruptedWorld)).result =
      some 0 := by
  have exits : exitCodeOf ((initCommand "2024-01-01T00:00:00Z" "Title" "slug" 1000 :
      Command Tomlkit.structural _) (World.bare _)).result = some 0 := by decide +kernel
  have cut := beforeLast_mem_cuts ((initCommand "2024-01-01T00:00:00Z" "Title" "slug" 1000 :
    Command Tomlkit.structural _) (World.bare _)) (World.bare _)
  rcases torn_init_recovers exits _ cut with ⟨absent, -⟩ | ⟨-, ends⟩
  · have written : interruptedWorld.stateToml.isSome = true := by decide +kernel
    have absent' : interruptedWorld.stateToml = none := absent
    rw [absent'] at written
    cases written
  · exact (ends (by decide +kernel) "").clean

end NovelRalph
