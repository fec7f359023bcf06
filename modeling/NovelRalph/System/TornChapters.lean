import NovelRalph.System.ChapterDirs
import NovelRalph.System.CrashRecovery
import NovelRalph.System.Story

/-!
# A torn `set-chapters`

On a tree without chapters `set-chapters` goes through a record on the planned
state, the chapter directories one by one, the receipt, and the state without the
record. Killed in between, the record explains every prefix of the directories,
so one run of `reconcile` makes the others and ends where the uncut run ends.
-/

namespace NovelRalph

section Torn

variable {toml : Tomlkit} {arith : RatioArithmetic} {now : String} {world next : World toml.Text}
  {state : State} {logged : Bool} {made rest : List Int}

/-- A chapter directory that was not there is made in one effect. -/
theorem achieves_makeChapter (bare : Unchaptered world) {number : Int} (carvable : Carvable number)
    (fresh : number ∉ made) :
    Prog.Achieves (Stands (world.withChapters made) logged state)
      (makeDirs ⟨"", ["manuscript", chapterDirName number]⟩)
      (Stands (world.withChapters (made ++ [number])) logged state)
      (fun _ => Stands (world.withChapters (made ++ [number])) logged state) := by
  intro next stands
  have cwd : next.cwd = world.cwd := by rw [stands.cwd, World.cwd_withChapters]
  have working : workingLoc world.cwd ∈ next.dirs := by
    have inside := (next.stateHeld stands.shows.held).1
    rwa [cwd] at inside
  have manuscript : world.disk.manuscript ∈ next.dirs := by
    rw [stands.dirs, bare.toChapterFree.dirs]
    exact Finset.mem_union_left _ bare.manuscript
  have free : next.layout (world.disk.chapterDir number) = none := by
    have same := stands.layout_manuscript [chapterDirName number]
    rw [ChapterFree.disk_manuscript] at same
    change next.layout (world.disk.chapterDir number) =
      (world.withChapters made).layout (world.disk.chapterDir number) at same
    rw [same, bare.toChapterFree.layout_chapterDir, if_neg fresh]
  have steps : Layout.stepInto world.disk.manuscript (chapterDirName number) =
      world.disk.chapterDir number := if_neg chapterDirName_plain.2.2
  have arrives : next.layout.walk (workingLoc world.cwd) ["manuscript"] =
      .ok world.disk.manuscript := by
    rw [Layout.walk, World.layout_eq_dir.mpr working]
    rfl
  have run : (makeDirs ⟨"", ["manuscript", chapterDirName number]⟩ : Command toml Unit) next =
      ⟨[next.addDir (world.disk.chapterDir number)], .ok ()⟩ := by
    have mkdirs : World.dirStore.mkdirs (workingLoc world.cwd)
        [chapterDirName number, "manuscript"] next =
          ⟨[next.addDir (world.disk.chapterDir number)], .ok ()⟩ := by
      rw [← steps]
      exact World.dirStore.mkdirs_free _ arrives (World.layout_eq_dir.mpr manuscript)
        (by rw [steps]; exact free) (by rw [steps]; exact carvable.short)
    rw [← cwd] at mkdirs
    rw [makeDirs_taken carvable.taken]
    exact congrArg (fun run : Run (World toml.Text) OsError Unit =>
      (⟨run.trail, run.result.mapError Fault.os⟩ : Run (World toml.Text) Fault Unit)) mkdirs
  have stands' : Stands (world.withChapters (made ++ [number])) logged state
      (next.addDir (world.disk.chapterDir number)) := by
    rw [World.withChapters_append]
    refine stands.addDir ?_ ?_ free
    · rw [bare.toChapterFree.dirs]
      exact Finset.mem_union_left _ bare.manuscript
    · rw [bare.toChapterFree.layout_chapterDir, if_neg fresh]
  rw [run]
  exact ⟨fun left member => by rwa [List.mem_singleton.mp member], (), rfl, stands'⟩

/-- Making chapter directories one after the other goes through every prefix of them. -/
theorem achieves_makeChapters (bare : Unchaptered world) (distinct : (made ++ rest).Nodup)
    (carvable : ∀ number ∈ rest, Carvable number) :
    Prog.Achieves (Stands (world.withChapters made) logged state)
      (Prog.forEach rest fun number => makeDirs ⟨"", ["manuscript", chapterDirName number]⟩)
      (fun left => ∃ early late, rest = early ++ late ∧
        Stands (world.withChapters (made ++ early)) logged state left)
      (fun _ => Stands (world.withChapters (made ++ rest)) logged state) := by
  induction rest generalizing made with
  | nil =>
      rw [List.append_nil]
      exact Prog.Achieves.pure fun _ stands => stands
  | cons number rest inductionHypothesis =>
      have fresh : number ∉ made := by
        rw [List.nodup_append] at distinct
        exact fun member => distinct.2.2 number member number List.mem_cons_self rfl
      have moved : made ++ number :: rest = (made ++ [number]) ++ rest := by simp
      rw [moved] at distinct ⊢
      obtain ⟨first, remaining⟩ := List.forall_mem_cons.mp carvable
      refine Prog.Achieves.bind ((achieves_makeChapter bare first fresh).weaken (fun _ start => start)
        (fun left stands => ⟨[number], rest, rfl, stands⟩) (fun _ _ finish => finish)) fun _ => ?_
      refine (inductionHypothesis distinct remaining).weaken (fun _ start => start) ?_
        (fun _ _ finish => finish)
      rintro left ⟨early, late, rfl, stands⟩
      refine ⟨number :: early, late, rfl, ?_⟩
      rwa [List.append_assoc] at stands

/-- The planned state under the record of the turn. -/
def State.torn (planned : State) (ordered : List ChapterPlanEntry) : State :=
  { planned with pendingTurn := some ⟨setChaptersOperation, declaredPaths ordered⟩ }

/-! ### The names of a plan that was written -/

/-- Every chapter directory is one that a directory can hold. -/
structure ShortlyNamed (world later : World toml.Text) : Prop where
  cwd : later.cwd = world.cwd
  names : ∀ name, startsWith name "chapter-" = true → name :: world.disk.manuscript ∈ later.dirs →
    overlong name = false

theorem ShortlyNamed.of_bare (bare : Unchaptered world) : ShortlyNamed world world where
  cwd := rfl
  names name begins there := by
    have absent := bare.chapters name begins
    rw [World.layout_eq_none] at absent
    exact absurd there absent.1

theorem ShortlyNamed.addDir {later : World toml.Text} {loc : Loc}
    (short : overlong (loc.headD "") = false) (named : ShortlyNamed world later) :
    ShortlyNamed world (later.addDir loc) where
  cwd := (World.cwd_addDir loc).trans named.cwd
  names name begins there := by
    unfold World.addDir at there
    split at there
    · rcases Finset.mem_insert.mp there with rfl | old
      · exact short
      · exact named.names name begins old
    · exact named.names name begins there

/-- A chapter directory that was made has a name that a directory can hold. -/
theorem ensures_makeChapter (number : Int) :
    Prog.Ensures (ShortlyNamed world)
      (makeDirs ⟨"", ["manuscript", chapterDirName number]⟩ : Command toml Unit) (fun _ => True)
      (fun _ later => ShortlyNamed world later ∧ overlong (chapterDirName number) = false) := by
  intro later named
  have kept : Prog.Always (ShortlyNamed world)
      (makeDirs ⟨"", ["manuscript", chapterDirName number]⟩ : Command toml Unit) :=
    always_makeDirs fun next holds => Prog.Always.mapFault
      (World.dirStore.always_mkdirs _ (fun _ _ short named => named.addDir short) _) next holds
  have final := kept.final named
  refine ⟨fun _ _ => trivial, fun value returned => ⟨final, ?_⟩⟩
  obtain ⟨made, -⟩ := (ensures_makeDirs _ later (Grows.refl later)).2 value returned
  obtain ⟨loc, arrives, there⟩ := (World.dirStore.isDir_iff _).mp made.2
  have plain : ".." ∉ ["manuscript", chapterDirName number] := by
    simp [Ne.symm (@chapterDirName_plain number).2.2]
  rw [List.reverse_reverse] at arrives
  rw [Layout.walk_eq_of_ok plain arrives] at there
  refine final.names _ (startsWith_append _ _) (World.layout_eq_dir.mp ?_)
  rw [← there]
  show _ = _
  rw [named.cwd]
  rfl

/-- All chapter directories of a loop that returned have such names. -/
theorem ensures_makeChapters (ordered : List ChapterPlanEntry) :
    Prog.Ensures (ShortlyNamed world)
      (Prog.forEach ordered fun entry =>
        makeDirs ⟨"", ["manuscript", chapterDirName entry.number]⟩ : Command toml Unit)
      (fun _ => True)
      (fun _ _ => ∀ entry ∈ ordered, overlong (chapterDirName entry.number) = false) := by
  induction ordered with
  | nil => exact Prog.Ensures.pure fun _ _ entry member => absurd member List.not_mem_nil
  | cons entry rest inductionHypothesis =>
      refine Prog.Ensures.bind (ensures_makeChapter entry.number) fun _ later both => ?_
      obtain ⟨cuts, returns⟩ := inductionHypothesis later both.1
      exact ⟨cuts, fun value returned =>
        List.forall_mem_cons.mpr ⟨both.2, returns value returned⟩⟩

/-- A plan is written only where its directories can be named. -/
theorem short_of_returned (bare : Unchaptered world) {chapters : List ChapterPlanEntry}
    {outcome : CommandOutcome}
    (returned : (setChaptersCommand arith now chapters world).result = .ok outcome) :
    ∀ entry ∈ orderedChapters chapters, overlong (chapterDirName entry.number) = false := by
  have writes : ∀ document : Document toml,
      Prog.Always (ShortlyNamed world) (writeDocumentAtomically document) := by
    intro document
    refine Prog.Always.perform fun later next named written => ?_
    obtain ⟨cwd, -, -, dirs⟩ := World.replaceState_ok written
    exact ⟨cwd.trans named.cwd, fun name begins there => named.names name begins (dirs ▸ there)⟩
  have triple : Prog.Ensures (ShortlyNamed world)
      (setChaptersCommand arith now chapters : Command toml CommandOutcome) (fun _ => True)
      (fun _ _ => ∀ entry ∈ orderedChapters chapters,
        overlong (chapterDirName entry.number) = false) := by
    unfold setChaptersCommand populateChapters
    refine Prog.Ensures.bind (Prog.Ensures.observe fun _ _ named _ => named) fun document => ?_
    refine Prog.Ensures.bind (Prog.Ensures.observe fun _ _ named _ => named) fun prior => ?_
    split
    · exact Prog.Ensures.raise
    refine Prog.Ensures.bind (Prog.Ensures.observe fun _ _ named _ => named) fun _ => ?_
    refine Prog.Ensures.bind (Prog.Ensures.observe fun _ _ named _ => named) fun _ => ?_
    refine Prog.Ensures.bind (Prog.Ensures.observe fun _ _ named _ => named) fun _ => ?_
    refine Prog.Ensures.bind (Prog.Ensures.observe fun _ _ named _ => named) fun _ => ?_
    refine Prog.Ensures.bind ?_ fun _ => Prog.Ensures.pure fun _ short => short
    unfold writeManifestTurn
    refine Prog.Ensures.bind ((Prog.Ensures.of_always (writes _)).weaken (fun _ named => named)
      (fun _ _ => trivial) (fun _ _ named => named)) fun _ => ?_
    refine Prog.Ensures.bind (ensures_makeChapters _) fun _ later short => ?_
    exact ⟨fun _ _ => trivial, fun _ _ => short⟩
  exact (triple world (.of_bare bare)).2 outcome returned

/-- What `set-chapters` leaves at a cut: some of the directories under the record, or the end. -/
def TornAt (world : World toml.Text) (planned : State) (ordered : List ChapterPlanEntry)
    (left : World toml.Text) : Prop :=
  (∃ made rest, ordered.map ChapterPlanEntry.number = made ++ rest ∧
      Stands (world.withChapters made) true (planned.torn ordered) left) ∨
    Stands (world.withChapters (ordered.map ChapterPlanEntry.number)) true planned.settled left

theorem logOpen_withChapters (held : world.log.isSome) (numbers : List Int) :
    LogOpen (world.withChapters numbers) :=
  LogOpen.of_regular (Or.inl (by rw [World.log_withChapters]; exact held))

/-- The second half of `set-chapters`, on a tree without chapters. -/
theorem achieves_writeManifestTurn (bare : Unchaptered world) (held : world.log.isSome)
    {document : Document toml} {planned : State} {ordered : List ChapterPlanEntry}
    (viewed : documentToState document = .ok planned)
    (distinct : (ordered.map ChapterPlanEntry.number).Nodup)
    (carvable : ∀ number ∈ ordered.map ChapterPlanEntry.number, Carvable number) :
    Prog.Achieves (Stands world true state) (writeManifestTurn now document ordered)
      (TornAt world planned ordered)
      (fun _ => Stands (world.withChapters (ordered.map ChapterPlanEntry.number)) true
        planned.settled) := by
  have recorded : documentToState (document.edit
      (openPendingTurn setChaptersOperation (declaredPaths ordered))) = .ok (planned.torn ordered) := by
    rw [documentToState, Document.body_edit]
    exact parse_openPendingTurn viewed _ _
  have cleared : documentToState ((document.edit
      (openPendingTurn setChaptersOperation (declaredPaths ordered))).edit clearPendingTurn) =
        .ok planned.settled := by
    have reads := parse_clearPendingTurn recorded
    rwa [documentToState, Document.body_edit]
  have dirs : (Prog.forEach ordered fun entry =>
      makeDirs ⟨"", ["manuscript", chapterDirName entry.number]⟩ : Command toml Unit) =
        Prog.forEach (ordered.map ChapterPlanEntry.number) fun number =>
          makeDirs ⟨"", ["manuscript", chapterDirName number]⟩ :=
    (Prog.forEach_map ordered ChapterPlanEntry.number fun number =>
      makeDirs ⟨"", ["manuscript", chapterDirName number]⟩).symm
  unfold writeManifestTurn
  rw [dirs]
  refine Prog.Achieves.bind ((achieves_write recorded).weaken (fun _ start => start)
    (fun left stands => Or.inl ⟨[], _, rfl, stands⟩) (fun _ _ finish => finish)) fun _ => ?_
  refine Prog.Achieves.bind ((@achieves_makeChapters toml world _ _ [] _ bare distinct
    carvable).weaken
    (fun _ start => start) ?_ (fun _ _ finish => finish)) fun _ => ?_
  · rintro left ⟨made, rest, split, stands⟩
    exact Or.inl ⟨made, rest, split, stands⟩
  refine Prog.Achieves.bind ((achieves_receipt (logOpen_withChapters held _) _).weaken
    (fun _ start => start) (fun left stands => Or.inl ⟨_, [], (List.append_nil _).symm, stands⟩)
    (fun _ _ finish => finish)) fun _ => ?_
  exact (achieves_write cleared).weaken (fun _ start => start) (fun _ => Or.inr)
    (fun _ _ finish => finish)

/-- An accepted plan goes through the directories to the planned state, and exits 0. -/
theorem achieves_setChapters (bare : Unchaptered world) (held : world.log.isSome)
    {chapters : List ChapterPlanEntry} (plan : PlanAccepted arith state chapters)
    (distinct : ((orderedChapters chapters).map ChapterPlanEntry.number).Nodup)
    (carvable : ∀ number ∈ (orderedChapters chapters).map ChapterPlanEntry.number,
      Carvable number) :
    Prog.Achieves (Stands world true state) (setChaptersCommand arith now chapters)
      (TornAt world (state.planned chapters) (orderedChapters chapters))
      (fun outcome left => outcome.code = .success ∧
        Stands (world.withChapters ((orderedChapters chapters).map ChapterPlanEntry.number)) true
          (state.planned chapters).settled left) := by
  unfold setChaptersCommand populateChapters
  refine Prog.Achieves.bind_fact achieves_load fun document viewed => ?_
  refine Prog.Achieves.bind_fact (achieves_view viewed) ?_
  rintro prior rfl
  rw [if_neg (not_not.mpr plan.empty)]
  have approved := refuseIncoherentPlan_eq_ok.mpr plan.accepted
  have planned := parse_planned viewed chapters
  rw [← Document.body_editAll] at planned
  refine Prog.Achieves.bind_check approved ?_
  refine Prog.Achieves.bind_check plan.named ?_
  refine Prog.Achieves.bind_fact (achieves_view planned) ?_
  rintro proposed rfl
  refine Prog.Achieves.bind_check (refuseIfIncoherent_eq_ok.mpr plan.coherent) ?_
  refine Prog.Achieves.bind (achieves_writeManifestTurn bare held planned distinct carvable) fun _ => ?_
  exact Prog.Achieves.pure fun left finish => ⟨rfl, finish⟩

/-! ## What `reconcile` makes of a cut -/

/-- The declared path of a chapter directory. -/
def chapterPath (number : Int) : String := "working/manuscript/" ++ chapterDirName number

theorem declaredPaths_eq (ordered : List ChapterPlanEntry) :
    declaredPaths ordered =
      "working/state.toml" :: (ordered.map ChapterPlanEntry.number).map chapterPath := by
  have dirs : ordered.map (fun entry => "working/manuscript/" ++ chapterDirName entry.number) =
      (ordered.map ChapterPlanEntry.number).map chapterPath := by
    rw [List.map_map]
    rfl
  rw [← dirs, declaredPaths]

/-- A declared chapter directory is there when its path is taken and it has been made. -/
theorem occupies_chapterPath {disk : Disk} (closed : disk.layout.Closed) {number : Int}
    (natural : 0 ≤ number) : (declaredPath (chapterPath number)).occupies disk.layout disk.working
      "working" = (!(PosixPath.mk "" ["manuscript", chapterDirName number]).refused "working" &&
        (disk.layout (disk.chapterDir number)).isSome) := by
  obtain ⟨value, rfl⟩ := Int.eq_ofNat_of_zero_le natural
  have plain : ".." ∉ ["manuscript", chapterDirName value] := by
    intro member
    rcases List.mem_cons.mp member with other | other
    · exact absurd other (by decide)
    · exact chapterDirName_plain.2.2 (List.mem_singleton.mp other).symm
  have path : declaredPath (chapterPath value) = ⟨"", ["manuscript", chapterDirName value]⟩ :=
    declaredPath_chapter value
  rw [path]
  exact PosixPath.occupies_plain closed _ _ plain

/-- At a cut those of the chapters that have been made are there. -/
theorem layout_chapterDir_cut (bare : Unchaptered world)
    (stands : Stands (world.withChapters made) logged state next) (number : Int) :
    next.disk.layout (next.disk.chapterDir number) = if number ∈ made then some .dir else none := by
  have same := stands.layout_manuscript [chapterDirName number]
  have place : next.disk.chapterDir number = world.disk.chapterDir number := by
    show [chapterDirName number, "manuscript"] ++ workingLoc next.cwd = _
    rw [stands.cwd, World.cwd_withChapters]
    rfl
  rw [ChapterFree.disk_manuscript] at same
  rw [place, ← bare.toChapterFree.layout_chapterDir]
  exact same

/-- The declared paths that are missing at a cut are those of the chapters still to be made. -/
theorem missing_declaredPaths (bare : Unchaptered world)
    (stands : Stands (world.withChapters made) logged state next)
    {ordered : List ChapterPlanEntry} (split : ordered.map ChapterPlanEntry.number = made ++ rest)
    (carvable : ∀ number ∈ made ++ rest, Carvable number) (distinct : (made ++ rest).Nodup) :
    missingDeclaredPaths (declaredPaths ordered) next.disk = rest.map chapterPath := by
  have statePath : declaredPath "working/state.toml" = ⟨"", ["state.toml"]⟩ := by decide +kernel
  have closed : next.disk.layout.Closed := World.layout_closed
  have stateThere : (declaredPath "working/state.toml").occupies next.disk.layout
      next.disk.working "working" = true := by
    have taken : (PosixPath.mk "" ["state.toml"]).refused "working" = false := by decide +kernel
    rw [statePath, PosixPath.occupies_plain closed _ _ (by decide), taken, Bool.not_false,
      Bool.true_and]
    exact World.layout_stateLoc stands.shows.held
  have occupied : ∀ number ∈ made ++ rest, (declaredPath (chapterPath number)).occupies
      next.disk.layout next.disk.working "working" = decide (number ∈ made) := by
    intro number member
    rw [occupies_chapterPath closed (carvable number member).natural, (carvable number member).taken,
      Bool.not_false, Bool.true_and, layout_chapterDir_cut bare stands]
    by_cases early : number ∈ made <;> simp [early]
  rw [List.nodup_append] at distinct
  unfold missingDeclaredPaths
  rw [declaredPaths_eq, split, List.filter_cons, stateThere, List.map_append, List.filter_append,
    List.filter_eq_nil_iff.mpr, List.filter_eq_self.mpr]
  · rfl
  · intro path member
    obtain ⟨number, later, rfl⟩ := List.mem_map.mp member
    have absent : number ∉ made := fun early => distinct.2.2 number early number later rfl
    rw [occupied number (List.mem_append_right _ later)]
    simp [absent]
  · intro path member
    obtain ⟨number, early, rfl⟩ := List.mem_map.mp member
    rw [occupied number (List.mem_append_left _ early)]
    simp [early]

/-- At every cut under its record, the turn is completed by making the remaining directories. -/
theorem derives_torn (bare : Unchaptered world) {planned : State} (undrafted : Undrafted planned)
    {ordered : List ChapterPlanEntry} (numbers : planned.numbers = ordered.map ChapterPlanEntry.number)
    (split : ordered.map ChapterPlanEntry.number = made ++ rest)
    (stands : Stands (world.withChapters made) logged (planned.torn ordered) next) :
    ∃ reconciliation, deriveReconciliation (planned.torn ordered) next.disk = .ok reconciliation ∧
      completesSetChapters reconciliation = true ∧
      reconciliation.missingPaths = rest.map chapterPath := by
  have whole : planned.numbers = made ++ rest := numbers.trans split
  have nameable : ∀ number ∈ made ++ rest, Nameable number := fun number member =>
    undrafted.nameable (by rw [whole]; exact member)
  have distinct := undrafted.nodup
  rw [whole] at distinct
  have carvable : ∀ number ∈ made ++ rest, Carvable number := fun number member =>
    undrafted.carvable (by rw [whole]; exact member)
  have missing := missing_declaredPaths bare stands split carvable distinct
  have same := stands.sameManuscript
  have readable : Readable (planned.torn ordered) next.disk := same.readable
    (bare.readable made (fun number member => nameable number (List.mem_append_left _ member))
      undrafted.spelled undrafted.short)
  have under : Undrafted (planned.torn ordered) :=
    ⟨undrafted.numbered, undrafted.spelled, undrafted.short, undrafted.zeroed, undrafted.keyed,
      undrafted.uncursored⟩
  have other := same.otherRefusal.trans (under.otherRefusal bare made)
  have broken := under.broken bare whole
  rw [← same.bijectionBroken] at broken
  by_cases complete : rest = []
  · subst complete
    have agreed : refusal (planned.torn ordered) next.disk = false := by
      unfold refusal
      rw [other, Bool.or_false, Bool.eq_false_iff, Ne, broken]
      exact not_not.mpr rfl
    have derives := (deriveReconciliation_iff readable).mpr (.pendingTurn _ rfl agreed)
    refine ⟨_, derives, completesSetChapters_iff.mpr ⟨?_, operation_classifyPendingTurn ..⟩, ?_⟩
    · rw [completes_classifyPendingTurn, missing]
      rfl
    · rw [missingPaths_classifyPendingTurn, missing]
  · refine ⟨_, (deriveReconciliation_iff readable).mpr (.explained _ rfl ⟨rfl, broken.mpr complete,
      other, ?_, ?_⟩), completesSetChapters_iff.mpr ⟨rfl, rfl⟩, missing⟩
    · rw [same.onDisk]
      exact under.coherentSubset bare whole
    · have later : ∀ number ∈ rest, Nameable number := fun number member =>
        nameable number (List.mem_append_right _ member)
      have declared := declaredChapterNumbersFrom_dirs later ∅
      rw [Finset.empty_union] at declared
      rw [missing, same.onDisk, under.missing bare whole]
      exact declared

/-- One run of `reconcile` from such a cut makes the remaining directories and exits 0. -/
theorem reconcile_torn (bare : Unchaptered world) (held : world.log.isSome) {planned : State}
    (undrafted : Undrafted planned) {ordered : List ChapterPlanEntry}
    (numbers : planned.numbers = ordered.map ChapterPlanEntry.number)
    (split : ordered.map ChapterPlanEntry.number = made ++ rest)
    (stands : Stands (world.withChapters made) true (planned.torn ordered) next) :
    exitCodeOf (reconcile arith now next).result = some 0 ∧
      Stands (world.withChapters (made ++ rest)) true planned.settled
        ((reconcile arith now next).final next) := by
  obtain ⟨reconciliation, derives, completes, paths⟩ :=
    derives_torn bare undrafted numbers split stands
  have whole : planned.numbers = made ++ rest := numbers.trans split
  have distinct := undrafted.nodup
  rw [whole] at distinct
  have turn : reconciliation.action = .rollbackPendingTurn ∨
      reconciliation.action = .completePendingTurn :=
    Or.inr (completesSetChapters_iff.mp completes).1
  have dirs : (createMissingChapterDirs reconciliation : Command toml Unit) =
      Prog.forEach rest fun number => makeDirs ⟨"", ["manuscript", chapterDirName number]⟩ := by
    unfold createMissingChapterDirs
    rw [paths, Prog.forEach_map]
    refine Prog.forEach_congr fun number member => ?_
    have nameable := undrafted.nameable (by rw [whole]; exact List.mem_append_right made member)
    obtain ⟨value, rfl⟩ := Int.eq_ofNat_of_zero_le nameable.natural
    exact congrArg makeDirs (declaredPath_chapter value)
  have edits : ∀ opened : Document toml,
      documentToState opened = .ok (planned.torn ordered).recorded →
      Prog.Achieves (Stands (world.withChapters made) true (planned.torn ordered).recorded)
        (pendingTurnEdit arith reconciliation opened) (fun _ => True)
        (fun edited left =>
          Stands (world.withChapters (made ++ rest)) true (planned.torn ordered).recorded left ∧
            documentToState edited = .ok (planned.torn ordered).recorded) := by
    intro opened viewed
    unfold pendingTurnEdit turnEdit recomputeCounts
    rw [if_pos completes, dirs]
    have carvable : ∀ number ∈ rest, Carvable number := fun number member =>
      undrafted.carvable (by rw [whole]; exact List.mem_append_right made member)
    refine Prog.Achieves.bind ((achieves_makeChapters bare distinct carvable).weaken (fun _ start => start)
      (fun _ _ => trivial) (fun _ _ finish => finish)) fun _ => ?_
    exact Prog.Achieves.pure fun left finish => ⟨finish, viewed⟩
  have bracket := (achieves_bracket (logOpen_withChapters held (made ++ rest)) now
    (reconciliation.action.text ++ ": " ++ reconciliation.detail) edits (fun _ _ => trivial)
    (fun _ _ => trivial) (fun _ _ => trivial)).thenReturn (writeOutcome reconciliation)
  obtain ⟨-, outcome, returned, rfl, finish⟩ := bracket next stands
  rw [reconcile_enacts stands.shows derives, enactReconciliation_of_turn arith now turn]
  refine ⟨?_, finish⟩
  rw [returned]
  rfl

/-- With all directories made and no record left, nothing is reported. -/
theorem planned_silent (bare : Unchaptered world) (held : world.log.isSome) {planned : State}
    (undrafted : Undrafted planned)
    (stands : Stands (world.withChapters planned.numbers) true planned.settled next) :
    Readable planned.settled next.disk ∧ refusal planned.settled next.disk = false ∧
      drift planned.settled next.disk = false ∧
      next.disk.exists? next.disk.logFile = true := by
  have same := stands.sameManuscript
  have under : Undrafted planned.settled :=
    ⟨undrafted.numbered, undrafted.spelled, undrafted.short, undrafted.zeroed, undrafted.keyed,
      undrafted.uncursored⟩
  have broken := @Undrafted.broken _ world planned.settled planned.numbers [] under bare
    (List.append_nil _).symm
  refine ⟨same.readable (bare.readable _ (fun number => undrafted.nameable) undrafted.spelled
    undrafted.short), ?_,
    same.drift.trans (under.current bare _), stands.logFile (logOpen_withChapters held _)⟩
  unfold refusal
  rw [same.otherRefusal, under.otherRefusal, Bool.or_false, same.bijectionBroken, Bool.eq_false_iff,
    Ne, broken]
  · exact not_not.mpr rfl
  · exact bare

/-- One run of `reconcile` from the cut ends like the uncut run, where `check` is clean. -/
structure EndsLike (arith : RatioArithmetic) (later : String) (uncut : World toml.Text)
    (after : State) (cut : World toml.Text) : Prop where
  exits : exitCodeOf (reconcile arith later cut).result = some 0
  shows : Shows ((reconcile arith later cut).final cut) after
  dirs : ((reconcile arith later cut).final cut).dirs = uncut.dirs
  clean : exitCodeOf (check arith ((reconcile arith later cut).final cut)).result = some 0

/-- Killed anywhere, `set-chapters` has done nothing, or one `reconcile` does the rest. -/
theorem torn_plan_recovers (shows : Shows world state) (coherent : Coherent arith state)
    (bare : Unchaptered world) (held : world.log.isSome) (chapters : List ChapterPlanEntry)
    (exits : exitCodeOf (setChaptersCommand arith now chapters world).result = some 0) :
    ∃ after, Shows ((setChaptersCommand arith now chapters world).final world) after ∧
      exitCodeOf (check arith ((setChaptersCommand arith now chapters world).final world)).result =
        some 0 ∧
      ∀ cut ∈ (setChaptersCommand arith now chapters world).cuts world,
        cut.stateToml = world.stateToml ∨
          ∀ later, EndsLike arith later ((setChaptersCommand arith now chapters world).final world)
            after cut := by
  obtain ⟨outcome, returned, -⟩ := exitCodeOf_eq_zero.mp exits
  obtain ⟨plan, -⟩ := (ensures_setChapters now chapters state world shows).2 outcome returned
  have short := short_of_returned bare returned
  have undrafted := Undrafted.of_accepted coherent plan short
  have numbers : (state.planned chapters).numbers =
      (orderedChapters chapters).map ChapterPlanEntry.number := by
    unfold State.numbers State.planned
    rw [List.map_map]
    rfl
  have distinct := undrafted.nodup
  rw [numbers] at distinct
  have start : Stands world true state world := by
    have refl := Stands.refl shows
    rwa [held] at refl
  have carvable : ∀ number ∈ (orderedChapters chapters).map ChapterPlanEntry.number,
      Carvable number := fun number member => undrafted.carvable (by rw [numbers]; exact member)
  obtain ⟨cuts, outcome, -, -, final⟩ :=
    achieves_setChapters bare held plan distinct carvable world start
  rw [← numbers] at final
  have clean : ∀ left : World toml.Text, Stands (world.withChapters (state.planned chapters).numbers)
      true (state.planned chapters).settled left → exitCodeOf (check arith left).result = some 0 := by
    intro left stands
    obtain ⟨readable, agreed, current, present⟩ := planned_silent bare held undrafted stands
    exact check_exits_zero stands.shows (coherent_withPending.mpr plan.coherent) readable
      (relaxed_silent rfl agreed current present)
  refine ⟨_, final.shows, clean _ final, fun cut member => ?_⟩
  rcases List.mem_cons.mp member with rfl | onTrail
  · exact Or.inl rfl
  refine Or.inr fun later => ?_
  rcases cuts cut onTrail with ⟨made, rest, split, stands⟩ | stands
  · obtain ⟨exits', finish⟩ := @reconcile_torn toml arith later world cut made rest bare held _
      undrafted _ numbers split stands
    rw [← split, ← numbers] at finish
    exact ⟨exits', finish.shows, finish.dirs.trans final.dirs.symm, clean _ finish⟩
  · rw [← numbers] at stands
    obtain ⟨readable, agreed, current, present⟩ := planned_silent bare held undrafted stands
    have idle := @reconcile_idle toml arith later cut _ stands.shows
      ((deriveReconciliation_iff readable).mpr (.none rfl agreed current present))
    refine ⟨?_, ?_, ?_, ?_⟩ <;> rw [idle]
    · rfl
    · exact stands.shows
    · exact stands.dirs.trans final.dirs.symm
    · exact clean _ stands

end Torn

/-! ## A plan of two chapters in a fresh novel -/

theorem unchaptered_initial : Unchaptered (initialWorld 1000) where
  manuscript := by decide +kernel
  compiled := by decide +kernel
  chapters name begins := by
    have dirs : ∀ loc ∈ (initialWorld 1000).dirs, loc.tail = (initialWorld 1000).disk.manuscript →
        startsWith (loc.headD "") "chapter-" = false := by decide +kernel
    have place : (initialWorld 1000).disk.manuscript = ["manuscript", "working"] := by decide +kernel
    have cwd : (initialWorld 1000).cwd = [] := by decide +kernel
    have files : (initialWorld 1000).files = [] := by decide +kernel
    rw [World.layout_eq_none]
    refine ⟨fun member => ?_, ?_⟩
    · have other : startsWith name "chapter-" = false := dirs _ member rfl
      rw [begins] at other
      cases other
    · unfold World.holdsFile stateLoc logLoc workingLoc
      rw [place, cwd, files]
      simp

/-- The plan, with its second chapter first, recovers from every cut. -/
theorem torn_plan_recovers_initial :
    ∃ after, ∀ cut ∈ (setChaptersCommand .exact "" [⟨2, "two", "Two", 500⟩, ⟨1, "one", "One", 500⟩]
        (initialWorld 1000)).cuts (initialWorld 1000),
      cut.stateToml = (initialWorld 1000).stateToml ∨
        Shows ((reconcile .exact "" cut).final cut) after := by
  have shows : Shows (initialWorld 1000)
      (initialState "Title" "slug" 1000 "2024-01-01T00:00:00Z") := shown?_eq_some.mp (by decide +kernel)
  obtain ⟨after, -, -, recovers⟩ := torn_plan_recovers shows
    (coherent_initial .exact "Title" "slug" 1000 "2024-01-01T00:00:00Z") unchaptered_initial
    (by decide +kernel) [⟨2, "two", "Two", 500⟩, ⟨1, "one", "One", 500⟩]
    (show exitCodeOf (setChaptersCommand .exact "" _ (initialWorld 1000)).result = some 0 by
      decide +kernel)
  exact ⟨after, fun cut member => (recovers cut member).imp_right fun ends => (ends "").shows⟩

end NovelRalph
