import NovelRalph.State.Precedence
import NovelRalph.System.ChapterNames
import NovelRalph.System.CrashRecovery
import NovelRalph.System.Footprint
import NovelRalph.System.Records
import NovelRalph.System.Resolution

/-!
# Following a record of one's own

A record found in `[pending_turn]` can make `reconcile` raise, leave its
directories, or report as resolved what it did not resolve. None of this happens
to the records the commands write themselves. So over every run from `init` the
derivation is as prescribed on every readable tree, the footprint is narrow, and
a repair that exits 0 leaves nothing of what it named.
-/

namespace NovelRalph

/-! ## The paths of a manifest -/

section Paths

variable {working : Loc} {numbers : List Int}

/-- A declared chapter path leads through `manuscript/` to the directory of the chapter. -/
theorem places_chapterPath {number : Int} (natural : 0 ≤ number) :
    Layout.places ((declaredPath (chapterPath number)).start working)
        (declaredPath (chapterPath number)).parts =
      ["manuscript" :: working, chapterDirName number :: "manuscript" :: working] := by
  obtain ⟨value, rfl⟩ := Int.eq_ofNat_of_zero_le natural
  have path : declaredPath (chapterPath value) = ⟨"", ["manuscript", chapterDirName value]⟩ :=
    declaredPath_chapter value
  have plain : ("manuscript" : String) ≠ ".." := by decide
  have plain' : chapterDirName value ≠ ".." := chapterDirName_plain.2.2
  rw [path]
  simp [PosixPath.start, Layout.places, Layout.stepInto, plain, plain']

/-- The places of declared chapter paths. -/
theorem mem_places_chapterPaths (natural : ∀ number ∈ numbers, 0 ≤ number) {place : Loc}
    (within : place ∈ declaredPlaces (numbers.map chapterPath) working) : ∃ number ∈ numbers,
      place = "manuscript" :: working ∨
        place = chapterDirName number :: "manuscript" :: working := by
  obtain ⟨path, taken, within⟩ := mem_declaredPlaces.mp within
  obtain ⟨number, member, rfl⟩ := List.mem_map.mp ((List.takeWhile_sublist _).subset taken)
  rw [places_chapterPath (natural number member), List.mem_cons, List.mem_singleton] at within
  exact ⟨number, member, within⟩

/-- Declared chapter paths that are all taken lead to the directory of every chapter. -/
theorem chapterDir_mem_places (taken : ∀ path ∈ numbers.map chapterPath, Taken path)
    {number : Int} (natural : 0 ≤ number) (member : number ∈ numbers) :
    chapterDirName number :: "manuscript" :: working ∈
      declaredPlaces (numbers.map chapterPath) working := by
  refine mem_declaredPlaces.mpr ⟨chapterPath number, ?_, ?_⟩
  · rw [takenPaths_eq_self.mpr taken]
    exact List.mem_map_of_mem member
  · rw [places_chapterPath natural]
    exact List.mem_cons_of_mem _ List.mem_cons_self

/-- The chapters of a state whose declared paths lead nowhere. -/
def unmadeChapters (state : State) (disk : Disk) : List Int :=
  state.numbers.filter fun number =>
    !(declaredPath (chapterPath number)).occupies disk.layout disk.working "working"

/-- A chapter without its directory is among them. -/
theorem mem_unmadeChapters {state : State} {disk : Disk} (closed : disk.layout.Closed)
    {number : Int} (listed : number ∈ state.numbers) (natural : 0 ≤ number)
    (absent : disk.layout (disk.chapterDir number) = none) :
    number ∈ unmadeChapters state disk := by
  refine List.mem_filter.mpr ⟨listed, ?_⟩
  rw [occupies_chapterPath closed natural, absent, Option.isSome_none, Bool.and_false]
  rfl

/-- The declared paths of a manifest that are missing are those of the chapters not made. -/
theorem missing_manifestPaths {Text : Type} {world : World Text} {state : State}
    (held : world.stateToml.isSome) :
    missingDeclaredPaths (manifestPaths state) world.disk =
      (unmadeChapters state world.disk).map chapterPath := by
  have statePath : declaredPath "working/state.toml" = ⟨"", ["state.toml"]⟩ := by decide +kernel
  have taken : (PosixPath.mk "" ["state.toml"]).refused "working" = false := by decide +kernel
  have closed : world.disk.layout.Closed := World.layout_closed
  have stateThere : (declaredPath "working/state.toml").occupies world.disk.layout
      world.disk.working "working" = true := by
    rw [statePath, PosixPath.occupies_plain closed _ _ (by decide), taken, Bool.not_false,
      Bool.true_and]
    exact World.layout_stateLoc held
  unfold missingDeclaredPaths manifestPaths unmadeChapters
  rw [List.filter_cons, stateThere, List.filter_map]
  rfl

end Paths

/-! ## The record of a turn that is completed -/

section Turns

variable {toml : Tomlkit} {arith : RatioArithmetic} {now : String} {world : World toml.Text}
  {state : State} {pending : PendingTurn} {reconciliation : Reconciliation String}

/-- What is known of a `set-chapters` record of the commands. -/
structure OwnTurn (state : State) (disk : Disk) (pending : PendingTurn) : Prop where
  positive : ∀ number ∈ state.numbers, 1 ≤ number
  missing : missingDeclaredPaths pending.paths disk = (unmadeChapters state disk).map chapterPath

namespace OwnTurn

variable {disk : Disk}

theorem natural (turn : OwnTurn state disk pending) {number : Int}
    (unmade : number ∈ unmadeChapters state disk) : 0 ≤ number := by
  have positive := turn.positive number (List.mem_filter.mp unmade).1
  omega

/-- Where the drafts can be read the numbers of the chapters have been spelled. -/
theorem nameable (turn : OwnTurn state disk pending) (readable : Readable state disk) {number : Int}
    (unmade : number ∈ unmadeChapters state disk) : Nameable number where
  natural := turn.natural unmade
  spelled := manifest_spelled readable.drafts _ (List.mem_toFinset.mpr (List.mem_filter.mp unmade).1)

/-- The paths that are missing are read back as the chapters that are not made. -/
theorem declares (turn : OwnTurn state disk pending) (readable : Readable state disk) :
    declaredChapterNumbers (missingDeclaredPaths pending.paths disk) =
      .ok (some (unmadeChapters state disk).toFinset) := by
  rw [turn.missing]
  exact declaredChapterNumbers_chapterPaths fun number => turn.nameable readable

/-- Following the paths leads through `manuscript/` to directories of chapters not made. -/
theorem place (turn : OwnTurn state disk pending) {place : Loc}
    (within : place ∈ declaredPlaces (missingDeclaredPaths pending.paths disk) disk.working) :
    ∃ number ∈ unmadeChapters state disk,
      place = disk.manuscript ∨ place = disk.chapterDir number := by
  rw [turn.missing] at within
  exact mem_places_chapterPaths (fun number => turn.natural) within

/-- Paths that are all taken lead to every chapter that is not made. -/
theorem leads (turn : OwnTurn state disk pending)
    (taken : ∀ path ∈ missingDeclaredPaths pending.paths disk, Taken path) {number : Int}
    (unmade : number ∈ unmadeChapters state disk) :
    disk.chapterDir number ∈
      declaredPlaces (missingDeclaredPaths pending.paths disk) disk.working := by
  rw [turn.missing] at taken ⊢
  exact chapterDir_mem_places taken (turn.natural unmade) unmade

/-- A directory that is made for a chapter is named by its number. -/
theorem suffix (turn : OwnTurn state disk pending) (readable : Readable state disk)
    {suffix : String} (made : disk.suffixDir suffix ∈
      declaredPlaces (missingDeclaredPaths pending.paths disk) disk.working) :
    ∃ number : Nat, (number : Int) ∈ unmadeChapters state disk ∧ suffix = padTwo number ∧
      intOfDigits? suffix = some number := by
  obtain ⟨number, unmade, same | same⟩ := turn.place made
  · have shorter := congrArg List.length same
    simp [Disk.suffixDir] at shorter
  · obtain ⟨value, rfl, numeral⟩ := (turn.nameable readable unmade).numeral
    have named := (List.cons.inj same).1
    rw [chapterDirName, String.append_right_inj] at named
    subst named
    exact ⟨value, unmade, rfl, numeral⟩

/-- What the commands' own directories could be made for can be read afterwards. -/
theorem legible (turn : OwnTurn state disk pending) (readable : Readable state disk)
    (closed : disk.layout.Closed)
    (taken : ∀ path ∈ missingDeclaredPaths pending.paths disk, Taken path)
    (clear : ∀ place ∈ declaredPlaces (missingDeclaredPaths pending.paths disk) disk.working,
      disk.layout.blocked place = false) :
    Legible state disk
      (declaredPlaces (missingDeclaredPaths pending.paths disk) disk.working) where
  names suffix _ made := by
    obtain ⟨number, -, -, numeral⟩ := turn.suffix readable made
    rw [numeral]
    exact Option.some_ne_none _
  compiled made := by
    obtain ⟨number, -, same | same⟩ := turn.place made
    · have shorter := congrArg List.length same
      simp [Disk.compiledManuscript] at shorter
    · have named := (List.cons.inj same).1
      have begins : startsWith "compiled.md" "chapter-" = true := by
        rw [named]
        exact startsWith_append _ _
      exact absurd begins (by decide)
  drafts entry _ made := by
    obtain ⟨number, -, same | same⟩ := turn.place made
    · have longer := congrArg List.length same
      simp only [Disk.chapterFile, Disk.chapterDir, List.length_cons] at longer
      omega
    · have longer := congrArg List.length same
      simp [Disk.chapterFile, Disk.chapterDir] at longer
  short absent _ entry member := by
    -- nothing is below a manuscript that is not there, so the chapter's own directory was made
    have listed : entry.number ∈ state.numbers := List.mem_map_of_mem member
    have positive := turn.positive _ listed
    have free : disk.layout (disk.chapterDir entry.number) = none := by
      rw [← Option.not_isSome_iff_eq_none]
      intro there
      change (disk.layout ([chapterDirName entry.number] ++ disk.manuscript)).isSome at there
      have outer := closed.outward there
      rw [absent] at outer
      cases outer
    have unmade := mem_unmadeChapters closed listed (by omega) free
    have open' := clear _ (turn.leads taken unmade)
    rw [Layout.blocked_none free] at open'
    exact open'

end OwnTurn

/-- A record of `set-chapters` that the commands wrote declares the manifest. -/
theorem OwnRecord.turn (own : OwnRecord state) (held : world.stateToml.isSome)
    (recorded : state.pendingTurn = some pending)
    (operation : pending.operation = setChaptersOperation) :
    OwnTurn state world.disk pending := by
  cases own with
  | settled none =>
      rw [none] at recorded
      cases recorded
  | reconcile other =>
      rw [other, Option.some.injEq] at recorded
      subst recorded
      exact absurd operation (by decide)
  | setChapters planned nonempty other =>
      rw [other, Option.some.injEq] at recorded
      subst recorded
      refine ⟨fun number listed => ?_, missing_manifestPaths held⟩
      have numbered : state.numbers = rangeFromOne state.chapters.length := planned.numbered
      rw [numbered] at listed
      exact (mem_rangeFromOne.mp listed).1

/-! ## The derivation -/

/-- No record of the commands makes the derivation raise. -/
theorem OwnRecord.precedence (own : OwnRecord state) (held : world.stateToml.isSome)
    (readable : Readable state world.disk) : PrecedenceExact state world.disk := by
  have explanation : ExplanationReadable state world.disk := by
    rw [explanationReadable_iff readable]
    rintro ⟨pending, recorded, operation, -, -, odd⟩
    obtain ⟨fault, raised⟩ := (@declaredChapterNumbersFrom_raises _ ∅).mpr odd
    have reads := (own.turn held recorded operation).declares readable
    have raised' : declaredChapterNumbers (missingDeclaredPaths pending.paths world.disk) =
        .error fault := raised
    rw [reads] at raised'
    cases raised'
  obtain ⟨reconciliation, derivation⟩ := exists_derivation explanation
  obtain ⟨violations, detected, names⟩ := checkDiskEvidence_of_readable readable false
  refine ⟨violations, reconciliation, detected,
    (deriveReconciliation_iff readable).mpr derivation, ?_⟩
  rw [names]
  exact prescribed_of_derivation readable derivation

/-! ## The footprint -/

/-- The footprint is narrow at every cut. -/
theorem OwnRecord.narrow (own : OwnRecord state) (shows : Shows world state) :
    ∀ cut ∈ (NovelRalph.reconcile arith now world).trail, Narrow world state cut := by
  intro cut member
  obtain ⟨spared, shown⟩ := spared_and_shown shows cut member
  refine ⟨spared, shown, ?_⟩
  rw [reconcile_run shows] at member
  rcases Prog.observe_bind_cases world _ _ with ⟨fault, -, run⟩ | ⟨reconciliation, derives, run⟩
  · rw [run] at member
    cases member
  rw [run] at member
  by_cases completing : completesSetChapters reconciliation = true
  · obtain ⟨pending, completes, missing⟩ := completes_of_derives derives completing
    have ownTurn := own.turn shows.held completes.recorded completes.operation
    have turn : reconciliation.action = .rollbackPendingTurn ∨
        reconciliation.action = .completePendingTurn :=
      Or.inr (completesSetChapters_iff.mp completing).1
    rw [enactReconciliation_of_turn arith now turn, Prog.trail_bind_pure] at member
    refine dirs_of_completing (fun dirs =>
      ∀ place ∈ dirs, place ∈ world.dirs ∨ OfManifest world state place) shows completing
      (fun place there => Or.inl there) (fun dirs holds place made other there => ?_) cut member
    rcases Finset.mem_insert.mp there with rfl | old
    · have led : other ∈ declaredPlaces (missingDeclaredPaths pending.paths world.disk)
          world.disk.working := by
        rw [← missing]
        exact (List.takeWhile_sublist _).subset made
      obtain ⟨number, unmade, within⟩ := ownTurn.place led
      refine Or.inr ⟨number, List.mem_toFinset.mpr (List.mem_filter.mp unmade).1, ?_⟩
      rcases within with rfl | rfl
      · exact List.suffix_cons _ _
      · exact List.suffix_refl _
    · exact holds other old
  · have incomplete : completesSetChapters reconciliation = false := by simpa using completing
    rw [dirs_of_incomplete incomplete cut member]
    exact fun place there => Or.inl there

/-! ## The resolution -/

/-- Completing a turn of the commands brings the directories into bijection. -/
theorem OwnTurn.mends {after : World toml.Text} (turn : OwnTurn state world.disk pending)
    (shows : Shows world state) (readable : Readable state world.disk)
    (missing : reconciliation.missingPaths = missingDeclaredPaths pending.paths world.disk)
    (made : (createMissingChapterDirs reconciliation world).result = .ok ())
    (stands : Stands (world.carved reconciliation) true state.settled after)
    (explains : Explains state world.disk pending) :
    bijectionBroken state.settled after.disk false = false := by
  obtain ⟨-, -, -, coherent, declared⟩ := explains
  have places : madePlaces world reconciliation =
      declaredPlaces (missingDeclaredPaths pending.paths world.disk) world.disk.working := by
    rw [madePlaces, missing]
    rfl
  have rest : state.manifest \ world.disk.onDisk = (unmadeChapters state world.disk).toFinset := by
    rw [turn.declares readable] at declared
    exact (Option.some.inj (Except.ok.inj declared)).symm
  have taken := ((createMissingChapterDirs_returns (world.stateHeld shows.held).1).mp made).1
  rw [missing] at taken
  have numbers : after.disk.onDisk = (world.carved reconciliation).disk.onDisk :=
    stands.sameManuscript.onDisk
  have settled : (classifyBijection state.settled.manifest world.disk.onDisk).coherentSubset = true :=
    coherent
  refine (bijectionBroken_eq_false settled).mpr ?_
  rw [numbers]
  refine Finset.Subset.antisymm (fun number listed => ?_) (fun number there => ?_)
  · rw [mem_onDisk_carved shows.held made, places]
    by_cases early : number ∈ world.disk.onDisk
    · exact Or.inl early
    · have unmade : number ∈ unmadeChapters state world.disk := by
        rw [← List.mem_toFinset, ← rest]
        exact Finset.mem_sdiff.mpr ⟨listed, early⟩
      obtain ⟨value, rfl, numeral⟩ := (turn.nameable readable unmade).numeral
      refine Or.inr ⟨padTwo value, isDigits_padTwo value, turn.leads taken unmade, ?_⟩
      rw [numeral]
      rfl
  · rcases (mem_onDisk_carved shows.held made).mp there with old | ⟨suffix, -, made', rfl⟩
    · exact subset_of_coherentSubset coherent old
    · rw [places] at made'
      obtain ⟨value, unmade, -, numeral⟩ := turn.suffix readable made'
      rw [numeral]
      exact List.mem_toFinset.mpr (List.mem_filter.mp unmade).1

/-- A repair that exits 0 leaves nothing of what it named, whatever record of the commands it
followed; and every chapter has its directory when no file is in the way. -/
theorem OwnRecord.resolves (own : OwnRecord state) (shows : Shows world state)
    (derives : deriveReconciliation state world.disk = .ok reconciliation)
    (repairing : Repairing reconciliation.action)
    (exits : exitCodeOf (NovelRalph.reconcile arith now world).result = some 0) :
    (∃ shown violations, Shows ((NovelRalph.reconcile arith now world).final world) shown ∧
      checkDiskEvidence shown ((NovelRalph.reconcile arith now world).final world).disk false =
        .ok violations ∧
      ∀ name ∈ reconciliation.discrepancies, name ∉ violations.map Violation.invariant) ∧
    (completesSetChapters reconciliation = true →
      (∀ number ∈ state.numbers, world.layout (world.disk.chapterDir number) ≠ some .file) →
      ∀ number ∈ state.numbers, ((NovelRalph.reconcile arith now world).final world).layout
        (world.disk.chapterDir number) = some .dir) := by
  obtain ⟨outcome, returned, -⟩ := exitCodeOf_eq_zero.mp exits
  have readable := readable_of_derive derives
  by_cases completing : completesSetChapters reconciliation = true
  · obtain ⟨made, stands⟩ := completed_of_returned shows derives completing returned
    obtain ⟨pending, completes, missing⟩ := completes_of_derives derives completing
    have turn := own.turn shows.held completes.recorded completes.operation
    have places : madePlaces world reconciliation =
        declaredPlaces (missingDeclaredPaths pending.paths world.disk) world.disk.working := by
      rw [madePlaces, missing]
      rfl
    obtain ⟨taken, clear⟩ := (createMissingChapterDirs_returns (world.stateHeld shows.held).1).mp made
    rw [missing] at taken clear
    have closed : world.disk.layout.Closed := World.layout_closed
    have legible := (readable_completed shows made stands readable).mpr
      (places ▸ turn.legible readable closed taken clear)
    refine ⟨(silent_iff stands.shows _).mpr ⟨legible, ?_⟩, fun _ unfiled number listed => ?_⟩
    · cases (deriveReconciliation_iff readable).mp derives with
      | explained other recorded explains =>
          have same : other = pending := Option.some.inj (recorded.symm.trans completes.recorded)
          subst same
          have broken : InvariantName.manifestDiskBijection ∈ evidence state.settled
              ((NovelRalph.reconcile arith now world).final world).disk false ↔
                bijectionBroken state.settled
                  ((NovelRalph.reconcile arith now world).final world).disk false = true :=
            mem_evidence (by simp [evidenceTable])
          intro name named fires
          rw [List.mem_singleton.mp named, broken,
            turn.mends shows readable missing made stands explains] at fires
          cases fires
      | pendingTurn other recorded agreed =>
          intro name named fires
          rw [discrepancies_classifyPendingTurn world.disk other [InvariantName.pendingTurnCleared]]
            at named
          rw [List.mem_singleton.mp named, pending_mem_evidence] at fires
          cases fires
      | coverGap => cases completing
      | refuse => cases completing
      | recount => cases completing
      | recreateLog => cases completing
      | none => cases completing
    · rw [World.layout_eq_dir, stands.dirs, mem_dirs_made shows.held made, places]
      cases kind : world.layout (world.disk.chapterDir number) with
      | none =>
          have positive := turn.positive number listed
          exact Or.inr (turn.leads taken (mem_unmadeChapters closed listed (by omega) kind))
      | some found =>
          cases found with
          | dir => exact Or.inl (World.layout_eq_dir.mp kind)
          | file => exact absurd kind (unfiled number listed)
  · have incomplete : completesSetChapters reconciliation = false := by simpa using completing
    have opens := logOpen_of_returned shows derives repairing returned
    have stands := repaired_of_returned shows derives repairing incomplete returned
    refine ⟨(silent_iff stands.shows _).mpr ⟨?_, ?_⟩, fun completes => absurd completes completing⟩
    · refine stands.sameManuscript.readable (readable.congr ?_)
      unfold repairedState
      split <;> rfl
    · exact silent_of_repaired ((deriveReconciliation_iff readable).mp derives) repairing incomplete
        opens stands

end Turns

/-! ## Over every run -/

section Throughout

variable {toml : Tomlkit} {arith : RatioArithmetic} {title slug : String} {target : Int}
  {createdAt : String} {start world : World toml.Text} {state : State}

/-- What a run from `init` shows records a turn of the commands, or none. -/
theorem Created.ownRecord (created : Created title slug target createdAt start)
    (run : Runs arith start world) (shows : Shows world state) : OwnRecord state := by
  have initial : Holds OwnRecord start := created.holds (.settled rfl)
  obtain ⟨other, shows', own⟩ := run.ownRecord initial shows.held
  rw [shows.unique shows']
  exact own

/-- Over every run the record is none or one that fits the manifest, and on every readable tree
the reconciliation is derived as prescribed. -/
theorem records_fit_throughout (arith : RatioArithmetic)
    (created : Created title slug target createdAt start) (run : Runs arith start world)
    (shows : Shows world state) :
    OwnRecord state ∧ (Readable state world.disk → PrecedenceExact state world.disk) :=
  have own := created.ownRecord run shows
  ⟨own, own.precedence shows.held⟩

/-- Over every run the footprint of `reconcile` is narrow at every cut. -/
theorem footprint_throughout (arith : RatioArithmetic)
    (created : Created title slug target createdAt start) (run : Runs arith start world)
    (shows : Shows world state) (now : String) :
    ∀ cut ∈ (reconcile arith now world).trail, Narrow world state cut :=
  (created.ownRecord run shows).narrow shows

/-- Over every run a repair that exits 0 leaves nothing of what it named. -/
theorem resolution_throughout (arith : RatioArithmetic)
    (created : Created title slug target createdAt start) (run : Runs arith start world)
    (shows : Shows world state) (now : String) (reconciliation : Reconciliation String)
    (derives : deriveReconciliation state world.disk = .ok reconciliation)
    (repairing : Repairing reconciliation.action)
    (exits : exitCodeOf (reconcile arith now world).result = some 0) :
    (∃ shown violations, Shows ((reconcile arith now world).final world) shown ∧
      checkDiskEvidence shown ((reconcile arith now world).final world).disk false =
        .ok violations ∧
      ∀ name ∈ reconciliation.discrepancies, name ∉ violations.map Violation.invariant) ∧
    (completesSetChapters reconciliation = true →
      (∀ number ∈ state.numbers, world.layout (world.disk.chapterDir number) ≠ some .file) →
      ∀ number ∈ state.numbers, ((reconcile arith now world).final world).layout
        (world.disk.chapterDir number) = some .dir) :=
  (created.ownRecord run shows).resolves shows derives repairing exits

end Throughout

/-! ### A torn plan of one chapter -/

theorem runs_plannedWorld : Runs .exact (initialWorld 1000) plannedWorld := by
  have torn : plannedWorld ∈ ((Invocation.setChapters [⟨1, "one", "One", 500⟩]).run .exact ""
      (initialWorld 1000)).trail := by
    have effects : 0 < ((Invocation.setChapters [⟨1, "one", "One", 500⟩]).run .exact ""
        (initialWorld 1000)).trail.length := by decide +kernel
    have first : plannedWorld = ((Invocation.setChapters [⟨1, "one", "One", 500⟩]).run .exact ""
        (initialWorld 1000)).trail.headD (initialWorld 1000) := rfl
    rw [first]
    cases trail : ((Invocation.setChapters [⟨1, "one", "One", 500⟩]).run .exact ""
        (initialWorld 1000)).trail with
    | nil =>
        rw [trail] at effects
        cases effects
    | cons cut rest => exact List.mem_cons_self
  exact .single (.invoke _ "" torn)

/-- The record of the torn plan fits its manifest. -/
theorem records_fit_planned : OwnRecord plannedState ∧
    PrecedenceExact plannedState plannedWorld.disk := by
  have fits := records_fit_throughout .exact created_initialWorld runs_plannedWorld shows_planned
  exact ⟨fits.1, fits.2 (readable_of_derive derives_planned)⟩

/-- Completing the torn plan makes no directory but the one of its chapter. -/
theorem footprint_planned : 0 < (reconcile .exact "" plannedWorld).trail.length ∧
    ∀ cut ∈ (reconcile .exact "" plannedWorld).trail, Narrow plannedWorld plannedState cut :=
  ⟨by decide +kernel,
    footprint_throughout .exact created_initialWorld runs_plannedWorld shows_planned ""⟩

/-- Completing the torn plan makes the directory of its chapter. -/
theorem resolution_planned : ((reconcile .exact "" plannedWorld).final plannedWorld).layout
    (plannedWorld.disk.chapterDir 1) = some .dir := by
  have resolved := resolution_throughout .exact created_initialWorld runs_plannedWorld shows_planned
    "" _ derives_planned (Or.inr (Or.inl rfl)) (by decide +kernel)
  refine resolved.2 (by decide) (fun number listed => ?_) 1 (by decide)
  have only : number = 1 := by
    have numbers : plannedState.numbers = [1] := rfl
    rw [numbers] at listed
    exact List.mem_singleton.mp listed
  rw [only]
  decide +kernel

end NovelRalph
