import NovelRalph.System.DoneContract
import NovelRalph.System.Machine
import NovelRalph.System.TornChapters

/-!
# Completion

From every state that a run from `init` reaches, a run goes on to the phase
`done`: no killed process, no record and no edit of the tree is a dead end for
the phases. That `novel done` exits 0 can be reached exactly when the target is
not positive, since only then a knitting gate can be recorded.
-/

namespace NovelRalph

/-! ## A tidy tree -/

section Trees

/-- The directories of a novel with the given chapters. -/
def tidyPlaces (cwd : Loc) (numbers : List Int) : List Loc :=
  ("reviews" :: workingLoc cwd) :: ("manuscript" :: workingLoc cwd) ::
    numbers.map fun number => chapterDirName number :: "manuscript" :: workingLoc cwd

/-- The directories with everything above them. -/
def tidyDirs (cwd : Loc) (numbers : List Int) : Finset Loc :=
  ((tidyPlaces cwd numbers).flatMap List.tails).toFinset

/-- The reviews, and the files of every chapter. -/
def tidyFiles (cwd : Loc) (numbers : List Int) : List Loc :=
  (["knitting-30.md", "knitting-50.md", "knitting-80.md"].map fun name =>
    name :: "reviews" :: workingLoc cwd) ++
  numbers.flatMap fun number => ["draft.md", "done.flag", "critic-notes.md"].map fun name =>
    name :: chapterDirName number :: "manuscript" :: workingLoc cwd

variable {cwd loc : Loc} {numbers : List Int}

theorem mem_tidyDirs : loc ∈ tidyDirs cwd numbers ↔ ∃ place ∈ tidyPlaces cwd numbers, loc <:+ place := by
  unfold tidyDirs
  rw [List.mem_toFinset, List.mem_flatMap]
  simp only [List.mem_tails]

theorem tidyPlace_mem (place : loc ∈ tidyPlaces cwd numbers) : loc ∈ tidyDirs cwd numbers :=
  mem_tidyDirs.mpr ⟨loc, place, List.suffix_refl _⟩

theorem workingLoc_mem_tidyDirs : workingLoc cwd ∈ tidyDirs cwd numbers :=
  mem_tidyDirs.mpr ⟨_, List.mem_cons_self, List.suffix_cons _ _⟩

/-- A tidy directory below `working/`. -/
theorem tidyDirs_below {names : List String} (named : names ≠ [])
    (member : names ++ workingLoc cwd ∈ tidyDirs cwd numbers) :
    names = ["reviews"] ∨ names = ["manuscript"] ∨
      ∃ number ∈ numbers, names = [chapterDirName number, "manuscript"] := by
  obtain ⟨place, listed, within⟩ := mem_tidyDirs.mp member
  have outside : ∀ {other : Loc}, other <:+ workingLoc cwd → names ++ workingLoc cwd ≠ other := by
    rintro other short rfl
    have lengths := short.length_le
    rw [List.length_append] at lengths
    exact named (List.length_eq_zero_iff.mp (by omega))
  have first : ∀ name, names ++ workingLoc cwd <:+ name :: workingLoc cwd → names = [name] := by
    intro name within
    rcases List.suffix_cons_iff.mp within with same | short
    · exact (List.append_left_inj (workingLoc cwd)).mp same
    · exact absurd rfl (outside short)
  rcases List.mem_cons.mp listed with rfl | listed
  · exact Or.inl (first _ within)
  rcases List.mem_cons.mp listed with rfl | listed
  · exact Or.inr (Or.inl (first _ within))
  · obtain ⟨number, numbered, rfl⟩ := List.mem_map.mp listed
    rcases List.suffix_cons_iff.mp within with same | short
    · refine Or.inr (Or.inr ⟨number, numbered, ?_⟩)
      exact (List.append_left_inj (workingLoc cwd)).mp same
    · exact Or.inr (Or.inl (first _ short))

/-- A tidy file lies in a tidy directory, and is none. -/
theorem tidyFiles_lie (listed : loc ∈ tidyFiles cwd numbers) :
    loc.tail ∈ tidyDirs cwd numbers ∧ loc ∉ tidyDirs cwd numbers := by
  rcases List.mem_append.mp listed with review | chapter
  · obtain ⟨name, named, rfl⟩ := List.mem_map.mp review
    refine ⟨tidyPlace_mem List.mem_cons_self, fun member => ?_⟩
    rcases @tidyDirs_below cwd numbers [name, "reviews"] (List.cons_ne_nil _ _) member with
      same | same | ⟨number, -, same⟩ <;> simp at same
  · obtain ⟨number, numbered, named⟩ := List.mem_flatMap.mp chapter
    obtain ⟨name, -, rfl⟩ := List.mem_map.mp named
    refine ⟨tidyPlace_mem (List.mem_cons_of_mem _ (List.mem_cons_of_mem _
      (List.mem_map_of_mem numbered))), fun member => ?_⟩
    rcases @tidyDirs_below cwd numbers [name, chapterDirName number, "manuscript"]
      (List.cons_ne_nil _ _) member with same | same | ⟨number, -, same⟩ <;> simp at same

variable {Text : Type}

/-- A user clears the tree but for `state.toml`, and leaves the tidy one, every file empty. -/
def World.tidied (world : World Text) (numbers : List Int) : World Text where
  cwd := world.cwd
  stateToml := world.stateToml
  log := some ""
  files := (tidyFiles world.cwd numbers).map fun loc => (loc, .text "")
  dirs := tidyDirs world.cwd numbers
  rooted loc member := by
    obtain ⟨place, listed, within⟩ := mem_tidyDirs.mp member
    exact mem_tidyDirs.mpr ⟨place, listed, (List.tail_suffix loc).trans within⟩
  filed entry member := by
    obtain ⟨loc, listed, rfl⟩ := List.mem_map.mp member
    exact (tidyFiles_lie listed).1
  stateHeld _ := ⟨workingLoc_mem_tidyDirs, fun member => by
    rcases @tidyDirs_below world.cwd numbers ["state.toml"] (List.cons_ne_nil _ _) member with
      same | same | ⟨number, -, same⟩ <;> simp at same⟩
  logHeld _ := ⟨workingLoc_mem_tidyDirs, fun member => by
    rcases @tidyDirs_below world.cwd numbers ["log.md"] (List.cons_ne_nil _ _) member with
      same | same | ⟨number, -, same⟩ <;> simp at same⟩

variable {world : World Text}

/-- Every tidy file reads as the empty text. -/
theorem World.read_tidied (listed : loc ∈ tidyFiles world.cwd numbers) :
    (world.tidied numbers).layout loc = some .file ∧
      (world.tidied numbers).read loc = .ok "" := by
  have stored : (world.tidied numbers).files.lookup loc = some (.text "") :=
    List.lookup_graph (fun _ => File.text "") listed
  have file : (world.tidied numbers).layout loc = some .file := by
    have outside : loc ∉ (world.tidied numbers).dirs := (tidyFiles_lie listed).2
    unfold World.layout
    have held : (world.tidied numbers).holdsFile loc := Or.inr (Or.inr (by rw [stored]; rfl))
    rw [if_neg outside, if_pos held]
  refine ⟨file, ?_⟩
  unfold World.read
  rw [file, stored]
  rfl

theorem chapterFile_tidy {number : Int} (numbered : number ∈ numbers) {name : String}
    (named : name ∈ ["draft.md", "done.flag", "critic-notes.md"]) :
    (world.tidied numbers).disk.chapterFile number name ∈ tidyFiles world.cwd numbers :=
  List.mem_append_right _ (List.mem_flatMap.mpr ⟨number, numbered, List.mem_map_of_mem named⟩)

/-- What is neither a tidy directory nor a tidy file nor one of the two files of `working/` is not there. -/
theorem World.layout_tidied_eq_none {names : List String} (long : 1 < names.length)
    (noDir : names ++ workingLoc world.cwd ∉ tidyDirs world.cwd numbers)
    (noFile : names ++ workingLoc world.cwd ∉ tidyFiles world.cwd numbers) :
    (world.tidied numbers).layout (names ++ workingLoc world.cwd) = none := by
  have apart : ∀ name, names ++ workingLoc world.cwd ≠ name :: workingLoc world.cwd := by
    intro name same
    have lengths := congrArg List.length same
    rw [List.length_append, List.length_cons] at lengths
    omega
  refine World.layout_eq_none.mpr ⟨noDir, ?_⟩
  rintro (⟨-, same⟩ | ⟨-, same⟩ | stored)
  · exact apart "state.toml" same
  · exact apart "log.md" same
  · obtain ⟨entry, member, spelled⟩ := List.lookup_isSome_iff.mp stored
    obtain ⟨loc, listed, rfl⟩ := List.mem_map.mp member
    have same : names ++ workingLoc world.cwd = loc := by simpa using spelled
    exact noFile (same ▸ listed)

/-- Without chapters the tidy tree is one to plan on. -/
theorem unchaptered_tidied (world : World Text) : Unchaptered (world.tidied []) := by
  have none : ∀ name, (world.tidied []).layout ([name, "manuscript"] ++ workingLoc world.cwd) =
      none := by
    intro name
    refine World.layout_tidied_eq_none (by simp) (fun member => ?_) (fun listed => ?_)
    · rcases tidyDirs_below (List.cons_ne_nil _ _) member with same | same | ⟨_, numbered, -⟩
      · simp at same
      · simp at same
      · cases numbered
    · simp [tidyFiles] at listed
  exact ⟨⟨tidyPlace_mem (List.mem_cons_of_mem _ List.mem_cons_self), fun name _ => none name⟩,
    none "compiled.md"⟩

/-- The compiled manuscript of the tidy tree can be written. -/
theorem replaceable_tidied (world : World Text) (numbers : List Int) (content : String) :
    ∃ next, (world.tidied numbers).replaceFile (world.tidied numbers).disk.compiledManuscript
      content = .ok next := by
  refine World.replaceFile_succeeds
    (tidyPlace_mem (List.mem_cons_of_mem _ List.mem_cons_self)) (fun member => ?_) content
  rcases @tidyDirs_below world.cwd numbers ["compiled.md", "manuscript"] (List.cons_ne_nil _ _)
    member with same | same | ⟨number, -, same⟩
  · simp at same
  · simp at same
  · exact chapterDirName_ne_compiled number (List.cons.inj same).1.symm

end Trees

/-! ## Going on -/

section Steps

variable {toml : Tomlkit} {arith : RatioArithmetic} {world : World toml.Text} {state next : State}

/-- A run goes on to a state with a property, the target as it was. -/
def Attains (arith : RatioArithmetic) (world : World toml.Text) (state : State)
    (goal : World toml.Text → State → Prop) : Prop :=
  ∃ later after, Runs arith world later ∧ Shows later after ∧ Ungated arith after ∧
    after.wordCounts.target = state.wordCounts.target ∧ goal later after

theorem Attains.here {goal : World toml.Text → State → Prop} (shows : Shows world state)
    (ungated : Ungated arith state) (holds : goal world state) : Attains arith world state goal :=
  ⟨world, state, .refl, shows, ungated, rfl, holds⟩

theorem Attains.bind {goal goal' : World toml.Text → State → Prop}
    (attains : Attains arith world state goal)
    (further : ∀ later after, Shows later after → Ungated arith after →
      after.wordCounts.target = state.wordCounts.target → goal later after →
      Attains arith later after goal') : Attains arith world state goal' := by
  obtain ⟨later, after, run, shows, ungated, target, holds⟩ := attains
  obtain ⟨last, final, run', shows', ungated', target', holds'⟩ :=
    further later after shows ungated target holds
  exact ⟨last, final, run.trans run', shows', ungated', target'.trans target, holds'⟩

/-- An uninterrupted command whose guard holds. -/
theorem attains_respond {invocation : Invocation} (shows : Shows world state)
    (ungated : Ungated arith state)
    (responds : state.respond arith world.disk invocation = some next)
    (target : next.wordCounts.target = state.wordCounts.target) :
    Attains arith world state fun _ after => after = next := by
  obtain ⟨later, outcome, run, -, -, shown⟩ := @steps_of_respond toml arith "" world state next
    invocation shows ungated responds
  have cut : later ∈ (invocation.run arith "" world).trail := by
    rw [run]
    exact List.mem_singleton_self later
  obtain ⟨after, shown', effect⟩ := effect_of_cut shows cut
  have ungated' : Ungated arith next := shown'.unique shown ▸ effect.ungated ungated
  exact ⟨later, next, .single (.invoke invocation "" cut), shown, ungated', target, rfl⟩

/-- An uninterrupted command, whatever it does. -/
theorem runs_final (invocation : Invocation) (now : String) (world : World toml.Text) :
    Runs arith world ((invocation.run arith now world).final world) := by
  rcases List.mem_cons.mp (Run.final_mem_cuts world (invocation.run arith now world)) with
    here | cut
  · rw [here]
    exact .refl
  · exact .single (.invoke invocation now cut)

/-- An edit of the tree. -/
theorem attains_edit (shows : Shows world state) (ungated : Ungated arith state)
    {later : World toml.Text} (place : later.cwd = world.cwd)
    (kept : later.stateToml = world.stateToml) :
    Attains arith world state fun last after => last = later ∧ after = state :=
  ⟨later, state, .single (.edit place kept), shows.of_eq kept, ungated, rfl, rfl, rfl⟩

/-! ### A manifest -/

/-- The plan of one chapter. -/
def soloPlan : List ChapterPlanEntry := [⟨1, "one", "One", 1⟩]

/-- A cursor stays coherent when the manifest grows. -/
theorem cursorCoherent_grown {chapter scene beat : Int} {few many : Nat} (more : few ≤ many)
    (cursor : cursorCoherent chapter scene beat few = true) :
    cursorCoherent chapter scene beat many = true := by
  simp only [cursorCoherent, Bool.and_eq_true, decide_eq_true_eq] at cursor ⊢
  obtain ⟨⟨⟨⟨nonneg, within⟩, scene⟩, beat⟩, past⟩ := cursor
  exact ⟨⟨⟨⟨nonneg, within.trans (Int.ofNat_le.mpr more)⟩, scene⟩, beat⟩, past⟩

/-- On an empty manifest with nothing counted the plan is accepted. -/
theorem accepted_soloPlan (ungated : Ungated arith state) (empty : state.chapters = [])
    (uncounted : state.wordCounts.current = 0) : PlanAccepted arith state soloPlan := by
  have coherent := ungated.coherent
  refine ⟨empty, by decide, by decide +kernel, { coherent with
    sum := uncounted.symm, clean_le_drafted := ?_, cursor := ?_, gates := fun positive => ?_ }⟩
  · show state.drafting.critic.consecutiveClean ≤ _
    rw [ungated.unclean]
    exact Int.natCast_nonneg _
  · refine cursorCoherent_grown (Nat.zero_le _) ?_
    have cursor := coherent.cursor
    rwa [empty] at cursor
  · refine ⟨0, arith.quotient_zero _ positive, fun gate => ?_⟩
    rw [decide_eq_false (not_le.mpr (arith.threshold_pos gate))]
    exact ungated.down positive gate

/-- A run goes on to a populated manifest. -/
theorem attains_manifest (shows : Shows world state) (ungated : Ungated arith state) :
    Attains arith world state fun _ after => after.chapters ≠ [] := by
  by_cases populated : state.chapters = []
  swap
  · exact .here shows ungated populated
  have counts : state.respond arith world.disk .recount = some (state.recounted Dict.empty) := by
    have none : world.disk.recountWords [] = .ok (0, Dict.empty) := rfl
    rw [State.respond, populated, none]
    refine if_pos (heldBack_of_gates fun positive => ⟨0, arith.quotient_zero _ positive, ?_⟩)
    exact fun gate => (decide_eq_false (not_le.mpr (arith.threshold_pos gate))).symm
  refine (attains_respond shows ungated counts rfl).bind ?_
  rintro later _ shows ungated - rfl
  refine (attains_edit shows ungated (show (later.tidied []).cwd = later.cwd from rfl) rfl).bind ?_
  rintro _ _ shows ungated - ⟨rfl, rfl⟩
  have plan := accepted_soloPlan ungated populated rfl
  have carvable : ∀ number ∈ (orderedChapters soloPlan).map ChapterPlanEntry.number,
      Carvable number := by
    intro number listed
    have only : number = 1 := List.mem_singleton.mp listed
    exact ⟨by omega, by rw [only]; decide +kernel⟩
  obtain ⟨-, outcome, -, -, stands⟩ := @achieves_setChapters toml arith "" (later.tidied [])
    (state.recounted Dict.empty) (unchaptered_tidied later) rfl soloPlan plan (by decide)
    carvable _ (Stands.refl shows)
  exact ⟨_, _, runs_final (.setChapters soloPlan) "" _, stands.shows,
    ⟨coherent_withPending.mpr plan.coherent, plan.spelled, ungated.unclean, ungated.down⟩, rfl,
    List.cons_ne_nil _ _⟩

/-! ### The phases -/

theorem Phase.exists_successor {phase : Phase} (unfinished : phase ≠ .done) :
    ∃ successor, Phase.order[phase.index + 1]? = some successor := by
  cases phase <;> first | exact ⟨_, rfl⟩ | exact absurd rfl unfinished

/-- With a manifest a run goes through the phases to the last. -/
theorem attains_phase (shows : Shows world state) (ungated : Ungated arith state)
    (populated : state.chapters ≠ []) :
    Attains arith world state fun _ after =>
      after.phase.current = .done ∧ after.chapters ≠ [] := by
  -- The measure is the number of phases that are left.
  induction left : Phase.order.length - state.phase.current.index using Nat.strong_induction_on
    generalizing world state with
  | _ remaining inductionHypothesis =>
      by_cases finished : state.phase.current = .done
      · exact .here shows ungated ⟨finished, populated⟩
      obtain ⟨successor, succeeds⟩ := Phase.exists_successor finished
      have responds : state.respond arith world.disk .advancePhase = some { state with phase := {
          current := successor, completed := state.phase.completed ++ [state.phase.current] } } := by
        rw [State.respond, succeeds]
        exact if_neg fun both => populated both.2
      have onward := Phase.index_of_getElem? succeeds
      have bounded : successor.index < Phase.order.length :=
        List.idxOf_lt_length_iff.mpr (Phase.mem_order successor)
      refine (attains_respond shows ungated responds rfl).bind ?_
      rintro later _ shows ungated - rfl
      refine inductionHypothesis _ ?_ shows ungated populated rfl
      show Phase.order.length - successor.index < _
      omega

/-! ### Exit 0 of `done` -/

/-- All that `novel done` asks of the state. -/
structure Complete (state : State) : Prop where
  phase : state.phase.current = .done
  final : state.gates.final.finalPassComplete = true
  knitting : ∀ gate, state.gates.knitting.flag gate = true

/-- Everything `novel done` reads in the tidy tree can be read. -/
theorem doneReadable_tidied (world : World toml.Text)
    (spelled : ∀ entry ∈ state.chapters, tooLong entry.number = false) :
    DoneReadable state (world.tidied state.numbers).disk := by
  have reads : ∀ entry ∈ state.chapters, ∀ name ∈ ["draft.md", "done.flag", "critic-notes.md"],
      (world.tidied state.numbers).disk.read
        ((world.tidied state.numbers).disk.chapterFile entry.number name) = .ok "" :=
    fun entry listed name named =>
      (World.read_tidied (chapterFile_tidy (List.mem_map_of_mem listed) named)).2
  refine ⟨fun entry listed =>
      ⟨spelled entry listed, Or.inl ⟨"", reads entry listed "draft.md" (by decide)⟩⟩,
    fun there => ?_,
    fun entry listed => Or.inl ⟨"", reads entry listed "critic-notes.md" (by decide)⟩⟩
  have none : (world.tidied state.numbers).layout
      (["compiled.md", "manuscript"] ++ workingLoc world.cwd) = none := by
    refine World.layout_tidied_eq_none (by decide) (fun member => ?_) (fun listed => ?_)
    · rcases tidyDirs_below (List.cons_ne_nil _ _) member with same | same | ⟨number, -, same⟩
      · simp at same
      · simp at same
      · exact chapterDirName_ne_compiled number (List.cons.inj same).1.symm
    · simp [tidyFiles] at listed
  have absent : (world.tidied state.numbers).disk.exists?
      (world.tidied state.numbers).disk.compiledManuscript = false := by
    show ((world.tidied state.numbers).layout _).isSome = false
    rw [show (world.tidied state.numbers).disk.compiledManuscript =
      ["compiled.md", "manuscript"] ++ workingLoc world.cwd from rfl, none]
    rfl
  rw [absent] at there
  cases there

/-- In the tidy tree every clause but `compile_consistent` holds of a complete state. -/
theorem othersHold_tidied (world : World toml.Text) (complete : Complete state) :
    (doneClauses state (world.tidied state.numbers).disk).OthersHold := by
  have there : ∀ loc ∈ tidyFiles world.cwd state.numbers,
      (world.tidied state.numbers).disk.exists? loc = true := by
    intro loc listed
    show ((world.tidied state.numbers).layout loc).isSome = true
    rw [(World.read_tidied listed).1]
    rfl
  refine ⟨decide_eq_true complete.phase, complete.final, ?_, ?_, ?_⟩
  · exact List.all_eq_true.mpr fun entry listed =>
      there _ (chapterFile_tidy (List.mem_map_of_mem listed) (by decide))
  · have review : ∀ percentage ∈ ["30", "50", "80"], (world.tidied state.numbers).disk.exists?
        ((world.tidied state.numbers).disk.knittingReview percentage) = true := by
      intro percentage listed
      refine there _ (List.mem_append_left _ (List.mem_map.mpr ⟨_, ?_, rfl⟩))
      have all : ∀ percentage ∈ ["30", "50", "80"], "knitting-" ++ percentage ++ ".md" ∈
          ["knitting-30.md", "knitting-50.md", "knitting-80.md"] := by decide
      exact all percentage listed
    have flags := complete.knitting
    show knittingGatesPassed state _ = true
    unfold knittingGatesPassed
    simp only [List.all_cons, List.all_nil, Bool.and_true, Bool.and_eq_true]
    exact ⟨⟨flags .done30, review _ (by decide)⟩, ⟨flags .done50, review _ (by decide)⟩,
      flags .done80, review _ (by decide)⟩
  · refine List.all_eq_true.mpr fun entry listed => ?_
    have read : (world.tidied state.numbers).disk.read ((world.tidied state.numbers).disk.chapterFile
        entry.number "critic-notes.md") = .ok "" :=
      (World.read_tidied (chapterFile_tidy (List.mem_map_of_mem listed) (by decide))).2
    rw [read]
    decide

/-- On a complete state a run goes on to a tree where `novel done` exits 0. -/
theorem attains_exit_of_complete (shows : Shows world state) (ungated : Ungated arith state)
    (complete : Complete state) : Attains arith world state fun later _ =>
      exitCodeOf (novelDone later).result = some 0 := by
  have readable := doneReadable_tidied world ungated.spelled
  obtain ⟨next, replaced⟩ := replaceable_tidied world state.numbers
    ((world.tidied state.numbers).disk.compiledText state.chapters)
  obtain ⟨same, -, -, -⟩ := World.replaceFile_ok replaced
  refine (attains_edit shows ungated same.cwd same.stateToml).bind ?_
  rintro _ _ shows' ungated' - ⟨rfl, rfl⟩
  refine .here shows' ungated' ?_
  rw [done_exits_zero shows' (doneReadable_of_replaced readable replaced),
    doneClauses_of_replaced readable replaced, DoneClauses.allHold_iff]
  exact ⟨othersHold_tidied world complete, rfl⟩

/-- The call that records every knitting gate. -/
def raiseAll : GateSelection := ⟨some true, some true, some true, none⟩

/-- Without a positive target every gate may be recorded. -/
theorem respond_raiseAll {disk : Disk} (free : state.wordCounts.target ≤ 0) :
    state.respond arith disk (.setGate raiseAll) =
      some { state with gates := raiseAll.apply state.gates } := by
  have guard : (raiseAll.anySet &&
      (decide (state.wordCounts.target ≤ 0) || raiseAll.lowers)) = true := by
    rw [decide_eq_true free]
    rfl
  exact if_pos guard

/-- Without a positive target a run goes on to exit 0 of `novel done`. -/
theorem attains_exit (shows : Shows world state) (ungated : Ungated arith state)
    (free : state.wordCounts.target ≤ 0) : Attains arith world state fun later _ =>
      exitCodeOf (novelDone later).result = some 0 := by
  refine (attains_manifest shows ungated).bind fun _ after shows ungated kept populated => ?_
  rw [← kept] at free
  refine (attains_phase shows ungated populated).bind fun _ last shows ungated kept ends => ?_
  rw [← kept] at free
  refine (@attains_respond _ _ _ _ _ .completeFinalPass shows ungated rfl rfl).bind ?_
  rintro _ _ shows ungated - rfl
  refine (attains_respond shows ungated (respond_raiseAll free) rfl).bind ?_
  rintro _ _ shows ungated - rfl
  exact attains_exit_of_complete shows ungated
    ⟨ends.1, rfl, fun gate => by cases gate <;> rfl⟩

/-- `novel done` exits 0 or 4 only when every knitting gate is recorded. -/
theorem raised_of_done (shows : Shows world state)
    (exits : exitCodeOf (novelDone world).result = some 0 ∨
      exitCodeOf (novelDone world).result = some 4) :
    ∀ gate, state.gates.knitting.flag gate = true := by
  obtain ⟨outcome, returned, code⟩ : ∃ outcome, (novelDone world).result = .ok outcome ∧
      (outcome.code = .success ∨ outcome.code = .actionableFinding) := by
    cases result : (novelDone world).result with
    | error fault =>
        rw [result] at exits
        cases fault <;> simp [exitCodeOf, ExitCode.toNat] at exits
    | ok outcome =>
        rw [result] at exits
        refine ⟨outcome, rfl, ?_⟩
        cases found : outcome.code <;> simp [exitCodeOf, found, ExitCode.toNat] at exits ⊢
  obtain ⟨_, loaded, run, returned⟩ := Prog.bind_returns world returned
  rw [loadOrStateError_of_shows shows] at run
  cases run
  obtain ⟨_, clauses, run, returned⟩ := Prog.bind_returns _ returned
  cases returned
  have passed : clauses.knittingGatesPassed = true := by
    rw [doneOutcome_code] at code
    by_cases all : clauses.allHold = true
    · exact ((DoneClauses.allHold_iff _).mp all).1.2.2.2.1
    · rw [if_neg all] at code
      split at code
      · next stale => exact (soleStaleCompile_iff.mp stale).1.1.2.2.2.1
      · rcases code with same | same <;> cases same
  have evaluates : guardStateInput draftReadError (evaluateDone state world.disk) = .ok clauses :=
    congrArg Run.result run
  rw [guardStateInput_eq_ok] at evaluates
  obtain ⟨flagged, -, evaluates⟩ := except_bind_eq_ok.mp evaluates
  obtain ⟨consistent, -, evaluates⟩ := except_bind_eq_ok.mp evaluates
  obtain ⟨unblocked, -, evaluates⟩ := except_bind_eq_ok.mp evaluates
  cases evaluates
  have flags : knittingGatesPassed state world.disk = true := passed
  unfold knittingGatesPassed at flags
  simp only [List.all_cons, List.all_nil, Bool.and_true, Bool.and_eq_true] at flags
  intro gate
  cases gate with
  | done30 => exact flags.1.1
  | done50 => exact flags.2.1.1
  | done80 => exact flags.2.2.1

end Steps

/-! ## Over every run -/

section Throughout

variable {toml : Tomlkit} {arith : RatioArithmetic} {title slug : String} {target : Int}
  {createdAt : String} {start world : World toml.Text} {state : State}

/-- What a state shows after a run: the gates down while there is a target, which has not moved. -/
theorem Created.ungated_later (created : Created title slug target createdAt start)
    (run : Runs arith start world) (shows : Shows world state) {later : World toml.Text}
    (onward : Runs arith world later) : ∃ after, Shows later after ∧ Ungated arith after ∧
      after.wordCounts.target = state.wordCounts.target := by
  obtain ⟨after, shown, -⟩ := progress_throughout shows onward
  have kept : Holds (fun after => after.wordCounts.target = state.wordCounts.target) later :=
    onward.preserves (fun _ _ _ holds effect => effect.target.trans holds)
      fun _ => ⟨state, shows, rfl⟩
  obtain ⟨other, shown', same⟩ := kept shown.held
  rw [shown'.unique shown] at same
  exact ⟨after, shown, created.ungated (run.trans onward) shown, same⟩

/-- From every state that a run from `init` reaches, another run leads on to the phase `done`; a
tree where `novel done` exits 0 or 4 can be reached exactly when the target is not positive. -/
theorem done_reachable_iff (arith : RatioArithmetic)
    (created : Created title slug target createdAt start) (run : Runs arith start world)
    (shows : Shows world state) :
    (∃ later after, Runs arith world later ∧ Shows later after ∧ after.phase.current = .done) ∧
    ((∃ later, Runs arith world later ∧ (exitCodeOf (novelDone later).result = some 0 ∨
      exitCodeOf (novelDone later).result = some 4)) ↔ state.wordCounts.target ≤ 0) := by
  have ungated := created.ungated run shows
  refine ⟨?_, ?_, fun free => ?_⟩
  · obtain ⟨later, after, onward, shown, -, -, finished, -⟩ :=
      (attains_manifest shows ungated).bind fun _ _ shows ungated _ populated =>
        attains_phase shows ungated populated
    exact ⟨later, after, onward, shown, finished⟩
  · rintro ⟨later, onward, exits⟩
    obtain ⟨after, shown, ungated, same⟩ := created.ungated_later run shows onward
    have raised := raised_of_done shown exits .done30
    by_contra positive
    rw [← same, not_le] at positive
    rw [ungated.down positive .done30] at raised
    cases raised
  · obtain ⟨later, -, onward, -, -, -, exits⟩ := attains_exit shows ungated free
    exact ⟨later, onward, Or.inl exits⟩

/-- With 1000 words to write `novel done` is never brought to exit 0. -/
theorem done_reachable_iff_initial :
    ¬ ∃ later, Runs .doubles (initialWorld 1000) later ∧
      exitCodeOf (novelDone later).result = some 0 := by
  rintro ⟨later, onward, exits⟩
  have free := (done_reachable_iff .doubles created_initialWorld .refl shows_initialWorld).2.mp
    ⟨later, onward, Or.inl exits⟩
  exact absurd free (by decide)

end Throughout

end NovelRalph
