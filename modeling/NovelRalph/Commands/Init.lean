import NovelRalph.Commands.Mutators

/-!
# `init`

Create the working tree and a fresh state document. The document holds every
table the parser reads, so it parses, and what it parses to is coherent.
-/

namespace NovelRalph

/-- `_INIT_SUBDIRECTORIES`. -/
def initSubdirectories : List String :=
  ["characters", "world", "reader", "plan", "manuscript", "reviews"]

/-- `_drafting_table`. -/
def initialDrafting : Value :=
  .table [("current_chapter", .int 0), ("current_scene", .int 0), ("current_beat", .int 0),
    ("critic", .table [("pass", .int 1), ("consecutive_clean", .int 0),
      ("convergence_target", .int 1),
      ("last_finding_counts", .table [("blocker", .int 0), ("major", .int 0), ("minor", .int 0),
        ("taste", .int 0)])]),
    ("fangirl", .table [("last_chapter_passed", .int 0)])]

/-- `_gates_table`. -/
def initialGates : Value :=
  .table [("knitting", .table [("done_30", .bool false), ("done_50", .bool false),
      ("done_80", .bool false)]),
    ("final", .table [("final_pass_complete", .bool false)])]

/-- The assignments of `build_initial_document`, in order. -/
def initialEdits (title slug : String) (targetWordCount : Int) (createdAt : String) : List Edit :=
  [.set ["schema_version"] (.int 1),
   .set ["novel"] (.table [("title", .str title), ("slug", .str slug),
     ("target_word_count", .int targetWordCount), ("created_at", .str createdAt)]),
   .set ["phase"] (.table [("current", .str Phase.premise.value), ("completed", .array [])]),
   .set ["drafting"] initialDrafting,
   .set ["gates"] initialGates,
   .set ["word_counts"] (.table [("target", .int targetWordCount), ("current", .int 0),
     ("by_chapter", buildInlineTable Dict.empty)]),
   .set ["chapters"] (.array [])]

/-- The state `init` writes. -/
def initialState (title slug : String) (targetWordCount : Int) (createdAt : String) : State where
  schemaVersion := 1
  novel := { title, slug, targetWordCount, createdAt }
  phase := { current := .premise, completed := [] }
  chapters := []
  drafting := {
    currentChapter := 0
    currentScene := 0
    currentBeat := 0
    critic := {
      passNumber := 1
      consecutiveClean := 0
      convergenceTarget := 1
      lastFindingCounts := { blocker := 0, major := 0, minor := 0, taste := 0 } }
    fangirl := { lastChapterPassed := 0 } }
  gates := {
    knitting := { done30 := false, done50 := false, done80 := false }
    final := { finalPassComplete := false } }
  wordCounts := { target := targetWordCount, current := 0, byChapter := Dict.empty }
  pendingTurn := none

section Command

variable {toml : Tomlkit}

/-- `build_initial_document`. -/
def buildInitialDocument (title slug : String) (targetWordCount : Int) (createdAt : String) :
    Document toml :=
  Document.fresh.editAll (initialEdits title slug targetWordCount createdAt)

/-- `init`. -/
def initCommand (now title slug : String) (targetWordCount : Int) :
    Command toml CommandOutcome := do
  if ← Prog.observe fun world => .ok (world.exists? (stateLoc world.cwd)) then
    Prog.raise (.stateInputError ["refusing to overwrite existing working/state.toml"])
  else do
    makeDirsAt World.cwd ⟨"", ["working"]⟩
    Prog.forEach initSubdirectories fun name => makeDirsAt World.cwd ⟨"", ["working", name]⟩
    Prog.observe fun _ => spelled [targetWordCount]
    writeDocumentAtomically (buildInitialDocument title slug targetWordCount now)
    Prog.perform fun world => world.truncateLog
    let cwd ← Prog.observe fun world => .ok world.cwd
    return {
      code := .success
      result := [("working_dir", .str (placeText (workingLoc cwd))), ("slug", .str slug)]
      messages := ["initialised working/state.toml"] }

end Command

/-- The fresh document reads as the initial state. -/
theorem parse_initial (title slug : String) (targetWordCount : Int) (createdAt : String) :
    parseState ((initialEdits title slug targetWordCount createdAt).foldl Table.edit []) =
      .ok (initialState title slug targetWordCount createdAt) := rfl

/-- The initial state is coherent, whatever the target. -/
theorem coherent_initial (arith : RatioArithmetic) (title slug : String) (targetWordCount : Int)
    (createdAt : String) : Coherent arith (initialState title slug targetWordCount createdAt) where
  completed := rfl
  sum := rfl
  clean_nonneg := le_refl 0
  clean_le_target := Int.zero_le_ofNat 1
  target_pos := le_refl 1
  clean_le_drafted := le_refl 0
  cursor := rfl
  gates positive := by
    refine ⟨0, arith.quotient_zero targetWordCount positive, fun gate => ?_⟩
    rw [decide_eq_false (not_le.mpr (arith.threshold_pos gate))]
    cases gate <;> rfl

end NovelRalph
