import NovelRalph.Commands.Mutators
import NovelRalph.State.Reconcile

/-!
# `set-chapters`

Populate the chapter manifest from a plan. The manifest, its zeroed counts and a
`[pending_turn]` record land in one replacement of `state.toml`; then the
chapter directories are made one by one, the receipt is appended to `log.md`,
and a second replacement clears the record.
-/

namespace NovelRalph

/-- `ChapterPlanEntry`: one chapter of the plan on the command line. -/
structure ChapterPlanEntry where
  number : Int
  slug : String
  title : String
  targetWords : Int
  deriving DecidableEq, Repr

/-- The manifest record of a planned chapter, as `_chapter_array` maps it. -/
def ChapterPlanEntry.record (entry : ChapterPlanEntry) : ChapterEntry where
  number := entry.number
  slug := entry.slug
  title := entry.title
  targetWords := entry.targetWords

/-- The rules of a coherent plan. -/
inductive ManifestRule where
  | chaptersNonEmpty
  | numbersUnique
  | numbersContiguousFrom1
  | slugsUnique
  | targetWordsPositive
  deriving DecidableEq, Repr

namespace ManifestRule

/-- The text a rule is reported under. -/
def text : ManifestRule → String
  | chaptersNonEmpty => "chapters-non-empty"
  | numbersUnique => "numbers-unique"
  | numbersContiguousFrom1 => "numbers-contiguous-from-1"
  | slugsUnique => "slugs-unique"
  | targetWordsPositive => "target-words-positive"

end ManifestRule

/-- `manifest_coherence_violations`. -/
def manifestCoherenceViolations (entries : List ChapterPlanEntry) : List ManifestRule :=
  if entries = [] then [.chaptersNonEmpty]
  else
    let numbers := entries.map ChapterPlanEntry.number
    let slugs := entries.map ChapterPlanEntry.slug
    (if numbers.toFinset.card ≠ numbers.length then [.numbersUnique] else []) ++
    (if numbers.insertionSort (· ≤ ·) ≠ rangeFromOne numbers.length then [.numbersContiguousFrom1]
      else []) ++
    (if slugs.toFinset.card ≠ slugs.length then [.slugsUnique] else []) ++
    (if entries.any fun entry => entry.targetWords < 1 then [.targetWordsPositive] else [])

/-- `_ordered_chapters`. -/
def orderedChapters (entries : List ChapterPlanEntry) : List ChapterPlanEntry :=
  entries.insertionSort fun left right => left.number ≤ right.number

/-- `_zero_word_counts`. -/
def zeroWordCounts (ordered : List ChapterPlanEntry) : Dict String Int :=
  Dict.ofPairs (ordered.map fun entry => (padTwo entry.number, 0))

/-- The integers that building the manifest array and the zeroed counts spells. -/
def plannedNumbers (ordered : List ChapterPlanEntry) : List Int :=
  ordered.flatMap fun entry => [entry.number, entry.targetWords]

/-- `_declared_paths`, of numbers that can be spelled. -/
def declaredPaths (ordered : List ChapterPlanEntry) : List String :=
  "working/state.toml" ::
    ordered.map fun entry => "working/manuscript/" ++ chapterDirName entry.number

/-- `_declared_paths` of any plan. -/
def spelledPaths (ordered : List ChapterPlanEntry) : Except Fault (List String) := do
  spelled (ordered.map ChapterPlanEntry.number)
  return declaredPaths ordered

/-- `_refuse_incoherent_plan`. -/
def refuseIncoherentPlan (entries : List ChapterPlanEntry) : Except Fault Unit :=
  let breaches := manifestCoherenceViolations entries
  if breaches = [] then .ok ()
  else
    let names := String.intercalate ", " (breaches.map ManifestRule.text)
    .error (.stateInputError ["set-chapters refuses an incoherent plan: " ++ names,
      "the chapter plan breaks: " ++ names])

section Command

variable {toml : Tomlkit} (arith : RatioArithmetic)

/-- Append one line to `working/log.md`: open it, which may create it, and write. -/
def appendLine (line : String) : Command toml Unit := do
  Prog.perform World.openLog
  Prog.perform fun world => .ok (world.appendLog line)

/-- `_append_receipt`. -/
def appendReceipt (now line : String) : Command toml Unit :=
  appendLine ("- " ++ now ++ " set-chapters: " ++ line ++ "\n")

/-- The receipt line of a populated manifest. -/
def populatedText (ordered : List ChapterPlanEntry) : String :=
  "populated [chapters] with " ++ intText ordered.length ++ " chapters"

/-- `_write_manifest_turn`. -/
def writeManifestTurn (now : String) (document : Document toml)
    (ordered : List ChapterPlanEntry) : Command toml Unit := do
  let opened := document.edit (openPendingTurn setChaptersOperation (declaredPaths ordered))
  writeDocumentAtomically opened
  Prog.forEach ordered fun entry =>
    makeDirs ⟨"", ["manuscript", chapterDirName entry.number]⟩
  appendReceipt now (populatedText ordered)
  writeDocumentAtomically (opened.edit clearPendingTurn)

/-- The refusal to plan a manifest that is already there. -/
def populatedManifest : Fault :=
  .stateInputError ["set-chapters refuses to overwrite a populated [chapters] manifest; " ++
    "re-planning is a separate, later concern"]

section Views

variable {View : Type} (view : Document toml → Except Fault View)
  (validate : View → Except Fault (List Violation))

/-- The body of `set_chapters` once the manifest is known to be empty. -/
def populateChapters (now : String) (chapters : List ChapterPlanEntry) (document : Document toml) :
    Command toml CommandOutcome := do
  Prog.observe fun _ => refuseIncoherentPlan chapters
  let ordered := orderedChapters chapters
  Prog.observe fun _ => spelled (plannedNumbers ordered)
  let edited := document.editAll
    [setChapters (ordered.map ChapterPlanEntry.record), setByChapter (zeroWordCounts ordered)]
  let proposed ← stateViewOrStateError view edited
  Prog.observe fun _ => refuseIfIncoherent validate proposed "set-chapters" noRemedy
  writeManifestTurn now edited ordered
  return {
    code := .success
    result := [("chapters", buildChapterArray (ordered.map ChapterPlanEntry.record))]
    messages := [populatedText ordered] }

end Views

/-- `set_chapters`. -/
def setChaptersCommand (now : String) (chapters : List ChapterPlanEntry) :
    Command toml CommandOutcome := do
  let document ← loadDocumentOrStateError
  let prior ← stateViewOrStateError documentToState document
  if prior.chapters ≠ [] then Prog.raise populatedManifest
  else populateChapters documentToState (spelledVerdict arith) now chapters document

end Command

/-- The state a plan turns a state into, before any record of the turn. -/
def State.planned (state : State) (chapters : List ChapterPlanEntry) : State :=
  { state with
    chapters := (orderedChapters chapters).map ChapterPlanEntry.record
    wordCounts := { state.wordCounts with byChapter := zeroWordCounts (orderedChapters chapters) } }

/-- The plan's two edits in the typed view. -/
theorem parse_planned {raw : Table} {state : State} (parsed : parseState raw = .ok state)
    (chapters : List ChapterPlanEntry) :
    parseState ([setChapters ((orderedChapters chapters).map ChapterPlanEntry.record),
      setByChapter (zeroWordCounts (orderedChapters chapters))].foldl Table.edit raw) =
        .ok (state.planned chapters) :=
  parse_setByChapter (parse_setChapters parsed _) _

/-- A plan is accepted exactly when it breaks no rule. -/
theorem refuseIncoherentPlan_eq_ok {entries : List ChapterPlanEntry} :
    refuseIncoherentPlan entries = .ok () ↔ manifestCoherenceViolations entries = [] := by
  unfold refuseIncoherentPlan
  by_cases accepted : manifestCoherenceViolations entries = [] <;> simp [accepted]

/-! ## What an accepted plan is -/

section Accepted

variable {entries : List ChapterPlanEntry}

/-- Ordering the plan loses and adds no chapter. -/
theorem perm_orderedChapters (entries : List ChapterPlanEntry) :
    (orderedChapters entries).Perm entries :=
  List.perm_insertionSort _ entries

/-- The numbers of the ordered plan are the plan's numbers, sorted. -/
theorem numbers_orderedChapters (entries : List ChapterPlanEntry) :
    (orderedChapters entries).map ChapterPlanEntry.number =
      (entries.map ChapterPlanEntry.number).insertionSort (· ≤ ·) := by
  have ordered : (orderedChapters entries).Pairwise fun left right => left.number ≤ right.number :=
    List.pairwise_insertionSort _ entries
  refine List.Perm.eq_of_pairwise (fun _ _ _ _ => le_antisymm) (List.pairwise_map.mpr ordered)
    (List.pairwise_insertionSort (· ≤ ·) _) ?_
  exact ((perm_orderedChapters entries).map _).trans (List.perm_insertionSort (· ≤ ·) _).symm

/-- An accepted plan is numbered 1 to n once ordered, with distinct slugs and positive targets. -/
structure WellPlanned (chapters : List ChapterEntry) : Prop where
  numbered : chapters.map ChapterEntry.number = rangeFromOne chapters.length
  slugs : (chapters.map ChapterEntry.slug).Nodup
  targets : ∀ entry ∈ chapters, 0 < entry.targetWords

theorem wellPlanned_of_accepted (accepted : manifestCoherenceViolations entries = []) :
    (orderedChapters entries).map ChapterPlanEntry.record ≠ [] ∧
      WellPlanned ((orderedChapters entries).map ChapterPlanEntry.record) := by
  unfold manifestCoherenceViolations at accepted
  by_cases empty : entries = []
  · simp [empty] at accepted
  rw [if_neg empty, List.append_eq_nil_iff, List.append_eq_nil_iff, List.append_eq_nil_iff] at accepted
  obtain ⟨⟨⟨-, contiguous⟩, slugs⟩, targets⟩ := accepted
  simp only [ne_eq, ite_eq_right_iff, List.cons_ne_nil, imp_false, not_not] at contiguous slugs
  refine ⟨fun none => empty ?_, ?_, ?_, ?_⟩
  · rw [List.map_eq_nil_iff] at none
    exact List.perm_nil.mp (none ▸ (perm_orderedChapters entries).symm)
  · have numbers := numbers_orderedChapters entries
    rw [contiguous] at numbers
    rw [List.map_map, List.length_map, (perm_orderedChapters entries).length_eq]
    simpa [Function.comp_def, ChapterPlanEntry.record] using numbers
  · have distinct : (entries.map ChapterPlanEntry.slug).Nodup :=
      Multiset.toFinset_card_eq_card_iff_nodup.mp slugs
    rw [List.map_map]
    exact (((perm_orderedChapters entries).map ChapterPlanEntry.slug).nodup_iff).mpr distinct
  · intro entry member
    obtain ⟨planned, listed, rfl⟩ := List.mem_map.mp member
    have original : planned ∈ entries := (perm_orderedChapters entries).mem_iff.mp listed
    have positive : ¬ planned.targetWords < 1 := by
      intro small
      have any : (entries.any fun entry => decide (entry.targetWords < 1)) = true :=
        List.any_eq_true.mpr ⟨planned, original, decide_eq_true small⟩
      simp [any] at targets
    show 0 < planned.targetWords
    omega

end Accepted

end NovelRalph
