import NovelRalph.State.DiskEvidence
import NovelRalph.Untyped.Parse

/-!
# The disk detector on any state

`check_disk_evidence` on a state whose cast fields hold decoded values of any
type. A chapter number becomes a part of a path through the format `02d`, a member
of a set and the key of a sort, and each of these refuses values of some types.
-/

namespace NovelRalph.Untyped

open InvariantName

section Paths

/-- `_chapter_dir_name`. -/
def chapterDirName (number : Value) : Except Fault String := do
  let padded ← number.padTwo
  return "chapter-" ++ padded

/-- A file of a chapter's directory. -/
def chapterFile (disk : Disk) (number : Value) (name : String) : Except Fault Loc := do
  let directory ← chapterDirName number
  return name :: directory :: disk.manuscript

end Paths

section Counts

variable (interp : Interpreter) (disk : Disk)

/-- `_chapter_word_count`. -/
def chapterWordCount (number : Value) : Except Fault Int := do
  let draft ← chapterFile disk number "draft.md"
  match disk.read draft with
  | .ok text => return (splitWords text).length
  | .error (.os .fileNotFound) => return 0
  | .error fault => .error fault

/-- `recount_words`. -/
def recountWords (chapters : List ChapterEntry) : Except Fault (Int × Dict String Int) := do
  let manifest ← interp.sorted ChapterEntry.number chapters
  let pairs ← manifest.mapM fun chapter => do
    let key ← chapter.number.padTwo
    let count ← chapterWordCount disk chapter.number
    return (key, count)
  let byChapter := Dict.ofPairs pairs
  return (byChapter.values.sum, byChapter)

/-- `present_draft_bodies`. -/
def presentDraftBodies (chapters : List ChapterEntry) : Except Fault (List String) := do
  let manifest ← interp.sorted ChapterEntry.number chapters
  manifest.mapM fun chapter => do
    let draft ← chapterFile disk chapter.number "draft.md"
    if disk.exists? draft then disk.read draft else return ""

/-- `compiled_matches_drafts`. -/
def compiledMatchesDrafts (chapters : List ChapterEntry) : Except Fault CompiledComparison :=
  if disk.exists? disk.compiledManuscript then do
    let bodies ← presentDraftBodies interp disk chapters
    let compiled ← disk.read disk.compiledManuscript
    return if compiled = concatenateDrafts bodies then .matches else .diverges
  else .ok .absent

end Counts

/-! ## The manifest and the directories -/

/-- `_BijectionBreak`. -/
structure BijectionBreak where
  manifest : List Value
  onDisk : Finset Int
  orphans : Finset Int
  missing : List Value
  contiguous : Bool

namespace BijectionBreak

/-- No orphan directory and a contiguous manifest. -/
def coherentSubset (broken : BijectionBreak) : Bool :=
  decide (broken.orphans = ∅) && broken.contiguous

/-- An exact, contiguous bijection. -/
def isBijection (broken : BijectionBreak) : Bool := broken.coherentSubset && broken.missing.isEmpty

end BijectionBreak

section Bijection

variable (interp : Interpreter)

/-- `number in members`. -/
def holds (members : List Value) (number : Int) : Bool :=
  members.any fun member => interp.equals member (.int number)

/-- `member in numbers`. -/
def heldBy (numbers : Finset Int) (member : Value) : Bool :=
  decide (∃ number ∈ numbers, interp.equals member (.int number) = true)

/-- `sorted(members) == list(range(1, len(members) + 1))`, of what was sorted. -/
def isRange (members : List Value) : Bool :=
  (members.zip (rangeFromOne members.length)).all fun pair => interp.equals pair.1 (.int pair.2)

/-- `_classify_bijection`. -/
def classifyBijection (numbers : List Value) (onDisk : Finset Int) :
    Except Fault BijectionBreak := do
  let manifest ← interp.setOf numbers
  let ordered ← interp.sorted id manifest
  return {
    manifest
    onDisk
    orphans := onDisk.filter fun number => !holds interp manifest number
    missing := manifest.filter fun member => !heldBy interp onDisk member
    contiguous := isRange interp ordered }

/-- `on_disk < manifest`, and the break is a coherent subset. -/
def properCoherentSubset (manifest : List Value) (onDisk : Finset Int) : Except Fault Bool := do
  let declared := manifest.all (heldBy interp onDisk)
  let covered := decide (∀ number ∈ onDisk, holds interp manifest number = true)
  if covered && !declared then
    let broken ← classifyBijection interp manifest onDisk
    return broken.coherentSubset
  else return false

/-- The spelling of a sorted set of values. -/
def spellValues (members : List Value) : Except Fault String := do
  let ordered ← interp.sorted id members
  let spelled ← interp.reprItems ordered
  return "[" ++ String.intercalate ", " spelled ++ "]"

/-- The clause of `describe` on the manifest entries without directories. -/
def missingReason (missing : List Value) : Except Fault (List String) :=
  if missing.isEmpty then .ok []
  else do
    let spelled ← spellValues interp missing
    return ["manifest entries without directories " ++ spelled]

/-- `describe`. -/
def BijectionBreak.describe (broken : BijectionBreak) : Except Fault String := do
  let declared ← spellValues interp broken.manifest
  let summary := "manifest chapters " ++ declared ++
    " are not in bijection with the on-disk chapter directories " ++
    NovelRalph.BijectionBreak.spell broken.onDisk
  let missing ← missingReason interp broken.missing
  let reasons :=
    (if broken.orphans = ∅ then []
      else ["orphan directories " ++ NovelRalph.BijectionBreak.spell broken.orphans]) ++ missing ++
    (if broken.contiguous then [] else ["non-contiguous manifest"])
  return if reasons = [] then summary
    else summary ++ " (" ++ String.intercalate "; " reasons ++ ")"

end Bijection

section Predicates

variable (interp : Interpreter) (state : State) (disk : Disk)

/-- The chapter numbers of the manifest. -/
def State.numbers (state : State) : List Value := state.chapters.map ChapterEntry.number

/-- `_check_manifest_disk_bijection`. -/
def checkManifestDiskBijection (relaxDrafting : Bool) : Except Fault (Option Violation) := do
  let onDisk ← disk.onDiskChapterNumbers
  let broken ← classifyBijection interp state.numbers onDisk
  if broken.isBijection then return none
  else if relaxDrafting && state.phase.current = .drafting && broken.coherentSubset then
    return none
  else do
    let detail ← broken.describe interp
    return some { invariant := manifestDiskBijection, detail }

/-- `0 < current_chapter <= len(state.chapters)`. -/
def cursorInManifest (number : Value) (chapters : Nat) : Except Fault Bool := do
  if ← interp.less (.int 0) number then interp.lessEqual number (.int chapters) else return false

/-- `_check_cursor_plan_present`. -/
def checkCursorPlanPresent : Except Fault (Option Violation) := do
  let drafting := state.drafting
  let number := drafting.currentChapter
  if ← cursorInManifest interp number state.chapters.length then
    let scenes ← chapterFile disk number "scenes.md"
    let beats ← chapterFile disk number "beats.md"
    let scene ← interp.less (.int 0) drafting.currentScene
    let beat ← interp.less (.int 0) drafting.currentBeat
    if (scene && !disk.exists? scenes) || (beat && !disk.exists? beats) then
      let spelled ← interp.str number
      return some {
        invariant := cursorPlanPresent
        detail := "cursor chapter " ++ spelled ++
          " has a non-zero scene/beat without its on-disk scenes.md/beats.md plan" }
    else return none
  else return none

/-- The tokens of a chapter's draft; an absent one has none. -/
def draftedTokens (number : Value) : Except Fault Nat := do
  let draft ← chapterFile disk number "draft.md"
  if disk.exists? draft then
    let text ← disk.read draft
    return (splitWords text).length
  else return 0

/-- Whether one chapter of the loop in `_check_done_flag_without_draft` fires. -/
def doneFlagWithoutDraftAt (number : Value) : Except Fault Bool := do
  let flag ← chapterFile disk number "done.flag"
  if disk.exists? flag then
    let drafted ← draftedTokens disk number
    return drafted = 0
  else return false

/-- `_check_done_flag_without_draft`. -/
def checkDoneFlagWithoutDraft : Except Fault (Option Violation) :=
  go state.chapters
where
  /-- The loop over the manifest. -/
  go : List ChapterEntry → Except Fault (Option Violation)
  | [] => .ok none
  | chapter :: rest => do
      if ← doneFlagWithoutDraftAt disk chapter.number then
        let padded ← chapter.number.padTwo
        return some {
          invariant := doneFlagWithoutDraft
          detail := "chapter " ++ padded ++ " carries done.flag beside an empty or absent draft.md" }
      else go rest

/-- `_check_compiled_matches_drafts`. -/
def checkCompiledMatchesDrafts : Except Fault (Option Violation) := do
  match ← compiledMatchesDrafts interp disk state.chapters with
  | .diverges => return some {
      invariant := .compiledMatchesDrafts
      detail := "compiled.md is not the ordered concatenation of the present drafts" }
  | _ => return none

/-- `_check_pending_turn_cleared`. -/
def checkPendingTurnCleared : Except Fault (Option Violation) :=
  match state.pendingTurn with
  | none => .ok none
  | some pending => do
      let operation ← interp.repr pending.operation
      return some {
        invariant := pendingTurnCleared
        detail := "state records an uncleared pending_turn for " ++ operation }

/-- The recorded count under a text key. -/
def recordedCount (table : List (Value × Value)) (key : String) : Option Value :=
  (table.find? fun entry => interp.equals entry.1 (.str key)).map Prod.snd

/-- `_check_word_counts_match_drafts`. -/
def checkWordCountsMatchDrafts : Except Fault (Option Violation) := do
  let (_, byChapter) ← recountWords interp disk state.chapters
  let agrees := byChapter.entries.all fun entry =>
    match recordedCount interp state.wordCounts.byChapter entry.1 with
    | none => true
    | some recorded => interp.equals recorded (.int entry.2)
  if agrees then return none
  else return some {
    invariant := wordCountsMatchDrafts
    detail := "[word_counts].by_chapter table is stale against the on-disk drafts" }

/-- `_drafted_subset_cover_violation`. -/
def draftedSubsetCoverViolation (onDisk : Finset Int) : Option Violation :=
  let missing := (onDisk.image padTwo).filter fun key =>
    recordedCount interp state.wordCounts.byChapter key = none
  if missing = ∅ then none
  else some {
    invariant := wordCountsCoverDrafts
    detail := "[word_counts].by_chapter omits a drafted chapter's key during a relaxed " ++
      "drafting subset: missing " ++ reprList reprText (sortedSet missing) }

/-- The coverage violation at bijection. -/
def coverageBreak (byChapter : Dict String Int) (table : List (Value × Value)) :
    Except Fault (Option Violation) := do
  let missing := byChapter.keys.filter fun key => recordedCount interp table key = none
  let extra := (table.map Prod.fst).filter fun key =>
    !byChapter.keys.any fun counted => interp.equals key (.str counted)
  if missing = [] ∧ extra.isEmpty then return none
  else do
    let unknown ← spellValues interp extra
    return some {
      invariant := wordCountsCoverDrafts
      detail := "[word_counts].by_chapter key set diverges from the manifest drafts: missing " ++
        reprList reprText (sortedSet missing.toFinset) ++ ", extra " ++ unknown }

/-- `_check_word_counts_cover_drafts`. -/
def checkWordCountsCoverDrafts (relaxDrafting : Bool) : Except Fault (Option Violation) := do
  let manifest ← interp.setOf state.numbers
  let onDisk ← disk.onDiskChapterNumbers
  let declared := manifest.all (heldBy interp onDisk)
  let covered := decide (∀ number ∈ onDisk, holds interp manifest number = true)
  if declared && covered then do
    let (_, byChapter) ← recountWords interp disk state.chapters
    coverageBreak interp byChapter state.wordCounts.byChapter
  else
    let subset ← properCoherentSubset interp manifest onDisk
    if relaxDrafting && state.phase.current = .drafting && subset then
      return draftedSubsetCoverViolation interp state onDisk
    else return none

/-- `_check_log_present`. -/
def checkLogPresent : Option Violation :=
  if disk.exists? disk.logFile then none
  else some {
    invariant := logPresent
    detail := "log.md is absent beside a present state.toml (partial init)" }

/-- `_TAIL_PREDICATES`. -/
def tailPredicates : List (State → Disk → Except Fault (Option Violation)) :=
  [checkCursorPlanPresent interp,
   checkDoneFlagWithoutDraft,
   checkCompiledMatchesDrafts interp,
   fun state _ => checkPendingTurnCleared interp state,
   checkWordCountsMatchDrafts interp,
   fun _ disk => .ok (checkLogPresent disk)]

/-- `check_disk_evidence`; the coverage predicate runs before the tail is consumed. -/
def checkDiskEvidence (relaxDraftingBijection : Bool) : Except Fault (List Violation) := do
  let head ← checkManifestDiskBijection interp state disk relaxDraftingBijection
  let cover ← checkWordCountsCoverDrafts interp state disk relaxDraftingBijection
  let tail ← (tailPredicates interp).mapM fun predicate => predicate state disk
  return (head :: tail ++ [cover]).filterMap id

end Predicates

end NovelRalph.Untyped
