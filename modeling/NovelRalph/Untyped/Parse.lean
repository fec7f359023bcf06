import NovelRalph.State.Parse
import NovelRalph.Untyped.Values

/-!
# `state.toml` without its types

`parse_state` casts what it reads and checks nothing, so the state it builds
holds whatever the document holds. Here every cast field is a decoded value of
any type; only the phases are resolved, and only the manifest, the completed
phases, the recorded counts and the declared paths are iterated.
-/

namespace NovelRalph.Untyped

/-- `NovelMeta`. -/
structure NovelMeta where
  title : Value
  slug : Value
  targetWordCount : Value
  createdAt : Value

/-- `ChapterEntry`. -/
structure ChapterEntry where
  number : Value
  slug : Value
  title : Value
  targetWords : Value

/-- `FindingCounts`. -/
structure FindingCounts where
  blocker : Value
  major : Value
  minor : Value
  taste : Value

/-- `CriticState`. -/
structure CriticState where
  passNumber : Value
  consecutiveClean : Value
  convergenceTarget : Value
  lastFindingCounts : FindingCounts

/-- `FangirlState`. -/
structure FangirlState where
  lastChapterPassed : Value

/-- `Drafting`. -/
structure Drafting where
  currentChapter : Value
  currentScene : Value
  currentBeat : Value
  critic : CriticState
  fangirl : FangirlState

/-- `KnittingGates`. -/
structure KnittingGates where
  done30 : Value
  done50 : Value
  done80 : Value

/-- `FinalGate`. -/
structure FinalGate where
  finalPassComplete : Value

/-- `Gates`. -/
structure Gates where
  knitting : KnittingGates
  final : FinalGate

/-- `WordCounts`, after `freeze_mapping`. -/
structure WordCounts where
  target : Value
  current : Value
  byChapter : List (Value × Value)

/-- `PendingTurn`. -/
structure PendingTurn where
  operation : Value
  paths : List Value

/-- `State`. -/
structure State where
  schemaVersion : Value
  novel : NovelMeta
  phase : PhaseState
  chapters : List ChapterEntry
  drafting : Drafting
  gates : Gates
  wordCounts : WordCounts
  pendingTurn : Option PendingTurn

/-- `_novel`. -/
def novelMeta (raw : Table) : Except Fault NovelMeta := do
  let title ← subscript raw "title"
  let slug ← subscript raw "slug"
  let targetWordCount ← subscript raw "target_word_count"
  let createdAt ← subscript raw "created_at"
  return { title, slug, targetWordCount, createdAt }

/-- `_phase`. -/
def phaseState (raw : Table) : Except Fault PhaseState := do
  let completed ← subscript raw "completed"
  let current ← subscript raw "current" >>= asPhase
  let completed ← completed.iterate >>= fun members => members.mapM asPhase
  return { current, completed }

/-- One entry of `_chapters`. -/
def chapterEntry (value : Value) : Except Fault ChapterEntry := do
  let entry ← asTable value
  let number ← subscript entry "number"
  let slug ← subscript entry "slug"
  let title ← subscript entry "title"
  let targetWords ← subscript entry "target_words"
  return { number, slug, title, targetWords }

/-- `_chapters`. -/
def chapterEntries (rawEntries : Value) : Except Fault (List ChapterEntry) :=
  rawEntries.iterate >>= fun entries => entries.mapM chapterEntry

/-- `_finding_counts`. -/
def findingCounts (raw : Table) : Except Fault FindingCounts := do
  let blocker ← subscript raw "blocker"
  let major ← subscript raw "major"
  let minor ← subscript raw "minor"
  let taste ← subscript raw "taste"
  return { blocker, major, minor, taste }

/-- `_critic`. -/
def criticState (raw : Table) : Except Fault CriticState := do
  let passNumber ← subscript raw "pass"
  let consecutiveClean ← subscript raw "consecutive_clean"
  let convergenceTarget ← subscript raw "convergence_target"
  let lastFindingCounts ← readTable raw "last_finding_counts" >>= findingCounts
  return { passNumber, consecutiveClean, convergenceTarget, lastFindingCounts }

/-- `_drafting`. -/
def draftingState (raw : Table) : Except Fault Drafting := do
  let currentChapter ← subscript raw "current_chapter"
  let currentScene ← subscript raw "current_scene"
  let currentBeat ← subscript raw "current_beat"
  let critic ← readTable raw "critic" >>= criticState
  let lastChapterPassed ← readTable raw "fangirl" >>= fun fangirl =>
    subscript fangirl "last_chapter_passed"
  return { currentChapter, currentScene, currentBeat, critic, fangirl := { lastChapterPassed } }

/-- `_gates`. -/
def gatesState (raw : Table) : Except Fault Gates := do
  let knitting ← subscript raw "knitting"
  let final ← subscript raw "final"
  let done30 ← asTable knitting >>= fun knitting => subscript knitting "done_30"
  let done50 ← asTable knitting >>= fun knitting => subscript knitting "done_50"
  let done80 ← asTable knitting >>= fun knitting => subscript knitting "done_80"
  let finalPassComplete ← asTable final >>= fun final => subscript final "final_pass_complete"
  return { knitting := { done30, done50, done80 }, final := { finalPassComplete } }

/-- `_pending_turn`. -/
def pendingTurnOf (raw : Value) : Except Fault PendingTurn := do
  let table ← asTable raw
  let paths ← subscript table "paths"
  let operation ← subscript table "operation"
  let paths ← paths.iterate
  return { operation, paths }

/-- `raw.get("pending_turn")`, parsed when present. -/
def pendingTurn? (raw : Table) : Except Fault (Option PendingTurn) :=
  match raw.lookup "pending_turn" with
  | none => .ok none
  | some pending => (pendingTurnOf pending).map some

section Numbers

variable (interp : Interpreter)

/-- `_word_counts`. -/
def wordCountsOf (raw : Table) : Except Fault WordCounts := do
  let target ← subscript raw "target"
  let current ← subscript raw "current"
  let byChapter ← subscript raw "by_chapter" >>= interp.dict
  return { target, current, byChapter }

/-- `parse_state`. -/
def parseState (raw : Table) : Except Fault State := do
  let schemaVersion ← subscript raw "schema_version"
  let novel ← readTable raw "novel" >>= novelMeta
  let phase ← readTable raw "phase" >>= phaseState
  let chapters ← subscript raw "chapters" >>= chapterEntries
  let drafting ← readTable raw "drafting" >>= draftingState
  let gates ← readTable raw "gates" >>= gatesState
  let wordCounts ← readTable raw "word_counts" >>= wordCountsOf interp
  let pendingTurn ← pendingTurn? raw
  return { schemaVersion, novel, phase, chapters, drafting, gates, wordCounts, pendingTurn }

end Numbers

end NovelRalph.Untyped
