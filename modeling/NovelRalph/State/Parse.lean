import NovelRalph.Contract.Outcome
import NovelRalph.State.Schema

/-!
# Parsing `state.toml`

The boundary constructors that build a typed `State` from a decoded table,
table by table. A missing key raises `KeyError`, subscripting something that is
no table raises `TypeError`, and a text that names no phase raises `ValueError`.
Each constructor comes with the statement of what its success means, so that an
edit of the table can be followed into the typed state one field at a time.
-/

namespace NovelRalph

open Except

/-- `raw[key]`. -/
def subscript (raw : Table) (key : String) : Except Fault Value :=
  match raw.lookup key with
  | some value => .ok value
  | none => .error (.keyError key)

/-- A value about to be subscripted with a text key. -/
def asTable : Value → Except Fault Table
  | .table entries => .ok entries
  | _ => .error .typeError

/-- A value about to be iterated. -/
def asArray (field : String) : Value → Except Fault (List Value)
  | .array items => .ok items
  | .str _ | .table _ => .error (.illTyped field)
  | _ => .error .typeError

/-- `typ.cast("int", …)`. -/
def asInt (field : String) : Value → Except Fault Int
  | .int number => .ok number
  | _ => .error (.illTyped field)

/-- `typ.cast("str", …)`. -/
def asStr (field : String) : Value → Except Fault String
  | .str text => .ok text
  | _ => .error (.illTyped field)

/-- `typ.cast("bool", …)`. -/
def asBool (field : String) : Value → Except Fault Bool
  | .bool flag => .ok flag
  | _ => .error (.illTyped field)

/-- `Phase(value)`. -/
def asPhase : Value → Except Fault Phase
  | .str text =>
      match Phase.ofValue? text with
      | some phase => .ok phase
      | none => .error .valueError
  | _ => .error .valueError

/-- `_table(raw, key)`, together with the first subscription of its result. -/
def readTable (raw : Table) (key : String) : Except Fault Table := subscript raw key >>= asTable

def readInt (raw : Table) (key : String) : Except Fault Int := subscript raw key >>= asInt key

def readStr (raw : Table) (key : String) : Except Fault String := subscript raw key >>= asStr key

def readBool (raw : Table) (key : String) : Except Fault Bool := subscript raw key >>= asBool key

def readArray (raw : Table) (key : String) : Except Fault (List Value) :=
  subscript raw key >>= asArray key

/-- `_novel`. -/
def novelMeta (raw : Table) : Except Fault NovelMeta := do
  let title ← readStr raw "title"
  let slug ← readStr raw "slug"
  let targetWordCount ← readInt raw "target_word_count"
  let createdAt ← readStr raw "created_at"
  return { title, slug, targetWordCount, createdAt }

/-- `_phase`. -/
def phaseState (raw : Table) : Except Fault PhaseState := do
  let current ← subscript raw "current" >>= asPhase
  let completed ← readArray raw "completed" >>= fun items => items.mapM asPhase
  return { current, completed }

/-- One entry of `_chapters`. -/
def chapterEntry (value : Value) : Except Fault ChapterEntry := do
  let entry ← asTable value
  let number ← readInt entry "number"
  let slug ← readStr entry "slug"
  let title ← readStr entry "title"
  let targetWords ← readInt entry "target_words"
  return { number, slug, title, targetWords }

/-- `_chapters`. -/
def chapterEntries (raw : Table) : Except Fault (List ChapterEntry) :=
  readArray raw "chapters" >>= fun items => items.mapM chapterEntry

/-- `_finding_counts`. -/
def findingCounts (raw : Table) : Except Fault FindingCounts := do
  let blocker ← readInt raw "blocker"
  let major ← readInt raw "major"
  let minor ← readInt raw "minor"
  let taste ← readInt raw "taste"
  return { blocker, major, minor, taste }

/-- `_critic`. -/
def criticState (raw : Table) : Except Fault CriticState := do
  let passNumber ← readInt raw "pass"
  let consecutiveClean ← readInt raw "consecutive_clean"
  let convergenceTarget ← readInt raw "convergence_target"
  let lastFindingCounts ← readTable raw "last_finding_counts" >>= findingCounts
  return { passNumber, consecutiveClean, convergenceTarget, lastFindingCounts }

/-- The `[drafting.fangirl]` table of `_drafting`. -/
def fangirlState (raw : Table) : Except Fault FangirlState := do
  let lastChapterPassed ← readInt raw "last_chapter_passed"
  return { lastChapterPassed }

/-- `_drafting`. -/
def draftingState (raw : Table) : Except Fault Drafting := do
  let currentChapter ← readInt raw "current_chapter"
  let currentScene ← readInt raw "current_scene"
  let currentBeat ← readInt raw "current_beat"
  let critic ← readTable raw "critic" >>= criticState
  let fangirl ← readTable raw "fangirl" >>= fangirlState
  return { currentChapter, currentScene, currentBeat, critic, fangirl }

/-- The `[gates.knitting]` table of `_gates`. -/
def knittingGates (raw : Table) : Except Fault KnittingGates := do
  let done30 ← readBool raw "done_30"
  let done50 ← readBool raw "done_50"
  let done80 ← readBool raw "done_80"
  return { done30, done50, done80 }

/-- The `[gates.final]` table of `_gates`. -/
def finalGate (raw : Table) : Except Fault FinalGate := do
  let finalPassComplete ← readBool raw "final_pass_complete"
  return { finalPassComplete }

/-- `_gates`. -/
def gatesState (raw : Table) : Except Fault Gates := do
  let knitting ← readTable raw "knitting" >>= knittingGates
  let final ← readTable raw "final" >>= finalGate
  return { knitting, final }

/-- The `by_chapter` mapping of `_word_counts`. -/
def byChapterCounts (raw : Table) : Except Fault (Dict String Int) := do
  let pairs ← raw.mapM fun entry => do
    let count ← asInt entry.1 entry.2
    return (entry.1, count)
  return Dict.ofPairs pairs

/-- `_word_counts`. -/
def wordCountsState (raw : Table) : Except Fault WordCounts := do
  let target ← readInt raw "target"
  let current ← readInt raw "current"
  let byChapter ← readTable raw "by_chapter" >>= byChapterCounts
  return { target, current, byChapter }

/-- `_pending_turn`. -/
def pendingTurnRecord (value : Value) : Except Fault PendingTurn := do
  let raw ← asTable value
  let paths ← readArray raw "paths" >>= fun items => items.mapM (asStr "paths")
  let operation ← readStr raw "operation"
  return { operation, paths }

/-- `raw.get("pending_turn")`, parsed when present. -/
def pendingTurn? (raw : Table) : Except Fault (Option PendingTurn) :=
  match raw.lookup "pending_turn" with
  | none => .ok none
  | some value => some <$> pendingTurnRecord value

/-- `parse_state`. -/
def parseState (raw : Table) : Except Fault State := do
  let schemaVersion ← readInt raw "schema_version"
  let novel ← readTable raw "novel" >>= novelMeta
  let phase ← readTable raw "phase" >>= phaseState
  let chapters ← chapterEntries raw
  let drafting ← readTable raw "drafting" >>= draftingState
  let gates ← readTable raw "gates" >>= gatesState
  let wordCounts ← readTable raw "word_counts" >>= wordCountsState
  let pendingTurn ← pendingTurn? raw
  return { schemaVersion, novel, phase, chapters, drafting, gates, wordCounts, pendingTurn }

/-! ## What success means -/

section Success

variable {raw : Table}

theorem phaseState_eq_ok {phase : PhaseState} :
    phaseState raw = .ok phase ↔
      (subscript raw "current" >>= asPhase) = .ok phase.current ∧
      (readArray raw "completed" >>= fun items => items.mapM asPhase) = .ok phase.completed := by
  unfold phaseState
  constructor
  · intro parsed
    obtain ⟨current, atCurrent, parsed⟩ := except_bind_eq_ok.mp parsed
    obtain ⟨completed, atCompleted, parsed⟩ := except_bind_eq_ok.mp parsed
    cases parsed
    exact ⟨atCurrent, atCompleted⟩
  · rintro ⟨atCurrent, atCompleted⟩
    refine except_bind_eq_ok.mpr ⟨_, atCurrent, ?_⟩
    exact except_bind_eq_ok.mpr ⟨_, atCompleted, rfl⟩

theorem criticState_eq_ok {critic : CriticState} :
    criticState raw = .ok critic ↔
      readInt raw "pass" = .ok critic.passNumber ∧
      readInt raw "consecutive_clean" = .ok critic.consecutiveClean ∧
      readInt raw "convergence_target" = .ok critic.convergenceTarget ∧
      (readTable raw "last_finding_counts" >>= findingCounts) = .ok critic.lastFindingCounts := by
  unfold criticState
  constructor
  · intro parsed
    obtain ⟨pass, atPass, parsed⟩ := except_bind_eq_ok.mp parsed
    obtain ⟨clean, atClean, parsed⟩ := except_bind_eq_ok.mp parsed
    obtain ⟨target, atTarget, parsed⟩ := except_bind_eq_ok.mp parsed
    obtain ⟨counts, atCounts, parsed⟩ := except_bind_eq_ok.mp parsed
    cases parsed
    exact ⟨atPass, atClean, atTarget, atCounts⟩
  · rintro ⟨atPass, atClean, atTarget, atCounts⟩
    refine except_bind_eq_ok.mpr ⟨_, atPass, ?_⟩
    refine except_bind_eq_ok.mpr ⟨_, atClean, ?_⟩
    refine except_bind_eq_ok.mpr ⟨_, atTarget, ?_⟩
    exact except_bind_eq_ok.mpr ⟨_, atCounts, rfl⟩

theorem fangirlState_eq_ok {fangirl : FangirlState} :
    fangirlState raw = .ok fangirl ↔
      readInt raw "last_chapter_passed" = .ok fangirl.lastChapterPassed := by
  unfold fangirlState
  constructor
  · intro parsed
    obtain ⟨passed, atPassed, parsed⟩ := except_bind_eq_ok.mp parsed
    cases parsed
    exact atPassed
  · intro atPassed
    exact except_bind_eq_ok.mpr ⟨_, atPassed, rfl⟩

theorem draftingState_eq_ok {drafting : Drafting} :
    draftingState raw = .ok drafting ↔
      readInt raw "current_chapter" = .ok drafting.currentChapter ∧
      readInt raw "current_scene" = .ok drafting.currentScene ∧
      readInt raw "current_beat" = .ok drafting.currentBeat ∧
      (readTable raw "critic" >>= criticState) = .ok drafting.critic ∧
      (readTable raw "fangirl" >>= fangirlState) = .ok drafting.fangirl := by
  unfold draftingState
  constructor
  · intro parsed
    obtain ⟨chapter, atChapter, parsed⟩ := except_bind_eq_ok.mp parsed
    obtain ⟨scene, atScene, parsed⟩ := except_bind_eq_ok.mp parsed
    obtain ⟨beat, atBeat, parsed⟩ := except_bind_eq_ok.mp parsed
    obtain ⟨critic, atCritic, parsed⟩ := except_bind_eq_ok.mp parsed
    obtain ⟨fangirl, atFangirl, parsed⟩ := except_bind_eq_ok.mp parsed
    cases parsed
    exact ⟨atChapter, atScene, atBeat, atCritic, atFangirl⟩
  · rintro ⟨atChapter, atScene, atBeat, atCritic, atFangirl⟩
    refine except_bind_eq_ok.mpr ⟨_, atChapter, ?_⟩
    refine except_bind_eq_ok.mpr ⟨_, atScene, ?_⟩
    refine except_bind_eq_ok.mpr ⟨_, atBeat, ?_⟩
    refine except_bind_eq_ok.mpr ⟨_, atCritic, ?_⟩
    exact except_bind_eq_ok.mpr ⟨_, atFangirl, rfl⟩

theorem knittingGates_eq_ok {knitting : KnittingGates} :
    knittingGates raw = .ok knitting ↔
      readBool raw "done_30" = .ok knitting.done30 ∧
      readBool raw "done_50" = .ok knitting.done50 ∧
      readBool raw "done_80" = .ok knitting.done80 := by
  unfold knittingGates
  constructor
  · intro parsed
    obtain ⟨done30, at30, parsed⟩ := except_bind_eq_ok.mp parsed
    obtain ⟨done50, at50, parsed⟩ := except_bind_eq_ok.mp parsed
    obtain ⟨done80, at80, parsed⟩ := except_bind_eq_ok.mp parsed
    cases parsed
    exact ⟨at30, at50, at80⟩
  · rintro ⟨at30, at50, at80⟩
    refine except_bind_eq_ok.mpr ⟨_, at30, ?_⟩
    refine except_bind_eq_ok.mpr ⟨_, at50, ?_⟩
    exact except_bind_eq_ok.mpr ⟨_, at80, rfl⟩

theorem finalGate_eq_ok {final : FinalGate} :
    finalGate raw = .ok final ↔
      readBool raw "final_pass_complete" = .ok final.finalPassComplete := by
  unfold finalGate
  constructor
  · intro parsed
    obtain ⟨complete, atComplete, parsed⟩ := except_bind_eq_ok.mp parsed
    cases parsed
    exact atComplete
  · intro atComplete
    exact except_bind_eq_ok.mpr ⟨_, atComplete, rfl⟩

theorem gatesState_eq_ok {gates : Gates} :
    gatesState raw = .ok gates ↔
      (readTable raw "knitting" >>= knittingGates) = .ok gates.knitting ∧
      (readTable raw "final" >>= finalGate) = .ok gates.final := by
  unfold gatesState
  constructor
  · intro parsed
    obtain ⟨knitting, atKnitting, parsed⟩ := except_bind_eq_ok.mp parsed
    obtain ⟨final, atFinal, parsed⟩ := except_bind_eq_ok.mp parsed
    cases parsed
    exact ⟨atKnitting, atFinal⟩
  · rintro ⟨atKnitting, atFinal⟩
    refine except_bind_eq_ok.mpr ⟨_, atKnitting, ?_⟩
    exact except_bind_eq_ok.mpr ⟨_, atFinal, rfl⟩

theorem wordCountsState_eq_ok {counts : WordCounts} :
    wordCountsState raw = .ok counts ↔
      readInt raw "target" = .ok counts.target ∧
      readInt raw "current" = .ok counts.current ∧
      (readTable raw "by_chapter" >>= byChapterCounts) = .ok counts.byChapter := by
  unfold wordCountsState
  constructor
  · intro parsed
    obtain ⟨target, atTarget, parsed⟩ := except_bind_eq_ok.mp parsed
    obtain ⟨current, atCurrent, parsed⟩ := except_bind_eq_ok.mp parsed
    obtain ⟨byChapter, atByChapter, parsed⟩ := except_bind_eq_ok.mp parsed
    cases parsed
    exact ⟨atTarget, atCurrent, atByChapter⟩
  · rintro ⟨atTarget, atCurrent, atByChapter⟩
    refine except_bind_eq_ok.mpr ⟨_, atTarget, ?_⟩
    refine except_bind_eq_ok.mpr ⟨_, atCurrent, ?_⟩
    exact except_bind_eq_ok.mpr ⟨_, atByChapter, rfl⟩

theorem parseState_eq_ok {state : State} :
    parseState raw = .ok state ↔
      readInt raw "schema_version" = .ok state.schemaVersion ∧
      (readTable raw "novel" >>= novelMeta) = .ok state.novel ∧
      (readTable raw "phase" >>= phaseState) = .ok state.phase ∧
      chapterEntries raw = .ok state.chapters ∧
      (readTable raw "drafting" >>= draftingState) = .ok state.drafting ∧
      (readTable raw "gates" >>= gatesState) = .ok state.gates ∧
      (readTable raw "word_counts" >>= wordCountsState) = .ok state.wordCounts ∧
      pendingTurn? raw = .ok state.pendingTurn := by
  unfold parseState
  constructor
  · intro parsed
    obtain ⟨schemaVersion, atVersion, parsed⟩ := except_bind_eq_ok.mp parsed
    obtain ⟨novel, atNovel, parsed⟩ := except_bind_eq_ok.mp parsed
    obtain ⟨phase, atPhase, parsed⟩ := except_bind_eq_ok.mp parsed
    obtain ⟨chapters, atChapters, parsed⟩ := except_bind_eq_ok.mp parsed
    obtain ⟨drafting, atDrafting, parsed⟩ := except_bind_eq_ok.mp parsed
    obtain ⟨gates, atGates, parsed⟩ := except_bind_eq_ok.mp parsed
    obtain ⟨wordCounts, atCounts, parsed⟩ := except_bind_eq_ok.mp parsed
    obtain ⟨pendingTurn, atPending, parsed⟩ := except_bind_eq_ok.mp parsed
    cases parsed
    exact ⟨atVersion, atNovel, atPhase, atChapters, atDrafting, atGates, atCounts, atPending⟩
  · rintro ⟨atVersion, atNovel, atPhase, atChapters, atDrafting, atGates, atCounts, atPending⟩
    refine except_bind_eq_ok.mpr ⟨_, atVersion, ?_⟩
    refine except_bind_eq_ok.mpr ⟨_, atNovel, ?_⟩
    refine except_bind_eq_ok.mpr ⟨_, atPhase, ?_⟩
    refine except_bind_eq_ok.mpr ⟨_, atChapters, ?_⟩
    refine except_bind_eq_ok.mpr ⟨_, atDrafting, ?_⟩
    refine except_bind_eq_ok.mpr ⟨_, atGates, ?_⟩
    refine except_bind_eq_ok.mpr ⟨_, atCounts, ?_⟩
    exact except_bind_eq_ok.mpr ⟨_, atPending, rfl⟩

end Success

end NovelRalph
