import NovelRalph.Base.Dict

/-!
# The typed shape of `state.toml`

One structure for each table of the state document, with the field names and
types of the schema's dataclasses, and the eleven lifecycle phases.
-/

namespace NovelRalph

/-- The eleven ordered lifecycle phases. -/
inductive Phase where
  | premise
  | treatment
  | characters
  | conflictAnalysis
  | setting
  | readerFit
  | stc
  | chapterPlanning
  | drafting
  | finalPass
  | done
  deriving DecidableEq, Repr

namespace Phase

/-- The kebab-case text of a phase, which is also its `str`. -/
def value : Phase → String
  | premise => "premise"
  | treatment => "treatment"
  | characters => "characters"
  | conflictAnalysis => "conflict-analysis"
  | setting => "setting"
  | readerFit => "reader-fit"
  | stc => "stc"
  | chapterPlanning => "chapter-planning"
  | drafting => "drafting"
  | finalPass => "final-pass"
  | done => "done"

/-- The canonical order, `PHASE_ORDER`. -/
def order : List Phase :=
  [premise, treatment, characters, conflictAnalysis, setting, readerFit, stc, chapterPlanning,
   drafting, finalPass, done]

/-- `PHASE_ORDER.index(phase)`. -/
def index (phase : Phase) : Nat := order.idxOf phase

/-- `Phase(text)`, which raises on a text that is no member. -/
def ofValue? (text : String) : Option Phase := order.find? fun phase => phase.value = text

theorem mem_order (phase : Phase) : phase ∈ order := by
  cases phase <;> decide

@[simp]
theorem ofValue?_value (phase : Phase) : ofValue? phase.value = some phase := by
  cases phase <;> decide

/-- The phase at its own index. -/
theorem order_getElem?_index (phase : Phase) : order[phase.index]? = some phase := by
  cases phase <;> decide

theorem index_injective : Function.Injective index := by
  intro left right same
  have found := order_getElem?_index left
  rw [same, order_getElem?_index] at found
  exact (Option.some.inj found).symm

end Phase

/-- `[novel]`. -/
structure NovelMeta where
  title : String
  slug : String
  targetWordCount : Int
  createdAt : String
  deriving DecidableEq, Repr

/-- `[phase]`. -/
structure PhaseState where
  current : Phase
  completed : List Phase
  deriving DecidableEq, Repr

/-- One entry of the `[chapters]` manifest. -/
structure ChapterEntry where
  number : Int
  slug : String
  title : String
  targetWords : Int
  deriving DecidableEq, Repr

/-- `[drafting.critic].last_finding_counts`. -/
structure FindingCounts where
  blocker : Int
  major : Int
  minor : Int
  taste : Int
  deriving DecidableEq, Repr

/-- `[drafting.critic]`. -/
structure CriticState where
  passNumber : Int
  consecutiveClean : Int
  convergenceTarget : Int
  lastFindingCounts : FindingCounts
  deriving DecidableEq, Repr

/-- `[drafting.fangirl]`. -/
structure FangirlState where
  lastChapterPassed : Int
  deriving DecidableEq, Repr

/-- `[drafting]`. -/
structure Drafting where
  currentChapter : Int
  currentScene : Int
  currentBeat : Int
  critic : CriticState
  fangirl : FangirlState
  deriving DecidableEq, Repr

/-- `[gates.knitting]`. -/
structure KnittingGates where
  done30 : Bool
  done50 : Bool
  done80 : Bool
  deriving DecidableEq, Repr

/-- `[gates.final]`. -/
structure FinalGate where
  finalPassComplete : Bool
  deriving DecidableEq, Repr

/-- `[gates]`. -/
structure Gates where
  knitting : KnittingGates
  final : FinalGate
  deriving DecidableEq, Repr

/-- `[word_counts]`; `by_chapter` is keyed by the two-digit chapter text. -/
structure WordCounts where
  target : Int
  current : Int
  byChapter : Dict String Int
  deriving DecidableEq, Repr

/-- `SET_CHAPTERS_OPERATION`. -/
def setChaptersOperation : String := "set-chapters"

/-- `[pending_turn]`, present only while a multi-file mutation is in flight. -/
structure PendingTurn where
  operation : String
  paths : List String
  deriving DecidableEq, Repr

/-- The whole typed state. -/
structure State where
  schemaVersion : Int
  novel : NovelMeta
  phase : PhaseState
  chapters : List ChapterEntry
  drafting : Drafting
  gates : Gates
  wordCounts : WordCounts
  pendingTurn : Option PendingTurn
  deriving DecidableEq, Repr

/-- The chapter numbers of the manifest, in its order. -/
def State.numbers (state : State) : List Int := state.chapters.map ChapterEntry.number

end NovelRalph
