import Mathlib.Algebra.BigOperators.Ring.Finset
import NovelRalph.Commands.Desloppify
import NovelRalph.Commands.Recount
import NovelRalph.Loader.PackChannels
import NovelRalph.System.FreshCompile

/-!
# One word count

Four commands count the manuscript through pipelines of their own: a table keyed
by padded numbers, report rows looked up by the same keys, a line scanner, and a
joined text. All of them arrive at the sum of the word counts of the drafts on
disk, and a scan of the whole manuscript counts what the scans of its chapters
count together.
-/

namespace NovelRalph

namespace World

variable {Text : Type} (world : World Text)

/-- The words of the manuscript: those of every draft on disk, chapter by chapter. -/
def manuscriptWords (state : State) : Int :=
  (state.numbers.map fun number => ((splitWords (world.draftOnDisk number)).length : Int)).sum

end World

section Totals

variable {Text : Type} {world : World Text} {state : State}

/-- Sums over the manifest do not depend on its order. -/
theorem sum_sortedChapters {M : Type} [AddCommMonoid M] (chapters : List ChapterEntry)
    (count : ChapterEntry → M) :
    ((sortedChapters chapters).map count).sum = (chapters.map count).sum :=
  ((List.perm_insertionSort _ chapters).map count).sum_eq

/-- The word count of a readable draft is that of what it holds. -/
theorem draftWords_eq {number : Int} (readable : world.disk.DraftReadable number) :
    world.disk.draftWords number = (splitWords (world.draftOnDisk number)).length := by
  rw [← World.draftBody_eq readable]
  unfold Disk.draftWords Disk.draftBody
  cases world.disk.read (world.disk.chapterFile number "draft.md") <;> rfl

theorem sum_draftWords (drafts : ∀ entry ∈ state.chapters, world.disk.DraftReadable entry.number) :
    (state.chapters.map fun entry => world.disk.draftWords entry.number).sum =
      world.manuscriptWords state := by
  unfold World.manuscriptWords State.numbers
  rw [List.map_map]
  refine congrArg List.sum (List.map_congr_left fun entry member => ?_)
  exact draftWords_eq (drafts entry member)

/-- Padded keys do not collide, so the recounted table sums to the words of the manuscript. -/
theorem sum_recountTable (distinct : state.numbers.Nodup)
    (drafts : ∀ entry ∈ state.chapters, world.disk.DraftReadable entry.number) :
    (world.disk.recountTable state.chapters).values.sum = world.manuscriptWords state := by
  have sorted : ((sortedChapters state.chapters).map ChapterEntry.number).Nodup :=
    ((List.perm_insertionSort _ _).map _).nodup_iff.mpr distinct
  have keys : (((sortedChapters state.chapters).map fun entry =>
      (padTwo entry.number, world.disk.draftWords entry.number)).map Prod.fst).Nodup := by
    have padded := sorted.map fun _ _ same => padTwo_injective same
    simpa [Function.comp_def] using padded
  rw [← sum_draftWords drafts, ← sum_sortedChapters]
  unfold Disk.recountTable Dict.values
  rw [Dict.ofPairs_of_nodup keys, List.map_map]
  rfl

/-- The joined text has the words of the drafts: the separator neither glues nor splits. -/
theorem words_compiledText (drafts : ∀ entry ∈ state.chapters,
    world.disk.DraftReadable entry.number) :
    ((splitWords (world.disk.compiledText state.chapters)).length : Int) =
      world.manuscriptWords state := by
  rw [← sum_draftWords drafts, ← sum_sortedChapters]
  have joined : splitWords (world.disk.compiledText state.chapters) =
      (sortedChapters state.chapters).flatMap fun entry =>
        splitWords (world.disk.draftBody entry.number) := by
    have gap : draftSeparator.toList = ['\n', '\n'] := rfl
    have spaces : ∀ char ∈ ['\n', '\n'], isSpace char = true := by
      intro char member
      have newline : char = '\n' := by simpa using member
      rw [newline]
      decide
    unfold Disk.compiledText concatenateDrafts
    rw [← String.ofList_toList (s := String.intercalate _ _), String.toList_intercalate, gap,
      splitWords_intercalate (List.cons_ne_nil _ _) spaces, List.map_map, List.flatMap_map]
    simp
  rw [joined, List.length_flatMap, Nat.cast_list_sum, List.map_map]
  refine congrArg List.sum (List.map_congr_left fun entry member => ?_)
  have readable := drafts entry (mem_sortedChapters.mp member)
  show ((splitWords (world.disk.draftBody entry.number)).length : Int) = _
  rw [draftWords_eq readable, World.draftBody_eq readable]

end Totals

section Views

variable {toml : Tomlkit} {engine : RegexEngine} {arith : FloatArithmetic} {tomllib : Tomllib}
  {world : World toml.Text} {state : State}

/-- A recount that returns has written the recounted table and its sum. -/
theorem recount_written (shows : Shows world state)
    (drafts : ∀ entry ∈ state.chapters, world.disk.DraftReadable entry.number)
    {outcome : CommandOutcome}
    (returned : (recount arith.toRatioArithmetic world).result = .ok outcome) :
    Shows ((recount arith.toRatioArithmetic world).final world)
      (state.recounted (world.disk.recountTable state.chapters)) := by
  unfold recount at returned ⊢
  rcases mutateState_cases with ⟨fault, faults⟩ | ⟨prior, planned, body, proposed, text, held, shown,
    chosen, read, reread, -, parsed, run⟩
  · rw [faults] at returned
    cases returned
  · cases shows.unique shown
    rw [Disk.recountWords_of_readable drafts, guardStateInput_ok] at chosen
    cases chosen
    have same := parse_recounted read (world.disk.recountTable state.chapters)
    rw [run]
    exact shows_withState held parsed same

/-- A report that `wordcount` returns was built from the recounted table. -/
theorem wordcount_built (shows : Shows world state)
    (drafts : ∀ entry ∈ state.chapters, world.disk.DraftReadable entry.number)
    {outcome : ReportOutcome WordcountReport} (returned : (wordcount arith world).result = .ok outcome) :
    ∃ report, outcome.report = some report ∧
      buildReport arith state.wordCounts.target state.chapters
        (world.disk.recountTable state.chapters) = .ok report := by
  have sourced : sourceStateAndDrafts world =
      ⟨[], .ok (state.wordCounts.target, state.chapters, world.disk.recountTable state.chapters)⟩ := by
    unfold sourceStateAndDrafts
    rw [Prog.bind_quiet world (loadOrStateError_of_shows shows), Prog.observe_bind_ok world
      (by rw [Disk.recountWords_of_readable drafts, guardStateInput_ok])]
    rfl
  unfold wordcount at returned
  rw [Prog.bind_quiet world sourced] at returned
  dsimp only at returned
  rcases Prog.observe_bind_cases world _ _ with ⟨fault, -, faults⟩ | ⟨report, built, run⟩
  · rw [faults] at returned
    cases returned
  · rw [run] at returned
    obtain ⟨message, -, returned⟩ := except_bind_eq_ok.mp returned
    cases returned
    exact ⟨report, rfl, built⟩

/-- The table's own rows are what the report's rows look up. -/
theorem sum_rows (drafts : ∀ entry ∈ state.chapters, world.disk.DraftReadable entry.number) :
    ((sortedChapters state.chapters).map fun entry =>
      ((world.disk.recountTable state.chapters).get? (padTwo entry.number)).getD 0).sum =
      world.manuscriptWords state := by
  rw [← sum_draftWords drafts, ← sum_sortedChapters state.chapters fun entry =>
    world.disk.draftWords entry.number]
  refine congrArg List.sum (List.map_congr_left fun entry member => ?_)
  rw [Disk.get?_recountTable (mem_sortedChapters.mp member), Option.getD_some]

/-- What a whole scan reads: every draft, under its number. -/
theorem sourceChapters_whole (shows : Shows world state)
    (drafts : ∀ entry ∈ state.chapters, world.disk.DraftReadable entry.number) :
    sourceChapters none world = ⟨[], .ok ((sortedChapters state.chapters).map fun entry =>
      ⟨entry.number, world.disk.draftBody entry.number⟩)⟩ :=
  sourceChapters_of_readable shows rfl fun entry member =>
    drafts entry (mem_sortedChapters.mp member)

/-- What the scan of one manifest chapter reads: its draft. -/
theorem sourceChapters_single (shows : Shows world state) (distinct : state.numbers.Nodup)
    (drafts : ∀ entry ∈ state.chapters, world.disk.DraftReadable entry.number) {number : Int}
    (member : number ∈ state.numbers) :
    sourceChapters (some number) world =
      ⟨[], .ok [⟨number, world.disk.draftBody number⟩]⟩ := by
  obtain ⟨entry, listed, rfl⟩ := List.mem_map.mp member
  apply sourceChapters_of_readable shows (selectChapters_one distinct listed)
  intro other only
  rw [List.mem_singleton.mp only]
  exact drafts entry listed

/-- The words a whole scan counts are the words of the manuscript. -/
theorem scannedWords_whole (drafts : ∀ entry ∈ state.chapters,
    world.disk.DraftReadable entry.number) :
    scannedWords ((sortedChapters state.chapters).map fun entry =>
      ⟨entry.number, world.disk.draftBody entry.number⟩) = world.manuscriptWords state := by
  rw [← sum_draftWords drafts, ← sum_sortedChapters]
  unfold scannedWords
  rw [List.map_map]
  refine congrArg List.sum (List.map_congr_left fun entry member => ?_)
  have readable := drafts entry (mem_sortedChapters.mp member)
  show ((splitWords (world.disk.draftBody entry.number)).length : Int) = _
  rw [draftWords_eq readable, World.draftBody_eq readable]

/-- A scan whose outcome has a report detected it in the chapters it sourced. -/
theorem desloppify_detected {pack : Resource} {chapter : Option Int}
    {chapters : List ScannedChapter} {outcome : ReportOutcome DetectionReport}
    {report : DetectionReport} (sourced : sourceChapters chapter world = ⟨[], .ok chapters⟩)
    (returned : (desloppify engine arith tomllib pack chapter world).result = .ok outcome)
    (reports : outcome.report = some report) :
    ∃ rulepack : RulePack engine, loadRulepack engine tomllib pack = .ok rulepack ∧
      detect arith rulepack chapters = .ok report := by
  unfold desloppify at returned
  cases loaded : loadRulepack engine tomllib pack with
  | ok rulepack =>
      rw [loaded] at returned
      have scanned := (Prog.mapFault_returns world).mp returned
      have scan : scanRulepack arith rulepack chapter world =
          ⟨[], detect arith rulepack chapters⟩ := by
        unfold scanRulepack
        rw [Prog.bind_quiet world sourced]
        rfl
      refine ⟨rulepack, rfl, ?_⟩
      cases detected : detect arith rulepack chapters with
      | error fault =>
          rw [detected] at scan
          rw [Prog.bind_error world scan] at scanned
          cases scanned
      | ok found =>
          rw [detected] at scan
          rw [Prog.bind_quiet world scan] at scanned
          rw [(buildFindingOutcome_eq_ok scanned).2.1] at reports
          cases reports
          rfl
  | error fault =>
      rw [loaded] at returned
      cases fault with
      | rulePackError message ruleId =>
          cases returned
          cases reports
      | _ => cases returned

/-- The same of a ledger scan. -/
theorem ledgerScan_detected {path : Resource} {chapters : List ScannedChapter}
    {outcome : ReportOutcome LedgerReport} {report : LedgerReport}
    (sourced : sourceChapters none world = ⟨[], .ok chapters⟩)
    (returned : (ledgerScan engine tomllib path world).result = .ok outcome)
    (reports : outcome.report = some report) :
    ∃ ledger : DeviceLedger engine, loadLedger engine tomllib path = .ok ledger ∧
      detectLedger ledger chapters = report := by
  unfold ledgerScan at returned
  cases loaded : loadLedger engine tomllib path with
  | ok ledger =>
      rw [loaded] at returned
      have scanned := (Prog.mapFault_returns world).mp returned
      have scan : scanLedger ledger world = ⟨[], .ok (detectLedger ledger chapters)⟩ := by
        unfold scanLedger
        rw [Prog.bind_quiet world sourced]
        rfl
      rw [Prog.bind_quiet world scan] at scanned
      rw [(buildFindingOutcome_eq_ok scanned).2.1] at reports
      cases reports
      exact ⟨ledger, rfl, rfl⟩
  | error fault =>
      rw [loaded] at returned
      cases fault with
      | ledgerError message deviceId =>
          cases returned
          cases reports
      | _ => cases returned

end Views

/-! ## The agreement -/

section Agreement

variable {toml : Tomlkit}

/-- Every view of the drafts counts the same words, and hits add up over the chapters. -/
structure CountsAgree (engine : RegexEngine) (arith : FloatArithmetic) (tomllib : Tomllib)
    (world : World toml.Text) (state : State) (total : Int) : Prop where
  recount : ∀ outcome, (recount arith.toRatioArithmetic world).result = .ok outcome →
    ∃ written, Shows ((NovelRalph.recount arith.toRatioArithmetic world).final world) written ∧
      written.wordCounts.current = total ∧ written.wordCounts.byChapter.values.sum = total
  wordcount : ∀ outcome, (wordcount arith world).result = .ok outcome →
    ∃ report, outcome.report = some report ∧ report.cumulative.current = total ∧
      (report.chapters.map ChapterReport.words).sum = total
  desloppify : ∀ pack outcome report,
    (desloppify engine arith tomllib pack none world).result = .ok outcome →
    outcome.report = some report → report.totalWords = total
  /-- What `compile` joins, and what it leaves in `compiled.md`. -/
  compile : (∃ bodies, world.disk.presentDraftBodies state.chapters = .ok bodies ∧
      ((splitWords (concatenateDrafts bodies)).length : Int) = total) ∧
    (exitCodeOf (compileManuscript world).result = some 0 →
      ∃ text, ((compileManuscript world).final world).files.lookup world.disk.compiledManuscript =
        some (.text text) ∧ ((splitWords text).length : Int) = total)
  ruleHits : ∀ pack outcome whole (single : Int → DetectionReport),
    (NovelRalph.desloppify engine arith tomllib pack none world).result = .ok outcome →
    outcome.report = some whole →
    (∀ number ∈ state.numbers, ∃ outcome,
      (NovelRalph.desloppify engine arith tomllib pack (some number) world).result = .ok outcome ∧
        outcome.report = some (single number)) →
    ∀ ruleId, whole.hits ruleId = (state.numbers.map fun number => (single number).hits ruleId).sum
  /-- A ledger scans the whole manuscript only; its devices are scanned in the single chapters
  that `desloppify --chapter` sources. -/
  deviceHits : ∀ path outcome whole,
    (ledgerScan engine tomllib path world).result = .ok outcome → outcome.report = some whole →
    ∃ ledger : DeviceLedger engine, loadLedger engine tomllib path = .ok ledger ∧
      ∃ single : Int → List ScannedChapter,
        (∀ number ∈ state.numbers, sourceChapters (some number) world = ⟨[], .ok (single number)⟩) ∧
        ∀ deviceId, whole.hits deviceId = (state.numbers.map fun number =>
          (detectLedger ledger (single number)).hits deviceId).sum

variable {engine : RegexEngine} {arith : FloatArithmetic} {tomllib : Tomllib}
  {world : World toml.Text} {state : State}

/-- The hits of a whole scan are those of the scans of its chapters, in any order. -/
theorem whole_hits (world : World toml.Text) (state : State) {Entry : Type}
    (compiled : Entry → engine.Pattern) (found : Option Entry) :
    (found.map fun entry => (scanPattern engine (compiled entry)
      ((sortedChapters state.chapters).map fun chapter =>
        ⟨chapter.number, world.disk.draftBody chapter.number⟩)).1).getD 0 =
      (state.numbers.map fun number => (found.map fun entry => (scanPattern engine (compiled entry)
        [⟨number, world.disk.draftBody number⟩]).1).getD 0).sum := by
  rw [scanned_hits_sum, List.map_map]
  unfold State.numbers
  rw [List.map_map]
  exact sum_sortedChapters state.chapters fun chapter => (found.map fun entry =>
    (scanPattern engine (compiled entry)
      [⟨chapter.number, world.disk.draftBody chapter.number⟩]).1).getD 0

/-- One rule counts words, and every view of the drafts agrees with it. -/
theorem one_count (engine : RegexEngine) (arith : FloatArithmetic) (tomllib : Tomllib)
    (shows : Shows world state) (distinct : state.numbers.Nodup)
    (drafts : ∀ entry ∈ state.chapters, world.disk.DraftReadable entry.number) :
    CountsAgree engine arith tomllib world state (world.manuscriptWords state) := by
  have total := sum_recountTable distinct drafts
  have whole := sourceChapters_whole shows drafts
  constructor
  case recount =>
    intro outcome returned
    exact ⟨_, recount_written shows drafts returned, total, total⟩
  case wordcount =>
    intro outcome returned
    obtain ⟨report, reports, built⟩ := wordcount_built shows drafts returned
    refine ⟨report, reports, (buildReport_current built).trans total, ?_⟩
    rw [buildReport_words built]
    exact sum_rows drafts
  case desloppify =>
    intro pack outcome report returned reports
    obtain ⟨rulepack, -, detected⟩ := desloppify_detected whole returned reports
    rw [detect_totalWords detected]
    exact scannedWords_whole drafts
  case compile =>
    refine ⟨⟨_, Disk.presentDraftBodies_of_readable drafts, words_compiledText drafts⟩, ?_⟩
    intro exits
    obtain ⟨populated, next, replaced⟩ := replaced_of_compile shows drafts exits
    rw [(compile_of_replaced shows populated drafts replaced).2]
    exact ⟨_, (World.replaceFile_ok replaced).2.1, words_compiledText drafts⟩
  case ruleHits =>
    intro pack outcome report single returned reports singles ruleId
    obtain ⟨rulepack, loaded, detected⟩ := desloppify_detected whole returned reports
    rw [detect_hits detected, whole_hits world state Rule.compiled]
    refine congrArg List.sum (List.map_congr_left fun number member => ?_)
    obtain ⟨other, returned, reports⟩ := singles number member
    obtain ⟨again, loaded', detected⟩ := desloppify_detected
      (sourceChapters_single shows distinct drafts member) returned reports
    rw [loaded] at loaded'
    cases loaded'
    exact (detect_hits detected ruleId).symm
  case deviceHits =>
    intro path outcome report returned reports
    obtain ⟨ledger, loaded, detected⟩ := ledgerScan_detected whole returned reports
    refine ⟨ledger, loaded, fun number => [⟨number, world.disk.draftBody number⟩],
      fun number member => sourceChapters_single shows distinct drafts member, fun deviceId => ?_⟩
    rw [← detected, detectLedger_hits, whole_hits world state Device.compiled]
    refine congrArg List.sum (List.map_congr_left fun number member => ?_)
    exact (detectLedger_hits deviceId).symm

end Agreement

/-! ## A small manuscript and a pack of one rule -/

/-- The text of a pack with one rule. -/
def oneRuleText : String :=
  "schema_version = 1\npack = \"sample\"\n[[rule]]\nid = \"letter\"\npattern = \"a\"\n" ++
    "threshold = 0\nbasis = \"manuscript\"\n"

/-- A decoder of that text only. -/
def oneRuleTomllib : Tomllib where
  parse text :=
    if text = oneRuleText then .ok [("schema_version", .int 1), ("pack", .str "sample"),
      ("rule", .array [.table [("id", .str "letter"), ("pattern", .str "a"), ("threshold", .int 0),
        ("basis", .str "manuscript")]])]
    else .error (.tomlDecodeError "Expected '=' after a key")

/-- The manuscript of `reversedWorld` has two words, in every view. -/
theorem one_count_reversed :
    CountsAgree literalEngine .doubles oneRuleTomllib reversedWorld reversedState 2 := by
  have total : reversedWorld.manuscriptWords reversedState = 2 := by decide +kernel
  rw [← total]
  exact one_count literalEngine .doubles oneRuleTomllib shows_reversed (by decide) drafts_reversed

example : ((((desloppify literalEngine .doubles oneRuleTomllib
    ⟨"pack.toml", .ok oneRuleText.toUTF8⟩ none reversedWorld).result.toOption.bind
      ReportOutcome.report).map fun report => (report.totalWords, report.hits "letter")) =
    some (2, 1)) := by decide +kernel

end NovelRalph
