import NovelRalph.Commands.Wordcount
import NovelRalph.Loader.Detect

/-!
# `desloppify`

The detect-only scan of the drafts: a rule pack over the whole manuscript or one
chapter of it, or a device ledger over the whole manuscript. The loaders' own
errors are a usage outcome or a state-input error; a loader fault that no clause
catches leaves the command under its own name.
-/

namespace NovelRalph

/-- How the body of a scan can fail. -/
inductive ScanFault where
  | raised (fault : Fault)
  | load (fault : LoadFault)
  deriving DecidableEq, Repr

/-! ## Sourcing the chapters -/

/-- `_chapter_text`. -/
def Disk.chapterText (disk : Disk) (number : Int) : Except Fault String := do
  spelled [number]
  match disk.read (disk.chapterFile number "draft.md") with
  | .ok text => .ok text
  | .error (.os .fileNotFound) => .ok ""
  | .error fault => .error fault

/-- `_select_chapters`. -/
def selectChapters (manifest : List ChapterEntry) : Option Int → Except Fault (List ChapterEntry)
  | none => .ok (sortedChapters manifest)
  | some chapter =>
      let ordered := sortedChapters manifest
      let selected := ordered.filter fun entry => entry.number = chapter
      if selected = [] then do
        spelled (ordered.map ChapterEntry.number ++ [chapter])
        let available := String.intercalate ", " (ordered.map fun entry => intText entry.number)
        throw (.usageError ["no chapter " ++ intText chapter ++ " in the manifest (available: " ++
          (if available = "" then "none" else available) ++ ")"])
      else .ok selected

section Source

variable {toml : Tomlkit}

/-- The draft-reading comprehension of `source_chapters`. -/
def Disk.scannedChapters (disk : Disk) (selected : List ChapterEntry) :
    Except Fault (List ScannedChapter) :=
  selected.mapM fun entry => do
    let text ← disk.chapterText entry.number
    return ⟨entry.number, text⟩

/-- `source_chapters`. -/
def sourceChapters (chapter : Option Int) : Command toml (List ScannedChapter) := do
  let state ← loadOrStateError
  let selected ← Prog.observe fun _ => selectChapters state.chapters chapter
  Prog.observe fun world => guardStateInput draftReadError (world.disk.scannedChapters selected)

end Source

/-! ## Outcomes -/

/-- `build_finding_outcome`, where describing a finding spells some numbers. -/
def buildFindingOutcome {Report Finding : Type} (report : Report) (findings : List Finding)
    (passed : Finding → Bool) (spells : Finding → List Int) (describe : Finding → String)
    (cleanMessage : String) : Except Fault (ReportOutcome Report) := do
  let failed := findings.filter fun finding => !passed finding
  spelled (failed.flatMap spells)
  return {
    code := if failed.isEmpty then .success else .actionableFinding
    report := some report
    messages := if failed.isEmpty then [cleanMessage] else failed.map describe }

/-- `usage_error_outcome`. -/
def usageErrorOutcome {Report : Type} (message : String) : ReportOutcome Report where
  code := .usageError
  report := none
  messages := [message]

/-- The numbers the message of a rule's finding spells. -/
def RuleFinding.spells (finding : RuleFinding) : List Int :=
  match finding.density with
  | some _ => finding.threshold :: finding.pageWords.toList
  | none => [finding.count, finding.threshold]

/-- `_desloppify_report._finding_message`. -/
def ruleFindingMessage (finding : RuleFinding) : String :=
  match finding.density with
  | some density =>
      finding.ruleId ++ " exceeds threshold (density " ++ density.fixed 2 ++ " > " ++
        intText finding.threshold ++ " per " ++
        (finding.pageWords.map intText).getD "None" ++ " words)"
  | none =>
      finding.ruleId ++ " exceeds threshold (" ++ intText finding.count ++ " > " ++
        intText finding.threshold ++ ")"

/-- `_desloppify_report.report_outcome`. -/
def detectionOutcome (report : DetectionReport) : Except Fault (ReportOutcome DetectionReport) :=
  buildFindingOutcome report report.findings RuleFinding.passed RuleFinding.spells
    ruleFindingMessage "no slop detected"

/-- The numbers the message of a device's finding spells. -/
def DeviceFinding.spells (finding : DeviceFinding) : List Int :=
  (finding.maxCount.toList.filter (· < (finding.count : Int))).flatMap ([(finding.count : Int), ·]) ++
    if finding.offendingChapters = [] then []
    else finding.offendingChapters ++ match finding.rationKind with
      | .allowedChapters => finding.bound.getD []
      | .retiredAfterChapter | .reservedForChapter => (finding.bound.bind List.head?).toList
      | .maxCount => []

/-- `ledger.report._finding_message`. -/
def deviceFindingMessage (finding : DeviceFinding) : String :=
  let listed (chapters : List Int) := String.intercalate ", " (chapters.map intText)
  let first := ((finding.bound.bind List.head?).map intText).getD "?"
  let spent := finding.maxCount.toList.filterMap fun bound =>
    if bound < (finding.count : Int) then
      some ("spent " ++ intText finding.count ++ " times (max " ++ intText bound ++ ")")
    else none
  let used := "used in chapter(s) " ++ listed finding.offendingChapters
  let window :=
    if finding.offendingChapters = [] then []
    else match finding.rationKind with
      | .allowedChapters =>
          [used ++ " outside allowed \x7b" ++ listed (finding.bound.getD []) ++ "\x7d"]
      | .retiredAfterChapter => [used ++ " after retirement chapter " ++ first]
      | .reservedForChapter => [used ++ " outside reserved chapter " ++ first]
      | .maxCount => []
  let clauses := spent ++ window
  finding.deviceId ++ " " ++
    (if clauses = [] then "over its ration" else String.intercalate "; " clauses)

/-- `ledger_report_outcome`. -/
def ledgerOutcome (report : LedgerReport) : Except Fault (ReportOutcome LedgerReport) :=
  buildFindingOutcome report report.findings DeviceFinding.passed DeviceFinding.spells
    deviceFindingMessage "no rationing breaches detected"

/-- `_rule_pack_read_error`. -/
def rulePackReadError (path : String) : Fault :=
  .stateInputError ["cannot read rule pack " ++ path ++ "; check the --pack path is correct " ++
    "and readable, or omit --pack to use the shipped default pack"]

/-- `_device_ledger_read_error`. -/
def deviceLedgerReadError (path : String) : Fault :=
  .stateInputError ["cannot read device ledger " ++ path ++ "; check the --ledger path " ++
    "is correct and readable"]

/-! ## The scans -/

section Command

variable {toml : Tomlkit} {engine : RegexEngine} (arith : FloatArithmetic) (tomllib : Tomllib)

/-- The scan of `_desloppify`, from a loaded pack on. -/
def scanRulepack (pack : RulePack engine) (chapter : Option Int) : Command toml DetectionReport := do
  let chapters ← sourceChapters chapter
  Prog.observe fun _ => detect arith pack chapters

/-- The scan of `ledger_scan`, from a loaded ledger on. -/
def scanLedger (ledger : DeviceLedger engine) : Command toml LedgerReport := do
  let chapters ← sourceChapters none
  return detectLedger ledger chapters

variable (engine)

/-- `_desloppify`. -/
def desloppify (pack : Resource) (chapter : Option Int) :
    Prog (World toml.Text) ScanFault (ReportOutcome DetectionReport) :=
  match loadRulepack engine tomllib pack with
  | .ok rulepack => (scanRulepack arith rulepack chapter >>= fun report =>
      Prog.observe fun _ => detectionOutcome report).mapFault .raised
  | .error (.rulePackError message _) => pure (usageErrorOutcome message)
  | .error (.rulePackFileError _) => .raise (.raised (rulePackReadError pack.path))
  | .error fault => .raise (.load fault)

/-- `ledger_scan`. -/
def ledgerScan (path : Resource) :
    Prog (World toml.Text) ScanFault (ReportOutcome LedgerReport) :=
  match loadLedger engine tomllib path with
  | .ok ledger => (scanLedger ledger >>= fun report =>
      Prog.observe fun _ => ledgerOutcome report).mapFault .raised
  | .error (.ledgerError message _) => pure (usageErrorOutcome message)
  | .error (.ledgerFileError _) => .raise (.raised (deviceLedgerReadError path.path))
  | .error fault => .raise (.load fault)

end Command

/-! ## Outcomes and sourcing -/

section Laws

variable {toml : Tomlkit} {world : World toml.Text} {state : State} {disk : Disk}

/-- The skeleton of a scan's outcome, whose messages can be spelled. -/
theorem buildFindingOutcome_eq_ok {Report Finding : Type} {report : Report}
    {findings : List Finding} {passed : Finding → Bool} {spells : Finding → List Int}
    {describe : Finding → String} {clean : String} {outcome : ReportOutcome Report}
    (built : buildFindingOutcome report findings passed spells describe clean = .ok outcome) :
    let failed := findings.filter fun finding => !passed finding
    outcome.code = (if failed.isEmpty then .success else .actionableFinding) ∧
      outcome.report = some report ∧
      outcome.messages = if failed.isEmpty then [clean] else failed.map describe := by
  obtain ⟨_, -, returned⟩ := except_bind_eq_ok.mp built
  cases returned
  exact ⟨rfl, rfl, rfl⟩

theorem Disk.chapterText_of_readable {number : Int} (readable : disk.DraftReadable number) :
    disk.chapterText number = .ok (disk.draftBody number) := by
  unfold Disk.chapterText Disk.draftBody
  rw [readable.named]
  rcases readable.read with ⟨text, found⟩ | missing
  · rw [found]
    rfl
  · rw [missing]
    rfl

/-- Readable drafts are all sourced, each under its own number. -/
theorem Disk.scannedChapters_of_readable {selected : List ChapterEntry}
    (readable : ∀ entry ∈ selected, disk.DraftReadable entry.number) :
    disk.scannedChapters selected =
      .ok (selected.map fun entry => ⟨entry.number, disk.draftBody entry.number⟩) := by
  unfold Disk.scannedChapters
  induction selected with
  | nil => rfl
  | cons entry rest inductionHypothesis =>
      rw [List.mapM_cons, Disk.chapterText_of_readable (readable entry List.mem_cons_self),
        inductionHypothesis fun later member => readable later (List.mem_cons_of_mem _ member)]
      rfl

/-- Sourcing a selection of readable drafts is total. -/
theorem sourceChapters_of_readable {chapter : Option Int} {selected : List ChapterEntry}
    (shows : Shows world state) (selects : selectChapters state.chapters chapter = .ok selected)
    (readable : ∀ entry ∈ selected, world.disk.DraftReadable entry.number) :
    sourceChapters chapter world = ⟨[], .ok (selected.map fun entry =>
      ⟨entry.number, world.disk.draftBody entry.number⟩)⟩ := by
  unfold sourceChapters
  rw [Prog.bind_quiet world (loadOrStateError_of_shows shows), Prog.observe_bind_ok world selects,
    Prog.observe_apply, Disk.scannedChapters_of_readable readable, guardStateInput_ok]

/-- In a list without repeated numbers a number belongs to one entry. -/
theorem filter_number_eq {entries : List ChapterEntry} {entry : ChapterEntry}
    (distinct : (entries.map ChapterEntry.number).Nodup) (member : entry ∈ entries) :
    entries.filter (fun other => other.number = entry.number) = [entry] := by
  induction entries with
  | nil => cases member
  | cons first rest inductionHypothesis =>
      obtain ⟨absent, later⟩ := List.nodup_cons.mp distinct
      rcases List.mem_cons.mp member with rfl | within
      · rw [List.filter_cons_of_pos (by simp), List.filter_eq_nil_iff.mpr]
        intro other there
        have listed := List.mem_map_of_mem (f := ChapterEntry.number) there
        intro same
        apply absent
        rw [← of_decide_eq_true same]
        exact listed
      · have apart : first.number ≠ entry.number := by
          intro same
          apply absent
          rw [same]
          exact List.mem_map_of_mem within
        rw [List.filter_cons_of_neg (by simpa using apart)]
        exact inductionHypothesis later within

/-- Selecting a chapter of a manifest without repeats selects one entry. -/
theorem selectChapters_one (distinct : state.numbers.Nodup) {entry : ChapterEntry}
    (member : entry ∈ state.chapters) :
    selectChapters state.chapters (some entry.number) = .ok [entry] := by
  have perm : ((sortedChapters state.chapters).map ChapterEntry.number).Perm state.numbers :=
    (List.perm_insertionSort _ _).map _
  have only : (sortedChapters state.chapters).filter (fun other => other.number = entry.number) =
      [entry] :=
    filter_number_eq (perm.nodup_iff.mpr distinct) (mem_sortedChapters.mpr member)
  unfold selectChapters
  dsimp only
  rw [only, if_neg (List.cons_ne_nil _ _)]

end Laws

end NovelRalph
