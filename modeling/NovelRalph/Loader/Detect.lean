import NovelRalph.Contract.Outcome
import NovelRalph.Loader.Ledger
import NovelRalph.Loader.RulePack
import NovelRalph.State.DiskPaths
import NovelRalph.State.Floats

/-!
# Detection

The two pure detectors: a rule pack over scanned chapters gives one finding per
rule and the word total its densities divide by, a device ledger gives one finding
per device. Hits are counted line by line, so a finding's count is the sum of the
counts of its chapters.
-/

namespace NovelRalph

section RulePackDetect

variable {engine : RegexEngine} (arith : FloatArithmetic)

/-- `RuleFinding`. -/
structure RuleFinding where
  ruleId : String
  pattern : String
  count : Nat
  threshold : Int
  basis : RuleBasis
  pageWords : Option Int
  density : Option Float64
  passed : Bool
  lines : List LineHit

/-- `DetectionReport`. -/
structure DetectionReport where
  pack : String
  totalWords : Int
  findings : List RuleFinding
  passed : Bool

/-- The density of a `per_page` rule, and whether it is within its threshold. -/
def pageDensity (rule : Rule engine) (count : Nat) (totalWords : Int) :
    Except Fault (Float64 × Bool) := do
  let pageWords := rule.pageWords.getD 0
  let pages ←
    if pageWords = 0 then .ok 0
    else match arith.quotient totalWords pageWords with
      | some pages => .ok pages
      | none => .error .overflowError
  if 0 < pages then
    match arith.rounded count with
    | none => .error .overflowError
    | some hits =>
        let density := Float64.ofRounded (hits / pages) (arith.rounded (hits / pages))
        return (density, density.atMost rule.threshold)
  else return (.finite 0, count ≤ 0)

/-- The density of a rule, if it has one, and whether the rule is within its threshold. -/
def ruleMeasure (rule : Rule engine) (count : Nat) (totalWords : Int) :
    Except Fault (Option Float64 × Bool) :=
  match rule.basis with
  | .perPage => (pageDensity arith rule count totalWords).map fun measured =>
      (some measured.1, measured.2)
  | .manuscript => .ok (none, (count : Int) ≤ rule.threshold)

/-- `rulepack.detect._finding`. -/
def ruleFinding (rule : Rule engine) (count : Nat) (lines : List LineHit) (totalWords : Int) :
    Except Fault RuleFinding := do
  let (density, passed) ← ruleMeasure arith rule count totalWords
  return {
    ruleId := rule.id
    pattern := rule.pattern
    count
    threshold := rule.threshold
    basis := rule.basis
    pageWords := rule.pageWords
    density
    passed
    lines }

/-- `sum(len(chapter.text.split()) for chapter in chapters)`. -/
def scannedWords (chapters : List ScannedChapter) : Int :=
  (chapters.map fun chapter => ((splitWords chapter.text).length : Int)).sum

/-- `rulepack.detect.detect`. -/
def detect (pack : RulePack engine) (chapters : List ScannedChapter) :
    Except Fault DetectionReport := do
  let totalWords := scannedWords chapters
  let findings ← pack.rules.list.mapM fun rule =>
    let scanned := scanPattern engine rule.compiled chapters
    ruleFinding arith rule scanned.1 scanned.2 totalWords
  return { pack := pack.pack, totalWords, findings, passed := findings.all RuleFinding.passed }

end RulePackDetect

section LedgerDetect

variable {engine : RegexEngine}

/-- The ration kinds of a finding. -/
inductive RationKind where
  | maxCount
  | allowedChapters
  | retiredAfterChapter
  | reservedForChapter
  deriving DecidableEq, Repr

/-- `DeviceFinding`. -/
structure DeviceFinding where
  deviceId : String
  pattern : String
  count : Nat
  rationKind : RationKind
  maxCount : Option Int
  bound : Option (List Int)
  offendingChapters : List Int
  passed : Bool
  lines : List LineHit

/-- `LedgerReport`. -/
structure LedgerReport where
  findings : List DeviceFinding
  passed : Bool

/-- `_window`. -/
def Ration.window (ration : Ration) : RationKind × Option (List Int) :=
  match ration.allowedChapters, ration.retiredAfterChapter, ration.reservedForChapter with
  | some chapters, _, _ => (.allowedChapters, some (chapters.1.map Subtype.val))
  | none, some limit, _ => (.retiredAfterChapter, some [limit.1])
  | none, none, some reserved => (.reservedForChapter, some [reserved.1])
  | none, none, none => (.maxCount, none)

/-- The condition under which a hit in a chapter breaches the window. -/
def Ration.breachedBy (ration : Ration) (chapter : Int) : Bool :=
  match ration.allowedChapters, ration.retiredAfterChapter, ration.reservedForChapter with
  | some chapters, _, _ => chapter ∉ chapters.1.map Subtype.val
  | none, some limit, _ => limit.1 < chapter
  | none, none, some reserved => chapter ≠ reserved.1
  | none, none, none => false

/-- `_window_offenders`. -/
def Ration.windowOffenders (ration : Ration) (hitChapters : List Int) : List Int :=
  sortedSet ((hitChapters.filter ration.breachedBy).toFinset)

/-- `ledger.detect._finding`. -/
def deviceFinding (device : Device engine) (count : Nat) (lines : List LineHit) : DeviceFinding :=
  let (rationKind, bound) := device.window
  let offenders := device.windowOffenders (lines.map LineHit.chapter)
  let withinCount := device.maxCount.all fun bound => (count : Int) ≤ bound.1
  { deviceId := device.id
    pattern := device.pattern
    count
    rationKind
    maxCount := device.maxCount.map Subtype.val
    bound
    offendingChapters := offenders
    passed := withinCount && offenders.isEmpty
    lines }

/-- `detect_ledger`. -/
def detectLedger (ledger : DeviceLedger engine) (chapters : List ScannedChapter) : LedgerReport :=
  let findings := ledger.devices.list.map fun device =>
    let scanned := scanPattern engine device.compiled chapters
    deviceFinding device scanned.1 scanned.2
  { findings, passed := findings.all DeviceFinding.passed }

end LedgerDetect

/-! ## Counts by chapter -/

/-- The hits a report counts for a rule; none for a rule it has no finding of. -/
def DetectionReport.hits (report : DetectionReport) (ruleId : String) : Nat :=
  ((report.findings.find? fun finding => finding.ruleId = ruleId).map RuleFinding.count).getD 0

/-- The hits a report counts for a device; none for a device it has no finding of. -/
def LedgerReport.hits (report : LedgerReport) (deviceId : String) : Nat :=
  ((report.findings.find? fun finding => finding.deviceId = deviceId).map
    DeviceFinding.count).getD 0

section Laws

variable {engine : RegexEngine} {arith : FloatArithmetic} {pack : RulePack engine}
  {ledger : DeviceLedger engine} {chapters : List ScannedChapter} {report : DetectionReport}

/-- What a rule's finding says of its rule and count. -/
theorem ruleFinding_count {rule : Rule engine} {count : Nat} {lines : List LineHit}
    {totalWords : Int} {finding : RuleFinding}
    (found : ruleFinding arith rule count lines totalWords = .ok finding) :
    finding.ruleId = rule.id ∧ finding.count = count := by
  obtain ⟨measure, -, returned⟩ := except_bind_eq_ok.mp found
  cases returned
  exact ⟨rfl, rfl⟩

/-- The word total of a report is that of the scanned texts. -/
theorem detect_totalWords (detected : detect arith pack chapters = .ok report) :
    report.totalWords = scannedWords chapters := by
  obtain ⟨findings, -, returned⟩ := except_bind_eq_ok.mp detected
  cases returned
  rfl

/-- The hits of a rule, by the scan of its compiled pattern. -/
theorem detect_hits (detected : detect arith pack chapters = .ok report) (ruleId : String) :
    report.hits ruleId = ((pack.rules.list.find? fun rule => rule.id = ruleId).map fun rule =>
      (scanPattern engine rule.compiled chapters).1).getD 0 := by
  have scan : ∀ (rules : List (Rule engine)) (findings : List RuleFinding),
      (rules.mapM fun rule =>
        let scanned := scanPattern engine rule.compiled chapters
        ruleFinding arith rule scanned.1 scanned.2 (scannedWords chapters)) = .ok findings →
      (findings.find? fun finding => finding.ruleId = ruleId).map RuleFinding.count =
        (rules.find? fun rule => rule.id = ruleId).map fun rule =>
          (scanPattern engine rule.compiled chapters).1 := by
    intro rules
    induction rules with
    | nil =>
        intro findings found
        cases found
        rfl
    | cons rule rest inductionHypothesis =>
        intro findings found
        rw [List.mapM_cons] at found
        obtain ⟨head, first, found⟩ := except_bind_eq_ok.mp found
        obtain ⟨tail, later, returned⟩ := except_bind_eq_ok.mp found
        cases returned
        obtain ⟨named, counted⟩ := ruleFinding_count first
        by_cases here : rule.id = ruleId
        · rw [List.find?_cons_of_pos (by simp [named, here]), List.find?_cons_of_pos (by simp [here])]
          simp [counted]
        · rw [List.find?_cons_of_neg (by simp [named, here]), List.find?_cons_of_neg (by simp [here])]
          exact inductionHypothesis tail later
  obtain ⟨findings, found, returned⟩ := except_bind_eq_ok.mp detected
  cases returned
  exact congrArg (fun hits => hits.getD 0) (scan _ _ found)

theorem detectLedger_hits (deviceId : String) :
    (detectLedger ledger chapters).hits deviceId =
      ((ledger.devices.list.find? fun device => device.id = deviceId).map fun device =>
        (scanPattern engine device.compiled chapters).1).getD 0 := by
  unfold LedgerReport.hits detectLedger
  simp only [List.find?_map, Option.map_map]
  rfl

/-- The count of an entry found is the sum of its counts in the chapters; an entry that is not
found counts nothing. -/
theorem scanned_hits_sum {Entry : Type} (compiled : Entry → engine.Pattern) (found : Option Entry) :
    (found.map fun entry => (scanPattern engine (compiled entry) chapters).1).getD 0 =
      (chapters.map fun chapter =>
        (found.map fun entry => (scanPattern engine (compiled entry) [chapter]).1).getD 0).sum := by
  cases found with
  | none => simp
  | some entry => exact scanPattern_count engine (compiled entry) chapters

end Laws

end NovelRalph
