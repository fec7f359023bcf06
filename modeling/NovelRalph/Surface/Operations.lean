import NovelRalph.Commands.Compile
import NovelRalph.Commands.Desloppify
import NovelRalph.Contract.Runner
import NovelRalph.System.Runs

/-!
# The operations of the command line

Every leaf of the command surface with its bound arguments, its body, and the
payload the body's report is projected to. A payload is what reaches the harness,
so it is JSON; a decoded value that JSON has no form for would be a `TypeError`,
and no command ever puts one into its payload.
-/

namespace NovelRalph

/-! ## Payloads -/

mutual

/-- A decoded value as JSON, where it has a form; no payload holds a decoded float. -/
def Value.toJson? : Value → Option Json
  | .str text => some (.str text)
  | .int number => some (.int number)
  | .bool flag => some (.bool flag)
  | .float _ => none
  | .dateTime _ => none
  | .array items => (itemsToJson? items).map .array
  | .table entries => (entriesToJson? entries).map .object

def itemsToJson? : List Value → Option (List Json)
  | [] => some []
  | item :: rest =>
      match Value.toJson? item, itemsToJson? rest with
      | some item, some rest => some (item :: rest)
      | _, _ => none

def entriesToJson? : List (String × Value) → Option Payload
  | [] => some []
  | (key, value) :: rest =>
      match Value.toJson? value, entriesToJson? rest with
      | some value, some rest => some ((key, value) :: rest)
      | _, _ => none

end

/-- An integer or `None`. -/
def jsonOfInt? : Option Int → Json
  | some number => .int number
  | none => .null

section Floats

variable (spell : ℚ → FloatNumeral)

/-- A float as `json.dumps` spells it. -/
def jsonOfFloat : Float64 → Json
  | .finite value => .float (spell value)
  | .infinite negative => .infinite negative

/-- A float or `None`. -/
def jsonOfFloat? : Option Float64 → Json
  | some value => jsonOfFloat spell value
  | none => .null

/-! ### `wordcount` -/

/-- `_chapter_payload`. -/
def chapterPayload (chapter : ChapterReport) : Json :=
  .object [("number", .int chapter.number), ("words", .int chapter.words),
    ("target_words", .int chapter.targetWords),
    ("percent_of_chapter_target", jsonOfFloat? spell chapter.percentOfChapterTarget),
    ("delta_against_target", .int chapter.deltaAgainstTarget)]

/-- `_cumulative_payload`. -/
def cumulativePayload (arith : FloatArithmetic) (cumulative : CumulativeReport) : Json :=
  .object [("current", .int cumulative.current), ("target", .int cumulative.target),
    ("percent_of_target", jsonOfFloat? spell cumulative.percentOfTarget),
    ("gate_triggered_30", .bool (cumulative.gateTriggered .done30)),
    ("gate_triggered_50", .bool (cumulative.gateTriggered .done50)),
    ("gate_triggered_80", .bool (cumulative.gateTriggered .done80)),
    ("next_gate_threshold",
      jsonOfFloat? spell (cumulative.nextGate.map fun gate => .finite (arith.threshold gate))),
    ("next_gate_distance", jsonOfInt? cumulative.nextGateDistance)]

/-- The `result` of `_wordcount_report.report_outcome`. -/
def wordcountPayload (arith : FloatArithmetic) (report : WordcountReport) : Payload :=
  [("chapters", .array (report.chapters.map (chapterPayload spell))),
   ("cumulative", cumulativePayload spell arith report.cumulative)]

end Floats

/-! ### `desloppify` -/

/-- The `result` of `build_finding_outcome`. -/
def findingResult {Finding : Type} (extra : Payload) (identify : Finding → String)
    (payload : Finding → Json) (passed : Finding → Bool) (findings : List Finding) : Payload :=
  let failed := findings.filter fun finding => !passed finding
  extra ++ [("violations", .array (failed.map fun finding => .str (identify finding))),
    ("findings", .array (failed.map payload))]

/-- One entry of a finding's `lines`. -/
def lineHitPayload (hit : LineHit) : Json :=
  .object [("chapter", .int hit.chapter), ("line", .int hit.line)]

/-- `_desloppify_report._finding_payload`. -/
def ruleFindingPayload (spell : ℚ → FloatNumeral) (finding : RuleFinding) : Json :=
  .object [("rule_id", .str finding.ruleId), ("phrase", .str finding.pattern),
    ("count", .int finding.count), ("threshold", .int finding.threshold),
    ("basis", .str finding.basis.text), ("density", jsonOfFloat? spell finding.density),
    ("passed", .bool finding.passed), ("lines", .array (finding.lines.map lineHitPayload))]

/-- The `result` of `_desloppify_report.report_outcome`. -/
def detectionPayload (spell : ℚ → FloatNumeral) (report : DetectionReport) : Payload :=
  findingResult [("pack", .str report.pack), ("total_words", .int report.totalWords)]
    RuleFinding.ruleId (ruleFindingPayload spell) RuleFinding.passed report.findings

/-- The text of a ration kind. -/
def RationKind.text : RationKind → String
  | maxCount => "max_count"
  | allowedChapters => "allowed_chapters"
  | retiredAfterChapter => "retired_after_chapter"
  | reservedForChapter => "reserved_for_chapter"

/-- `ledger.report._finding_payload`. -/
def deviceFindingPayload (finding : DeviceFinding) : Json :=
  .object [("device_id", .str finding.deviceId), ("pattern", .str finding.pattern),
    ("count", .int finding.count), ("ration_kind", .str finding.rationKind.text),
    ("max_count", jsonOfInt? finding.maxCount),
    ("bound", match finding.bound with
      | some chapters => .array (chapters.map .int)
      | none => .null),
    ("offending_chapters", .array (finding.offendingChapters.map .int)),
    ("passed", .bool finding.passed), ("lines", .array (finding.lines.map lineHitPayload))]

/-- The `result` of `ledger_report_outcome`. -/
def ledgerPayload (report : LedgerReport) : Payload :=
  findingResult [] DeviceFinding.deviceId deviceFindingPayload DeviceFinding.passed report.findings

/-! ## Bodies -/

/-- What a process runs on: the libraries and the pack that is shipped. -/
structure Host where
  toml : Tomlkit
  tomllib : Tomllib
  engine : RegexEngine
  arith : FloatArithmetic
  /-- The `repr` of a finite float. -/
  spell : ℚ → FloatNumeral
  /-- The resource of `offenders_pack_path`. -/
  offendersPack : Resource

/-- The leaves of the command surface, with their arguments. -/
inductive Operation where
  | init (title slug : String) (targetWordCount : Int)
  | check
  | mutate (invocation : Invocation)
  | done
  | compile (check : Bool)
  | desloppify (chapter : Option Int) (pack ledger : Option Resource)
  | wordcount

section Bodies

variable {toml : Tomlkit}

/-- An outcome whose payload has a JSON form; serialising any other is a `TypeError`. -/
def wireOutcome (outcome : CommandOutcome) : Except ScanFault WireOutcome :=
  match entriesToJson? outcome.result with
  | some result => .ok ⟨outcome.code, result, outcome.messages⟩
  | none => .error (.raised .typeError)

/-- A body of the state commands, up to its serialised outcome. -/
def wired (program : Command toml CommandOutcome) :
    Prog (World toml.Text) ScanFault WireOutcome := do
  let outcome ← program.mapFault .raised
  Prog.observe fun _ => wireOutcome outcome

/-- The outcome of a report. -/
def reportWire {Report : Type} (payload : Report → Payload) (outcome : ReportOutcome Report) :
    WireOutcome where
  code := outcome.code
  result := match outcome.report with
    | some report => payload report
    | none => []
  messages := outcome.messages

/-- `_scan_or_usage`: a `DesloppifyUsageError` becomes a usage outcome. -/
def scanOrUsage (program : Prog (World toml.Text) ScanFault WireOutcome) :
    Prog (World toml.Text) ScanFault WireOutcome := do
  let ended ← Prog.attempt program
  Prog.observe fun _ =>
    match ended with
    | .ok outcome => .ok outcome
    | .error (.raised (.usageError messages)) => .ok (usageWireOutcome messages)
    | .error fault => .error fault

end Bodies

namespace Host

variable (host : Host)

/-- `_dispatch`. -/
def dispatchScan (chapter : Option Int) (pack ledger : Option Resource) :
    Prog (World host.toml.Text) ScanFault WireOutcome :=
  match ledger with
  | some path =>
      match chapter with
      | some _ => .raise (.raised (.usageError
          ["--ledger enforces the whole-manuscript device ration and cannot be combined with " ++
            "--chapter"]))
      | none => ledgerScan host.engine host.tomllib path >>= fun outcome =>
          pure (reportWire ledgerPayload outcome)
  | none =>
      desloppify host.engine host.arith host.tomllib (pack.getD host.offendersPack) chapter >>=
        fun outcome => pure (reportWire (detectionPayload host.spell) outcome)

/-- The body of an operation, with the clock it reads. -/
def body (now : String) : Operation → Prog (World host.toml.Text) ScanFault WireOutcome
  | .init title slug targetWordCount => wired (initCommand now title slug targetWordCount)
  | .check => wired (NovelRalph.check host.arith.toRatioArithmetic)
  | .mutate invocation => wired (invocation.run host.arith.toRatioArithmetic now)
  | .done => wired novelDone
  | .compile true => wired checkCompiled
  | .compile false => wired compileManuscript
  | .desloppify chapter pack ledger => scanOrUsage (host.dispatchScan chapter pack ledger)
  | .wordcount => (NovelRalph.wordcount host.arith).mapFault .raised >>= fun outcome =>
      pure (reportWire (wordcountPayload host.spell host.arith) outcome)

end Host

end NovelRalph
