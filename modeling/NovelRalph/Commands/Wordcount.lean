import NovelRalph.Commands.Check
import NovelRalph.State.Floats

/-!
# `wordcount`

A read-only report: one row for every manifest chapter, the drafted total, and
how far the drafts are from the next knitting gate. The gates reported are
triggers derived from the drafts; the recorded flags are not read.
-/

namespace NovelRalph

/-- A command outcome whose payload is still the typed report it is rendered from. -/
structure ReportOutcome (Report : Type) where
  code : ExitCode
  report : Option Report
  messages : List String

/-- `ChapterReport`. -/
structure ChapterReport where
  number : Int
  words : Int
  targetWords : Int
  percentOfChapterTarget : Option Float64
  deltaAgainstTarget : Int
  deriving DecidableEq

/-- `CumulativeReport`. -/
structure CumulativeReport where
  current : Int
  target : Int
  percentOfTarget : Option Float64
  /-- The three `gate_triggered_…` flags. -/
  gateTriggered : KnittingGate → Bool
  nextGate : Option KnittingGate
  nextGateDistance : Option Int

/-- `WordcountReport`. -/
structure WordcountReport where
  chapters : List ChapterReport
  cumulative : CumulativeReport

section Report

variable (arith : FloatArithmetic)

/-- `_percent`. -/
def percent (numerator denominator : Int) : Except Fault (Option Float64) :=
  if denominator ≤ 0 then .ok none
  else
    match arith.quotient numerator denominator with
    | none => .error .overflowError
    | some ratio => .ok (some (.ofRounded ratio (arith.hundredfold ratio)))

/-- One row of `_chapter_reports`. -/
def chapterReport (byChapter : Dict String Int) (entry : ChapterEntry) :
    Except Fault ChapterReport := do
  let words := (byChapter.get? (padTwo entry.number)).getD 0
  let percentOfChapterTarget ← percent arith words entry.targetWords
  return {
    number := entry.number
    words
    targetWords := entry.targetWords
    percentOfChapterTarget
    deltaAgainstTarget := words - entry.targetWords }

/-- `_chapter_reports`. -/
def chapterReports (manifest : List ChapterEntry) (byChapter : Dict String Int) :
    Except Fault (List ChapterReport) :=
  (sortedChapters manifest).mapM (chapterReport arith byChapter)

/-- `math.ceil(threshold * target - current)`: an integer or a product that is too large for a
float, and the ceiling of an infinity, all overflow. -/
def wordsToGo (threshold : ℚ) (current target : Int) : Option Int := do
  let targetFloat ← arith.rounded target
  let product ← arith.rounded (threshold * targetFloat)
  let currentFloat ← arith.rounded current
  let difference ← arith.rounded (product - currentFloat)
  return difference.ceil

/-- `_gate_geometry`: the triggers, the next gate and the distance to it. -/
def gateGeometry (current target : Int) :
    Except Fault ((KnittingGate → Bool) × Option KnittingGate × Option Int) :=
  if target ≤ 0 then .ok (fun _ => false, none, none)
  else
    match arith.quotient current target with
    | none => .error .overflowError
    | some ratio =>
        let triggers gate := decide (arith.threshold gate ≤ ratio)
        match KnittingGate.all.find? fun gate => ratio < arith.threshold gate with
        | none => .ok (triggers, none, none)
        | some next =>
            match wordsToGo arith (arith.threshold next) current target with
            | none => .error .overflowError
            | some distance => .ok (triggers, some next, some (max 0 distance))

/-- `build_report`. -/
def buildReport (target : Int) (manifest : List ChapterEntry) (byChapter : Dict String Int) :
    Except Fault WordcountReport := do
  let current := byChapter.values.sum
  let (gateTriggered, nextGate, nextGateDistance) ← gateGeometry arith current target
  let percentOfTarget ← percent arith current target
  let chapters ← chapterReports arith manifest byChapter
  return {
    chapters
    cumulative := { current, target, percentOfTarget, gateTriggered, nextGate, nextGateDistance } }

/-- `_cumulative_message`. -/
def cumulativeMessage (cumulative : CumulativeReport) : Except Fault String :=
  match cumulative.percentOfTarget with
  | none => .ok ("drafted " ++ intText cumulative.current ++ " words (no target set)")
  | some share => do
      spelled [cumulative.target]
      let drafted := "drafted " ++ intText cumulative.current ++ " of " ++
        intText cumulative.target ++ " words (" ++ share.fixed 1 ++ "% of target); "
      return match cumulative.nextGateDistance with
      | none => drafted ++ "all knitting gates reached"
      | some distance =>
          let threshold := (cumulative.nextGate.map arith.threshold).getD 0
          drafted ++ "next knitting gate at " ++
            wholeText ((arith.hundredfold threshold).getD 0) ++ "% (" ++ intText distance ++
            " words to go)"

/-- `report_outcome`. -/
def wordcountOutcome (report : WordcountReport) : Except Fault (ReportOutcome WordcountReport) := do
  let message ← cumulativeMessage arith report.cumulative
  return { code := .success, report := some report, messages := [message] }

end Report

section Command

variable {toml : Tomlkit} (arith : FloatArithmetic)

/-- `source_state_and_drafts`, with `_recount_or_state_error`. -/
def sourceStateAndDrafts : Command toml (Int × List ChapterEntry × Dict String Int) := do
  let state ← loadOrStateError
  let (_, byChapter) ← Prog.observe fun world =>
    guardStateInput draftReadError (world.disk.recountWords state.chapters)
  return (state.wordCounts.target, state.chapters, byChapter)

/-- `_wordcount`. -/
def wordcount : Command toml (ReportOutcome WordcountReport) := do
  let (target, manifest, byChapter) ← sourceStateAndDrafts
  let report ← Prog.observe fun _ => buildReport arith target manifest byChapter
  Prog.observe fun _ => wordcountOutcome arith report

end Command

/-! ## What the report says -/

section Laws

variable {arith : FloatArithmetic} {target : Int} {manifest : List ChapterEntry}
  {byChapter : Dict String Int} {report : WordcountReport}

/-- The cumulative count is the sum of the table. -/
theorem buildReport_current (built : buildReport arith target manifest byChapter = .ok report) :
    report.cumulative.current = byChapter.values.sum := by
  obtain ⟨geometry, -, built⟩ := except_bind_eq_ok.mp built
  obtain ⟨share, -, built⟩ := except_bind_eq_ok.mp built
  obtain ⟨rows, -, returned⟩ := except_bind_eq_ok.mp built
  cases returned
  rfl

/-- The cumulative row has a share of the target when one is set. -/
theorem buildReport_share (built : buildReport arith target manifest byChapter = .ok report) :
    report.cumulative.target = target ∧
      (report.cumulative.percentOfTarget.isSome = true ↔ 0 < target) := by
  obtain ⟨geometry, -, built⟩ := except_bind_eq_ok.mp built
  obtain ⟨share, divided, built⟩ := except_bind_eq_ok.mp built
  obtain ⟨rows, -, returned⟩ := except_bind_eq_ok.mp built
  cases returned
  refine ⟨rfl, ?_⟩
  show share.isSome = true ↔ 0 < target
  unfold percent at divided
  split at divided
  · next unset =>
      cases divided
      simpa using unset
  · next positive =>
      split at divided <;> cases divided
      simpa using positive

/-- The rows hold what the table says of each chapter, in ascending order. -/
theorem buildReport_words (built : buildReport arith target manifest byChapter = .ok report) :
    report.chapters.map ChapterReport.words = (sortedChapters manifest).map fun entry =>
      (byChapter.get? (padTwo entry.number)).getD 0 := by
  have row : ∀ entry row, chapterReport arith byChapter entry = .ok row →
      row.words = (byChapter.get? (padTwo entry.number)).getD 0 := by
    intro entry row built
    obtain ⟨share, -, returned⟩ := except_bind_eq_ok.mp built
    cases returned
    rfl
  have rows : ∀ entries reports, List.mapM (chapterReport arith byChapter) entries = .ok reports →
      reports.map ChapterReport.words = entries.map fun entry =>
        (byChapter.get? (padTwo entry.number)).getD 0 := by
    intro entries
    induction entries with
    | nil =>
        intro reports built
        cases built
        rfl
    | cons entry rest inductionHypothesis =>
        intro reports built
        rw [List.mapM_cons] at built
        obtain ⟨head, first, built⟩ := except_bind_eq_ok.mp built
        obtain ⟨tail, later, returned⟩ := except_bind_eq_ok.mp built
        cases returned
        rw [List.map_cons, List.map_cons, row entry head first, inductionHypothesis tail later]
  obtain ⟨geometry, -, built⟩ := except_bind_eq_ok.mp built
  obtain ⟨share, -, built⟩ := except_bind_eq_ok.mp built
  obtain ⟨reports, listed, returned⟩ := except_bind_eq_ok.mp built
  cases returned
  exact rows _ _ listed

end Laws

end NovelRalph
