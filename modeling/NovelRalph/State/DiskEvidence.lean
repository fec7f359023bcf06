import Mathlib.Data.String.Basic
import NovelRalph.State.CompileModel
import NovelRalph.State.Validate

/-!
# The disk-evidence detector

`checkDiskEvidence` decides whether a state has drifted from the working tree.
It is strict by default; the user-facing `check` relaxes the manifest bijection
while drafting, and re-keys the coverage rule off the directories on disk.

On a readable tree the detector is total, and the names it reports are
`evidence`, a list of independent yes-or-no questions in detector order.
-/

namespace NovelRalph

open InvariantName

/-- Two count tables agree on the keys they share. -/
def sharedKeysAgree (counted table : Dict String Int) : Bool :=
  counted.keys.all fun key =>
    match table.get? key with
    | none => true
    | some recorded => counted.get? key == some recorded

/-- The detail of a coverage violation at bijection; `none` when the key sets agree. -/
def coverageBreak (counted table : Dict String Int) : Option String :=
  let missing := counted.keys.toFinset \ table.keys.toFinset
  let extra := table.keys.toFinset \ counted.keys.toFinset
  if missing = ∅ ∧ extra = ∅ then none
  else some ("[word_counts].by_chapter key set diverges from the manifest drafts: missing " ++
    reprList reprText (sortedSet missing) ++ ", extra " ++ reprList reprText (sortedSet extra))

/-- `on_disk < manifest`, and the break is a coherent subset. -/
def properCoherentSubset (manifest onDisk : Finset Int) : Bool :=
  decide (onDisk ⊂ manifest) && (classifyBijection manifest onDisk).coherentSubset

/-- A proper subset is not the whole manifest. -/
theorem ne_of_properCoherentSubset {manifest onDisk : Finset Int}
    (proper : properCoherentSubset manifest onDisk = true) : manifest ≠ onDisk := by
  rintro rfl
  simp [properCoherentSubset] at proper

/-- `_drafted_subset_cover_violation`. -/
def draftedSubsetCoverViolation (state : State) (onDisk : Finset Int) : Option Violation :=
  let missing := onDisk.image padTwo \ state.wordCounts.byChapter.keys.toFinset
  if missing = ∅ then none
  else some {
    invariant := wordCountsCoverDrafts
    detail := "[word_counts].by_chapter omits a drafted chapter's key during a relaxed " ++
      "drafting subset: missing " ++ reprList reprText (sortedSet missing) }

section Predicates

variable (state : State) (disk : Disk)

/-- `_check_word_counts_match_drafts`. -/
def checkWordCountsMatchDrafts : Except Fault (Option Violation) := do
  let (_, byChapter) ← disk.recountWords state.chapters
  if sharedKeysAgree byChapter state.wordCounts.byChapter then return none
  else return some {
    invariant := wordCountsMatchDrafts
    detail := "[word_counts].by_chapter table is stale against the on-disk drafts" }

/-- `_check_word_counts_cover_drafts`. -/
def checkWordCountsCoverDrafts (relaxDrafting : Bool) : Except Fault (Option Violation) := do
  let onDisk ← disk.onDiskChapterNumbers
  if state.manifest = onDisk then
    let (_, byChapter) ← disk.recountWords state.chapters
    return (coverageBreak byChapter state.wordCounts.byChapter).map fun detail =>
      { invariant := wordCountsCoverDrafts, detail }
  else if relaxDrafting && state.phase.current = .drafting &&
      properCoherentSubset state.manifest onDisk then
    return draftedSubsetCoverViolation state onDisk
  else return none

/-- `_check_manifest_disk_bijection`. -/
def checkManifestDiskBijection (relaxDrafting : Bool) : Except Fault (Option Violation) := do
  let onDisk ← disk.onDiskChapterNumbers
  let broken := classifyBijection state.manifest onDisk
  if broken.isBijection then return none
  else if relaxDrafting && state.phase.current = .drafting && broken.coherentSubset then
    return none
  else do
    let detail ← broken.describe
    return some { invariant := manifestDiskBijection, detail }

/-- Whether one chapter of the loop in `_check_done_flag_without_draft` fires. -/
def doneFlagWithoutDraftAt (number : Int) : Except Fault Bool := do
  spelled [number]
  if disk.exists? (disk.chapterFile number "done.flag") then do
    let draft := disk.chapterFile number "draft.md"
    let drafted ← if disk.exists? draft then
        (do let text ← disk.read draft; return (splitWords text).length)
      else .ok 0
    return drafted = 0
  else .ok false

/-- `_check_done_flag_without_draft`. -/
def checkDoneFlagWithoutDraft : Except Fault (Option Violation) :=
  go state.chapters
where
  /-- The loop over the manifest. -/
  go : List ChapterEntry → Except Fault (Option Violation)
  | [] => .ok none
  | chapter :: rest => do
      if ← doneFlagWithoutDraftAt disk chapter.number then
        return some {
          invariant := doneFlagWithoutDraft
          detail := "chapter " ++ padTwo chapter.number ++
            " carries done.flag beside an empty or absent draft.md" }
      else go rest

/-- `_check_compiled_matches_drafts`. -/
def checkCompiledMatchesDrafts : Except Fault (Option Violation) := do
  match ← disk.compiledMatchesDrafts state.chapters with
  | .diverges => return some {
      invariant := compiledMatchesDrafts
      detail := "compiled.md is not the ordered concatenation of the present drafts" }
  | _ => return none

/-- `_check_pending_turn_cleared`. -/
def checkPendingTurnCleared : Option Violation :=
  state.pendingTurn.map fun pending => {
    invariant := pendingTurnCleared
    detail := "state records an uncleared pending_turn for " ++ reprText pending.operation }

/-- The cursor stands in a chapter whose non-zero scene or beat has no plan on disk. -/
def cursorPlanMissing : Bool :=
  let drafting := state.drafting
  let number := drafting.currentChapter
  if 0 < number ∧ number ≤ state.chapters.length then
    (0 < drafting.currentScene && !disk.exists? (disk.chapterFile number "scenes.md")) ||
      (0 < drafting.currentBeat && !disk.exists? (disk.chapterFile number "beats.md"))
  else false

/-- `_check_cursor_plan_present`. -/
def checkCursorPlanPresent : Option Violation :=
  if cursorPlanMissing state disk then
    some {
      invariant := cursorPlanPresent
      detail := "cursor chapter " ++ intText state.drafting.currentChapter ++
        " has a non-zero scene/beat without its on-disk scenes.md/beats.md plan" }
  else none

namespace Disk

/-- `working_dir / "log.md"`. -/
def logFile (disk : Disk) : Loc := "log.md" :: disk.working

end Disk

/-- `_check_log_present`. -/
def checkLogPresent : Option Violation :=
  if disk.exists? disk.logFile then none
  else some {
    invariant := logPresent
    detail := "log.md is absent beside a present state.toml (partial init)" }

/-- `_TAIL_PREDICATES`. -/
def tailPredicates : List (State → Disk → Except Fault (Option Violation)) :=
  [fun state disk => .ok (checkCursorPlanPresent state disk),
   checkDoneFlagWithoutDraft,
   checkCompiledMatchesDrafts,
   fun state _ => .ok (checkPendingTurnCleared state),
   checkWordCountsMatchDrafts,
   fun _ disk => .ok (checkLogPresent disk)]

/-- `check_disk_evidence`; the coverage predicate runs before the tail is consumed. -/
def checkDiskEvidence (relaxDraftingBijection : Bool) : Except Fault (List Violation) := do
  let head ← checkManifestDiskBijection state disk relaxDraftingBijection
  let cover ← checkWordCountsCoverDrafts state disk relaxDraftingBijection
  let tail ← tailPredicates.mapM fun predicate => predicate state disk
  return (head :: tail ++ [cover]).filterMap id

end Predicates

/-! ## The detector on a readable tree -/

/-- Every file the detector reads can be read. -/
structure FilesReadable (state : State) (disk : Disk) : Prop where
  drafts : ∀ entry ∈ state.chapters, disk.DraftReadable entry.number
  compiled : disk.exists? disk.compiledManuscript = true →
    ∃ text, disk.read disk.compiledManuscript = .ok text

/-- Some chapter directory is numbered with digits that `int` refuses. -/
def Disk.OddDigit (disk : Disk) : Prop :=
  ∃ suffix ∈ disk.chapterSuffixes, intOfDigits? suffix = none

/-- Every file the detector reads can be read, and so can the numbers of the chapter
directories. -/
structure Readable (state : State) (disk : Disk) : Prop extends FilesReadable state disk where
  names : ∀ suffix ∈ disk.chapterSuffixes, intOfDigits? suffix ≠ none

/-- What a tree of readable files lacks to be readable. -/
theorem FilesReadable.readable_iff {state : State} {disk : Disk} (files : FilesReadable state disk) :
    Readable state disk ↔ ¬disk.OddDigit := by
  constructor
  · rintro readable ⟨suffix, member, odd⟩
    exact readable.names suffix member odd
  · intro even
    exact ⟨files, fun suffix member odd => even ⟨suffix, member, odd⟩⟩

namespace Disk

/-- The chapter numbers on disk, when every suffix is a numeral. -/
def onDisk (disk : Disk) : Finset Int :=
  disk.chapterSuffixes.image fun suffix => ((intOfDigits? suffix).getD 0 : Int)

end Disk

section Total

variable (state : State) (disk : Disk)

/-- Whether the bijection predicate fires. -/
def bijectionBroken (relaxed : Bool) : Bool :=
  let broken := classifyBijection state.manifest disk.onDisk
  !broken.isBijection && !(relaxed && state.phase.current = .drafting && broken.coherentSubset)

/-- A done flag stands beside an empty or absent draft. -/
def doneWithoutDraft : Bool :=
  state.chapters.any fun chapter =>
    disk.exists? (disk.chapterFile chapter.number "done.flag") &&
      disk.draftWords chapter.number == 0

/-- The compiled manuscript is there and stale. -/
def compiledStale : Bool :=
  disk.exists? disk.compiledManuscript &&
    match disk.read disk.compiledManuscript with
    | .ok text => text != disk.compiledText state.chapters
    | .error _ => false

/-- A recorded count differs from its draft's. -/
def countsStale : Bool :=
  !sharedKeysAgree (disk.recountTable state.chapters) state.wordCounts.byChapter

/-- The recorded keys are not the ones the drafts call for. -/
def coverageBroken (relaxed : Bool) : Bool :=
  if state.manifest = disk.onDisk then
    (coverageBreak (disk.recountTable state.chapters) state.wordCounts.byChapter).isSome
  else
    relaxed && state.phase.current = .drafting &&
      properCoherentSubset state.manifest disk.onDisk &&
      (draftedSubsetCoverViolation state disk.onDisk).isSome

/-- Each name of the detector with whether it fires, in detector order. -/
def evidenceTable (relaxed : Bool) : List (InvariantName × Bool) :=
  [(manifestDiskBijection, bijectionBroken state disk relaxed),
   (cursorPlanPresent, cursorPlanMissing state disk),
   (doneFlagWithoutDraft, doneWithoutDraft state disk),
   (compiledMatchesDrafts, compiledStale state disk),
   (pendingTurnCleared, state.pendingTurn.isSome),
   (wordCountsMatchDrafts, countsStale state disk),
   (logPresent, !disk.exists? disk.logFile),
   (wordCountsCoverDrafts, coverageBroken state disk relaxed)]

/-- The names the detector reports on a readable tree. -/
def evidence (relaxed : Bool) : List InvariantName :=
  ((evidenceTable state disk relaxed).filter Prod.snd).map Prod.fst

end Total

section Readable

variable {state : State} {disk : Disk}

/-- Numerals on disk are read without a fault. -/
theorem onDiskChapterNumbers_of_readable (readable : Readable state disk) :
    disk.onDiskChapterNumbers = .ok disk.onDisk := by
  unfold Disk.onDiskChapterNumbers
  rw [if_neg]
  · rfl
  · rintro ⟨suffix, member, unreadable⟩
    exact readable.names suffix member unreadable

/-- Collecting the answers of a table of questions keeps the names that fire. -/
theorem filterMap_answers (table : List (InvariantName × Bool)) :
    (table.map fun question => if question.2 then some question.1 else none).filterMap id =
      (table.filter Prod.snd).map Prod.fst := by
  induction table with
  | nil => rfl
  | cons question rest inductionHypothesis =>
      obtain ⟨name, fires⟩ := question
      cases fires <;> simpa using inductionHypothesis

/-- A predicate reports nothing, or one violation of its own name, as a flag says. -/
def Reports (name : InvariantName) (fires : Bool) (outcome : Except Fault (Option Violation)) : Prop :=
  ∃ found, outcome = .ok found ∧ found.map Violation.invariant = if fires then some name else none

/-- The manifest numbers of readable drafts can be spelled. -/
theorem manifest_spelled (drafts : ∀ entry ∈ state.chapters, disk.DraftReadable entry.number)
    (number : Int) (member : number ∈ state.manifest) : tooLong number = false := by
  obtain ⟨entry, listed, rfl⟩ := List.mem_map.mp (List.mem_toFinset.mp member)
  exact (drafts entry listed).spelled

theorem checkManifestDiskBijection_reports (readable : Readable state disk) (relaxed : Bool) :
    Reports manifestDiskBijection (bijectionBroken state disk relaxed)
      (checkManifestDiskBijection state disk relaxed) := by
  unfold checkManifestDiskBijection bijectionBroken
  rw [onDiskChapterNumbers_of_readable readable]
  simp only [bind, Except.bind]
  by_cases whole : (classifyBijection state.manifest disk.onDisk).isBijection = true
  · exact ⟨none, by simp [whole, pure, Except.pure], by simp [whole]⟩
  · by_cases excused : (relaxed && state.phase.current = .drafting &&
        (classifyBijection state.manifest disk.onDisk).coherentSubset) = true
    · exact ⟨none, by simp only [whole, excused]; rfl, by simp only [whole, excused]; rfl⟩
    · have fits : ∀ number ∈ (classifyBijection state.manifest disk.onDisk).manifest,
          tooLong number = false := manifest_spelled readable.drafts
      obtain ⟨detail, described⟩ := BijectionBreak.describe_returns.mpr fits
      simp only [whole, excused, described]
      exact ⟨some _, rfl, rfl⟩

theorem checkDoneFlagWithoutDraft_reports (readable : Readable state disk) :
    Reports doneFlagWithoutDraft (doneWithoutDraft state disk)
      (checkDoneFlagWithoutDraft state disk) := by
  have atChapter : ∀ number, disk.DraftReadable number →
      doneFlagWithoutDraftAt disk number =
        .ok (disk.exists? (disk.chapterFile number "done.flag") && disk.draftWords number == 0) := by
    intro number draft
    unfold doneFlagWithoutDraftAt
    rw [draft.named]
    show (if _ then _ else _) = _
    by_cases flagged : disk.exists? (disk.chapterFile number "done.flag") = true
    · by_cases there : disk.exists? (disk.chapterFile number "draft.md") = true
      · have text := Disk.read_of_exists draft there
        have words : disk.draftWords number = (splitWords (disk.draftBody number)).length := by
          unfold Disk.draftWords
          rw [text]
        have empty : decide ((splitWords (disk.draftBody number)).length = 0) =
            (((splitWords (disk.draftBody number)).length : Int) == 0) := by
          rw [Bool.eq_iff_iff]
          simp
        simp only [flagged, there, text, words, if_true, Bool.true_and, bind, Except.bind, pure,
          Except.pure, empty]
      · have words := Disk.draftWords_of_not_exists (Bool.eq_false_iff.mpr there)
        simp [flagged, there, words, bind, Except.bind, pure, Except.pure]
    · simp [flagged]
  have loop : ∀ entries : List ChapterEntry,
      (∀ entry ∈ entries, disk.DraftReadable entry.number) →
      Reports doneFlagWithoutDraft
        (entries.any fun chapter => disk.exists? (disk.chapterFile chapter.number "done.flag") &&
          disk.draftWords chapter.number == 0)
        (checkDoneFlagWithoutDraft.go disk entries) := by
    intro entries
    induction entries with
    | nil => exact fun _ => ⟨none, rfl, rfl⟩
    | cons entry rest inductionHypothesis =>
        intro drafts
        have here := atChapter entry.number (drafts entry List.mem_cons_self)
        have later := inductionHypothesis fun other member =>
          drafts other (List.mem_cons_of_mem _ member)
        unfold checkDoneFlagWithoutDraft.go
        rw [here, List.any_cons]
        cases (disk.exists? (disk.chapterFile entry.number "done.flag") &&
          disk.draftWords entry.number == 0)
        · exact later
        · exact ⟨some _, rfl, rfl⟩
  exact loop state.chapters readable.drafts

theorem checkCompiledMatchesDrafts_reports (readable : Readable state disk) :
    Reports compiledMatchesDrafts (compiledStale state disk)
      (checkCompiledMatchesDrafts state disk) := by
  unfold checkCompiledMatchesDrafts compiledStale Disk.compiledMatchesDrafts
  by_cases there : disk.exists? disk.compiledManuscript = true
  · obtain ⟨text, found⟩ := readable.compiled there
    rw [Disk.presentDraftBodies_of_readable readable.drafts]
    simp only [there, found, if_true, bind, Except.bind, Bool.true_and]
    by_cases same : text = disk.compiledText state.chapters
    · refine ⟨none, ?_, by simp [same]⟩
      rw [if_pos (by simpa [Disk.compiledText] using same)]
      rfl
    · rw [if_neg (by simpa [Disk.compiledText] using same), bne_iff_ne.mpr same]
      exact ⟨some _, rfl, rfl⟩
  · simp only [there, Bool.false_and]
    exact ⟨none, rfl, rfl⟩

theorem checkWordCountsMatchDrafts_reports (readable : Readable state disk) :
    Reports wordCountsMatchDrafts (countsStale state disk)
      (checkWordCountsMatchDrafts state disk) := by
  unfold checkWordCountsMatchDrafts countsStale
  rw [Disk.recountWords_of_readable readable.drafts]
  simp only [bind, Except.bind]
  cases sharedKeysAgree (disk.recountTable state.chapters) state.wordCounts.byChapter
  · exact ⟨some _, rfl, rfl⟩
  · exact ⟨none, rfl, rfl⟩

theorem checkWordCountsCoverDrafts_reports (readable : Readable state disk) (relaxed : Bool) :
    Reports wordCountsCoverDrafts (coverageBroken state disk relaxed)
      (checkWordCountsCoverDrafts state disk relaxed) := by
  unfold checkWordCountsCoverDrafts coverageBroken
  rw [onDiskChapterNumbers_of_readable readable]
  simp only [bind, Except.bind]
  by_cases whole : state.manifest = disk.onDisk
  · rw [if_pos whole, if_pos whole, Disk.recountWords_of_readable readable.drafts]
    refine ⟨_, rfl, ?_⟩
    cases coverageBreak (disk.recountTable state.chapters) state.wordCounts.byChapter <;> rfl
  · rw [if_neg whole, if_neg whole]
    cases (relaxed && decide (state.phase.current = .drafting) &&
      properCoherentSubset state.manifest disk.onDisk)
    · exact ⟨none, rfl, rfl⟩
    · refine ⟨_, rfl, ?_⟩
      unfold draftedSubsetCoverViolation
      by_cases covered :
        disk.onDisk.image padTwo \ state.wordCounts.byChapter.keys.toFinset = ∅ <;> simp [covered]

/-- On a readable tree the detector returns, and reports exactly the evidence. -/
theorem checkDiskEvidence_of_readable (readable : Readable state disk) (relaxed : Bool) :
    ∃ violations, checkDiskEvidence state disk relaxed = .ok violations ∧
      violations.map Violation.invariant = evidence state disk relaxed := by
  obtain ⟨head, headOk, headName⟩ := checkManifestDiskBijection_reports readable relaxed
  obtain ⟨done, doneOk, doneName⟩ := checkDoneFlagWithoutDraft_reports readable
  obtain ⟨compiled, compiledOk, compiledName⟩ := checkCompiledMatchesDrafts_reports readable
  obtain ⟨counts, countsOk, countsName⟩ := checkWordCountsMatchDrafts_reports readable
  obtain ⟨cover, coverOk, coverName⟩ := checkWordCountsCoverDrafts_reports readable relaxed
  have cursorName : (checkCursorPlanPresent state disk).map Violation.invariant =
      if cursorPlanMissing state disk then some cursorPlanPresent else none := by
    unfold checkCursorPlanPresent
    cases cursorPlanMissing state disk <;> rfl
  have pendingName : (checkPendingTurnCleared state).map Violation.invariant =
      if state.pendingTurn.isSome then some pendingTurnCleared else none := by
    unfold checkPendingTurnCleared
    cases state.pendingTurn <;> rfl
  have logName : (checkLogPresent disk).map Violation.invariant =
      if !disk.exists? disk.logFile then some logPresent else none := by
    unfold checkLogPresent
    cases disk.exists? disk.logFile <;> rfl
  refine ⟨_, by simp only [checkDiskEvidence, tailPredicates, List.mapM_cons, List.mapM_nil, headOk,
    doneOk, compiledOk, countsOk, coverOk, bind, Except.bind, pure, Except.pure]; rfl, ?_⟩
  rw [List.map_filterMap]
  have answers := filterMap_answers (evidenceTable state disk relaxed)
  unfold evidence
  rw [← answers, evidenceTable]
  simp only [List.map_cons, List.map_nil, ← headName, ← cursorName, ← doneName, ← compiledName,
    ← pendingName, ← countsName, ← logName, ← coverName]
  rfl

/-- The detector returns only on a readable tree. -/
theorem readable_of_detected {relaxed : Bool} {violations : List Violation}
    (detected : checkDiskEvidence state disk relaxed = .ok violations) : Readable state disk := by
  obtain ⟨head, bijection, later⟩ := except_bind_eq_ok.mp detected
  obtain ⟨cover, -, later⟩ := except_bind_eq_ok.mp later
  obtain ⟨tail, consumed, -⟩ := except_bind_eq_ok.mp later
  have counts : checkWordCountsMatchDrafts ∈ tailPredicates := by simp [tailPredicates]
  have compiled : checkCompiledMatchesDrafts ∈ tailPredicates := by simp [tailPredicates]
  refine ⟨⟨fun entry member => ?_, fun there => ?_⟩, ?_⟩
  · obtain ⟨_, -, answered⟩ := result_of_mapM consumed counts
    obtain ⟨counted, recounts, -⟩ := except_bind_eq_ok.mp answered
    exact Disk.readable_of_recountWords recounts entry member
  · obtain ⟨_, -, answered⟩ := result_of_mapM consumed compiled
    obtain ⟨comparison, compared, -⟩ := except_bind_eq_ok.mp answered
    unfold Disk.compiledMatchesDrafts at compared
    rw [if_pos there] at compared
    obtain ⟨bodies, -, compared⟩ := except_bind_eq_ok.mp compared
    obtain ⟨text, read, -⟩ := except_bind_eq_ok.mp compared
    exact ⟨text, read⟩
  · obtain ⟨onDisk, listed, -⟩ := except_bind_eq_ok.mp bijection
    intro suffix member unreadable
    unfold Disk.onDiskChapterNumbers at listed
    rw [if_pos ⟨suffix, member, unreadable⟩] at listed
    cases listed

end Readable

end NovelRalph
