import NovelRalph.Commands.GuardedReads
import NovelRalph.Commands.Recount
import NovelRalph.Commands.Wordcount

/-!
# Faults outside the guards

`check`, `recount` and `wordcount` guard what they read, and divide outside the
guard; `check` also reads the paths of a record there. Each of them lets a fault
pass exactly where one of these steps raises.
-/

namespace NovelRalph

/-! ## Divisions -/

/-- The interpreter can divide, or does not: there is no target. -/
def RatioArithmetic.Divides (arith : RatioArithmetic) (numerator denominator : Int) : Prop :=
  0 < denominator → ∃ ratio, arith.quotient numerator denominator = some ratio

section Divisions

variable {arith : RatioArithmetic} {state : State}

theorem checkGateRatioConsistent_returns :
    (∃ found, checkGateRatioConsistent arith state = .ok found) ↔
      arith.Divides state.wordCounts.draftedTotal state.wordCounts.target := by
  unfold checkGateRatioConsistent RatioArithmetic.Divides
  by_cases positive : state.wordCounts.target ≤ 0
  · rw [if_pos positive]
    exact iff_of_true ⟨none, rfl⟩ fun other => absurd positive (by omega)
  · rw [if_neg positive]
    cases divided : arith.quotient state.wordCounts.draftedTotal state.wordCounts.target with
    | none =>
        refine iff_of_false ?_ fun divides => ?_
        · rintro ⟨found, returned⟩
          cases returned
        · obtain ⟨ratio, same⟩ := divides (by omega)
          cases same
    | some ratio =>
        refine iff_of_true ?_ fun _ => ⟨ratio, rfl⟩
        dsimp only
        split <;> exact ⟨_, rfl⟩

/-- The validator is contained when it can divide. -/
theorem contained_validateState : Contained (validateState arith state) ↔
    arith.Divides state.wordCounts.draftedTotal state.wordCounts.target := by
  rw [← checkGateRatioConsistent_returns]
  have overflows : ∀ fault, validateState arith state = .error fault → ¬fault.Handled := by
    intro fault raised
    rw [overflow_of_validateState_error raised]
    exact id
  rw [Contained, confined_iff_returns overflows]
  unfold validateState
  constructor
  · rintro ⟨verdict, returned⟩
    obtain ⟨found, ran, -⟩ := except_bind_eq_ok.mp returned
    have listed : checkGateRatioConsistent arith ∈ purePredicates arith := by simp [purePredicates]
    obtain ⟨answer, -, answered⟩ := result_of_mapM ran listed
    exact ⟨answer, answered⟩
  · rintro ⟨answer, answered⟩
    simp [purePredicates, answered, bind, Except.bind, pure, Except.pure]

variable (arith state) in
/-- The validator can spell what it reports, and divide. -/
structure Judgeable : Prop where
  spelled : ∀ number ∈ breachNumbers state, tooLong number = false
  divides : arith.Divides state.wordCounts.draftedTotal state.wordCounts.target

theorem contained_spelledVerdict :
    Contained (spelledVerdict arith state) ↔ Judgeable arith state := by
  refine (confined_bind.trans (and_congr_left fun _ => contained_spelled)).trans ?_
  constructor
  · rintro ⟨fits, validates⟩
    exact ⟨fits, contained_validateState.mp (validates () (spelled_eq_ok.mpr fits))⟩
  · rintro ⟨fits, divides⟩
    exact ⟨fits, fun _ _ => contained_validateState.mpr divides⟩

/-- What can be judged has a verdict. -/
theorem Judgeable.verdict (judgeable : Judgeable arith state) :
    ∃ verdict, spelledVerdict arith state = .ok verdict := by
  obtain ⟨fits, divides⟩ := judgeable
  cases validated : validateState arith state with
  | ok verdict => exact ⟨verdict, except_bind_eq_ok.mpr ⟨(), spelled_eq_ok.mpr fits, validated⟩⟩
  | error fault =>
      have handled := contained_validateState.mpr divides fault validated
      rw [overflow_of_validateState_error validated] at handled
      exact handled.elim

/-- A refusal is contained: a verdict is a state-input error. -/
theorem contained_refuseIfIncoherent {context : String} {remedy : State → List String} :
    Contained (refuseIfIncoherent (spelledVerdict arith) state context remedy) ↔ Judgeable arith state := by
  rw [← contained_spelledVerdict]
  unfold refuseIfIncoherent
  rw [Contained, confined_bind]
  refine and_iff_left_of_imp fun _ => ?_
  intro verdict _
  split
  · exact confined_ok
  · exact confined_error.mpr trivial

end Divisions

/-! ## `check` -/

section Check

variable {toml : Tomlkit} {arith : RatioArithmetic} {world : World toml.Text} {state : State}
  {disk : Disk}

/-- The derivation returns on the readable trees without an odd record. -/
theorem derives_iff : (∃ reconciliation, deriveReconciliation state disk = .ok reconciliation) ↔
    Readable state disk ∧ ¬OddRecord state disk := by
  constructor
  · rintro ⟨reconciliation, derives⟩
    have readable := readable_of_derive derives
    refine ⟨readable, (explanationReadable_iff readable).mp ?_⟩
    have derivation := (deriveReconciliation_iff readable).mp derives
    exact explanationReadable_of_classified (classifyFired_of_derivation readable derivation)
  · rintro ⟨readable, even⟩
    obtain ⟨reconciliation, derivation⟩ :=
      exists_derivation ((explanationReadable_iff readable).mpr even)
    exact ⟨reconciliation, (deriveReconciliation_iff readable).mpr derivation⟩

theorem contained_derive (reads : ∀ loc, Confined Fault.Caught (disk.read loc)) :
    Contained (deriveReconciliation state disk) ↔ Readable state disk ∧ ¬OddRecord state disk :=
  (contained_of_caught (caught_deriveReconciliation reads state)).trans derives_iff

/-- `check` lets a breach pass that cannot be spelled, an overflow of the recorded ratio, and a
record that cannot be read. -/
theorem contained_check (shows : Shows world state) : Contained (check arith world).result ↔
    Judgeable arith state ∧ ¬(Readable state world.disk ∧ OddRecord state world.disk) := by
  have report : Contained (check arith world).result ↔ Contained (checkReport arith world).result := by
    unfold check
    rw [Prog.result_bind_pure, Contained, confined_map]
  have detects : Contained (guardStateInput draftReadError (checkDiskEvidence state world.disk true)) :=
    contained_guard (caught_checkDiskEvidence caught_read state true)
  rw [report]
  unfold checkReport
  rw [Prog.bind_quiet world (loadOrStateError_of_shows shows), Prog.result_observe_bind]
  refine (confined_bind.trans (and_congr_left fun _ => contained_spelledVerdict)).trans ?_
  refine and_congr_right fun judgeable => ?_
  obtain ⟨verdict, validated⟩ := judgeable.verdict
  constructor
  · rintro contained ⟨readable, odd⟩
    have later := contained verdict validated
    obtain ⟨violations, detected, -⟩ := checkDiskEvidence_of_readable readable true
    rw [Prog.observe_bind_ok world (by rw [detected, guardStateInput_ok])] at later
    obtain ⟨pending, recorded, -⟩ := id odd
    have reported := pending_mem_violations detected (by rw [recorded]; rfl)
    have fired : violations ≠ [] := by
      rintro rfl
      exact absurd reported List.not_mem_nil
    rw [if_neg fired, Prog.result_bind_pure, confined_map, Prog.observe_apply] at later
    exact ((contained_derive caught_read).mp later).2 odd
  · intro kept pureState _
    rw [Prog.result_observe_bind]
    apply detects.bind
    intro violations detected
    rw [guardStateInput_eq_ok] at detected
    have readable := readable_of_detected detected
    by_cases silent : violations = []
    · rw [if_pos silent]
      exact confined_ok
    · rw [if_neg silent, Prog.result_bind_pure, confined_map, Prog.observe_apply]
      exact (contained_derive caught_read).mpr ⟨readable, fun odd => kept ⟨readable, odd⟩⟩

end Check

/-! ## `recount` and `wordcount` -/

section Counts

variable {toml : Tomlkit} {world : World toml.Text} {state : State}

/-- Every draft of the manifest can be read, or is missing. -/
def DraftsReadable (state : State) (disk : Disk) : Prop :=
  ∀ entry ∈ state.chapters, disk.DraftReadable entry.number

/-- What follows a guarded recount is contained when it is so for the counts of readable drafts. -/
theorem contained_after_recount {α : Type} {rest : Int × Dict String Int → Except Fault α} :
    Contained (guardStateInput draftReadError (world.disk.recountWords state.chapters) >>= rest) ↔
      (DraftsReadable state world.disk → Contained
        (rest ((world.disk.recountTable state.chapters).values.sum,
          world.disk.recountTable state.chapters))) := by
  have counts : Contained (guardStateInput draftReadError (world.disk.recountWords state.chapters)) :=
    contained_guard (caught_recountWords caught_read state.chapters)
  rw [Contained, confined_bind, and_iff_right counts]
  constructor
  · intro later drafts
    exact later _ (by rw [Disk.recountWords_of_readable drafts, guardStateInput_ok])
  · intro later counted returned
    rw [guardStateInput_eq_ok] at returned
    have drafts := Disk.readable_of_recountWords returned
    rw [Disk.recountWords_of_readable drafts, Except.ok.injEq] at returned
    exact returned ▸ later drafts

/-- A single-file mutator is contained when its plan is, and the state it proposes is judged. -/
theorem contained_mutateState {arith : RatioArithmetic} (shows : Shows world state)
    {plan : World toml.Text → State → Except Fault (MutationPlan State)} (proposed : State)
    (proposes : ∀ planned, plan world state = .ok planned → ∀ body, parseState body = .ok state →
      parseState (planned.edits.foldl Table.edit body) = .ok proposed) :
    Contained (mutateState arith plan world).result ↔ Contained (plan world state) ∧
      ∀ planned, plan world state = .ok planned → Judgeable arith proposed := by
  obtain ⟨document, viewed, run⟩ := opening_of_shows shows fun document prior => do
    let planned ← Prog.observe fun world => plan world prior
    let edited := document.editAll planned.edits
    let proposed ← stateViewOrStateError documentToState edited
    Prog.observe fun _ => refuseIfIncoherent (spelledVerdict arith) proposed planned.context planned.remedy
    writeDocumentAtomically edited
    return planned.outcome
  have opened := congrArg Run.result run
  rw [Prog.result_observe_bind] at opened
  have whole : (mutateState arith plan world).result = _ := opened
  rw [whole]
  refine confined_bind.trans (and_congr_right fun _ => forall₂_congr fun planned plans => ?_)
  have review : documentToState (document.editAll planned.edits) = .ok proposed := by
    rw [documentToState, Document.body_editAll]
    exact proposes planned plans _ viewed
  rw [stateViewOrStateError, Prog.observe_bind_ok world (by rw [review, guardStateInput_ok]),
    Prog.result_observe_bind]
  refine (confined_bind.trans (and_iff_left fun _ _ => ?_)).trans contained_refuseIfIncoherent
  have written : writeDocumentAtomically (document.editAll planned.edits) world =
      ⟨[World.withState shows.held _], .ok ()⟩ :=
    Prog.perform_ok _ (World.replaceState_of_held shows.held _)
  rw [Prog.bind_ok world written]
  exact confined_ok

/-- `recount` lets pass what the validator does of the state it proposes. -/
theorem contained_recount {arith : RatioArithmetic} (shows : Shows world state) :
    Contained (recount arith world).result ↔ (DraftsReadable state world.disk →
      Judgeable arith (state.recounted (world.disk.recountTable state.chapters))) := by
  unfold recount
  rw [contained_mutateState shows (state.recounted (world.disk.recountTable state.chapters))]
  · constructor
    · rintro ⟨-, judgeable⟩ drafts
      have counted : guardStateInput draftReadError (world.disk.recountWords state.chapters) =
          .ok ((world.disk.recountTable state.chapters).values.sum,
            world.disk.recountTable state.chapters) := by
        rw [Disk.recountWords_of_readable drafts, guardStateInput_ok]
      exact judgeable _ (except_bind_eq_ok.mpr ⟨_, counted, rfl⟩)
    · intro judgeable
      refine ⟨contained_after_recount.mpr fun _ => confined_ok, fun planned plans => ?_⟩
      obtain ⟨counted, returned, -⟩ := except_bind_eq_ok.mp plans
      rw [guardStateInput_eq_ok] at returned
      exact judgeable (Disk.readable_of_recountWords returned)
  · intro planned plans body parsed
    obtain ⟨counted, returned, built⟩ := except_bind_eq_ok.mp plans
    rw [guardStateInput_eq_ok] at returned
    rw [Disk.recountWords_of_readable (Disk.readable_of_recountWords returned), Except.ok.injEq]
      at returned
    subst returned
    cases built
    exact parse_recounted parsed _

/-- The report on these counts divides and rounds without an overflow. -/
structure ReportFits (arith : FloatArithmetic) (target : Int) (manifest : List ChapterEntry)
    (byChapter : Dict String Int) : Prop where
  total : arith.Divides byChapter.values.sum target
  distance : ∀ ratio next, 0 < target → arith.quotient byChapter.values.sum target = some ratio →
    (KnittingGate.all.find? fun gate => ratio < arith.threshold gate) = some next →
      ∃ distance, wordsToGo arith (arith.threshold next) byChapter.values.sum target = some distance
  chapters : ∀ entry ∈ manifest,
    arith.Divides ((byChapter.get? (padTwo entry.number)).getD 0) entry.targetWords
  /-- The summary spells a target that is set. -/
  spelled : 0 < target → tooLong target = false

section Report

variable {arith : FloatArithmetic} {target : Int} {manifest : List ChapterEntry}
  {byChapter : Dict String Int}

theorem overflow_of_percent_error {numerator denominator : Int} {fault : Fault}
    (raised : percent arith numerator denominator = .error fault) : fault = .overflowError := by
  unfold percent at raised
  split at raised
  · cases raised
  · split at raised <;> cases raised
    rfl

theorem percent_returns {numerator denominator : Int} :
    (∃ share, percent arith numerator denominator = .ok share) ↔
      arith.Divides numerator denominator := by
  unfold percent RatioArithmetic.Divides
  by_cases positive : denominator ≤ 0
  · rw [if_pos positive]
    exact iff_of_true ⟨none, rfl⟩ fun other => absurd positive (by omega)
  · rw [if_neg positive]
    cases divided : arith.quotient numerator denominator with
    | none =>
        refine iff_of_false ?_ fun divides => ?_
        · rintro ⟨share, returned⟩
          cases returned
        · obtain ⟨ratio, same⟩ := divides (by omega)
          cases same
    | some ratio => exact iff_of_true ⟨_, rfl⟩ fun _ => ⟨ratio, rfl⟩

theorem contained_percent {numerator denominator : Int} :
    Contained (percent arith numerator denominator) ↔ arith.Divides numerator denominator := by
  rw [← percent_returns]
  apply confined_iff_returns
  intro fault raised
  rw [overflow_of_percent_error raised]
  exact id

theorem contained_chapterReports : Contained (chapterReports arith manifest byChapter) ↔
    ∀ entry ∈ manifest,
      arith.Divides ((byChapter.get? (padTwo entry.number)).getD 0) entry.targetWords := by
  have row : ∀ entry, (∃ row, chapterReport arith byChapter entry = .ok row) ↔
      arith.Divides ((byChapter.get? (padTwo entry.number)).getD 0) entry.targetWords := by
    intro entry
    rw [← percent_returns]
    constructor
    · rintro ⟨row, returned⟩
      obtain ⟨share, divided, -⟩ := except_bind_eq_ok.mp returned
      exact ⟨share, divided⟩
    · rintro ⟨share, divided⟩
      exact ⟨_, except_bind_eq_ok.mpr ⟨share, divided, rfl⟩⟩
  have overflows : ∀ entry fault, chapterReport arith byChapter entry = .error fault →
      ¬fault.Handled := by
    intro entry fault raised
    unfold chapterReport at raised
    dsimp only at raised
    cases divided : percent arith ((byChapter.get? (padTwo entry.number)).getD 0)
        entry.targetWords with
    | ok share =>
        rw [divided] at raised
        cases raised
    | error other =>
        rw [divided] at raised
        cases raised
        rw [overflow_of_percent_error divided]
        exact id
  unfold chapterReports
  rw [Contained, confined_mapM fun entry _ => overflows entry]
  simp only [mem_sortedChapters, row]

theorem overflow_of_gateGeometry_error {current : Int} {fault : Fault}
    (raised : gateGeometry arith current target = .error fault) : fault = .overflowError := by
  unfold gateGeometry at raised
  split at raised
  · cases raised
  · split at raised
    · cases raised
      rfl
    · dsimp only at raised
      split at raised
      · cases raised
      · split at raised <;> cases raised
        rfl

theorem contained_gateGeometry {current : Int} : Contained (gateGeometry arith current target) ↔
    arith.Divides current target ∧ ∀ ratio next, 0 < target →
      arith.quotient current target = some ratio →
      (KnittingGate.all.find? fun gate => ratio < arith.threshold gate) = some next →
        ∃ distance, wordsToGo arith (arith.threshold next) current target = some distance := by
  unfold gateGeometry RatioArithmetic.Divides
  by_cases positive : target ≤ 0
  · rw [if_pos positive]
    refine iff_of_true confined_ok ⟨fun other => absurd positive (by omega), ?_⟩
    exact fun _ _ other => absurd positive (by omega)
  · rw [if_neg positive]
    have above : 0 < target := by omega
    cases divided : arith.quotient current target with
    | none =>
        refine iff_of_false (fun contained => contained _ rfl) ?_
        rintro ⟨divides, -⟩
        obtain ⟨ratio, same⟩ := divides above
        cases same
    | some ratio =>
        have single : (∀ other next, 0 < target → some ratio = some other →
            (KnittingGate.all.find? fun gate => other < arith.threshold gate) = some next →
              ∃ distance, wordsToGo arith (arith.threshold next) current target = some distance) ↔
            ∀ next, (KnittingGate.all.find? fun gate => ratio < arith.threshold gate) = some next →
              ∃ distance, wordsToGo arith (arith.threshold next) current target = some distance := by
          constructor
          · exact fun distances next => distances ratio next above rfl
          · intro distances other next _ same
            cases same
            exact distances next
        rw [single, and_iff_right fun _ => ⟨ratio, rfl⟩]
        dsimp only
        cases KnittingGate.all.find? fun gate => ratio < arith.threshold gate with
        | none => exact iff_of_true confined_ok nofun
        | some next =>
            dsimp only
            cases away : wordsToGo arith (arith.threshold next) current target with
            | none =>
                refine iff_of_false (fun contained => contained _ rfl) fun distances => ?_
                obtain ⟨distance, same⟩ := distances next rfl
                rw [away] at same
                cases same
            | some distance =>
                refine iff_of_true confined_ok fun other same => ?_
                cases same
                exact ⟨distance, away⟩

theorem contained_wordcountOutcome {report : WordcountReport} :
    Contained (wordcountOutcome arith report) ↔
      (report.cumulative.percentOfTarget.isSome = true →
        tooLong report.cumulative.target = false) := by
  refine (confined_bind.trans (and_iff_left fun _ _ => confined_ok)).trans ?_
  unfold cumulativeMessage
  cases report.cumulative.percentOfTarget with
  | none => exact iff_of_true confined_ok nofun
  | some share =>
      refine (confined_bind.trans (and_iff_left fun _ _ => confined_ok)).trans ?_
      exact contained_spelled.trans (by simp)

/-- The report is built where everything divides and rounds. -/
theorem contained_buildReport : Contained (buildReport arith target manifest byChapter) ↔
    (arith.Divides byChapter.values.sum target ∧ ∀ ratio next, 0 < target →
      arith.quotient byChapter.values.sum target = some ratio →
      (KnittingGate.all.find? fun gate => ratio < arith.threshold gate) = some next →
        ∃ distance, wordsToGo arith (arith.threshold next) byChapter.values.sum target =
          some distance) ∧
      ∀ entry ∈ manifest,
        arith.Divides ((byChapter.get? (padTwo entry.number)).getD 0) entry.targetWords := by
  have sequence : Contained (buildReport arith target manifest byChapter) ↔
      Contained (gateGeometry arith byChapter.values.sum target) ∧
      (∀ geometry, gateGeometry arith byChapter.values.sum target = .ok geometry →
        Contained (percent arith byChapter.values.sum target) ∧
        ∀ share, percent arith byChapter.values.sum target = .ok share →
          Contained (chapterReports arith manifest byChapter)) := by
    refine confined_bind.trans (and_congr_right fun _ => forall₂_congr fun geometry _ => ?_)
    refine confined_bind.trans (and_congr_right fun _ => forall₂_congr fun share _ => ?_)
    exact confined_bind.trans (and_iff_left fun _ _ => confined_ok)
  rw [sequence, contained_gateGeometry, contained_percent, contained_chapterReports]
  constructor
  · rintro ⟨⟨total, distance⟩, later⟩
    refine ⟨⟨total, distance⟩, ?_⟩
    obtain ⟨share, divided⟩ := percent_returns.mpr total
    have overflows : ∀ fault, gateGeometry arith byChapter.values.sum target = .error fault →
        ¬fault.Handled := by
      intro fault raised
      rw [overflow_of_gateGeometry_error raised]
      exact id
    obtain ⟨geometry, placed⟩ :=
      (confined_iff_returns overflows).mp (contained_gateGeometry.mpr ⟨total, distance⟩)
    exact (later geometry placed).2 share divided
  · rintro ⟨⟨total, distance⟩, chapters⟩
    exact ⟨⟨total, distance⟩, fun _ _ => ⟨total, fun _ _ => chapters⟩⟩

/-- Building the report raises nothing but overflows. -/
theorem confined_overflow_buildReport :
    Confined (· = Fault.overflowError) (buildReport arith target manifest byChapter) := by
  have share : ∀ numerator denominator,
      Confined (· = Fault.overflowError) (percent arith numerator denominator) :=
    fun _ _ _ => overflow_of_percent_error
  apply Confined.bind (fun _ => overflow_of_gateGeometry_error)
  intro geometry _
  apply (share _ _).bind
  intro shared _
  apply Confined.bind (Confined.mapM fun entry _ => (share _ _).bind fun _ _ => confined_ok)
  exact fun _ _ => confined_ok

/-- A report that is built is shown when its target can be spelled. -/
theorem contained_report : Contained (buildReport arith target manifest byChapter >>=
    wordcountOutcome arith) ↔ ReportFits arith target manifest byChapter := by
  have overflows : ∀ fault, buildReport arith target manifest byChapter = .error fault →
      ¬fault.Handled := by
    intro fault raised
    rw [confined_overflow_buildReport fault raised]
    exact id
  refine (confined_bind.trans (and_congr_left fun _ => contained_buildReport)).trans ?_
  constructor
  · rintro ⟨⟨⟨total, distance⟩, chapters⟩, shown⟩
    refine ⟨total, distance, chapters, fun positive => ?_⟩
    obtain ⟨report, built⟩ := (confined_iff_returns overflows).mp
      (contained_buildReport.mpr ⟨⟨total, distance⟩, chapters⟩)
    obtain ⟨same, shared⟩ := buildReport_share built
    rw [← same]
    exact contained_wordcountOutcome.mp (shown report built) (shared.mpr positive)
  · rintro ⟨total, distance, chapters, spelled⟩
    refine ⟨⟨⟨total, distance⟩, chapters⟩, fun report built => ?_⟩
    obtain ⟨same, shared⟩ := buildReport_share built
    refine contained_wordcountOutcome.mpr fun share => ?_
    rw [same]
    exact spelled (shared.mp share)

end Report

/-- `wordcount` lets the overflows of its report pass, and a target that cannot be spelled. -/
theorem contained_wordcount {arith : FloatArithmetic} (shows : Shows world state) :
    Contained (wordcount arith world).result ↔ (DraftsReadable state world.disk →
      ReportFits arith state.wordCounts.target state.chapters
        (world.disk.recountTable state.chapters)) := by
  have whole : (wordcount arith world).result =
      guardStateInput draftReadError (world.disk.recountWords state.chapters) >>= fun counted =>
        buildReport arith state.wordCounts.target state.chapters counted.2 >>=
          wordcountOutcome arith := by
    have rest : ∀ counted : Int × Dict String Int, ((do
        let report ← Prog.observe fun _ =>
          buildReport arith state.wordCounts.target state.chapters counted.2
        Prog.observe fun _ => wordcountOutcome arith report :
          Command toml (ReportOutcome WordcountReport)) world).result =
            buildReport arith state.wordCounts.target state.chapters counted.2 >>=
              wordcountOutcome arith := fun _ => Prog.result_observe_bind _ _ _
    unfold wordcount sourceStateAndDrafts
    rw [Prog.bind_assoc, Prog.bind_quiet world (loadOrStateError_of_shows shows), Prog.bind_assoc,
      Prog.result_observe_bind]
    exact congrArg _ (funext rest)
  rw [whole, contained_after_recount]
  exact forall_congr' fun _ => contained_report

end Counts

end NovelRalph
