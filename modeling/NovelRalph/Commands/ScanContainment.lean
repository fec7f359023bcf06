import NovelRalph.Commands.Desloppify
import NovelRalph.Commands.GuardedReads

/-!
# Faults outside the guard of a scan

`desloppify` guards what it reads of the manuscript. What its loaders do not
translate leaves it, and so do an overflow of a density and a number of a message
that cannot be spelled.
-/

namespace NovelRalph

/-! ## `desloppify` -/

/-- A scan that returns, or raises what the runner turns into an exit code. -/
def ScanFault.Handled : ScanFault → Prop
  | .raised fault => fault.Handled
  | .load _ => False

instance : DecidablePred ScanFault.Handled
  | .raised fault => inferInstanceAs (Decidable fault.Handled)
  | .load _ => isFalse id

section Scan

variable {toml : Tomlkit} {world : World toml.Text} {state : State} {engine : RegexEngine}
  {arith : FloatArithmetic} {tomllib : Tomllib}

/-- The density of a page rule divides and rounds without an overflow. -/
structure PageFits (arith : FloatArithmetic) (rule : Rule engine) (count : Nat)
    (totalWords : Int) : Prop where
  divides : rule.pageWords.getD 0 ≠ 0 →
    ∃ pages, arith.quotient totalWords (rule.pageWords.getD 0) = some pages
  rounds : ∀ pages, rule.pageWords.getD 0 ≠ 0 →
    arith.quotient totalWords (rule.pageWords.getD 0) = some pages → 0 < pages →
      ∃ hits, arith.rounded count = some hits

theorem contained_pageDensity {rule : Rule engine} {count : Nat} {totalWords : Int} :
    Contained (pageDensity arith rule count totalWords) ↔ PageFits arith rule count totalWords := by
  unfold pageDensity
  dsimp only
  by_cases unpaged : rule.pageWords.getD 0 = 0
  · rw [if_pos unpaged]
    exact iff_of_true confined_ok
      ⟨fun paged => absurd unpaged paged, fun _ paged => absurd unpaged paged⟩
  · rw [if_neg unpaged]
    cases divided : arith.quotient totalWords (rule.pageWords.getD 0) with
    | none =>
        refine iff_of_false (fun contained => contained _ rfl) fun fits => ?_
        obtain ⟨pages, same⟩ := fits.divides unpaged
        rw [divided] at same
        cases same
    | some pages =>
        have fits : PageFits arith rule count totalWords ↔
            (0 < pages → ∃ hits, arith.rounded count = some hits) := by
          constructor
          · exact fun fits => fits.rounds pages unpaged divided
          · intro rounds
            refine ⟨fun _ => ⟨pages, divided⟩, fun other _ same => ?_⟩
            rw [divided, Option.some.injEq] at same
            exact same ▸ rounds
        rw [fits]
        show Contained (if 0 < pages then _ else _ : Except Fault (Float64 × Bool)) ↔ _
        by_cases positive : 0 < pages
        · rw [if_pos positive]
          cases rounded : arith.rounded count with
          | none =>
              refine iff_of_false (fun contained => contained _ rfl) fun rounds => ?_
              obtain ⟨hits, same⟩ := rounds positive
              cases same
          | some hits => exact iff_of_true confined_ok fun _ => ⟨hits, rfl⟩
        · rw [if_neg positive]
          exact iff_of_true confined_ok fun other => absurd other positive

theorem overflow_of_pageDensity_error {rule : Rule engine} {count : Nat} {totalWords : Int}
    {fault : Fault} (raised : pageDensity arith rule count totalWords = .error fault) :
    fault = .overflowError := by
  unfold pageDensity at raised
  dsimp only at raised
  split at raised
  · dsimp only [bind, Except.bind] at raised
    rw [if_neg (lt_irrefl 0)] at raised
    cases raised
  · cases divided : arith.quotient totalWords (rule.pageWords.getD 0) with
    | none =>
        rw [divided] at raised
        cases raised
        rfl
    | some pages =>
        rw [divided] at raised
        dsimp only [bind, Except.bind] at raised
        split at raised
        · split at raised <;> cases raised
          rfl
        · cases raised

/-- The densities of the page rules of a pack fit, over these texts. -/
def PackFits (arith : FloatArithmetic) (pack : RulePack engine) (chapters : List ScannedChapter) :
    Prop :=
  ∀ rule ∈ pack.rules.list, rule.basis = .perPage →
    PageFits arith rule (scanPattern engine rule.compiled chapters).1 (scannedWords chapters)

theorem contained_detect {pack : RulePack engine} {chapters : List ScannedChapter} :
    Contained (detect arith pack chapters) ↔ PackFits arith pack chapters := by
  have measured : ∀ (rule : Rule engine) (count : Nat) (lines : List LineHit),
      Contained (ruleFinding arith rule count lines (scannedWords chapters)) ↔
        (rule.basis = .perPage → PageFits arith rule count (scannedWords chapters)) := by
    intro rule count lines
    refine (confined_bind.trans (and_iff_left fun _ _ => confined_ok)).trans ?_
    unfold ruleMeasure
    cases basis : rule.basis with
    | perPage =>
        rw [confined_map, forall_prop_of_true rfl]
        exact contained_pageDensity
    | manuscript => exact iff_of_true confined_ok nofun
  have findings : Contained (detect arith pack chapters) ↔ Contained (pack.rules.list.mapM fun rule =>
      ruleFinding arith rule (scanPattern engine rule.compiled chapters).1
        (scanPattern engine rule.compiled chapters).2 (scannedWords chapters)) :=
    confined_bind.trans (and_iff_left fun _ _ => confined_ok)
  have overflows : ∀ (rule : Rule engine) (count : Nat) (lines : List LineHit) (fault : Fault),
      ruleFinding arith rule count lines (scannedWords chapters) = .error fault → ¬fault.Handled := by
    intro rule count lines fault raised
    cases measure : ruleMeasure arith rule count (scannedWords chapters) with
    | ok value =>
        unfold ruleFinding at raised
        rw [measure] at raised
        cases raised
    | error other =>
        unfold ruleFinding at raised
        rw [measure] at raised
        cases raised
        unfold ruleMeasure at measure
        cases basis : rule.basis with
        | manuscript =>
            rw [basis] at measure
            cases measure
        | perPage =>
            rw [basis] at measure
            cases density : pageDensity arith rule count (scannedWords chapters) with
            | ok value => simp [density, Except.map] at measure
            | error fault =>
                simp only [density, Except.map, Except.error.injEq] at measure
                rw [← measure, overflow_of_pageDensity_error density]
                exact id
  rw [findings, Contained, confined_mapM fun rule _ => overflows rule _ _]
  refine forall₂_congr fun rule _ => ?_
  rw [← measured rule _ (scanPattern engine rule.compiled chapters).2]
  exact (confined_iff_returns (overflows rule _ _)).symm

theorem caught_scannedChapters {disk : Disk} (reads : ∀ loc, Confined Fault.Caught (disk.read loc))
    (selected : List ChapterEntry) : Confined Fault.Caught (disk.scannedChapters selected) := by
  apply Confined.mapM
  intro entry _
  refine Confined.bind ((caught_spelled _).bind fun _ _ => ?_) fun _ _ => confined_ok
  intro fault raised
  split at raised
  · cases raised
  · cases raised
  · next other _ found =>
      cases raised
      exact reads _ _ found

/-- Drafts are sourced only where all of them are readable. -/
theorem readable_of_scannedChapters {disk : Disk} {selected : List ChapterEntry}
    {texts : List ScannedChapter} (sourced : disk.scannedChapters selected = .ok texts) :
    ∀ entry ∈ selected, disk.DraftReadable entry.number := by
  intro entry member
  obtain ⟨text, -, step⟩ := result_of_mapM sourced member
  obtain ⟨body, read, -⟩ := except_bind_eq_ok.mp step
  obtain ⟨_, named, read⟩ := except_bind_eq_ok.mp read
  refine ⟨spelled_singleton.mp named, ?_⟩
  split at read
  · next text found => exact Or.inl ⟨text, found⟩
  · next missing => exact Or.inr missing
  · cases read

/-- The chapter is one of the manifest, or the message that it is none can be spelled. -/
def SelectionSpelled (manifest : List ChapterEntry) (chapter : Option Int) : Prop :=
  ∀ number, chapter = some number → (∃ entry ∈ manifest, entry.number = number) ∨
    tooLong number = false ∧ ∀ entry ∈ manifest, tooLong entry.number = false

theorem contained_selectChapters {manifest : List ChapterEntry} {chapter : Option Int} :
    Contained (selectChapters manifest chapter) ↔ SelectionSpelled manifest chapter := by
  cases chapter with
  | none => exact iff_of_true confined_ok nofun
  | some number =>
      have single : SelectionSpelled manifest (some number) ↔
          (∃ entry ∈ manifest, entry.number = number) ∨
            tooLong number = false ∧ ∀ entry ∈ manifest, tooLong entry.number = false :=
        ⟨fun spelled => spelled number rfl, fun spelled other same => Option.some.inj same ▸ spelled⟩
      have listed : ((sortedChapters manifest).filter fun entry => entry.number = number) = [] ↔
          ¬∃ entry ∈ manifest, entry.number = number := by
        simp [List.filter_eq_nil_iff, mem_sortedChapters]
      rw [single]
      unfold selectChapters
      dsimp only
      by_cases absent : ((sortedChapters manifest).filter fun entry => entry.number = number) = []
      · rw [if_pos absent, or_iff_right (listed.mp absent)]
        refine (confined_bind.trans (and_iff_left fun _ _ => confined_error.mpr trivial)).trans ?_
        refine contained_spelled.trans ?_
        rw [List.forall_mem_append, List.forall_mem_map, List.forall_mem_singleton,
          and_comm]
        simp only [mem_sortedChapters]
      · rw [if_neg absent]
        exact iff_of_true confined_ok (Or.inl (not_not.mp (mt listed.mpr absent)))

/-- What follows the sourcing of chapters is contained when it is so for readable drafts. -/
theorem contained_after_sourcing (shows : Shows world state) {chapter : Option Int} {α : Type}
    {rest : List ScannedChapter → Command toml α} :
    Contained ((sourceChapters chapter >>= rest) world).result ↔
      SelectionSpelled state.chapters chapter ∧
      ∀ selected, selectChapters state.chapters chapter = .ok selected →
        (∀ entry ∈ selected, world.disk.DraftReadable entry.number) →
        Contained (rest (selected.map fun entry =>
          ⟨entry.number, world.disk.draftBody entry.number⟩) world).result := by
  have whole : ((sourceChapters chapter >>= rest) world).result =
      selectChapters state.chapters chapter >>= fun selected =>
        guardStateInput draftReadError (world.disk.scannedChapters selected) >>= fun texts =>
          (rest texts world).result := by
    have later : ∀ selected : List ChapterEntry, (((Prog.observe fun world =>
        guardStateInput draftReadError (world.disk.scannedChapters selected)) >>= rest)
          world).result =
        guardStateInput draftReadError (world.disk.scannedChapters selected) >>= fun texts =>
          (rest texts world).result := fun _ => Prog.result_observe_bind _ _ _
    unfold sourceChapters
    rw [Prog.bind_assoc, Prog.bind_quiet world (loadOrStateError_of_shows shows), Prog.bind_assoc,
      Prog.result_observe_bind]
    exact congrArg _ (funext later)
  rw [whole]
  refine (confined_bind.trans (and_congr_left fun _ => contained_selectChapters)).trans ?_
  refine and_congr_right fun _ => forall₂_congr fun selected _ => ?_
  refine (confined_bind.trans (and_iff_right
    (contained_guard (caught_scannedChapters caught_read selected)))).trans ?_
  constructor
  · intro continued readable
    exact continued _ (by rw [Disk.scannedChapters_of_readable readable, guardStateInput_ok])
  · intro fits texts read
    rw [guardStateInput_eq_ok] at read
    have readable := readable_of_scannedChapters read
    rw [Disk.scannedChapters_of_readable readable, Except.ok.injEq] at read
    exact read ▸ fits readable

/-- A finding outcome is contained when the numbers of each failed finding can be spelled. -/
theorem contained_buildFindingOutcome {Report Finding : Type} {report : Report}
    {findings : List Finding} {passed : Finding → Bool} {spells : Finding → List Int}
    {describe : Finding → String} {cleanMessage : String} :
    Contained (buildFindingOutcome report findings passed spells describe cleanMessage) ↔
      ∀ finding ∈ findings, passed finding = false →
        ∀ number ∈ spells finding, tooLong number = false := by
  refine (confined_bind.trans (and_iff_left fun _ _ => confined_ok)).trans ?_
  refine contained_spelled.trans ?_
  constructor
  · intro all finding member fails number spelled
    refine all number (List.mem_flatMap.mpr ⟨finding, ?_, spelled⟩)
    exact List.mem_filter.mpr ⟨member, by rw [fails]; rfl⟩
  · intro each number member
    obtain ⟨finding, failed, spelled⟩ := List.mem_flatMap.mp member
    obtain ⟨listed, fails⟩ := List.mem_filter.mp failed
    exact each finding listed (by simpa using fails) number spelled

/-- The densities of a pack fit over these texts, and what its findings say can be spelled. -/
structure PackShown (arith : FloatArithmetic) (pack : RulePack engine)
    (chapters : List ScannedChapter) : Prop where
  fits : PackFits arith pack chapters
  spelled : ∀ report, detect arith pack chapters = .ok report →
    ∀ finding ∈ report.findings, finding.passed = false →
      ∀ number ∈ finding.spells, tooLong number = false

theorem contained_packScan {pack : RulePack engine} {chapters : List ScannedChapter} :
    Contained (detect arith pack chapters >>= detectionOutcome) ↔ PackShown arith pack chapters := by
  refine (confined_bind.trans (and_congr contained_detect
    (forall₂_congr fun _ _ => contained_buildFindingOutcome))).trans ?_
  exact ⟨fun shown => ⟨shown.1, shown.2⟩, fun shown => ⟨shown.fits, shown.spelled⟩⟩

/-- What the findings of a ledger over these texts say can be spelled. -/
def LedgerShown (ledger : DeviceLedger engine) (chapters : List ScannedChapter) : Prop :=
  ∀ finding ∈ (detectLedger ledger chapters).findings, finding.passed = false →
    ∀ number ∈ finding.spells, tooLong number = false

/-- A scan whose own faults are named keeps those faults. -/
theorem handled_mapFault {Text α : Type} {body : Prog Text Fault α} {at' : Text} :
    Confined ScanFault.Handled (Prog.mapFault ScanFault.raised body at').result ↔
      Contained (body at').result := by
  show Confined ScanFault.Handled (Except.mapError ScanFault.raised (body at').result) ↔ _
  cases (body at').result with
  | ok report => exact iff_of_true confined_ok confined_ok
  | error fault =>
      have handled : Contained (.error fault : Except Fault α) ↔ fault.Handled := confined_error
      exact confined_error.trans handled.symm

/-- `desloppify` lets pass what its loader lets pass, the overflows of its densities, and the
numbers of its messages that cannot be spelled. -/
theorem contained_desloppify (shows : Shows world state) {pack : Resource} {chapter : Option Int} :
    Confined ScanFault.Handled (desloppify engine arith tomllib pack chapter world).result ↔
      (¬pack.NotUtf8 ∧ ¬tomllib.Refuses pack ∧
        ∀ raw, tomllib.Decodes pack raw → ¬PackSlips engine raw) ∧
      ∀ rulepack, loadRulepack engine tomllib pack = .ok rulepack →
        SelectionSpelled state.chapters chapter ∧
        ∀ selected, selectChapters state.chapters chapter = .ok selected →
          (∀ entry ∈ selected, world.disk.DraftReadable entry.number) →
          PackShown arith rulepack
            (selected.map fun entry => ⟨entry.number, world.disk.draftBody entry.number⟩) := by
  rw [← loadRulepack_confined]
  unfold desloppify
  cases loaded : loadRulepack engine tomllib pack with
  | ok rulepack =>
      simp only [Except.ok.injEq, forall_eq', confined_ok, true_and]
      refine handled_mapFault.trans ?_
      unfold scanRulepack
      rw [Prog.bind_assoc, contained_after_sourcing shows]
      refine and_congr_right fun _ => forall₃_congr fun _ _ _ => ?_
      rw [Prog.result_observe_bind]
      exact contained_packScan
  | error fault =>
      simp only [reduceCtorEq, false_implies, implies_true, and_true]
      cases fault with
      | rulePackError => exact iff_of_true confined_ok (confined_error.mpr trivial)
      | rulePackFileError =>
          exact iff_of_true (confined_error.mpr trivial) (confined_error.mpr trivial)
      | _ => exact iff_of_false (fun contained => contained _ rfl) fun kept => kept _ rfl

/-- So does its ledger mode, which divides nothing. -/
theorem contained_ledgerScan (shows : Shows world state) {path : Resource} :
    Confined ScanFault.Handled (ledgerScan engine tomllib path world).result ↔
      (¬path.NotUtf8 ∧ ¬tomllib.Refuses path ∧
        ∀ raw, tomllib.Decodes path raw → ¬LedgerSlips engine raw) ∧
      ∀ ledger, loadLedger engine tomllib path = .ok ledger →
        (∀ entry ∈ state.chapters, world.disk.DraftReadable entry.number) →
          LedgerShown ledger ((sortedChapters state.chapters).map fun entry =>
            ⟨entry.number, world.disk.draftBody entry.number⟩) := by
  rw [← loadLedger_confined]
  unfold ledgerScan
  cases loaded : loadLedger engine tomllib path with
  | ok ledger =>
      simp only [Except.ok.injEq, forall_eq', confined_ok, true_and]
      refine handled_mapFault.trans ?_
      unfold scanLedger
      have unasked : SelectionSpelled state.chapters none := fun number same => by cases same
      rw [Prog.bind_assoc, contained_after_sourcing shows, and_iff_right unasked]
      have whole : ∀ selected, selectChapters state.chapters none = .ok selected ↔
          selected = sortedChapters state.chapters :=
        fun selected => ⟨fun same => (Except.ok.inj same).symm, fun same => same ▸ rfl⟩
      simp only [whole, forall_eq, mem_sortedChapters]
      exact forall_congr' fun _ => contained_buildFindingOutcome
  | error fault =>
      simp only [reduceCtorEq, false_implies, implies_true, and_true]
      cases fault with
      | ledgerError => exact iff_of_true confined_ok (confined_error.mpr trivial)
      | ledgerFileError =>
          exact iff_of_true (confined_error.mpr trivial) (confined_error.mpr trivial)
      | _ => exact iff_of_false (fun contained => contained _ rfl) fun kept => kept _ rfl

end Scan

end NovelRalph
