import NovelRalph.Loader.Detect
import Mathlib.Algebra.Order.BigOperators.Group.List

/-!
# The verdict of a device ledger

A device passes when its hits are within its count and every chapter with a hit
lies in its window. The verdict depends on the hits only: chapters may be taken
in any order, and deleting lines never makes a passing device fail.
-/

namespace NovelRalph

/-! ## What a device may do -/

/-- A hit in a chapter keeps to the window of a ration, if it has one. -/
structure Ration.Allows (ration : Ration) (chapter : Int) : Prop where
  listed : ∀ allowed, ration.allowedChapters = some allowed →
    chapter ∈ allowed.1.map Subtype.val
  retired : ∀ limit, ration.retiredAfterChapter = some limit → chapter ≤ limit.1
  reserved : ∀ kept, ration.reservedForChapter = some kept → chapter = kept.1

/-- With at most one window, a chapter breaches it exactly when the ration does not allow it. -/
theorem Ration.breachedBy_iff (ration : Ration) (chapter : Int) :
    ration.breachedBy chapter = true ↔ ¬ ration.Allows chapter := by
  obtain ⟨maxCount, allowed, retired, reserved, single, rationed⟩ := ration
  have allows : Ration.Allows ⟨maxCount, allowed, retired, reserved, single, rationed⟩ chapter ↔
      (∀ listed, allowed = some listed → chapter ∈ listed.1.map Subtype.val) ∧
        (∀ limit, retired = some limit → chapter ≤ limit.1) ∧
        ∀ kept, reserved = some kept → chapter = kept.1 :=
    ⟨fun ⟨listed, limit, kept⟩ => ⟨listed, limit, kept⟩,
      fun ⟨listed, limit, kept⟩ => ⟨listed, limit, kept⟩⟩
  rw [allows]
  unfold Ration.breachedBy
  cases allowed <;> cases retired <;> cases reserved <;> simp at single ⊢

section Scan

variable {engine : RegexEngine} (pattern : engine.Pattern) {chapters : List ScannedChapter}

/-- The matches of a pattern on the lines of some chapters. -/
def totalHits (chapters : List ScannedChapter) : Nat :=
  (chapters.map fun chapter => ((splitLines chapter.text).map (engine.hits pattern)).sum).sum

/-- Some line of a chapter of that number matches. -/
def HitIn (chapters : List ScannedChapter) (number : Int) : Prop :=
  ∃ chapter ∈ chapters, chapter.number = number ∧
    ∃ line ∈ splitLines chapter.text, 0 < engine.hits pattern line

/-- The scan counts every match. -/
theorem scanPattern_totalHits (chapters : List ScannedChapter) :
    (scanPattern engine pattern chapters).1 = totalHits pattern chapters := by
  have counted : ∀ chapter, (chapterHits engine pattern chapter).length =
      ((splitLines chapter.text).map (engine.hits pattern)).sum := by
    intro chapter
    unfold chapterHits
    rw [List.length_flatMap]
    conv_rhs => rw [← List.zipIdx_map_fst 1 (splitLines chapter.text), List.map_map]
    simp only [List.length_replicate, Function.comp_def]
  show (chapters.flatMap (chapterHits engine pattern)).length = _
  rw [List.length_flatMap]
  simp only [counted]
  rfl

/-- The scan names the chapters with a match. -/
theorem mem_scanPattern_chapters {number : Int} :
    number ∈ (scanPattern engine pattern chapters).2.map LineHit.chapter ↔
      HitIn pattern chapters number := by
  have matched : ∀ chapter, number ∈ (chapterHits engine pattern chapter).map LineHit.chapter ↔
      chapter.number = number ∧ ∃ line ∈ splitLines chapter.text, 0 < engine.hits pattern line := by
    intro chapter
    conv_rhs => rw [← List.zipIdx_map_fst 1 (splitLines chapter.text)]
    simp only [chapterHits, List.mem_map, List.mem_flatMap, List.mem_replicate]
    constructor
    · rintro ⟨hit, ⟨line, listed, several, rfl⟩, rfl⟩
      exact ⟨rfl, line.1, ⟨line, listed, rfl⟩, Nat.pos_of_ne_zero several⟩
    · rintro ⟨rfl, -, ⟨line, listed, rfl⟩, some⟩
      exact ⟨_, ⟨line, listed, some.ne', rfl⟩, rfl⟩
  show number ∈ (chapters.flatMap (chapterHits engine pattern)).map LineHit.chapter ↔ _
  rw [List.map_flatMap, List.mem_flatMap]
  simp only [matched]
  rfl

/-- Chapters in another order have the same matches, in another order. -/
theorem scanPattern_perm {permuted : List ScannedChapter} (perm : chapters.Perm permuted) :
    (scanPattern engine pattern chapters).2.Perm (scanPattern engine pattern permuted).2 :=
  perm.flatMap_right _

/-- The same chapters with some of their lines deleted. -/
def Shortened : List ScannedChapter → List ScannedChapter → Prop :=
  List.Forall₂ fun cut whole =>
    cut.number = whole.number ∧ (splitLines cut.text).Sublist (splitLines whole.text)

variable {pattern} {cut : List ScannedChapter}

/-- Deleting lines adds no matches. -/
theorem Shortened.totalHits_le (shortened : Shortened cut chapters) :
    totalHits pattern cut ≤ totalHits pattern chapters := by
  induction shortened with
  | nil => exact le_refl _
  | @cons first whole rest wholes here later inductionHypothesis =>
      have fewer : ((splitLines first.text).map (engine.hits pattern)).sum ≤
          ((splitLines whole.text).map (engine.hits pattern)).sum :=
        (here.2.map _).sum_le_sum fun _ _ => Nat.zero_le _
      unfold totalHits at inductionHypothesis ⊢
      simp only [List.map_cons, List.sum_cons]
      omega

/-- Deleting lines puts no match into another chapter. -/
theorem Shortened.hitIn (shortened : Shortened cut chapters) {number : Int}
    (hit : HitIn pattern cut number) : HitIn pattern chapters number := by
  obtain ⟨chapter, listed, same, line, there, matched⟩ := hit
  induction shortened with
  | nil => cases listed
  | @cons first whole rest wholes here later inductionHypothesis =>
      rcases List.mem_cons.mp listed with rfl | listed
      · exact ⟨whole, List.mem_cons_self, here.1.symm.trans same, line, here.2.subset there, matched⟩
      · obtain ⟨other, member, found⟩ := inductionHypothesis listed
        exact ⟨other, List.mem_cons_of_mem _ member, found⟩

end Scan

/-! ## What a finding says -/

section Findings

variable {engine : RegexEngine}

/-- A finding is what the ration of its device says of the matches in some chapters. -/
structure Judged (chapters : List ScannedChapter) (device : Device engine)
    (finding : DeviceFinding) : Prop where
  named : finding.deviceId = device.id ∧ finding.pattern = device.pattern
  count : finding.count = totalHits device.compiled chapters
  passed : finding.passed = true ↔
    (∀ bound, device.maxCount = some bound → (totalHits device.compiled chapters : Int) ≤ bound.1) ∧
    ∀ number, HitIn device.compiled chapters number → device.Allows number
  ascending : finding.offendingChapters.Pairwise (· < ·)
  offending : ∀ number, number ∈ finding.offendingChapters ↔
    HitIn device.compiled chapters number ∧ ¬ device.Allows number

/-- The finding of a device over some chapters. -/
def findingOver (chapters : List ScannedChapter) (device : Device engine) : DeviceFinding :=
  deviceFinding device (scanPattern engine device.compiled chapters).1
    (scanPattern engine device.compiled chapters).2

theorem detectLedger_findings (ledger : DeviceLedger engine) (chapters : List ScannedChapter) :
    (detectLedger ledger chapters).findings = ledger.devices.list.map (findingOver chapters) := rfl

theorem judged_findingOver (chapters : List ScannedChapter) (device : Device engine) :
    Judged chapters device (findingOver chapters device) := by
  have offending : ∀ number, number ∈ (findingOver chapters device).offendingChapters ↔
      HitIn device.compiled chapters number ∧ ¬ device.Allows number := by
    intro number
    show number ∈ sortedSet (List.filter _ _).toFinset ↔ _
    rw [mem_sortedSet, List.mem_toFinset, List.mem_filter, mem_scanPattern_chapters,
      Ration.breachedBy_iff]
  have within : (device.maxCount.all fun bound =>
      ((scanPattern engine device.compiled chapters).1 : Int) ≤ bound.1) = true ↔
      ∀ bound, device.maxCount = some bound →
        (totalHits device.compiled chapters : Int) ≤ bound.1 := by
    rw [scanPattern_totalHits, Option.all_eq_true]
    simp only [decide_eq_true_iff]
  have ascending : (device.windowOffenders
      ((scanPattern engine device.compiled chapters).2.map LineHit.chapter)).Pairwise (· < ·) :=
    sortedSet_ascending _
  refine ⟨⟨rfl, rfl⟩, scanPattern_totalHits _ _, ?_, ascending, offending⟩
  show (_ && (findingOver chapters device).offendingChapters.isEmpty) = true ↔ _
  rw [Bool.and_eq_true_iff, within, List.isEmpty_iff, List.eq_nil_iff_forall_not_mem]
  simp only [offending, not_and_not_right]

/-- A finding that differs from another in the order of its lines, and in nothing else. -/
structure Reordered (finding other : DeviceFinding) : Prop where
  lines : finding.lines.Perm other.lines
  rest : { finding with lines := other.lines } = other

theorem Reordered.passed {finding other : DeviceFinding} (reordered : Reordered finding other) :
    finding.passed = other.passed := by
  have same := congrArg DeviceFinding.passed reordered.rest
  exact same

variable {chapters permuted cut : List ScannedChapter}

/-- The order of the chapters shows in the order of the lines only. -/
theorem reordered_of_perm (perm : chapters.Perm permuted) (device : Device engine) :
    Reordered (findingOver chapters device) (findingOver permuted device) := by
  have lines := scanPattern_perm device.compiled perm
  have counts : (scanPattern engine device.compiled chapters).1 =
      (scanPattern engine device.compiled permuted).1 := lines.length_eq
  have offenders : device.windowOffenders
      ((scanPattern engine device.compiled chapters).2.map LineHit.chapter) =
        device.windowOffenders
          ((scanPattern engine device.compiled permuted).2.map LineHit.chapter) :=
    congrArg sortedSet (List.toFinset_eq_of_perm _ _ ((lines.map _).filter _))
  refine ⟨lines, ?_⟩
  unfold findingOver deviceFinding
  rw [counts, offenders]

/-- A device that passes still passes when lines are deleted. -/
theorem passed_of_shortened (shortened : Shortened cut chapters) {device : Device engine}
    (passed : (findingOver chapters device).passed = true) :
    (findingOver cut device).passed = true := by
  obtain ⟨within, allowed⟩ := (judged_findingOver chapters device).passed.mp passed
  refine (judged_findingOver cut device).passed.mpr ⟨fun bound limit => ?_, fun number hit => ?_⟩
  · have fewer := @Shortened.totalHits_le engine device.compiled chapters cut shortened
    have few := within bound limit
    omega
  · exact allowed number (shortened.hitIn hit)

/-- The verdict of a device ledger matches its rations and behaves under editing. -/
theorem ledger_verdict_exact (ledger : DeviceLedger engine) (chapters : List ScannedChapter) :
    List.Forall₂ (Judged chapters) ledger.devices.list (detectLedger ledger chapters).findings ∧
    ((detectLedger ledger chapters).passed = true ↔
      ∀ finding ∈ (detectLedger ledger chapters).findings, finding.passed = true) ∧
    (∀ permuted, chapters.Perm permuted →
      List.Forall₂ Reordered (detectLedger ledger chapters).findings
        (detectLedger ledger permuted).findings ∧
      (detectLedger ledger chapters).passed = (detectLedger ledger permuted).passed) ∧
    ∀ cut, Shortened cut chapters →
      List.Forall₂ (fun whole shortened : DeviceFinding =>
        whole.passed = true → shortened.passed = true)
        (detectLedger ledger chapters).findings (detectLedger ledger cut).findings := by
  simp only [detectLedger_findings]
  refine ⟨?_, List.all_eq_true, fun permuted perm => ⟨?_, ?_⟩, fun cut shortened => ?_⟩
  · rw [List.forall₂_map_right_iff, List.forall₂_same]
    exact fun device _ => judged_findingOver chapters device
  · rw [List.forall₂_map_left_iff, List.forall₂_map_right_iff, List.forall₂_same]
    exact fun device _ => reordered_of_perm perm device
  · have same : ∀ device : Device engine,
        (findingOver chapters device).passed = (findingOver permuted device).passed :=
      fun device => (reordered_of_perm perm device).passed
    show (ledger.devices.list.map (findingOver chapters)).all DeviceFinding.passed =
      (ledger.devices.list.map (findingOver permuted)).all DeviceFinding.passed
    rw [List.all_map, List.all_map]
    exact congrArg (fun passes => ledger.devices.list.all passes) (funext same)
  · rw [List.forall₂_map_left_iff, List.forall₂_map_right_iff, List.forall₂_same]
    exact fun device _ => passed_of_shortened shortened

end Findings

end NovelRalph
