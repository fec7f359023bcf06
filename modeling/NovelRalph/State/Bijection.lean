import NovelRalph.State.DiskEvidence

/-!
# Exactness of the manifest bijection

The rule asks for one chapter directory per manifest entry, numbered from 1
without gaps. What the detector compares are two *sets of integers*: the numbers
in the manifest and the integers the directory names parse to. `Numbered` is the
rule itself, on the list of numbers and on the directories as they are spelled,
and `Blurred` is what the passage to sets of integers cannot see.
-/

namespace NovelRalph

/-- `text.isdecimal()`. -/
def isDecimal (text : String) : Bool :=
  text.toList ≠ [] && text.toList.all fun char => (decimalValue? char).isSome

/-- Reading digits succeeds exactly when each of them is a decimal. -/
theorem isSome_foldlM_decimal (digits : List Char) (start : Nat) :
    (digits.foldlM (fun value char => (decimalValue? char).map (value * 10 + ·)) start).isSome =
      digits.all fun char => (decimalValue? char).isSome := by
  induction digits generalizing start with
  | nil => rfl
  | cons char rest inductionHypothesis =>
      rw [List.foldlM_cons, List.all_cons]
      cases decimalValue? char with
      | none => rfl
      | some digit => exact inductionHypothesis _

/-- A text of digits that is a numeral has decimals only. -/
theorem isDecimal_of_numeral {text : String} {value : Nat} (digits : isDigits text = true)
    (read : intOfDigits? text = some value) : isDecimal text = true := by
  unfold intOfDigits? at read
  split at read
  · cases read
  · have decimals := isSome_foldlM_decimal text.toList 0
    rw [read] at decimals
    exact Bool.and_eq_true_iff.mpr ⟨(Bool.and_eq_true_iff.mp digits).1, decimals.symm⟩

/-- Decimals are digits. -/
theorem isDigits_of_isDecimal {text : String} (decimal : isDecimal text = true) :
    isDigits text = true := by
  obtain ⟨nonempty, decimals⟩ := Bool.and_eq_true_iff.mp decimal
  refine Bool.and_eq_true_iff.mpr ⟨nonempty, ?_⟩
  rw [List.all_eq_true] at decimals ⊢
  intro char member
  rw [decimals char member, Bool.true_or]

/-- A negative number is not spelled with decimals alone. -/
theorem nonneg_of_isDecimal_padTwo {number : Int} (decimal : isDecimal (padTwo number) = true) :
    0 ≤ number := by
  cases number with
  | ofNat value => exact Int.natCast_nonneg value
  | negSucc below =>
      have dash : '-' ∈ (padTwo (Int.negSucc below)).toList := by simp [padTwo]
      have decimals := (Bool.and_eq_true_iff.mp decimal).2
      rw [List.all_eq_true] at decimals
      exact absurd (decimals _ dash) (by decide)

namespace Disk

variable (disk : Disk)

/-- The directories of `manuscript/` that are named `chapter-` and then decimal digits. -/
def numberedDirs : Finset Loc :=
  disk.dirs.filter fun loc => loc.tail = disk.manuscript ∧ loc ≠ [] ∧
    startsWith (loc.headD "") "chapter-" ∧ isDecimal (removeBeginning (loc.headD "") "chapter-")

variable {disk}

theorem mem_chapterSuffixes {suffix : String} : suffix ∈ disk.chapterSuffixes ↔
    isDigits suffix = true ∧ ∃ loc ∈ disk.dirs, (loc.tail = disk.manuscript ∧ loc ≠ [] ∧
      startsWith (loc.headD "") "chapter-") ∧ removeBeginning (loc.headD "") "chapter-" = suffix := by
  unfold chapterSuffixes chapterEntries
  rw [Finset.mem_filter, Finset.image_image, Finset.mem_image, and_comm]
  simp only [Finset.mem_filter, Function.comp_apply, and_assoc]

/-- The numbers on disk are those the decimal directory names spell. -/
theorem mem_onDisk (even : ¬ disk.OddDigit) {number : Int} : number ∈ disk.onDisk ↔
    ∃ dir ∈ disk.numberedDirs, ∃ value : Nat,
      intOfDigits? (removeBeginning (dir.headD "") "chapter-") = some value ∧ number = value := by
  unfold onDisk numberedDirs
  simp only [Finset.mem_image, Finset.mem_filter]
  constructor
  · rintro ⟨suffix, listed, rfl⟩
    obtain ⟨digits, loc, there, ⟨tail, nonempty, named⟩, rfl⟩ := mem_chapterSuffixes.mp listed
    obtain ⟨value, read⟩ := Option.ne_none_iff_exists'.mp fun unread => even ⟨_, listed, unread⟩
    have decimal := isDecimal_of_numeral digits read
    exact ⟨loc, ⟨there, tail, nonempty, named, decimal⟩, value, read, by rw [read]; rfl⟩
  · rintro ⟨loc, ⟨there, tail, nonempty, named, decimal⟩, value, read, rfl⟩
    have listed := mem_chapterSuffixes.mpr
      ⟨isDigits_of_isDecimal decimal, loc, there, ⟨tail, nonempty, named⟩, rfl⟩
    exact ⟨_, listed, by rw [read]; rfl⟩

/-- The numbers on disk can be spelled. -/
theorem onDisk_spelled (even : ¬ disk.OddDigit) {number : Int} (member : number ∈ disk.onDisk) :
    tooLong number = false := by
  obtain ⟨dir, -, value, read, rfl⟩ := (mem_onDisk even).mp member
  exact not_tooLong_of_numeral read

/-- A numbered directory under its canonical name parses to the number it belongs to. -/
theorem number_of_chapterDir (even : ¬ disk.OddDigit) {number : Int}
    (member : disk.chapterDir number ∈ disk.numberedDirs) :
    0 ≤ number ∧ intOfDigits? (removeBeginning ((disk.chapterDir number).headD "") "chapter-") =
      some number.toNat := by
  have suffix : removeBeginning ((disk.chapterDir number).headD "") "chapter-" = padTwo number :=
    removeBeginning_append _ _
  obtain ⟨there, tail, nonempty, named, digits⟩ := Finset.mem_filter.mp member
  have decimal : isDecimal (padTwo number) = true := by
    rw [← suffix]
    exact digits
  have natural := nonneg_of_isDecimal_padTwo decimal
  obtain ⟨value, rfl⟩ := Int.eq_ofNat_of_zero_le natural
  have listed := mem_chapterSuffixes.mpr
    ⟨isDigits_of_isDecimal digits, _, there, ⟨tail, nonempty, named⟩, rfl⟩
  have read : intOfDigits? (padTwo value) ≠ none := by
    rw [← suffix]
    exact fun unread => even ⟨_, listed, unread⟩
  have short : tooLong value = false := by
    rw [Bool.eq_false_iff]
    intro long
    rw [intOfDigits?_padTwo, if_pos long] at read
    exact read rfl
  rw [suffix, Int.toNat_natCast, intOfDigits?_padTwo, short]
  exact ⟨natural, rfl⟩

end Disk

section Rule

variable (state : State) (disk : Disk)

/-- The manifest numbers are 1 to `count`, each once, and the numbered directories are exactly
those from which the drafts of 1 to `count` are read. -/
def Numbered : Prop :=
  ∃ count, state.numbers.Perm (rangeFromOne count) ∧
    disk.numberedDirs = (rangeFromOne count).toFinset.image disk.chapterDir

/-- The strict predicate gives a verdict, and it is silent exactly on a numbered layout. -/
def BijectionExact : Prop :=
  ∃ verdict, checkManifestDiskBijection state disk false = .ok verdict ∧
    (verdict = none ↔ Numbered state disk)

/-- As sets of integers manifest and directories agree on 1 to `count`, but a number is listed
twice, or a directory is not spelled as any chapter's. -/
def Blurred : Prop :=
  (∃ count, state.manifest = (rangeFromOne count).toFinset) ∧ disk.onDisk = state.manifest ∧
    (¬ state.numbers.Nodup ∨ ∃ dir ∈ disk.numberedDirs, ∀ number, dir ≠ disk.chapterDir number)

end Rule

section Exact

variable {state : State} {disk : Disk}

/-- A bijection is an equality of the directories' numbers with a manifest that is a range. -/
theorem isBijection_iff_range {manifest onDisk : Finset Int} :
    (classifyBijection manifest onDisk).isBijection = true ↔
      (∃ count, manifest = (rangeFromOne count).toFinset) ∧ onDisk = manifest := by
  rw [isBijection_iff, coherentSubset_iff]
  constructor
  · rintro ⟨⟨-, ranged⟩, rfl⟩
    exact ⟨ranged, rfl⟩
  · rintro ⟨ranged, rfl⟩
    exact ⟨⟨Finset.Subset.refl _, ranged⟩, rfl⟩

/-- Where every name can be read and every manifest number spelled, the predicate is silent
exactly at a bijection of sets. -/
theorem bijection_verdict (even : ¬ disk.OddDigit)
    (spelled : ∀ number ∈ state.manifest, tooLong number = false) :
    ∃ verdict, checkManifestDiskBijection state disk false = .ok verdict ∧
      (verdict = none ↔ (classifyBijection state.manifest disk.onDisk).isBijection = true) := by
  have listed : disk.onDiskChapterNumbers = .ok disk.onDisk := if_neg even
  unfold checkManifestDiskBijection
  rw [listed]
  simp only [bind, Except.bind, Bool.false_and]
  by_cases whole : (classifyBijection state.manifest disk.onDisk).isBijection = true
  · exact ⟨none, by simp [whole, pure, Except.pure], by simp [whole]⟩
  · obtain ⟨detail, described⟩ := (@BijectionBreak.describe_returns
      (classifyBijection state.manifest disk.onDisk)).mpr spelled
    exact ⟨some _, by simp only [whole, described]; rfl, by simp [whole]⟩

/-- A name that `int` refuses leaves the predicate without a verdict. -/
theorem bijection_raises (odd : disk.OddDigit) :
    checkManifestDiskBijection state disk false = .error .valueError := by
  have raised : disk.onDiskChapterNumbers = .error .valueError := if_pos odd
  unfold checkManifestDiskBijection
  rw [raised]
  rfl

/-- A manifest number that cannot be spelled is on no disk, and its break cannot be described. -/
theorem bijection_unspelled (even : ¬ disk.OddDigit) {number : Int}
    (listed : number ∈ state.manifest) (long : tooLong number = true)
    {verdict : Option Violation} :
    checkManifestDiskBijection state disk false ≠ .ok verdict := by
  intro returned
  have numbers : disk.onDiskChapterNumbers = .ok disk.onDisk := if_neg even
  have broken : (classifyBijection state.manifest disk.onDisk).isBijection = false := by
    rw [Bool.eq_false_iff, Ne, isBijection_iff_range]
    rintro ⟨-, same⟩
    rw [← same] at listed
    rw [Disk.onDisk_spelled even listed] at long
    cases long
  unfold checkManifestDiskBijection at returned
  rw [numbers] at returned
  simp only [bind, Except.bind, broken, Bool.false_and] at returned
  cases described : (classifyBijection state.manifest disk.onDisk).describe with
  | error fault =>
      rw [described] at returned
      cases returned
  | ok detail =>
      have short := BijectionBreak.describe_returns.mp ⟨detail, described⟩ number listed
      rw [long] at short
      cases short

/-- A range of numbers has no repeats and is its own set. -/
theorem perm_rangeFromOne_iff {numbers : List Int} {count : Nat} :
    numbers.Perm (rangeFromOne count) ↔
      numbers.Nodup ∧ numbers.toFinset = (rangeFromOne count).toFinset := by
  constructor
  · intro perm
    exact ⟨perm.nodup_iff.mpr (nodup_rangeFromOne count), List.toFinset_eq_of_perm _ _ perm⟩
  · rintro ⟨distinct, same⟩
    exact List.perm_of_nodup_nodup_toFinset_eq distinct (nodup_rangeFromOne count) same

/-- The numbers of the canonical directories of 1 to `count` are 1 to `count`. -/
theorem onDisk_of_canonical (even : ¬ disk.OddDigit) {count : Nat}
    (dirs : disk.numberedDirs = (rangeFromOne count).toFinset.image disk.chapterDir) :
    disk.onDisk = (rangeFromOne count).toFinset := by
  have canonical : ∀ number ∈ rangeFromOne count, disk.chapterDir number ∈ disk.numberedDirs := by
    intro number member
    rw [dirs]
    exact Finset.mem_image_of_mem _ (List.mem_toFinset.mpr member)
  ext number
  rw [Disk.mem_onDisk even, List.mem_toFinset]
  constructor
  · rintro ⟨dir, member, value, spelled, rfl⟩
    rw [dirs] at member
    obtain ⟨listed, inRange, rfl⟩ := Finset.mem_image.mp member
    rw [List.mem_toFinset] at inRange
    obtain ⟨natural, parsed⟩ := Disk.number_of_chapterDir even (canonical listed inRange)
    rw [parsed, Option.some.injEq] at spelled
    rwa [← spelled, Int.toNat_of_nonneg natural]
  · intro inRange
    obtain ⟨natural, parsed⟩ := Disk.number_of_chapterDir even (canonical number inRange)
    exact ⟨_, canonical number inRange, _, parsed, (Int.toNat_of_nonneg natural).symm⟩

/-- A layout whose numbered directories are all canonical is determined by their numbers. -/
theorem canonical_of_onDisk (even : ¬ disk.OddDigit) {count : Nat}
    (numbers : disk.onDisk = (rangeFromOne count).toFinset)
    (spelled : ∀ dir ∈ disk.numberedDirs, ∃ number, dir = disk.chapterDir number) :
    disk.numberedDirs = (rangeFromOne count).toFinset.image disk.chapterDir := by
  ext dir
  rw [Finset.mem_image]
  constructor
  · intro member
    obtain ⟨number, rfl⟩ := spelled dir member
    obtain ⟨natural, parsed⟩ := Disk.number_of_chapterDir even member
    refine ⟨number, ?_, rfl⟩
    rw [← numbers, Disk.mem_onDisk even]
    exact ⟨_, member, _, parsed, (Int.toNat_of_nonneg natural).symm⟩
  · rintro ⟨number, inRange, rfl⟩
    rw [← numbers, Disk.mem_onDisk even] at inRange
    obtain ⟨dir, member, value, parsed, rfl⟩ := inRange
    obtain ⟨other, rfl⟩ := spelled dir member
    obtain ⟨natural, reads⟩ := Disk.number_of_chapterDir even member
    rw [reads, Option.some.injEq] at parsed
    rwa [← parsed, Int.toNat_of_nonneg natural]

/-- A numbered layout is a bijection of sets. -/
theorem Numbered.isBijection (even : ¬ disk.OddDigit) (numbered : Numbered state disk) :
    (classifyBijection state.manifest disk.onDisk).isBijection = true := by
  obtain ⟨count, perm, dirs⟩ := numbered
  have range : state.manifest = (rangeFromOne count).toFinset := (perm_rangeFromOne_iff.mp perm).2
  rw [isBijection_iff_range]
  exact ⟨⟨count, range⟩, by rw [onDisk_of_canonical even dirs, range]⟩

/-- A numbered layout hides nothing from the comparison of sets. -/
theorem Numbered.not_blurred (numbered : Numbered state disk) : ¬ Blurred state disk := by
  obtain ⟨count, perm, dirs⟩ := numbered
  rintro ⟨-, -, repeated | ⟨dir, member, misspelled⟩⟩
  · exact repeated (perm_rangeFromOne_iff.mp perm).1
  · rw [dirs] at member
    obtain ⟨number, -, rfl⟩ := Finset.mem_image.mp member
    exact misspelled number rfl

/-- A bijection of sets that hides nothing is a numbered layout. -/
theorem numbered_of_isBijection (even : ¬ disk.OddDigit)
    (whole : (classifyBijection state.manifest disk.onDisk).isBijection = true)
    (sharp : ¬ Blurred state disk) : Numbered state disk := by
  obtain ⟨⟨count, range⟩, same⟩ := isBijection_iff_range.mp whole
  have distinct : state.numbers.Nodup := by
    by_contra repeated
    exact sharp ⟨⟨count, range⟩, same, Or.inl repeated⟩
  have spelled : ∀ dir ∈ disk.numberedDirs, ∃ number, dir = disk.chapterDir number := by
    intro dir member
    by_contra misspelled
    exact sharp ⟨⟨count, range⟩, same, Or.inr ⟨dir, member, not_exists.mp misspelled⟩⟩
  exact ⟨count, perm_rangeFromOne_iff.mpr ⟨distinct, range⟩,
    canonical_of_onDisk even (same.trans range) spelled⟩

/-- The bijection check is exact unless a name carries digits that `int` refuses, a manifest number
has too many digits to be spelled, or the sets of integers agree while a number repeats or a
directory is misspelled. -/
theorem bijection_exact_iff : BijectionExact state disk ↔
    ¬ disk.OddDigit ∧ (∀ number ∈ state.manifest, tooLong number = false) ∧
      ¬ Blurred state disk := by
  constructor
  · rintro ⟨verdict, returned, exact⟩
    have even : ¬ disk.OddDigit := by
      intro odd
      rw [bijection_raises odd] at returned
      cases returned
    have spelled : ∀ number ∈ state.manifest, tooLong number = false := by
      intro number listed
      rw [Bool.eq_false_iff]
      exact fun long => bijection_unspelled even listed long returned
    refine ⟨even, spelled, fun blurred => ?_⟩
    obtain ⟨same, computed, silent⟩ := bijection_verdict even spelled
    rw [returned, Except.ok.injEq] at computed
    subst computed
    have numbered := exact.mp (silent.mpr (isBijection_iff_range.mpr ⟨blurred.1, blurred.2.1⟩))
    exact numbered.not_blurred blurred
  · rintro ⟨even, spelled, sharp⟩
    obtain ⟨verdict, returned, silent⟩ := bijection_verdict even spelled
    refine ⟨verdict, returned, silent.trans ⟨fun whole => ?_, fun numbered => ?_⟩⟩
    · exact numbered_of_isBijection even whole sharp
    · exact numbered.isBijection even

/-- A tree of directories and nothing else. -/
def Disk.ofDirs (working : Loc) (dirs : Finset Loc) : Disk where
  working
  layout loc := if loc ∈ dirs then some .dir else none
  dirs
  read loc := if loc ∈ dirs then .error (.os .isADirectory) else
    .error (.os (Layout.missingFault (fun place => if place ∈ dirs then some .dir else none) loc))
  read_missing loc absent := if_neg fun member => by simp [member] at absent
  read_found loc there := by
    have member : loc ∈ dirs := by
      by_contra absent
      simp [absent] at there
    simp [member]

/-- A manifest of one chapter. -/
def loneChapter : State where
  schemaVersion := 1
  novel := ⟨"Lone", "lone", 1000, "2025-01-01T00:00:00Z"⟩
  phase := ⟨.finalPass, [.premise, .treatment, .characters, .conflictAnalysis, .setting, .readerFit,
    .stc, .chapterPlanning, .drafting]⟩
  chapters := [⟨1, "one", "One", 1000⟩]
  drafting := ⟨1, 0, 0, ⟨0, 0, 1, ⟨0, 0, 0, 0⟩⟩, ⟨0⟩⟩
  gates := ⟨⟨false, false, false⟩, ⟨false⟩⟩
  wordCounts := ⟨1000, 0, Dict.empty⟩
  pendingTurn := none

/-- The directory of chapter 1 under a name without padding: the drafts are read elsewhere. -/
def unpaddedDisk : Disk :=
  Disk.ofDirs ["working"] {["working"], ["manuscript", "working"],
    ["chapter-1", "manuscript", "working"]}

/-- An unpadded directory passes for the chapter's. -/
theorem unpadded_passes : ¬ BijectionExact loneChapter unpaddedDisk := by
  rintro ⟨verdict, returned, exact⟩
  have silent : checkManifestDiskBijection loneChapter unpaddedDisk false = .ok none := by
    decide +kernel
  rw [silent, Except.ok.injEq] at returned
  obtain ⟨count, perm, dirs⟩ := exact.mp returned.symm
  have misspelled : ["chapter-1", "manuscript", "working"] ∈ unpaddedDisk.numberedDirs := by
    decide +kernel
  rw [dirs] at misspelled
  obtain ⟨number, listed, same⟩ := Finset.mem_image.mp misspelled
  have natural : number = 1 := by
    have member := perm.mem_iff.mpr (List.mem_toFinset.mp listed)
    exact List.mem_singleton.mp member
  subst natural
  exact absurd same (by decide)

/-- The strict detector names the break exactly when its predicate does. -/
theorem detector_names_bijection {violations : List Violation}
    (detected : checkDiskEvidence state disk false = .ok violations) :
    InvariantName.manifestDiskBijection ∉ violations.map Violation.invariant ↔
      checkManifestDiskBijection state disk false = .ok none := by
  have readable := readable_of_detected detected
  obtain ⟨other, found, names⟩ := checkDiskEvidence_of_readable readable false
  rw [detected, Except.ok.injEq] at found
  subst found
  obtain ⟨verdict, returned, reported⟩ := checkManifestDiskBijection_reports readable false
  rw [names, returned]
  have listed : InvariantName.manifestDiskBijection ∈ evidence state disk false ↔
      bijectionBroken state disk false = true := by simp [evidence, evidenceTable]
  rw [listed]
  cases broken : bijectionBroken state disk false <;> cases verdict <;> simp_all

end Exact

end NovelRalph
