import Mathlib.Data.Finset.Image
import Mathlib.Data.Finset.Sort
import NovelRalph.Base.Path
import NovelRalph.Base.Text
import NovelRalph.Contract.Outcome
import NovelRalph.State.Schema

/-!
# The manuscript on disk

`Disk` is all that the read-only part of the program can see of the working
tree: which places are occupied and by what, and the text of the manuscript
files. On it stand the path helpers of the `manuscript/chapter-NN/` layout and
the classification of the break between the chapter manifest and the chapter
directories.
-/

namespace NovelRalph

/-- The working tree as the detectors see it. -/
@[ext]
structure Disk where
  /-- The place of `working/`. -/
  working : Loc
  layout : Layout
  /-- All directories. -/
  dirs : Finset Loc
  /-- `path.read_text(encoding="utf-8")`. -/
  read : Loc → Except Fault String
  /-- Opening an unoccupied place fails as the way to it dictates. -/
  read_missing : ∀ loc, layout loc = none → read loc = .error (.os (layout.missingFault loc))
  /-- Whatever is wrong with an occupied place, it is not missing. -/
  read_found : ∀ loc, (layout loc).isSome → read loc ≠ .error (.os .fileNotFound)

namespace Disk

/-- `path.exists()` for a place that was spelled without `..`. -/
def exists? (disk : Disk) (loc : Loc) : Bool := (disk.layout loc).isSome

/-- `working_dir / "manuscript"`. -/
def manuscript (disk : Disk) : Loc := "manuscript" :: disk.working

end Disk

/-- `sorted(items)` of a set. -/
def sortedSet {α : Type} [LinearOrder α] (items : Finset α) : List α :=
  Quotient.liftOn items.val (List.insertionSort (· ≤ ·)) fun left right perm =>
    List.Perm.eq_of_pairwise (fun _ _ _ _ => le_antisymm)
      (List.pairwise_insertionSort (· ≤ ·) left) (List.pairwise_insertionSort (· ≤ ·) right)
      ((List.perm_insertionSort (· ≤ ·) left).trans
        (perm.trans (List.perm_insertionSort (· ≤ ·) right).symm))

/-- Sorting a set keeps its members. -/
@[simp]
theorem mem_sortedSet {α : Type} [LinearOrder α] {items : Finset α} {item : α} :
    item ∈ sortedSet items ↔ item ∈ items := by
  obtain ⟨members, distinct⟩ := items
  induction members using Quotient.inductionOn with
  | h list => exact List.mem_insertionSort _

/-- A sorted set ascends strictly. -/
theorem sortedSet_ascending {α : Type} [LinearOrder α] (items : Finset α) :
    (sortedSet items).Pairwise (· < ·) := by
  obtain ⟨⟨list⟩, distinct⟩ := items
  have sorted : (list.insertionSort (· ≤ ·)).Pairwise (· ≤ ·) := List.pairwise_insertionSort _ _
  have nodup : (list.insertionSort (· ≤ ·)).Nodup :=
    (List.perm_insertionSort (· ≤ ·) list).nodup_iff.mpr distinct
  exact (sorted.and nodup).imp fun both => lt_of_le_of_ne both.1 both.2

/-- `list(range(1, count + 1))`. -/
def rangeFromOne (count : Nat) : List Int :=
  (List.range count).map fun index : Nat => (index : Int) + 1

theorem mem_rangeFromOne {count : Nat} {number : Int} :
    number ∈ rangeFromOne count ↔ 1 ≤ number ∧ number ≤ count := by
  unfold rangeFromOne
  rw [List.mem_map]
  constructor
  · rintro ⟨index, below, rfl⟩
    rw [List.mem_range] at below
    omega
  · rintro ⟨positive, within⟩
    exact ⟨(number - 1).toNat, List.mem_range.mpr (by omega), by omega⟩

/-- A range has no repeats. -/
theorem nodup_rangeFromOne (count : Nat) : (rangeFromOne count).Nodup :=
  List.Nodup.map (fun left right same => by
    change (left : Int) + 1 = (right : Int) + 1 at same
    omega) List.nodup_range

theorem card_rangeFromOne (count : Nat) : (rangeFromOne count).toFinset.card = count := by
  rw [List.toFinset_card_of_nodup (nodup_rangeFromOne count), rangeFromOne, List.length_map,
    List.length_range]

/-- `sorted` of a range from 1, as a set. -/
theorem sortedSet_rangeFromOne (count : Nat) :
    sortedSet (rangeFromOne count).toFinset = rangeFromOne count := by
  have ordered : (rangeFromOne count).Pairwise (· ≤ ·) := by
    refine List.pairwise_map.mpr (List.pairwise_lt_range.imp fun below => ?_)
    omega
  unfold sortedSet
  rw [List.toFinset_val, List.dedup_eq_self.mpr (nodup_rangeFromOne count)]
  exact ordered.insertionSort_eq

/-- `_chapter_dir_name`. -/
def chapterDirName (number : Int) : String := "chapter-" ++ padTwo number

/-- No two chapters share a directory. -/
theorem chapterDirName_injective : Function.Injective chapterDirName := by
  intro left right same
  rw [chapterDirName, chapterDirName, String.append_right_inj] at same
  exact padTwo_injective same

/-- `_chapter_number_of`: `none` where the source returns `None`. -/
def chapterNumberOf (path : PosixPath) : Except Fault (Option Int) :=
  if path.parentName ≠ "manuscript" || !startsWith path.name "chapter-" then .ok none
  else
    let suffix := removeBeginning path.name "chapter-"
    if isDigits suffix then
      match intOfDigits? suffix with
      | some number => .ok (some number)
      | none => .error .valueError
    else .ok none

/-- `_declared_chapter_numbers`, with the set collected so far. -/
def declaredChapterNumbersFrom (numbers : Finset Int) :
    List String → Except Fault (Option (Finset Int))
  | [] => .ok (some numbers)
  | path :: rest =>
      let posix := PosixPath.parse path
      if posix.name = "state.toml" then declaredChapterNumbersFrom numbers rest
      else
        match chapterNumberOf posix with
        | .error fault => .error fault
        | .ok none => .ok none
        | .ok (some number) => declaredChapterNumbersFrom (insert number numbers) rest

/-- `_declared_chapter_numbers`. -/
def declaredChapterNumbers (paths : List String) : Except Fault (Option (Finset Int)) :=
  declaredChapterNumbersFrom ∅ paths

section ChapterPaths

variable (value : Nat)

/-- The characters of a chapter directory are those of its beginning, and digits. -/
theorem not_mem_chapterDirName {char : Char} (fixed : char ∉ "chapter-".toList)
    (digit : char.isDigit = false) : char ∉ (chapterDirName value).toList := by
  intro member
  rw [chapterDirName, String.toList_append, List.mem_append] at member
  rcases member with begins | ends
  · exact fixed begins
  · have other := isDigit_of_mem_padTwo ends
    rw [digit] at other
    cases other

theorem slash_not_mem_chapterDirName : '/' ∉ (chapterDirName value).toList :=
  not_mem_chapterDirName value (by decide) (by decide)

theorem chapterDirName_plain {number : Int} : chapterDirName number ≠ "" ∧
    chapterDirName number ≠ "." ∧ chapterDirName number ≠ ".." := by
  have first : (chapterDirName number).toList.head? = some 'c' := by
    rw [chapterDirName, String.toList_append]
    rfl
  refine ⟨?_, ?_, ?_⟩ <;> intro same <;> rw [same] at first <;> revert first <;> decide

/-- The system takes the text of a chapter directory with a short name. -/
theorem taken_chapterDir (short : overlong (chapterDirName value) = false) :
    (PosixPath.mk "" ["manuscript", chapterDirName value]).refused "working" = false := by
  have text : (PosixPath.mk "" ["manuscript", chapterDirName value]).text "working" =
      "working/manuscript/" ++ chapterDirName value := rfl
  have fixed : ("working/manuscript/" : String).utf8ByteSize = 19 := by decide +kernel
  have null := not_mem_chapterDirName value (by decide : '\x00' ∉ "chapter-".toList) (by decide)
  unfold PosixPath.refused PosixPath.embedsNull PosixPath.tooDeep
  unfold overlong at short
  rw [decide_eq_false_iff_not] at short
  rw [text, String.utf8ByteSize_append, fixed, Bool.or_eq_false_iff, decide_eq_false_iff_not]
  refine ⟨?_, by omega⟩
  simp [null]

theorem parse_chapterDir : PosixPath.parse ("manuscript" ++ "/" ++ chapterDirName value) =
    ⟨"", ["manuscript", chapterDirName value]⟩ := by
  rw [PosixPath.parse_slash _ (by decide) (by decide),
    PosixPath.parse_single (slash_not_mem_chapterDirName value)
      ⟨chapterDirName_plain.1, chapterDirName_plain.2.1⟩]

/-- The path of a chapter directory, as `set-chapters` declares it. -/
theorem parse_declaredDir : PosixPath.parse ("working/manuscript/" ++ chapterDirName value) =
    ⟨"", ["working", "manuscript", chapterDirName value]⟩ := by
  have spelled : "working/manuscript/" ++ chapterDirName value =
      "working" ++ "/" ++ ("manuscript" ++ "/" ++ chapterDirName value) := by
    rw [← String.append_assoc, ← String.append_assoc]
    rfl
  rw [spelled, PosixPath.parse_slash _ (by decide) (by decide), parse_chapterDir]

variable {value} in
/-- The number of a declared chapter directory. -/
theorem chapterNumberOf_declaredDir (spelled : tooLong value = false) :
    chapterNumberOf (PosixPath.parse ("working/manuscript/" ++ chapterDirName value)) =
      .ok (some (value : Int)) := by
  have parent : (PosixPath.mk "" ["working", "manuscript", chapterDirName value]).parentName =
    "manuscript" := rfl
  have name : (PosixPath.mk "" ["working", "manuscript", chapterDirName value]).name =
    "chapter-" ++ padTwo value := rfl
  rw [parse_declaredDir]
  unfold chapterNumberOf
  simp [parent, name, intOfDigits?_padTwo, spelled]

/-- A declared chapter directory is not taken for the state file. -/
theorem name_declaredDir : (PosixPath.parse
    ("working/manuscript/" ++ chapterDirName value)).name ≠ "state.toml" := by
  rw [parse_declaredDir]
  show chapterDirName value ≠ "state.toml"
  intro same
  have first : (chapterDirName value).toList.head? = some 'c' := by
    rw [chapterDirName, String.toList_append]
    rfl
  rw [same] at first
  cases first

end ChapterPaths

/-- A number that its two-digit form is read back as. -/
structure Nameable (number : Int) : Prop where
  natural : 0 ≤ number
  spelled : tooLong number = false

theorem Nameable.numeral {number : Int} (nameable : Nameable number) :
    ∃ value : Nat, number = value ∧ intOfDigits? (padTwo number) = some value := by
  obtain ⟨value, rfl⟩ := Int.eq_ofNat_of_zero_le nameable.natural
  exact ⟨value, rfl, by rw [intOfDigits?_padTwo, nameable.spelled]; rfl⟩

/-- The directory of a chapter can be made: the system takes its path and its name. -/
structure Carvable (number : Int) : Prop where
  natural : 0 ≤ number
  short : overlong (chapterDirName number) = false

theorem Carvable.taken {number : Int} (carvable : Carvable number) :
    (PosixPath.mk "" ["manuscript", chapterDirName number]).refused "working" = false := by
  obtain ⟨value, rfl⟩ := Int.eq_ofNat_of_zero_le carvable.natural
  exact taken_chapterDir value carvable.short

/-- The numbers of declared chapter directories. -/
theorem declaredChapterNumbersFrom_dirs {declared : List Int}
    (nameable : ∀ number ∈ declared, Nameable number) (numbers : Finset Int) :
    declaredChapterNumbersFrom numbers
        (declared.map fun number => "working/manuscript/" ++ chapterDirName number) =
      .ok (some (numbers ∪ declared.toFinset)) := by
  induction declared generalizing numbers with
  | nil => simp [declaredChapterNumbersFrom]
  | cons number rest inductionHypothesis =>
      have first := nameable number List.mem_cons_self
      obtain ⟨value, rfl⟩ := Int.eq_ofNat_of_zero_le first.natural
      rw [List.map_cons, declaredChapterNumbersFrom]
      simp only [name_declaredDir, if_false, chapterNumberOf_declaredDir first.spelled]
      rw [inductionHypothesis fun later member => nameable later (List.mem_cons_of_mem _ member)]
      simp [Finset.insert_union, Finset.union_insert]

/-- `_BijectionBreak`. -/
structure BijectionBreak where
  manifest : Finset Int
  onDisk : Finset Int
  orphans : Finset Int
  missing : Finset Int
  contiguous : Bool
  deriving DecidableEq

namespace BijectionBreak

/-- No orphan directory and a contiguous manifest. -/
def coherentSubset (broken : BijectionBreak) : Bool :=
  decide (broken.orphans = ∅) && broken.contiguous

/-- An exact, contiguous bijection. -/
def isBijection (broken : BijectionBreak) : Bool :=
  broken.coherentSubset && decide (broken.missing = ∅)

/-- The spelling of a sorted set of numbers. -/
def spell (numbers : Finset Int) : String := reprList intText (sortedSet numbers)

/-- The violation detail: a summary and the broken directions. A missing number is one of the
manifest's, and the numbers on disk were read from digits, so only the manifest can be too long. -/
def describe (broken : BijectionBreak) : Except Fault String := do
  NovelRalph.spelled (sortedSet broken.manifest)
  let summary := "manifest chapters " ++ spell broken.manifest ++
    " are not in bijection with the on-disk chapter directories " ++ spell broken.onDisk
  let reasons :=
    (if broken.orphans = ∅ then [] else ["orphan directories " ++ spell broken.orphans]) ++
    (if broken.missing = ∅ then []
      else ["manifest entries without directories " ++ spell broken.missing]) ++
    (if broken.contiguous then [] else ["non-contiguous manifest"])
  return if reasons = [] then summary
    else summary ++ " (" ++ String.intercalate "; " reasons ++ ")"

/-- A break is described exactly when every manifest number can be spelled. -/
theorem describe_returns {broken : BijectionBreak} :
    (∃ detail, broken.describe = .ok detail) ↔ ∀ number ∈ broken.manifest, tooLong number = false := by
  unfold describe
  cases spelling : NovelRalph.spelled (sortedSet broken.manifest) with
  | ok _ =>
      have fits := spelled_eq_ok.mp spelling
      exact ⟨fun _ number member => fits number (mem_sortedSet.mpr member), fun _ => ⟨_, rfl⟩⟩
  | error fault =>
      constructor
      · rintro ⟨detail, described⟩
        cases described
      · intro fits
        rw [spelled_eq_ok.mpr fun number member => fits number (mem_sortedSet.mp member)] at spelling
        cases spelling

/-- Describing a break raises one fault, over a manifest number that is too long. -/
theorem describe_error {broken : BijectionBreak} {fault : Fault}
    (raises : broken.describe = .error fault) :
    fault = .valueError ∧ ∃ number ∈ broken.manifest, tooLong number = true := by
  constructor
  · unfold describe at raises
    cases spelling : NovelRalph.spelled (sortedSet broken.manifest) with
    | ok _ =>
        rw [spelling] at raises
        cases raises
    | error other =>
        rw [spelling] at raises
        cases raises
        exact spelled_error spelling
  · by_contra fits
    obtain ⟨detail, described⟩ := describe_returns.mpr fun number member =>
      Bool.eq_false_iff.mpr fun long => fits ⟨number, member, long⟩
    rw [described] at raises
    cases raises

end BijectionBreak

/-- `_classify_bijection`. -/
def classifyBijection (manifest onDisk : Finset Int) : BijectionBreak where
  manifest
  onDisk
  orphans := onDisk \ manifest
  missing := manifest \ onDisk
  contiguous := decide (sortedSet manifest = rangeFromOne manifest.card)

/-- The set of manifest numbers. -/
def State.manifest (state : State) : Finset Int := state.numbers.toFinset

section Bijection

variable {manifest onDisk : Finset Int}

/-- Sorting gives a range from 1 exactly for the members of one. -/
theorem contiguous_iff : sortedSet manifest = rangeFromOne manifest.card ↔
    ∃ count, manifest = (rangeFromOne count).toFinset := by
  constructor
  · intro contiguous
    refine ⟨manifest.card, ?_⟩
    ext number
    rw [List.mem_toFinset, ← contiguous, mem_sortedSet]
  · rintro ⟨count, rfl⟩
    rw [card_rangeFromOne, sortedSet_rangeFromOne]

/-- A coherent subset is a subset of a manifest that is a range. -/
theorem coherentSubset_iff : (classifyBijection manifest onDisk).coherentSubset = true ↔
    onDisk ⊆ manifest ∧ ∃ count, manifest = (rangeFromOne count).toFinset := by
  have orphans : (classifyBijection manifest onDisk).orphans = ∅ ↔ onDisk ⊆ manifest :=
    Finset.sdiff_eq_empty_iff_subset
  unfold BijectionBreak.coherentSubset
  rw [Bool.and_eq_true_iff, decide_eq_true_iff, orphans]
  exact and_congr_right fun _ => decide_eq_true_iff.trans contiguous_iff

/-- A contiguous manifest numbers its chapters from 1. -/
theorem one_le_of_coherentSubset
    (coherent : (classifyBijection manifest onDisk).coherentSubset = true) {number : Int}
    (member : number ∈ manifest) : 1 ≤ number := by
  obtain ⟨-, count, rfl⟩ := coherentSubset_iff.mp coherent
  exact (mem_rangeFromOne.mp (List.mem_toFinset.mp member)).1

/-- A coherent subset has no directory beside the manifest's. -/
theorem subset_of_coherentSubset
    (coherent : (classifyBijection manifest onDisk).coherentSubset = true) : onDisk ⊆ manifest :=
  (coherentSubset_iff.mp coherent).1

/-- A bijection is an equality of a contiguous manifest with the directories. -/
theorem isBijection_iff : (classifyBijection manifest onDisk).isBijection = true ↔
    (classifyBijection manifest onDisk).coherentSubset = true ∧ manifest = onDisk := by
  unfold BijectionBreak.isBijection
  rw [Bool.and_eq_true_iff]
  constructor
  · rintro ⟨coherent, complete⟩
    have whole : manifest \ onDisk = ∅ := of_decide_eq_true complete
    exact ⟨coherent, Finset.Subset.antisymm (Finset.sdiff_eq_empty_iff_subset.mp whole)
      (subset_of_coherentSubset coherent)⟩
  · rintro ⟨coherent, rfl⟩
    exact ⟨coherent, by simp [classifyBijection]⟩

end Bijection

namespace Disk

/-- The names `manuscript/` holds that `glob("chapter-*")` yields and that are directories. -/
def chapterEntries (disk : Disk) : Finset String :=
  (disk.dirs.filter fun loc => loc.tail = disk.manuscript ∧ loc ≠ [] ∧
    startsWith (loc.headD "") "chapter-").image fun loc => loc.headD ""

/-- The suffixes that `isdigit` admits. -/
def chapterSuffixes (disk : Disk) : Finset String :=
  (disk.chapterEntries.image fun name => removeBeginning name "chapter-").filter fun suffix =>
    isDigits suffix

/-- `_on_disk_chapter_numbers`. -/
def onDiskChapterNumbers (disk : Disk) : Except Fault (Finset Int) :=
  if ∃ suffix ∈ disk.chapterSuffixes, intOfDigits? suffix = none then .error .valueError
  else .ok (disk.chapterSuffixes.image fun suffix => ((intOfDigits? suffix).getD 0 : Int))

end Disk

end NovelRalph
