import Mathlib.Algebra.Ring.Int.Defs
import NovelRalph.State.DiskPaths

/-!
# Counting the drafts

The one counting rule (`len(text.split())`) and the recount of `[word_counts]`
from the drafts on disk. An absent draft counts as zero; every other read fault
propagates. On a tree whose drafts can be read the recount is the total function
`Disk.recountTable`.
-/

namespace NovelRalph

/-- `sorted(manifest, key=lambda chapter: chapter.number)`. -/
def sortedChapters (chapters : List ChapterEntry) : List ChapterEntry :=
  chapters.insertionSort fun left right => left.number ≤ right.number

/-- Sorting the manifest loses and adds no entry. -/
@[simp]
theorem mem_sortedChapters {chapters : List ChapterEntry} {entry : ChapterEntry} :
    entry ∈ sortedChapters chapters ↔ entry ∈ chapters :=
  List.mem_insertionSort _

namespace Disk

variable (disk : Disk)

/-- `manuscript/chapter-NN/`. -/
def chapterDir (number : Int) : Loc := chapterDirName number :: disk.manuscript

/-- A file of a chapter's directory. -/
def chapterFile (number : Int) (name : String) : Loc := name :: disk.chapterDir number

/-- `_chapter_word_count`; a number that cannot be spelled names no directory. -/
def chapterWordCount (number : Int) : Except Fault Int := do
  spelled [number]
  match disk.read (disk.chapterFile number "draft.md") with
  | .ok text => .ok (splitWords text).length
  | .error (.os .fileNotFound) => .ok 0
  | .error fault => .error fault

/-- `recount_words`. -/
def recountWords (chapters : List ChapterEntry) : Except Fault (Int × Dict String Int) := do
  let pairs ← (sortedChapters chapters).mapM fun chapter => do
    let count ← disk.chapterWordCount chapter.number
    return (padTwo chapter.number, count)
  let byChapter := Dict.ofPairs pairs
  return (byChapter.values.sum, byChapter)

/-- A chapter's directory can be named, and its draft can be read or there is none. -/
structure DraftReadable (number : Int) : Prop where
  spelled : tooLong number = false
  read : (∃ text, disk.read (disk.chapterFile number "draft.md") = .ok text) ∨
    disk.read (disk.chapterFile number "draft.md") = .error (.os .fileNotFound)

/-- The word count of a readable draft. -/
def draftWords (number : Int) : Int :=
  match disk.read (disk.chapterFile number "draft.md") with
  | .ok text => (splitWords text).length
  | .error _ => 0

/-- The recounted table of readable drafts. -/
def recountTable (chapters : List ChapterEntry) : Dict String Int :=
  Dict.ofPairs ((sortedChapters chapters).map fun chapter =>
    (padTwo chapter.number, disk.draftWords chapter.number))

variable {disk}

theorem DraftReadable.named {number : Int} (readable : disk.DraftReadable number) :
    NovelRalph.spelled [number] = .ok () :=
  spelled_singleton.mpr readable.spelled

theorem chapterWordCount_of_readable {number : Int} (readable : disk.DraftReadable number) :
    disk.chapterWordCount number = .ok (disk.draftWords number) := by
  unfold chapterWordCount draftWords
  rw [readable.named]
  rcases readable.read with ⟨text, found⟩ | missing
  · rw [found]
    rfl
  · rw [missing]
    rfl

/-- A chapter is counted only when its draft is readable. -/
theorem readable_of_chapterWordCount {number count : Int}
    (counted : disk.chapterWordCount number = .ok count) : disk.DraftReadable number := by
  obtain ⟨_, named, counted⟩ := except_bind_eq_ok.mp counted
  refine ⟨spelled_singleton.mp named, ?_⟩
  split at counted
  · next text read => exact Or.inl ⟨text, read⟩
  · next missing => exact Or.inr missing
  · cases counted

theorem draftWords_nonneg (number : Int) : 0 ≤ disk.draftWords number := by
  unfold draftWords
  split
  · exact Int.natCast_nonneg _
  · exact le_refl 0

/-- A draft that does not exist has no words. -/
theorem draftWords_of_not_exists {number : Int}
    (absent : disk.exists? (disk.chapterFile number "draft.md") = false) :
    disk.draftWords number = 0 := by
  unfold draftWords
  rw [disk.read_missing _ (by simpa [exists?] using absent)]

/-- On readable drafts the recount is total. -/
theorem recountWords_of_readable {chapters : List ChapterEntry}
    (readable : ∀ entry ∈ chapters, disk.DraftReadable entry.number) :
    disk.recountWords chapters =
      .ok ((disk.recountTable chapters).values.sum, disk.recountTable chapters) := by
  have pairs : ∀ entries : List ChapterEntry,
      (∀ entry ∈ entries, disk.DraftReadable entry.number) →
      (entries.mapM fun chapter => do
        let count ← disk.chapterWordCount chapter.number
        return (padTwo chapter.number, count)) =
        (.ok (entries.map fun chapter => (padTwo chapter.number, disk.draftWords chapter.number)) :
          Except Fault _) := by
    intro entries
    induction entries with
    | nil => exact fun _ => rfl
    | cons entry rest inductionHypothesis =>
        intro readable
        rw [List.mapM_cons, inductionHypothesis fun later member =>
            readable later (List.mem_cons_of_mem _ member),
          chapterWordCount_of_readable (readable entry List.mem_cons_self)]
        rfl
  unfold recountWords
  rw [pairs _ fun entry member => readable entry (mem_sortedChapters.mp member)]
  rfl

/-- A recount returns only where every draft is readable. -/
theorem readable_of_recountWords {chapters : List ChapterEntry} {counted : Int × Dict String Int}
    (counts : disk.recountWords chapters = .ok counted) :
    ∀ entry ∈ chapters, disk.DraftReadable entry.number := by
  intro entry member
  obtain ⟨pairs, counting, -⟩ := except_bind_eq_ok.mp counts
  obtain ⟨pair, -, step⟩ := result_of_mapM counting (mem_sortedChapters.mpr member)
  obtain ⟨count, read, -⟩ := except_bind_eq_ok.mp step
  exact readable_of_chapterWordCount read

/-- The total a recount returns is the sum of the table it returns. -/
theorem recountWords_total {chapters : List ChapterEntry} {counted : Int × Dict String Int}
    (counts : disk.recountWords chapters = .ok counted) : counted.1 = counted.2.values.sum := by
  obtain ⟨pairs, -, returned⟩ := except_bind_eq_ok.mp counts
  cases returned
  rfl

/-- A recount fails only as reading some draft failed, or on a number that cannot be spelled. -/
theorem read_of_recountWords_error {chapters : List ChapterEntry} {fault : Fault}
    (fails : disk.recountWords chapters = .error fault) :
    fault = .valueError ∨ ∃ loc, disk.read loc = .error fault := by
  have atChapter : ∀ number, disk.chapterWordCount number = .error fault →
      fault = .valueError ∨ ∃ loc, disk.read loc = .error fault := by
    intro number fails
    unfold chapterWordCount at fails
    cases named : NovelRalph.spelled [number] with
    | error other =>
        rw [named] at fails
        cases fails
        exact Or.inl (spelled_error named)
    | ok _ =>
        rw [named] at fails
        dsimp only [bind, Except.bind] at fails
        split at fails
        · cases fails
        · cases fails
        · next other _ read =>
            cases fails
            exact Or.inr ⟨_, read⟩
  have loop : ∀ entries : List ChapterEntry,
      (entries.mapM fun chapter => do
        let count ← disk.chapterWordCount chapter.number
        return (padTwo chapter.number, count)) = .error fault →
      fault = .valueError ∨ ∃ loc, disk.read loc = .error fault := by
    intro entries
    induction entries with
    | nil => intro fails; cases fails
    | cons entry rest inductionHypothesis =>
        intro fails
        rw [List.mapM_cons] at fails
        cases here : disk.chapterWordCount entry.number with
        | error other =>
            rw [here] at fails
            cases fails
            exact atChapter _ here
        | ok count =>
            rw [here] at fails
            refine inductionHypothesis ?_
            cases later : (rest.mapM fun chapter => do
                let count ← disk.chapterWordCount chapter.number
                return (padTwo chapter.number, count)) with
            | error other =>
                rw [later] at fails
                cases fails
                rfl
            | ok pairs =>
                rw [later] at fails
                cases fails
  unfold recountWords at fails
  cases pairs : ((sortedChapters chapters).mapM fun chapter => do
      let count ← disk.chapterWordCount chapter.number
      return (padTwo chapter.number, count)) with
  | error other =>
      rw [pairs] at fails
      cases fails
      exact loop _ pairs
  | ok counted =>
      rw [pairs] at fails
      cases fails

/-- The keys of the recount are the two-digit forms of the manifest numbers. -/
theorem mem_keys_recountTable {chapters : List ChapterEntry} {key : String} :
    key ∈ (disk.recountTable chapters).keys ↔ ∃ entry ∈ chapters, padTwo entry.number = key := by
  unfold recountTable
  rw [Dict.mem_keys_ofPairs]
  simp

/-- Every manifest chapter is recounted to its draft's word count. -/
theorem get?_recountTable {chapters : List ChapterEntry} {entry : ChapterEntry}
    (member : entry ∈ chapters) :
    (disk.recountTable chapters).get? (padTwo entry.number) =
      some (disk.draftWords entry.number) := by
  refine Dict.get?_ofPairs_of_mem (fun left _ right _ same => ?_) (mem_sortedChapters.mpr member)
  rw [padTwo_injective same]

/-- Recounted values are word counts, so none is negative. -/
theorem recountTable_values_nonneg {chapters : List ChapterEntry} {value : Int}
    (member : value ∈ (disk.recountTable chapters).values) : 0 ≤ value := by
  obtain ⟨⟨key, value⟩, stored, rfl⟩ := List.mem_map.mp member
  have found := Dict.get?_eq_some_iff.mpr stored
  have listed : key ∈ (disk.recountTable chapters).keys := List.mem_map_of_mem stored
  obtain ⟨entry, inManifest, rfl⟩ := mem_keys_recountTable.mp listed
  rw [get?_recountTable inManifest, Option.some.injEq] at found
  rw [← found]
  exact draftWords_nonneg _

end Disk

end NovelRalph
