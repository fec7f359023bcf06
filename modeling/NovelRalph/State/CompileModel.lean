import NovelRalph.State.WordCount

/-!
# The compiled manuscript

The ordered concatenation of the drafts and the three-valued comparison of
`compiled.md` against it.
-/

namespace NovelRalph

/-- `CompiledComparison`. -/
inductive CompiledComparison where
  | absent
  | matches
  | diverges
  deriving DecidableEq, Repr

/-- `DRAFT_SEPARATOR`. -/
def draftSeparator : String := "\n\n"

/-- `concatenate_drafts`. -/
def concatenateDrafts (drafts : List String) : String := String.intercalate draftSeparator drafts

namespace Disk

variable (disk : Disk)

/-- `compiled_manuscript_path`. -/
def compiledManuscript : Loc := "compiled.md" :: disk.manuscript

/-- `present_draft_bodies`. -/
def presentDraftBodies (chapters : List ChapterEntry) : Except Fault (List String) :=
  (sortedChapters chapters).mapM fun chapter => do
    spelled [chapter.number]
    let draft := disk.chapterFile chapter.number "draft.md"
    if disk.exists? draft then disk.read draft else .ok ""

/-- `compiled_matches_drafts`. -/
def compiledMatchesDrafts (chapters : List ChapterEntry) : Except Fault CompiledComparison :=
  if disk.exists? disk.compiledManuscript then do
    let bodies ← disk.presentDraftBodies chapters
    let compiled ← disk.read disk.compiledManuscript
    return if compiled = concatenateDrafts bodies then .matches else .diverges
  else .ok .absent

/-- The body of a readable draft; an absent one is empty. -/
def draftBody (number : Int) : String :=
  match disk.read (disk.chapterFile number "draft.md") with
  | .ok text => text
  | .error _ => ""

/-- The text a fresh compile of readable drafts would hold. -/
def compiledText (chapters : List ChapterEntry) : String :=
  concatenateDrafts ((sortedChapters chapters).map fun chapter => disk.draftBody chapter.number)

variable {disk}

/-- A readable draft that exists has a text. -/
theorem read_of_exists {number : Int} (readable : disk.DraftReadable number)
    (there : disk.exists? (disk.chapterFile number "draft.md") = true) :
    disk.read (disk.chapterFile number "draft.md") = .ok (disk.draftBody number) := by
  unfold draftBody
  rcases readable.read with ⟨text, found⟩ | missing
  · rw [found]
  · exact absurd missing (disk.read_found _ there)

/-- A readable draft that does not exist has an empty body. -/
theorem draftBody_of_not_exists {number : Int}
    (absent : disk.exists? (disk.chapterFile number "draft.md") = false) :
    disk.draftBody number = "" := by
  unfold draftBody
  rw [disk.read_missing _ (by simpa [exists?] using absent)]

/-- On readable drafts the draft bodies are total. -/
theorem presentDraftBodies_of_readable {chapters : List ChapterEntry}
    (readable : ∀ entry ∈ chapters, disk.DraftReadable entry.number) :
    disk.presentDraftBodies chapters =
      .ok ((sortedChapters chapters).map fun chapter => disk.draftBody chapter.number) := by
  have bodies : ∀ entries : List ChapterEntry,
      (∀ entry ∈ entries, disk.DraftReadable entry.number) →
      (entries.mapM fun chapter => do
        spelled [chapter.number]
        let draft := disk.chapterFile chapter.number "draft.md"
        if disk.exists? draft then disk.read draft else .ok "") =
        .ok (entries.map fun chapter => disk.draftBody chapter.number) := by
    intro entries
    induction entries with
    | nil => exact fun _ => rfl
    | cons entry rest inductionHypothesis =>
        intro readable
        have first : (do
            spelled [entry.number]
            if disk.exists? (disk.chapterFile entry.number "draft.md") then
              disk.read (disk.chapterFile entry.number "draft.md") else .ok "") =
              Except.ok (disk.draftBody entry.number) := by
          rw [(readable entry List.mem_cons_self).named]
          show (if _ then _ else _) = _
          split
          · next there => exact read_of_exists (readable entry List.mem_cons_self) there
          · next absent => rw [draftBody_of_not_exists (by simpa using absent)]
        rw [List.mapM_cons, inductionHypothesis fun later member =>
          readable later (List.mem_cons_of_mem _ member)]
        simp only [first]
        rfl
  exact bodies _ fun entry member => readable entry (mem_sortedChapters.mp member)

end Disk

end NovelRalph
