import NovelRalph.State.Bijection
import NovelRalph.State.DonePredicate

/-!
# The grammar of blocker findings

`Blocked` says declaratively which lines of notes hold an unresolved blocker: a
finding heading that is not marked as resolved, such that the last section
heading before it is `## BLOCKER`. The scanner carries a flag in place of that
heading, and decides exactly this.
-/

namespace NovelRalph

section Grammar

/-- A finding heading `### B1 …` that does not end with the mark of a resolved one. -/
def UnresolvedHeading (stripped : String) : Prop :=
  (∃ digit rest, stripped.toList = "### B".toList ++ digit :: rest ∧
      isDigits (String.ofList [digit]) = true) ∧
    ¬ " [resolved]".toList <:+ stripped.toList

/-- The last section heading among some lines, with the spaces around it removed. -/
def lastSection (lines : List String) : Option String :=
  ((lines.map strip).filter fun stripped => startsWith stripped "## ").getLast?

/-- Some line is an unresolved finding of the `## BLOCKER` section. -/
def Blocked (lines : List String) : Prop :=
  ∃ before line after, lines = before ++ line :: after ∧ UnresolvedHeading (strip line) ∧
    lastSection before = some "## BLOCKER"

/-- More lines leave the findings where they are. -/
theorem Blocked.append {lines : List String} (blocked : Blocked lines) (more : List String) :
    Blocked (lines ++ more) := by
  obtain ⟨before, line, after, rfl, heading, inside⟩ := blocked
  exact ⟨before, line, after ++ more, by simp, heading, inside⟩

/-- The character after a beginning is a digit. -/
theorem isDigits_take_one (beginning rest : List Char) :
    isDigits (String.ofList (rest.take 1)) = true ↔
      ∃ digit after, beginning ++ rest = beginning ++ digit :: after ∧
        isDigits (String.ofList [digit]) = true := by
  cases rest with
  | nil =>
      constructor
      · intro numeral
        cases numeral
      · rintro ⟨digit, after, same, -⟩
        cases List.append_cancel_left same
  | cons digit rest =>
      constructor
      · exact fun numeral => ⟨digit, rest, rfl, numeral⟩
      · rintro ⟨other, after, same, numeral⟩
        obtain ⟨rfl, -⟩ := List.cons.inj (List.append_cancel_left same)
        exact numeral

/-- The test of a line reads the grammar of a heading. -/
theorem lineIsUnresolvedBlockerFinding_iff (stripped : String) :
    lineIsUnresolvedBlockerFinding stripped = true ↔ UnresolvedHeading stripped := by
  have resolved : endsWith stripped " [resolved]" = true ↔
      " [resolved]".toList <:+ stripped.toList := List.isSuffixOf_iff_suffix
  unfold lineIsUnresolvedBlockerFinding UnresolvedHeading
  rw [← resolved]
  by_cases begins : startsWith stripped "### B" = true
  · obtain ⟨rest, spelled⟩ : "### B".toList <+: stripped.toList := List.isPrefixOf_iff_prefix.mp begins
    have removed : removeBeginning stripped "### B" = String.ofList rest := by
      rw [removeBeginning, if_pos begins, ← spelled, List.drop_left]
    rw [begins, removed, ← spelled, ← isDigits_take_one]
    dsimp only
    rw [String.toList_ofList]
    by_cases numeral : isDigits (String.ofList (rest.take 1)) = true <;> simp [numeral]
  · rw [Bool.not_eq_true] at begins
    rw [begins]
    refine ⟨fun found => absurd found (by simp), ?_⟩
    rintro ⟨⟨digit, rest, spelled, -⟩, -⟩
    have starts : startsWith stripped "### B" = true :=
      List.isPrefixOf_iff_prefix.mpr ⟨digit :: rest, spelled.symm⟩
    rw [begins] at starts
    cases starts

/-- A finding heading is no section heading. -/
theorem UnresolvedHeading.not_section {stripped : String} (heading : UnresolvedHeading stripped) :
    startsWith stripped "## " = false := by
  obtain ⟨⟨digit, rest, spelled, -⟩, -⟩ := heading
  unfold startsWith
  rw [spelled]
  rfl

/-- What the flag of the scanner is after some lines. -/
def sectionAfter (inBlockerSection : Bool) (lines : List String) : Bool :=
  match lastSection lines with
  | some heading => heading == "## BLOCKER"
  | none => inBlockerSection

theorem sectionAfter_cons (inBlockerSection : Bool) (line : String) (rest : List String) :
    sectionAfter inBlockerSection (line :: rest) =
      sectionAfter (if startsWith (strip line) "## " then strip line == "## BLOCKER"
        else inBlockerSection) rest := by
  unfold sectionAfter lastSection
  rw [List.map_cons, List.filter_cons]
  by_cases heading : startsWith (strip line) "## " = true
  · rw [if_pos heading, if_pos heading, List.getLast?_cons]
    cases ((rest.map strip).filter fun stripped => startsWith stripped "## ").getLast? <;> rfl
  · rw [if_neg heading, if_neg heading]

/-- From either flag, the scanner stops at a finding where the flag has become true. -/
theorem linesHaveUnresolvedBlocker_iff (inBlockerSection : Bool) (lines : List String) :
    linesHaveUnresolvedBlocker inBlockerSection lines = true ↔
      ∃ before line after, lines = before ++ line :: after ∧ UnresolvedHeading (strip line) ∧
        sectionAfter inBlockerSection before = true := by
  induction lines generalizing inBlockerSection with
  | nil => simp [linesHaveUnresolvedBlocker]
  | cons first rest inductionHypothesis =>
      -- A finding is the first line, under the flag, or comes later, under what the first line makes of it.
      have apart : (∃ before line after, first :: rest = before ++ line :: after ∧
            UnresolvedHeading (strip line) ∧ sectionAfter inBlockerSection before = true) ↔
          (UnresolvedHeading (strip first) ∧ inBlockerSection = true) ∨
            ∃ before line after, rest = before ++ line :: after ∧ UnresolvedHeading (strip line) ∧
              sectionAfter inBlockerSection (first :: before) = true := by
        constructor
        · rintro ⟨before, line, after, split, heading, inside⟩
          cases before with
          | nil =>
              obtain ⟨rfl, rfl⟩ := List.cons.inj split
              exact Or.inl ⟨heading, inside⟩
          | cons other before =>
              obtain ⟨rfl, rfl⟩ := List.cons.inj split
              exact Or.inr ⟨before, line, after, rfl, heading, inside⟩
        · rintro (⟨heading, inside⟩ | ⟨before, line, after, rfl, heading, inside⟩)
          · exact ⟨[], first, rest, rfl, heading, inside⟩
          · exact ⟨first :: before, line, after, rfl, heading, inside⟩
      rw [apart]
      simp only [sectionAfter_cons]
      rw [linesHaveUnresolvedBlocker, ← inductionHypothesis, ← lineIsUnresolvedBlockerFinding_iff]
      by_cases heading : startsWith (strip first) "## " = true
      · have other : ¬ lineIsUnresolvedBlockerFinding (strip first) = true := by
          intro found
          have none := ((lineIsUnresolvedBlockerFinding_iff _).mp found).not_section
          rw [heading] at none
          cases none
        simp [heading, other]
      · by_cases found : lineIsUnresolvedBlockerFinding (strip first) = true <;>
          cases inBlockerSection <;> simp [heading, found]

/-- The scanner decides the grammar. -/
theorem bodyHasUnresolvedBlocker_iff (body : String) :
    bodyHasUnresolvedBlocker body = true ↔ Blocked (splitLines body) := by
  have opening : ∀ before, sectionAfter false before = true ↔ lastSection before = some "## BLOCKER" := by
    intro before
    unfold sectionAfter
    cases lastSection before <;> simp
  unfold bodyHasUnresolvedBlocker Blocked
  rw [linesHaveUnresolvedBlocker_iff]
  simp only [opening]

end Grammar

section Clause

variable {state : State} {disk : Disk}

/-- Some chapter of the manifest has notes with an unresolved blocker. -/
def SomeChapterBlocked (state : State) (disk : Disk) : Prop :=
  ∃ chapter ∈ state.chapters, ∃ body,
    disk.read (disk.chapterFile chapter.number "critic-notes.md") = .ok body ∧
      Blocked (splitLines body)

/-- Every chapter's directory can be named, and its notes can be read or are not there. -/
def NotesReadable (state : State) (disk : Disk) : Prop :=
  ∀ chapter ∈ state.chapters, tooLong chapter.number = false ∧
    ((∃ body, disk.read (disk.chapterFile chapter.number "critic-notes.md") = .ok body) ∨
      disk.read (disk.chapterFile chapter.number "critic-notes.md") = .error (.os .fileNotFound))

/-- Notes are found to be blocked when there is a text with an unresolved blocker. -/
theorem containsUnresolvedBlocker_iff (notes : Loc) :
    containsUnresolvedBlocker disk notes = .ok true ↔
      ∃ body, disk.read notes = .ok body ∧ Blocked (splitLines body) := by
  unfold containsUnresolvedBlocker
  cases found : disk.read notes with
  | ok body => simp [bodyHasUnresolvedBlocker_iff]
  | error fault =>
      refine ⟨fun blocked => ?_, ?_⟩
      · split at blocked <;> simp_all
      · rintro ⟨body, same, -⟩
        cases same

/-- The loop over the manifest answers for its first blocked chapter. -/
theorem blockers_loop (chapters : List ChapterEntry) :
    (noUnresolvedBlockers.go disk chapters = .ok false → ∃ chapter ∈ chapters,
        containsUnresolvedBlocker disk (disk.chapterFile chapter.number "critic-notes.md") = .ok true) ∧
      (noUnresolvedBlockers.go disk chapters = .ok true → ∀ chapter ∈ chapters,
        containsUnresolvedBlocker disk (disk.chapterFile chapter.number "critic-notes.md") =
          .ok false) := by
  induction chapters with
  | nil => simp [noUnresolvedBlockers.go]
  | cons chapter rest inductionHypothesis =>
      obtain ⟨blocked, clean⟩ := inductionHypothesis
      unfold noUnresolvedBlockers.go
      cases spelled [chapter.number] with
      | error fault => exact ⟨nofun, nofun⟩
      | ok _ =>
      cases scanned : containsUnresolvedBlocker disk
          (disk.chapterFile chapter.number "critic-notes.md") with
      | error fault => exact ⟨nofun, nofun⟩
      | ok answer =>
          cases answer with
          | true => exact ⟨fun _ => ⟨chapter, List.mem_cons_self, scanned⟩, nofun⟩
          | false =>
              refine ⟨fun answer => ?_, fun answer => ?_⟩
              · obtain ⟨later, member, found⟩ := blocked answer
                exact ⟨later, List.mem_cons_of_mem _ member, found⟩
              · intro other member
                rcases List.mem_cons.mp member with rfl | later
                · exact scanned
                · exact clean answer other later

/-- An answer of the clause, whatever could not be read, is the right one. -/
theorem noUnresolvedBlockers_sound {answer : Bool}
    (returned : noUnresolvedBlockers state disk = .ok answer) :
    answer = false ↔ SomeChapterBlocked state disk := by
  obtain ⟨blocked, clean⟩ := @blockers_loop disk state.chapters
  cases answer with
  | false =>
      obtain ⟨chapter, member, found⟩ := blocked returned
      exact ⟨fun _ => ⟨chapter, member, (containsUnresolvedBlocker_iff _).mp found⟩, fun _ => rfl⟩
  | true =>
      refine ⟨nofun, fun ⟨chapter, member, found⟩ => ?_⟩
      have free := clean returned chapter member
      rw [(containsUnresolvedBlocker_iff _).mpr found] at free
      cases free

/-- With readable notes there is an answer. -/
theorem noUnresolvedBlockers_returns (readable : NotesReadable state disk) :
    ∃ answer, noUnresolvedBlockers state disk = .ok answer := by
  have loop : ∀ chapters : List ChapterEntry, (∀ chapter ∈ chapters, chapter ∈ state.chapters) →
      ∃ answer, noUnresolvedBlockers.go disk chapters = .ok answer := by
    intro chapters
    induction chapters with
    | nil => exact fun _ => ⟨true, rfl⟩
    | cons chapter rest inductionHypothesis =>
        intro listed
        obtain ⟨later, goes⟩ := inductionHypothesis fun other member =>
          listed other (List.mem_cons_of_mem _ member)
        obtain ⟨named, notes⟩ := readable chapter (listed chapter List.mem_cons_self)
        unfold noUnresolvedBlockers.go containsUnresolvedBlocker
        rw [spelled_singleton.mpr named]
        rcases notes with ⟨body, found⟩ | missing
        · rw [found]
          cases blocked : bodyHasUnresolvedBlocker body with
          | true => exact ⟨false, by simp [blocked, bind, Except.bind, pure, Except.pure]⟩
          | false => exact ⟨later, by simpa [blocked, bind, Except.bind] using goes⟩
        · rw [missing]
          exact ⟨later, goes⟩
  exact loop state.chapters fun _ member => member

end Clause

/-- The scanner of a body is true exactly when the body holds an unresolved finding of the
`## BLOCKER` section, and stays true when lines are added; the clause never gives another answer than
that some chapter's notes hold one, and with readable notes it answers in every order of the
manifest. -/
theorem blocker_scan_exact :
    (∀ body, bodyHasUnresolvedBlocker body = true ↔ Blocked (splitLines body)) ∧
      (∀ body longer more, bodyHasUnresolvedBlocker body = true →
        splitLines longer = splitLines body ++ more → bodyHasUnresolvedBlocker longer = true) ∧
      ∀ state disk,
        (∀ answer, noUnresolvedBlockers state disk = .ok answer →
          (answer = false ↔ SomeChapterBlocked state disk)) ∧
        (NotesReadable state disk → ∀ chapters, chapters.Perm state.chapters →
          (noUnresolvedBlockers { state with chapters } disk = .ok false ↔
            SomeChapterBlocked state disk)) := by
  refine ⟨bodyHasUnresolvedBlocker_iff, fun body longer more found split => ?_,
    fun state disk => ⟨fun answer => noUnresolvedBlockers_sound, fun readable chapters perm => ?_⟩⟩
  · rw [bodyHasUnresolvedBlocker_iff] at found ⊢
    rw [split]
    exact found.append more
  · have shuffled : NotesReadable { state with chapters } disk := fun chapter member =>
      readable chapter (perm.mem_iff.mp member)
    have same : SomeChapterBlocked { state with chapters } disk ↔ SomeChapterBlocked state disk :=
      exists_congr fun chapter => and_congr_left fun _ => perm.mem_iff
    obtain ⟨answer, returned⟩ := noUnresolvedBlockers_returns shuffled
    have sound := noUnresolvedBlockers_sound returned
    rw [returned, Except.ok.injEq, sound, same]

/-- A tree in which every place holds the same text. -/
def Disk.ofText (working : Loc) (text : String) : Disk where
  working
  layout _ := some .file
  dirs := ∅
  read _ := .ok text
  read_missing loc absent := by cases absent
  read_found loc there := by simp

/-- A section that is left and entered again still has its open finding. -/
theorem blocker_scan_reentered :
    NotesReadable loneChapter (Disk.ofText ["working"]
        "## BLOCKER\n### B1 one [resolved]\n## MAJOR\n### B2 two\n## BLOCKER\n### B3 three\n") ∧
      SomeChapterBlocked loneChapter (Disk.ofText ["working"]
        "## BLOCKER\n### B1 one [resolved]\n## MAJOR\n### B2 two\n## BLOCKER\n### B3 three\n") := by
  have readable : NotesReadable loneChapter (Disk.ofText ["working"]
      "## BLOCKER\n### B1 one [resolved]\n## MAJOR\n### B2 two\n## BLOCKER\n### B3 three\n") :=
    fun chapter member => by
      obtain rfl := List.mem_singleton.mp member
      exact ⟨not_tooLong_of_small (by decide), Or.inl ⟨_, rfl⟩⟩
  refine ⟨readable, ?_⟩
  exact ((blocker_scan_exact.2.2 _ _).2 readable _ (List.Perm.refl _)).mp (by decide +kernel)

end NovelRalph
