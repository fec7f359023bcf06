import NovelRalph.Base.Lines
import NovelRalph.State.DiskEvidence

/-!
# The done predicate

Six clauses over the state and the tree. Two read only the state, two ask
whether files exist, and two read text: the compiled manuscript and the critic's
notes, in which a blocker is an unresolved finding heading under the
`## BLOCKER` section. On readable notes and drafts the evaluation is the total
function `doneClauses`.
-/

namespace NovelRalph

section Notes

/-- `_line_is_unresolved_blocker_finding`. -/
def lineIsUnresolvedBlockerFinding (stripped : String) : Bool :=
  if !startsWith stripped "### B" then false
  else
    let digits := removeBeginning stripped "### B"
    if !isDigits (String.ofList (digits.toList.take 1)) then false
    else !endsWith stripped " [resolved]"

/-- The loop of `_body_has_unresolved_blocker`. -/
def linesHaveUnresolvedBlocker (inBlockerSection : Bool) : List String → Bool
  | [] => false
  | line :: rest =>
      let stripped := strip line
      if startsWith stripped "## " then
        linesHaveUnresolvedBlocker (stripped == "## BLOCKER") rest
      else if inBlockerSection && lineIsUnresolvedBlockerFinding stripped then true
      else linesHaveUnresolvedBlocker inBlockerSection rest

/-- `_body_has_unresolved_blocker`. -/
def bodyHasUnresolvedBlocker (body : String) : Bool :=
  linesHaveUnresolvedBlocker false (splitLines body)

end Notes

/-- `DoneClauses`, in the order of its fields. -/
structure DoneClauses where
  phaseIsDone : Bool
  finalPassComplete : Bool
  allChaptersFlagged : Bool
  knittingGatesPassed : Bool
  compileConsistent : Bool
  noUnresolvedBlockers : Bool
  deriving DecidableEq, Repr

namespace DoneClauses

variable (clauses : DoneClauses)

/-- The fields with their names. -/
def fields : List (String × Bool) :=
  [("phase_is_done", clauses.phaseIsDone), ("final_pass_complete", clauses.finalPassComplete),
   ("all_chapters_flagged", clauses.allChaptersFlagged),
   ("knitting_gates_passed", clauses.knittingGatesPassed),
   ("compile_consistent", clauses.compileConsistent),
   ("no_unresolved_blockers", clauses.noUnresolvedBlockers)]

/-- `all_hold`. -/
def allHold : Bool := clauses.fields.all Prod.snd

/-- `failed_clause_names`. -/
def failedClauseNames : List String :=
  (clauses.fields.filter fun field => !field.2).map Prod.fst

/-- `as_result`. -/
def asResult : Table := clauses.fields.map fun field => (field.1, .bool field.2)

/-- Every clause but `compile_consistent` holds. -/
def OthersHold : Prop :=
  clauses.phaseIsDone = true ∧ clauses.finalPassComplete = true ∧
    clauses.allChaptersFlagged = true ∧ clauses.knittingGatesPassed = true ∧
    clauses.noUnresolvedBlockers = true

instance : Decidable clauses.OthersHold := inferInstanceAs (Decidable (_ ∧ _ ∧ _ ∧ _ ∧ _))

theorem allHold_iff : clauses.allHold = true ↔
    clauses.OthersHold ∧ clauses.compileConsistent = true := by
  unfold allHold fields OthersHold
  simp only [List.all_cons, List.all_nil, Bool.and_true, Bool.and_eq_true]
  tauto

/-- The sole failed clause is `compile_consistent`. -/
theorem failedClauseNames_iff : clauses.failedClauseNames = ["compile_consistent"] ↔
    clauses.OthersHold ∧ clauses.compileConsistent = false := by
  obtain ⟨phase, final, flagged, knitting, compile, blockers⟩ := clauses
  unfold failedClauseNames fields OthersHold
  cases phase <;> cases final <;> cases flagged <;> cases knitting <;> cases compile <;>
    cases blockers <;> decide

end DoneClauses

section Clauses

variable (state : State) (disk : Disk)

/-- `phase_is_done`. -/
def phaseIsDone : Bool := decide (state.phase.current = .done)

/-- `final_pass_complete`. -/
def finalPassComplete : Bool := state.gates.final.finalPassComplete

/-- `all_chapters_flagged`; the chapters after the first without a flag are not named. -/
def allChaptersFlagged : Except Fault Bool :=
  go state.chapters
where
  /-- The loop over the manifest. -/
  go : List ChapterEntry → Except Fault Bool
  | [] => .ok true
  | chapter :: rest => do
      spelled [chapter.number]
      if disk.exists? (disk.chapterFile chapter.number "done.flag") then go rest
      else return false

/-- `reviews/knitting-NN.md`. -/
def Disk.knittingReview (percentage : String) : Loc :=
  ("knitting-" ++ percentage ++ ".md") :: "reviews" :: disk.working

/-- `knitting_gates_passed`. -/
def knittingGatesPassed : Bool :=
  let knitting := state.gates.knitting
  [(knitting.done30, "30"), (knitting.done50, "50"), (knitting.done80, "80")].all fun gate =>
    gate.1 && disk.exists? (disk.knittingReview gate.2)

/-- `compile_is_current`. -/
def compileIsCurrent (verdict : CompiledComparison) : Bool := decide (verdict = .matches)

/-- `compile_consistent`. -/
def compileConsistent : Except Fault Bool := do
  let verdict ← disk.compiledMatchesDrafts state.chapters
  return compileIsCurrent verdict

/-- `_contains_unresolved_blocker`. -/
def containsUnresolvedBlocker (notes : Loc) : Except Fault Bool :=
  match disk.read notes with
  | .ok body => .ok (bodyHasUnresolvedBlocker body)
  | .error (.os .fileNotFound) => .ok false
  | .error fault => .error fault

/-- `no_unresolved_blockers`; the notes after the first blocker are not read. -/
def noUnresolvedBlockers : Except Fault Bool :=
  go state.chapters
where
  /-- The loop over the manifest. -/
  go : List ChapterEntry → Except Fault Bool
  | [] => .ok true
  | chapter :: rest => do
      spelled [chapter.number]
      if ← containsUnresolvedBlocker disk (disk.chapterFile chapter.number "critic-notes.md") then
        return false
      else go rest

/-- `evaluate_done`. -/
def evaluateDone : Except Fault DoneClauses := do
  let flagged ← allChaptersFlagged state disk
  let consistent ← compileConsistent state disk
  let unblocked ← noUnresolvedBlockers state disk
  return {
    phaseIsDone := phaseIsDone state
    finalPassComplete := finalPassComplete state
    allChaptersFlagged := flagged
    knittingGatesPassed := knittingGatesPassed state disk
    compileConsistent := consistent
    noUnresolvedBlockers := unblocked }

end Clauses

/-! ## The clauses on a readable tree -/

/-- Every file the done predicate reads can be read. -/
structure DoneReadable (state : State) (disk : Disk) : Prop where
  drafts : ∀ entry ∈ state.chapters, disk.DraftReadable entry.number
  compiled : disk.exists? disk.compiledManuscript = true →
    ∃ text, disk.read disk.compiledManuscript = .ok text
  notes : ∀ entry ∈ state.chapters,
    (∃ text, disk.read (disk.chapterFile entry.number "critic-notes.md") = .ok text) ∨
      disk.read (disk.chapterFile entry.number "critic-notes.md") = .error (.os .fileNotFound)

section Total

variable (state : State) (disk : Disk)

/-- `compiled.md` is there and holds what a fresh compile would. -/
def compiledCurrent : Bool :=
  match disk.read disk.compiledManuscript with
  | .ok text => disk.exists? disk.compiledManuscript && text == disk.compiledText state.chapters
  | .error _ => false

/-- No chapter's notes hold an unresolved blocker. -/
def unblocked : Bool :=
  state.chapters.all fun chapter =>
    match disk.read (disk.chapterFile chapter.number "critic-notes.md") with
    | .ok body => !bodyHasUnresolvedBlocker body
    | .error _ => true

/-- Every chapter carries its flag. -/
def chaptersFlagged : Bool :=
  state.chapters.all fun chapter => disk.exists? (disk.chapterFile chapter.number "done.flag")

/-- The six clauses of a readable tree. -/
def doneClauses : DoneClauses where
  phaseIsDone := phaseIsDone state
  finalPassComplete := finalPassComplete state
  allChaptersFlagged := chaptersFlagged state disk
  knittingGatesPassed := knittingGatesPassed state disk
  compileConsistent := compiledCurrent state disk
  noUnresolvedBlockers := unblocked state disk

end Total

section Readable

variable {state : State} {disk : Disk}

theorem compileConsistent_of_readable
    (drafts : ∀ entry ∈ state.chapters, disk.DraftReadable entry.number)
    (compiled : disk.exists? disk.compiledManuscript = true →
      ∃ text, disk.read disk.compiledManuscript = .ok text) :
    compileConsistent state disk = .ok (compiledCurrent state disk) := by
  unfold compileConsistent Disk.compiledMatchesDrafts compiledCurrent
  by_cases there : disk.exists? disk.compiledManuscript = true
  · obtain ⟨text, found⟩ := compiled there
    rw [if_pos there, found, Disk.presentDraftBodies_of_readable drafts]
    simp only [bind, Except.bind, pure, Except.pure, there, Bool.true_and]
    by_cases same : text = disk.compiledText state.chapters
    · have fresh : text = concatenateDrafts ((sortedChapters state.chapters).map fun chapter =>
          disk.draftBody chapter.number) := same
      rw [if_pos fresh, beq_iff_eq.mpr same]
      rfl
    · have stale : ¬ text = concatenateDrafts ((sortedChapters state.chapters).map fun chapter =>
          disk.draftBody chapter.number) := same
      rw [if_neg stale, beq_eq_false_iff_ne.mpr same]
      rfl
  · rw [if_neg there]
    cases disk.read disk.compiledManuscript <;> simp [there, compileIsCurrent, bind, Except.bind,
      pure, Except.pure]

theorem allChaptersFlagged_of_spelled
    (spelled : ∀ entry ∈ state.chapters, tooLong entry.number = false) :
    allChaptersFlagged state disk = .ok (chaptersFlagged state disk) := by
  have loop : ∀ entries : List ChapterEntry,
      (∀ entry ∈ entries, tooLong entry.number = false) →
      allChaptersFlagged.go disk entries = .ok (entries.all fun chapter =>
        disk.exists? (disk.chapterFile chapter.number "done.flag")) := by
    intro entries
    induction entries with
    | nil => exact fun _ => rfl
    | cons entry rest inductionHypothesis =>
        intro spelled
        have later := inductionHypothesis fun other member =>
          spelled other (List.mem_cons_of_mem _ member)
        unfold allChaptersFlagged.go
        rw [spelled_singleton.mpr (spelled entry List.mem_cons_self), List.all_cons, later]
        cases disk.exists? (disk.chapterFile entry.number "done.flag") <;> rfl
  exact loop state.chapters spelled

theorem noUnresolvedBlockers_of_readable (readable : DoneReadable state disk) :
    noUnresolvedBlockers state disk = .ok (unblocked state disk) := by
  have loop : ∀ entries : List ChapterEntry, (∀ entry ∈ entries, entry ∈ state.chapters) →
      noUnresolvedBlockers.go disk entries = .ok (entries.all fun chapter =>
        match disk.read (disk.chapterFile chapter.number "critic-notes.md") with
        | .ok body => !bodyHasUnresolvedBlocker body
        | .error _ => true) := by
    intro entries
    induction entries with
    | nil => exact fun _ => rfl
    | cons entry rest inductionHypothesis =>
        intro listed
        have later := inductionHypothesis fun other member =>
          listed other (List.mem_cons_of_mem _ member)
        have named := (readable.drafts entry (listed entry List.mem_cons_self)).named
        unfold noUnresolvedBlockers.go containsUnresolvedBlocker
        rw [List.all_cons, later, named]
        rcases readable.notes entry (listed entry List.mem_cons_self) with ⟨text, found⟩ | missing
        · rw [found]
          cases blocked : bodyHasUnresolvedBlocker text <;> simp [blocked, bind, Except.bind, pure,
            Except.pure]
        · rw [missing]
          simp [bind, Except.bind]
  exact loop state.chapters fun _ member => member

/-- On a readable tree the evaluation returns the six clauses. -/
theorem evaluateDone_of_readable (readable : DoneReadable state disk) :
    evaluateDone state disk = .ok (doneClauses state disk) := by
  unfold evaluateDone
  rw [allChaptersFlagged_of_spelled fun entry member => (readable.drafts entry member).spelled,
    compileConsistent_of_readable readable.drafts readable.compiled,
    noUnresolvedBlockers_of_readable readable]
  rfl

end Readable

end NovelRalph
