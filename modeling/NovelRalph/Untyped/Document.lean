import NovelRalph.State.Document
import NovelRalph.Untyped.Parse

/-!
# The record and the counts in any document

What opening a pending turn and rewriting the word counts do to the view of a
document whose cast fields hold values of any type.
-/

namespace NovelRalph.Untyped

/-- `document_to_state`. -/
def documentToState {toml : Tomlkit} (interp : Interpreter) (document : Document toml) :
    Except Fault State :=
  parseState interp document.body

/-- The record that `open_pending_turn` writes. -/
def pendingRecord (operation : String) (paths : List String) : PendingTurn where
  operation := .str operation
  paths := paths.map .str

/-- The state a recount proposes. -/
def State.recounted (state : State) (current : Int) (byChapter : Dict String Int) : State :=
  { state with
    wordCounts := { state.wordCounts with
      current := .int current
      byChapter := byChapter.entries.map fun entry => (.str entry.1, .int entry.2) } }

section Views

variable {interp : Interpreter} {raw : Table} {state : State}

theorem wordCountsOf_eq_ok {counts : WordCounts} :
    wordCountsOf interp raw = .ok counts ↔
      subscript raw "target" = .ok counts.target ∧
      subscript raw "current" = .ok counts.current ∧
      (subscript raw "by_chapter" >>= interp.dict) = .ok counts.byChapter := by
  unfold wordCountsOf
  constructor
  · intro parsed
    obtain ⟨target, atTarget, parsed⟩ := except_bind_eq_ok.mp parsed
    obtain ⟨current, atCurrent, parsed⟩ := except_bind_eq_ok.mp parsed
    obtain ⟨byChapter, atByChapter, parsed⟩ := except_bind_eq_ok.mp parsed
    cases parsed
    exact ⟨atTarget, atCurrent, atByChapter⟩
  · rintro ⟨atTarget, atCurrent, atByChapter⟩
    refine except_bind_eq_ok.mpr ⟨_, atTarget, ?_⟩
    refine except_bind_eq_ok.mpr ⟨_, atCurrent, ?_⟩
    exact except_bind_eq_ok.mpr ⟨_, atByChapter, rfl⟩

theorem parseState_eq_ok :
    parseState interp raw = .ok state ↔
      subscript raw "schema_version" = .ok state.schemaVersion ∧
      (readTable raw "novel" >>= novelMeta) = .ok state.novel ∧
      (readTable raw "phase" >>= phaseState) = .ok state.phase ∧
      (subscript raw "chapters" >>= chapterEntries) = .ok state.chapters ∧
      (readTable raw "drafting" >>= draftingState) = .ok state.drafting ∧
      (readTable raw "gates" >>= gatesState) = .ok state.gates ∧
      (readTable raw "word_counts" >>= wordCountsOf interp) = .ok state.wordCounts ∧
      pendingTurn? raw = .ok state.pendingTurn := by
  unfold parseState
  constructor
  · intro parsed
    obtain ⟨schemaVersion, atVersion, parsed⟩ := except_bind_eq_ok.mp parsed
    obtain ⟨novel, atNovel, parsed⟩ := except_bind_eq_ok.mp parsed
    obtain ⟨phase, atPhase, parsed⟩ := except_bind_eq_ok.mp parsed
    obtain ⟨chapters, atChapters, parsed⟩ := except_bind_eq_ok.mp parsed
    obtain ⟨drafting, atDrafting, parsed⟩ := except_bind_eq_ok.mp parsed
    obtain ⟨gates, atGates, parsed⟩ := except_bind_eq_ok.mp parsed
    obtain ⟨wordCounts, atCounts, parsed⟩ := except_bind_eq_ok.mp parsed
    obtain ⟨pendingTurn, atPending, parsed⟩ := except_bind_eq_ok.mp parsed
    cases parsed
    exact ⟨atVersion, atNovel, atPhase, atChapters, atDrafting, atGates, atCounts, atPending⟩
  · rintro ⟨atVersion, atNovel, atPhase, atChapters, atDrafting, atGates, atCounts, atPending⟩
    refine except_bind_eq_ok.mpr ⟨_, atVersion, ?_⟩
    refine except_bind_eq_ok.mpr ⟨_, atNovel, ?_⟩
    refine except_bind_eq_ok.mpr ⟨_, atPhase, ?_⟩
    refine except_bind_eq_ok.mpr ⟨_, atChapters, ?_⟩
    refine except_bind_eq_ok.mpr ⟨_, atDrafting, ?_⟩
    refine except_bind_eq_ok.mpr ⟨_, atGates, ?_⟩
    refine except_bind_eq_ok.mpr ⟨_, atCounts, ?_⟩
    exact except_bind_eq_ok.mpr ⟨_, atPending, rfl⟩

/-- An edit inside `[word_counts]` changes the word counts only. -/
theorem parse_edit_wordCounts {key : String} {value : Value} {wordCounts : WordCounts}
    (parsed : parseState interp raw = .ok state)
    (reads : ∀ inner, wordCountsOf interp inner = .ok state.wordCounts →
      wordCountsOf interp (assign key value inner) = .ok wordCounts) :
    parseState interp (raw.edit (.set ["word_counts", key] value)) =
      .ok { state with wordCounts } := by
  rw [parseState_eq_ok] at parsed ⊢
  obtain ⟨atVersion, atNovel, atPhase, atChapters, atDrafting, atGates, atCounts, atPending⟩ := parsed
  obtain ⟨inner, there, reading⟩ := except_bind_eq_ok.mp atCounts
  simp_all [readTable, pendingTurn?, subscript_edit there, lookup_edit there]

theorem parse_setCurrent (parsed : parseState interp raw = .ok state) (current : Int) :
    parseState interp (raw.edit (setCurrent current)) =
      .ok { state with wordCounts := { state.wordCounts with current := .int current } } := by
  refine parse_edit_wordCounts parsed fun inner reading => ?_
  rw [wordCountsOf_eq_ok] at reading ⊢
  refine ⟨by simpa [subscript_assign] using reading.1, ?_⟩
  simpa [subscript_assign] using reading.2.2

theorem parse_setByChapter (parsed : parseState interp raw = .ok state)
    (byChapter : Dict String Int) :
    parseState interp (raw.edit (setByChapter byChapter)) =
      .ok { state with wordCounts := { state.wordCounts with
        byChapter := byChapter.entries.map fun entry => (.str entry.1, .int entry.2) } } := by
  refine parse_edit_wordCounts parsed fun inner reading => ?_
  rw [wordCountsOf_eq_ok] at reading ⊢
  simpa [subscript_assign, buildInlineTable, Interpreter.dict, Function.comp_def] using
    ⟨reading.1, reading.2.1⟩

/-- The two edits of a recount in the view. -/
theorem parse_recounted (parsed : parseState interp raw = .ok state) (current : Int)
    (byChapter : Dict String Int) :
    parseState interp ([setCurrent current, setByChapter byChapter].foldl Table.edit raw) =
      .ok (state.recounted current byChapter) :=
  parse_setByChapter (parse_setCurrent parsed current) byChapter

theorem parse_openPendingTurn (parsed : parseState interp raw = .ok state) (operation : String)
    (paths : List String) :
    parseState interp (raw.edit (openPendingTurn operation paths)) =
      .ok { state with pendingTurn := some (pendingRecord operation paths) } := by
  rw [parseState_eq_ok] at parsed ⊢
  obtain ⟨atVersion, atNovel, atPhase, atChapters, atDrafting, atGates, atCounts, -⟩ := parsed
  have record : pendingTurnOf (.table
      [("operation", .str operation), ("paths", .array (paths.map .str))]) =
        .ok (pendingRecord operation paths) := by
    simp [pendingTurnOf, subscript, lookup_entry, Value.iterate, pendingRecord]
  have present : pendingTurn? (raw.edit (openPendingTurn operation paths)) =
      .ok (some (pendingRecord operation paths)) := by
    simp [pendingTurn?, openPendingTurn, Table.edit, Table.setPath, record, Except.map]
  simp_all [readTable, openPendingTurn, Table.edit, Table.setPath, subscript_assign]

end Views

end NovelRalph.Untyped
