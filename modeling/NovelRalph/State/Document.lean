import NovelRalph.State.Parse

/-!
# Editing the state document

The edits the commands make to an opened `state.toml`, and what each of them
does to the typed view. Every result has the same form: when the document reads
as a state, the edited document reads as that state with one field replaced.
-/

namespace NovelRalph

/-- `document_to_state`. -/
def documentToState {toml : Tomlkit} (document : Document toml) : Except Fault State :=
  parseState document.body

/-- `build_inline_table`, for a table of counts. -/
def buildInlineTable (pairs : Dict String Int) : Value :=
  .table (pairs.entries.map fun entry => (entry.1, .int entry.2))

/-- One inline table of `build_chapter_array`. -/
def chapterRecord (entry : ChapterEntry) : Value :=
  .table [("number", .int entry.number), ("slug", .str entry.slug), ("title", .str entry.title),
    ("target_words", .int entry.targetWords)]

/-- `build_chapter_array`. -/
def buildChapterArray (records : List ChapterEntry) : Value :=
  .array (records.map chapterRecord)

/-- `open_pending_turn`. -/
def openPendingTurn (operation : String) (paths : List String) : Edit :=
  .set ["pending_turn"]
    (.table [("operation", .str operation), ("paths", .array (paths.map .str))])

/-- `clear_pending_turn`; clearing a document without a record does nothing. -/
def clearPendingTurn : Edit := .remove "pending_turn"

/-- `document["chapters"] = …`. -/
def setChapters (records : List ChapterEntry) : Edit :=
  .set ["chapters"] (buildChapterArray records)

/-- `document["word_counts"]["current"] = …`. -/
def setCurrent (current : Int) : Edit := .set ["word_counts", "current"] (.int current)

/-- `document["word_counts"]["by_chapter"] = …`. -/
def setByChapter (byChapter : Dict String Int) : Edit :=
  .set ["word_counts", "by_chapter"] (buildInlineTable byChapter)

/-- `document["phase"]["completed"]` after an append, given what it held before. -/
def setCompleted (completed : List Phase) : Edit :=
  .set ["phase", "completed"] (.array (completed.map fun phase => .str phase.value))

/-- `document["phase"]["current"] = …`. -/
def setCurrentPhase (phase : Phase) : Edit := .set ["phase", "current"] (.str phase.value)

/-- `document["drafting"][key] = number`. -/
def setDrafting (key : String) (number : Int) : Edit := .set ["drafting", key] (.int number)

/-- `document["drafting"][table][key] = number`. -/
def setDraftingBelow (table key : String) (number : Int) : Edit :=
  .set ["drafting", table, key] (.int number)

/-- `document["gates"][table][key] = flag`. -/
def setGate (table key : String) (flag : Bool) : Edit := .set ["gates", table, key] (.bool flag)

/-! ## Reading an edited table -/

section Reading

variable {raw inner : Table}

theorem lookup_of_readTable {key : String} (reads : readTable raw key = .ok inner) :
    raw.lookup key = some (.table inner) := by
  unfold readTable subscript at reads
  cases found : raw.lookup key with
  | none => simp [found, bind, Except.bind] at reads
  | some value => cases value <;> simp_all [bind, Except.bind, asTable]

theorem subscript_assign (key wanted : String) (value : Value) :
    subscript (assign key value raw) wanted =
      if wanted = key then .ok value else subscript raw wanted := by
  unfold subscript
  rw [lookup_assign]
  by_cases same : wanted = key <;> simp [same]

/-- What subscription finds after an assignment below two keys. -/
theorem subscript_edit {outer : String} (reads : readTable raw outer = .ok inner) (key : String)
    (value : Value) (wanted : String) :
    subscript (raw.edit (.set [outer, key] value)) wanted =
      if wanted = outer then .ok (.table (assign key value inner)) else subscript raw wanted := by
  unfold subscript Table.edit
  rw [Table.lookup_setPath_two (lookup_of_readTable reads)]
  by_cases same : wanted = outer <;> simp [same]

theorem lookup_edit {outer : String} (reads : readTable raw outer = .ok inner) (key : String)
    (value : Value) (wanted : String) :
    (raw.edit (.set [outer, key] value)).lookup wanted =
      if wanted = outer then some (.table (assign key value inner)) else raw.lookup wanted :=
  Table.lookup_setPath_two (lookup_of_readTable reads) wanted

/-- An assignment below three keys is one below two keys, of the edited inner table. -/
theorem edit_three {leaf : Table} {outer middle : String} (reads : readTable raw outer = .ok inner)
    (below : readTable inner middle = .ok leaf) (key : String) (value : Value) :
    raw.edit (.set [outer, middle, key] value) =
      raw.edit (.set [outer, middle] (.table (assign key value leaf))) := by
  simp [Table.edit, Table.setPath, lookup_of_readTable reads, lookup_of_readTable below]

@[simp]
theorem asInt_int (field : String) (number : Int) : asInt field (.int number) = .ok number := rfl

@[simp]
theorem asStr_str (field text : String) : asStr field (.str text) = .ok text := rfl

@[simp]
theorem asBool_bool (field : String) (flag : Bool) : asBool field (.bool flag) = .ok flag := rfl

@[simp]
theorem asTable_table (entries : Table) : asTable (.table entries) = .ok entries := rfl

@[simp]
theorem asArray_array (field : String) (items : List Value) :
    asArray field (.array items) = .ok items := rfl

@[simp]
theorem asPhase_value (phase : Phase) : asPhase (.str phase.value) = .ok phase := by
  simp [asPhase]

@[simp]
theorem ok_bind {α β : Type} (value : α) (rest : α → Except Fault β) :
    (Except.ok value >>= rest) = rest value := rfl

/-- Reading back a list each of whose items reads back. -/
theorem mapM_ok {α : Type} {write : α → Value} {read : Value → Except Fault α}
    (back : ∀ item, read (write item) = .ok item) (items : List α) :
    (items.map write).mapM read = .ok items := by
  induction items with
  | nil => rfl
  | cons item rest inductionHypothesis =>
      rw [List.map_cons, List.mapM_cons, back, inductionHypothesis]
      rfl

theorem byChapterCounts_entries (dict : Dict String Int) :
    byChapterCounts (dict.entries.map fun entry => (entry.1, .int entry.2)) = .ok dict := by
  have pairs : ∀ entries : List (String × Int),
      (entries.map fun entry => (entry.1, Value.int entry.2)).mapM
        (fun entry => do
          let count ← asInt entry.1 entry.2
          return (entry.1, count)) = (.ok entries : Except Fault (List (String × Int))) := by
    intro entries
    induction entries with
    | nil => rfl
    | cons entry rest inductionHypothesis =>
        rw [List.map_cons, List.mapM_cons, inductionHypothesis]
        rfl
  unfold byChapterCounts
  rw [pairs]
  exact congrArg Except.ok (Dict.ext (Dict.ofPairs_of_nodup dict.nodup))

theorem chapterEntry_record (entry : ChapterEntry) :
    chapterEntry (chapterRecord entry) = .ok entry := rfl

end Reading

/-! ## The typed view of an edited document -/

section Sections

variable {raw : Table} {state : State} {key : String} {value : Value}

/-- An edit inside `[phase]` changes the phase state only. -/
theorem parse_edit_phase {phase : PhaseState} (parsed : parseState raw = .ok state)
    (reads : ∀ inner, phaseState inner = .ok state.phase →
      phaseState (assign key value inner) = .ok phase) :
    parseState (raw.edit (.set ["phase", key] value)) = .ok { state with phase } := by
  rw [parseState_eq_ok] at parsed ⊢
  obtain ⟨atVersion, atNovel, atPhase, atChapters, atDrafting, atGates, atCounts, atPending⟩ := parsed
  obtain ⟨inner, there, reading⟩ := except_bind_eq_ok.mp atPhase
  simp_all [readInt, readTable, readArray, chapterEntries, pendingTurn?, subscript_edit there,
    lookup_edit there]

/-- An edit inside `[drafting]` changes the drafting state only. -/
theorem parse_edit_drafting {drafting : Drafting} (parsed : parseState raw = .ok state)
    (reads : ∀ inner, draftingState inner = .ok state.drafting →
      draftingState (assign key value inner) = .ok drafting) :
    parseState (raw.edit (.set ["drafting", key] value)) = .ok { state with drafting } := by
  rw [parseState_eq_ok] at parsed ⊢
  obtain ⟨atVersion, atNovel, atPhase, atChapters, atDrafting, atGates, atCounts, atPending⟩ := parsed
  obtain ⟨inner, there, reading⟩ := except_bind_eq_ok.mp atDrafting
  simp_all [readInt, readTable, readArray, chapterEntries, pendingTurn?, subscript_edit there,
    lookup_edit there]

/-- An edit inside `[gates]` changes the gates only. -/
theorem parse_edit_gates {gates : Gates} (parsed : parseState raw = .ok state)
    (reads : ∀ inner, gatesState inner = .ok state.gates →
      gatesState (assign key value inner) = .ok gates) :
    parseState (raw.edit (.set ["gates", key] value)) = .ok { state with gates } := by
  rw [parseState_eq_ok] at parsed ⊢
  obtain ⟨atVersion, atNovel, atPhase, atChapters, atDrafting, atGates, atCounts, atPending⟩ := parsed
  obtain ⟨inner, there, reading⟩ := except_bind_eq_ok.mp atGates
  simp_all [readInt, readTable, readArray, chapterEntries, pendingTurn?, subscript_edit there,
    lookup_edit there]

/-- An edit inside `[word_counts]` changes the word counts only. -/
theorem parse_edit_wordCounts {wordCounts : WordCounts} (parsed : parseState raw = .ok state)
    (reads : ∀ inner, wordCountsState inner = .ok state.wordCounts →
      wordCountsState (assign key value inner) = .ok wordCounts) :
    parseState (raw.edit (.set ["word_counts", key] value)) = .ok { state with wordCounts } := by
  rw [parseState_eq_ok] at parsed ⊢
  obtain ⟨atVersion, atNovel, atPhase, atChapters, atDrafting, atGates, atCounts, atPending⟩ := parsed
  obtain ⟨inner, there, reading⟩ := except_bind_eq_ok.mp atCounts
  simp_all [readInt, readTable, readArray, chapterEntries, pendingTurn?, subscript_edit there,
    lookup_edit there]

theorem parse_setCurrentPhase (parsed : parseState raw = .ok state) (phase : Phase) :
    parseState (raw.edit (setCurrentPhase phase)) =
      .ok { state with phase := { state.phase with current := phase } } := by
  refine parse_edit_phase parsed fun inner reading => ?_
  rw [phaseState_eq_ok] at reading ⊢
  simpa [subscript_assign, readArray] using reading.2

theorem parse_setCompleted (parsed : parseState raw = .ok state) (completed : List Phase) :
    parseState (raw.edit (setCompleted completed)) =
      .ok { state with phase := { state.phase with completed } } := by
  refine parse_edit_phase parsed fun inner reading => ?_
  rw [phaseState_eq_ok] at reading ⊢
  have back : (completed.map fun phase => Value.str phase.value).mapM asPhase = .ok completed :=
    mapM_ok asPhase_value completed
  refine ⟨by simpa [subscript_assign] using reading.1, ?_⟩
  simpa [subscript_assign, readArray] using back

theorem parse_setCurrent (parsed : parseState raw = .ok state) (current : Int) :
    parseState (raw.edit (setCurrent current)) =
      .ok { state with wordCounts := { state.wordCounts with current } } := by
  refine parse_edit_wordCounts parsed fun inner reading => ?_
  rw [wordCountsState_eq_ok] at reading ⊢
  refine ⟨by simpa [subscript_assign, readInt] using reading.1, ?_⟩
  simpa [subscript_assign, readInt, readTable] using reading.2.2

theorem parse_setByChapter (parsed : parseState raw = .ok state) (byChapter : Dict String Int) :
    parseState (raw.edit (setByChapter byChapter)) =
      .ok { state with wordCounts := { state.wordCounts with byChapter } } := by
  refine parse_edit_wordCounts parsed fun inner reading => ?_
  rw [wordCountsState_eq_ok] at reading ⊢
  simpa [subscript_assign, readInt, readTable, buildInlineTable, byChapterCounts_entries] using
    ⟨reading.1, reading.2.1⟩

theorem parse_setCurrentChapter (parsed : parseState raw = .ok state) (chapter : Int) :
    parseState (raw.edit (setDrafting "current_chapter" chapter)) =
      .ok { state with drafting := { state.drafting with currentChapter := chapter } } := by
  refine parse_edit_drafting parsed fun inner reading => ?_
  rw [draftingState_eq_ok] at reading ⊢
  simpa [subscript_assign, readInt, readTable] using reading.2

theorem parse_setCurrentScene (parsed : parseState raw = .ok state) (scene : Int) :
    parseState (raw.edit (setDrafting "current_scene" scene)) =
      .ok { state with drafting := { state.drafting with currentScene := scene } } := by
  refine parse_edit_drafting parsed fun inner reading => ?_
  rw [draftingState_eq_ok] at reading ⊢
  refine ⟨by simpa [subscript_assign, readInt] using reading.1, ?_⟩
  simpa [subscript_assign, readInt, readTable] using reading.2.2

theorem parse_setCurrentBeat (parsed : parseState raw = .ok state) (beat : Int) :
    parseState (raw.edit (setDrafting "current_beat" beat)) =
      .ok { state with drafting := { state.drafting with currentBeat := beat } } := by
  refine parse_edit_drafting parsed fun inner reading => ?_
  rw [draftingState_eq_ok] at reading ⊢
  refine ⟨by simpa [subscript_assign, readInt] using reading.1, ?_⟩
  refine ⟨by simpa [subscript_assign, readInt] using reading.2.1, ?_⟩
  simpa [subscript_assign, readInt, readTable] using reading.2.2.2

theorem parse_setLastChapterPassed (parsed : parseState raw = .ok state) (chapter : Int) :
    parseState (raw.edit (setDraftingBelow "fangirl" "last_chapter_passed" chapter)) =
      .ok { state with drafting := { state.drafting with
        fangirl := { lastChapterPassed := chapter } } } := by
  obtain ⟨-, -, -, -, atDrafting, -⟩ := parseState_eq_ok.mp parsed
  obtain ⟨inner, there, reading⟩ := except_bind_eq_ok.mp atDrafting
  obtain ⟨atChapter, atScene, atBeat, atCritic, atFangirl⟩ := draftingState_eq_ok.mp reading
  obtain ⟨leaf, below, -⟩ := except_bind_eq_ok.mp atFangirl
  rw [setDraftingBelow, edit_three there below]
  refine parse_edit_drafting parsed fun inner reading => ?_
  rw [draftingState_eq_ok] at reading ⊢
  obtain ⟨atChapter, atScene, atBeat, atCritic, -⟩ := reading
  refine ⟨?_, ?_, ?_, ?_, ?_⟩
  · simpa [subscript_assign, readInt] using atChapter
  · simpa [subscript_assign, readInt] using atScene
  · simpa [subscript_assign, readInt] using atBeat
  · simpa [subscript_assign, readTable] using atCritic
  · simp [subscript_assign, readTable, fangirlState_eq_ok, readInt]

theorem parse_setCriticPass (parsed : parseState raw = .ok state) (pass : Int) :
    parseState (raw.edit (setDraftingBelow "critic" "pass" pass)) =
      .ok { state with drafting := { state.drafting with
        critic := { state.drafting.critic with passNumber := pass } } } := by
  obtain ⟨-, -, -, -, atDrafting, -⟩ := parseState_eq_ok.mp parsed
  obtain ⟨inner, there, reading⟩ := except_bind_eq_ok.mp atDrafting
  obtain ⟨-, -, -, atCritic, -⟩ := draftingState_eq_ok.mp reading
  obtain ⟨leaf, below, critic⟩ := except_bind_eq_ok.mp atCritic
  rw [setDraftingBelow, edit_three there below]
  refine parse_edit_drafting parsed fun inner reading => ?_
  rw [draftingState_eq_ok] at reading ⊢
  obtain ⟨atChapter, atScene, atBeat, -, atFangirl⟩ := reading
  rw [criticState_eq_ok] at critic
  refine ⟨?_, ?_, ?_, ?_, ?_⟩
  · simpa [subscript_assign, readInt] using atChapter
  · simpa [subscript_assign, readInt] using atScene
  · simpa [subscript_assign, readInt] using atBeat
  · simpa [subscript_assign, readTable, criticState_eq_ok, readInt] using critic.2
  · simpa [subscript_assign, readTable] using atFangirl

/-- Setting one knitting gate, whichever of the three it is. -/
theorem parse_setKnitting {gate : String} {flag : Bool} {knitting : KnittingGates}
    (parsed : parseState raw = .ok state)
    (reads : ∀ leaf, knittingGates leaf = .ok state.gates.knitting →
      knittingGates (assign gate (.bool flag) leaf) = .ok knitting) :
    parseState (raw.edit (setGate "knitting" gate flag)) =
      .ok { state with gates := { state.gates with knitting } } := by
  obtain ⟨-, -, -, -, -, atGates, -⟩ := parseState_eq_ok.mp parsed
  obtain ⟨inner, there, reading⟩ := except_bind_eq_ok.mp atGates
  obtain ⟨atKnitting, -⟩ := gatesState_eq_ok.mp reading
  obtain ⟨leaf, below, knits⟩ := except_bind_eq_ok.mp atKnitting
  rw [setGate, edit_three there below]
  refine parse_edit_gates parsed fun inner reading => ?_
  rw [gatesState_eq_ok] at reading ⊢
  refine ⟨?_, by simpa [subscript_assign, readTable] using reading.2⟩
  simpa [subscript_assign, readTable] using reads leaf knits

theorem parse_setDone30 (parsed : parseState raw = .ok state) (flag : Bool) :
    parseState (raw.edit (setGate "knitting" "done_30" flag)) =
      .ok { state with gates := { state.gates with
        knitting := { state.gates.knitting with done30 := flag } } } := by
  refine parse_setKnitting parsed fun leaf reading => ?_
  rw [knittingGates_eq_ok] at reading ⊢
  simpa [subscript_assign, readBool] using reading.2

theorem parse_setDone50 (parsed : parseState raw = .ok state) (flag : Bool) :
    parseState (raw.edit (setGate "knitting" "done_50" flag)) =
      .ok { state with gates := { state.gates with
        knitting := { state.gates.knitting with done50 := flag } } } := by
  refine parse_setKnitting parsed fun leaf reading => ?_
  rw [knittingGates_eq_ok] at reading ⊢
  simpa [subscript_assign, readBool] using ⟨reading.1, reading.2.2⟩

theorem parse_setDone80 (parsed : parseState raw = .ok state) (flag : Bool) :
    parseState (raw.edit (setGate "knitting" "done_80" flag)) =
      .ok { state with gates := { state.gates with
        knitting := { state.gates.knitting with done80 := flag } } } := by
  refine parse_setKnitting parsed fun leaf reading => ?_
  rw [knittingGates_eq_ok] at reading ⊢
  simpa [subscript_assign, readBool] using ⟨reading.1, reading.2.1⟩

theorem parse_setFinalPassComplete (parsed : parseState raw = .ok state) (flag : Bool) :
    parseState (raw.edit (setGate "final" "final_pass_complete" flag)) =
      .ok { state with gates := { state.gates with
        final := { finalPassComplete := flag } } } := by
  obtain ⟨-, -, -, -, -, atGates, -⟩ := parseState_eq_ok.mp parsed
  obtain ⟨inner, there, reading⟩ := except_bind_eq_ok.mp atGates
  obtain ⟨-, atFinal⟩ := gatesState_eq_ok.mp reading
  obtain ⟨leaf, below, -⟩ := except_bind_eq_ok.mp atFinal
  rw [setGate, edit_three there below]
  refine parse_edit_gates parsed fun inner reading => ?_
  rw [gatesState_eq_ok] at reading ⊢
  refine ⟨by simpa [subscript_assign, readTable] using reading.1, ?_⟩
  simp [subscript_assign, readTable, finalGate_eq_ok, readBool]

end Sections

section TopLevel

variable {raw : Table} {state : State}

theorem parse_setChapters (parsed : parseState raw = .ok state) (chapters : List ChapterEntry) :
    parseState (raw.edit (setChapters chapters)) = .ok { state with chapters } := by
  rw [parseState_eq_ok] at parsed ⊢
  obtain ⟨atVersion, atNovel, atPhase, -, atDrafting, atGates, atCounts, atPending⟩ := parsed
  have back := mapM_ok chapterEntry_record chapters
  simp_all [readInt, readTable, readArray, chapterEntries, pendingTurn?, setChapters,
    buildChapterArray, Table.edit, Table.setPath, lookup_assign, subscript_assign]

theorem parse_openPendingTurn (parsed : parseState raw = .ok state) (operation : String)
    (paths : List String) :
    parseState (raw.edit (openPendingTurn operation paths)) =
      .ok { state with pendingTurn := some { operation, paths } } := by
  rw [parseState_eq_ok] at parsed ⊢
  obtain ⟨atVersion, atNovel, atPhase, atChapters, atDrafting, atGates, atCounts, -⟩ := parsed
  have back := mapM_ok (asStr_str "paths") paths
  have record : pendingTurnRecord (.table
      [("operation", .str operation), ("paths", .array (paths.map .str))]) =
        .ok { operation, paths } := by
    simp [pendingTurnRecord, readArray, readStr, subscript, lookup_entry, back]
  have present : pendingTurn? (raw.edit (openPendingTurn operation paths)) =
      .ok (some { operation, paths }) := by
    simp [pendingTurn?, openPendingTurn, Table.edit, Table.setPath, record]
  simp_all [readInt, readTable, readArray, chapterEntries, openPendingTurn, Table.edit,
    Table.setPath, subscript_assign]

theorem parse_clearPendingTurn (parsed : parseState raw = .ok state) :
    parseState (raw.edit clearPendingTurn) = .ok { state with pendingTurn := none } := by
  rw [parseState_eq_ok] at parsed ⊢
  obtain ⟨atVersion, atNovel, atPhase, atChapters, atDrafting, atGates, atCounts, -⟩ := parsed
  have elsewhere : ∀ wanted, wanted ≠ "pending_turn" →
      subscript (discard "pending_turn" raw) wanted = subscript raw wanted := by
    intro wanted differs
    simp [subscript, lookup_discard, differs]
  simp_all [readInt, readTable, readArray, chapterEntries, pendingTurn?, clearPendingTurn,
    Table.edit, lookup_discard]

end TopLevel

end NovelRalph
