import NovelRalph.Surface.Operations

/-!
# Every payload serialises

`json.dumps` has no form for a decoded float or date. The payloads of the state
commands are decoded tables, and none of them ever holds either: a body that
returns, returns an outcome the envelope can be built from. Whether its integers can
be spelled is another matter, which `render_machine` meets.
-/

namespace NovelRalph

/-- The value has a JSON form. -/
def Value.Plain (value : Value) : Prop := (Value.toJson? value).isSome

/-- Every item has a JSON form. -/
def PlainItems (items : List Value) : Prop := (itemsToJson? items).isSome

/-- Every entry has a JSON form. -/
def PlainEntries (entries : Table) : Prop := (entriesToJson? entries).isSome

section Plain

@[simp]
theorem plain_str (text : String) : (Value.str text).Plain := rfl

@[simp]
theorem plain_int (number : Int) : (Value.int number).Plain := rfl

@[simp]
theorem plain_bool (flag : Bool) : (Value.bool flag).Plain := rfl

@[simp]
theorem plain_array {items : List Value} : (Value.array items).Plain ↔ PlainItems items := by
  unfold Value.Plain PlainItems
  rw [Value.toJson?, Option.isSome_map]

@[simp]
theorem plain_table {entries : Table} : (Value.table entries).Plain ↔ PlainEntries entries := by
  unfold Value.Plain PlainEntries
  rw [Value.toJson?, Option.isSome_map]

@[simp]
theorem plainItems_nil : PlainItems [] := rfl

@[simp]
theorem plainItems_cons {item : Value} {rest : List Value} :
    PlainItems (item :: rest) ↔ item.Plain ∧ PlainItems rest := by
  unfold PlainItems Value.Plain
  rw [itemsToJson?]
  cases item.toJson? <;> cases itemsToJson? rest <;> simp

@[simp]
theorem plainEntries_nil : PlainEntries [] := rfl

@[simp]
theorem plainEntries_cons {key : String} {value : Value} {rest : Table} :
    PlainEntries ((key, value) :: rest) ↔ value.Plain ∧ PlainEntries rest := by
  unfold PlainEntries Value.Plain
  rw [entriesToJson?]
  cases value.toJson? <;> cases entriesToJson? rest <;> simp

/-- Projected items have JSON forms when each projection has. -/
theorem plainItems_map {α : Type} {project : α → Value} (items : List α)
    (each : ∀ item ∈ items, (project item).Plain) : PlainItems (items.map project) := by
  induction items with
  | nil => exact plainItems_nil
  | cons item rest inductionHypothesis =>
      rw [List.map_cons, plainItems_cons]
      exact ⟨each item List.mem_cons_self,
        inductionHypothesis fun later member => each later (List.mem_cons_of_mem _ member)⟩

/-- Projected entries have JSON forms when each value has. -/
theorem plainEntries_map {α : Type} {key : α → String} {project : α → Value} (items : List α)
    (each : ∀ item ∈ items, (project item).Plain) :
    PlainEntries (items.map fun item => (key item, project item)) := by
  induction items with
  | nil => exact plainEntries_nil
  | cons item rest inductionHypothesis =>
      rw [List.map_cons, plainEntries_cons]
      exact ⟨each item List.mem_cons_self,
        inductionHypothesis fun later member => each later (List.mem_cons_of_mem _ member)⟩

@[simp]
theorem plainEntries_append {left right : Table} :
    PlainEntries (left ++ right) ↔ PlainEntries left ∧ PlainEntries right := by
  induction left with
  | nil => simp
  | cons entry rest inductionHypothesis =>
      rw [List.cons_append, plainEntries_cons, plainEntries_cons, inductionHypothesis, and_assoc]

end Plain

/-! ## The payloads -/

theorem plain_inlineTable (pairs : Dict String Int) : (buildInlineTable pairs).Plain := by
  unfold buildInlineTable
  rw [plain_table]
  exact plainEntries_map _ fun entry _ => plain_int entry.2

theorem plain_chapterArray (records : List ChapterEntry) : (buildChapterArray records).Plain := by
  unfold buildChapterArray
  rw [plain_array]
  refine plainItems_map _ fun record _ => ?_
  simp [chapterRecord]

theorem plain_reconciliationPayload (reconciliation : Reconciliation String) :
    PlainEntries (reconciliationPayload reconciliation) := by
  have names : PlainItems (reconciliation.discrepancies.map fun name => Value.str name.text) :=
    plainItems_map _ fun name _ => plain_str _
  unfold reconciliationPayload
  cases reconciliation.recountedByChapter with
  | none => simp [names]
  | some byChapter =>
      have counts : PlainEntries (byChapter.entries.map fun entry => (entry.1, .int entry.2)) :=
        plainEntries_map _ fun entry _ => plain_int _
      simp [names, counts]

theorem plain_selectionResult (selection : GateSelection) : PlainEntries selection.result := by
  have knitting : PlainEntries (selection.knittingChanged.map fun change =>
      (change.1.name, Value.bool change.2)) := plainEntries_map _ fun change _ => plain_bool _
  have final : PlainEntries (selection.final.toList.map fun flag =>
      ("final", Value.table [("final_pass_complete", .bool flag)])) :=
    plainEntries_map _ fun flag _ => by simp
  unfold GateSelection.result
  by_cases none : selection.knittingChanged = []
  · simp [none, final]
  · simp [none, final, knitting]

theorem plain_clauses (clauses : DoneClauses) : PlainEntries clauses.asResult :=
  plainEntries_map _ fun _ _ => plain_bool _

/-! ## The bodies -/

section Bodies

variable {toml : Tomlkit}

/-- Whatever outcome a program returns serialises. -/
def Serialises (program : Command toml CommandOutcome) : Prop :=
  Prog.Ensures (fun _ => True) program (fun _ => True) fun outcome _ => PlainEntries outcome.result

namespace Serialises

theorem pure {outcome : CommandOutcome} (plain : PlainEntries outcome.result) :
    Serialises (Pure.pure outcome : Command toml CommandOutcome) :=
  Prog.Ensures.pure fun _ _ => plain

/-- What comes before the last step does not matter. -/
theorem bind {α : Type} {first : Command toml α} {rest : α → Command toml CommandOutcome}
    (closing : ∀ value, Serialises (rest value)) : Serialises (first >>= rest) := by
  have opening : Prog.Ensures (fun _ => True) first (fun _ => True) fun _ _ => True :=
    fun _ _ => ⟨fun _ _ => trivial, fun _ _ => trivial⟩
  exact opening.bind closing

theorem raise (fault : Fault) : Serialises (.raise fault : Command toml CommandOutcome) :=
  Prog.Ensures.raise

/-- A single-file mutator returns the outcome it planned. -/
theorem mutateState {arith : RatioArithmetic}
    {plan : World toml.Text → State → Except Fault (MutationPlan State)}
    (planned : ∀ world prior plan', plan world prior = .ok plan' →
      PlainEntries plan'.outcome.result) : Serialises (NovelRalph.mutateState arith plan) := by
  intro world _
  refine ⟨fun _ _ => trivial, fun outcome returned => ?_⟩
  rcases @mutateState_cases toml arith plan world with
    ⟨fault, run⟩ | ⟨prior, plan', _, _, _, _, -, chosen, -, -, -, -, run⟩
  · rw [run] at returned
    cases returned
  · rw [run] at returned
    cases returned
    exact planned world prior plan' chosen

end Serialises

variable (arith : RatioArithmetic) (now : String)

theorem serialises_setCursor (chapter scene beat : Int) :
    Serialises (setCursor arith chapter scene beat : Command toml CommandOutcome) := by
  refine Serialises.mutateState fun world prior plan chosen => ?_
  obtain ⟨_, -, chosen⟩ := except_bind_eq_ok.mp chosen
  cases chosen
  simp

theorem serialises_advancePhase : Serialises (advancePhase arith : Command toml CommandOutcome) := by
  refine Serialises.mutateState fun world prior plan chosen => ?_
  obtain ⟨-, -, chosen⟩ := except_bind_eq_ok.mp chosen
  obtain ⟨successor, -, chosen⟩ := except_bind_eq_ok.mp chosen
  by_cases unplanned : (successor = .drafting && prior.chapters.isEmpty) = true
  · simp [unplanned, throw, throwThe, MonadExceptOf.throw, bind, Except.bind] at chosen
  · simp only [unplanned] at chosen
    cases chosen
    simp

theorem serialises_recount : Serialises (recount arith : Command toml CommandOutcome) := by
  refine Serialises.mutateState fun world prior plan chosen => ?_
  obtain ⟨⟨current, table⟩, -, chosen⟩ := except_bind_eq_ok.mp chosen
  cases chosen
  simp [recountPlan, plain_inlineTable]

theorem serialises_setGate (selection : GateSelection) :
    Serialises (setGateCommand arith selection : Command toml CommandOutcome) := by
  unfold setGateCommand
  split
  · refine Serialises.mutateState fun world prior plan chosen => ?_
    cases chosen
    exact plain_selectionResult selection
  · exact Serialises.pure plainEntries_nil

theorem serialises_completeFinalPass :
    Serialises (completeFinalPass arith : Command toml CommandOutcome) := by
  refine Serialises.mutateState fun world prior plan chosen => ?_
  cases chosen
  simp [finalPassPlan]

theorem serialises_setFangirl (lastChapter : Int) :
    Serialises (setFangirl arith lastChapter : Command toml CommandOutcome) := by
  refine Serialises.mutateState fun world prior plan chosen => ?_
  obtain ⟨_, -, chosen⟩ := except_bind_eq_ok.mp chosen
  by_cases within : 0 ≤ lastChapter ∧ lastChapter ≤ prior.chapters.length
  · simp only [if_pos within] at chosen
    cases chosen
    simp
  · simp only [if_neg within] at chosen
    cases chosen

theorem serialises_setCriticPass (pass : Int) :
    Serialises (setCriticPass arith pass : Command toml CommandOutcome) := by
  refine Serialises.mutateState fun world prior plan chosen => ?_
  obtain ⟨_, -, chosen⟩ := except_bind_eq_ok.mp chosen
  by_cases small : pass < 1
  · simp only [if_pos small] at chosen
    cases chosen
  · simp only [if_neg small] at chosen
    cases chosen
    simp

theorem serialises_setChapters (chapters : List ChapterPlanEntry) :
    Serialises (setChaptersCommand arith now chapters : Command toml CommandOutcome) := by
  refine Serialises.bind fun document => Serialises.bind fun prior => ?_
  by_cases populated : prior.chapters ≠ []
  · rw [if_pos populated]
    exact Serialises.raise _
  · rw [if_neg populated]
    refine Serialises.bind fun _ => Serialises.bind fun _ => Serialises.bind fun proposed =>
      Serialises.bind fun _ => Serialises.bind fun _ => Serialises.pure ?_
    simp [plain_chapterArray]

theorem serialises_reconcile :
    Serialises (reconcile arith now : Command toml CommandOutcome) := by
  refine Serialises.bind fun document => Serialises.bind fun state =>
    Serialises.bind fun reconciliation => ?_
  have plain := plain_reconciliationPayload reconciliation
  unfold enactReconciliation dispatchAction
  cases reconciliation.action with
  | none => exact Serialises.pure plain
  | refuse => exact Serialises.bind fun _ => Serialises.pure plain
  | recreateLog => exact Serialises.bind fun _ => Serialises.pure plain
  | recount => exact Serialises.bind fun _ => Serialises.bind fun _ => Serialises.pure plain
  | completePendingTurn => exact Serialises.bind fun _ => Serialises.pure plain
  | rollbackPendingTurn => exact Serialises.bind fun _ => Serialises.pure plain

/-- Every one of the nine mutators returns a payload that serialises. -/
theorem serialises_invocation (invocation : Invocation) :
    Serialises (invocation.run arith now : Command toml CommandOutcome) := by
  cases invocation with
  | setCursor chapter scene beat => exact serialises_setCursor arith chapter scene beat
  | advancePhase => exact serialises_advancePhase arith
  | setChapters chapters => exact serialises_setChapters arith now chapters
  | recount => exact serialises_recount arith
  | reconcile => exact serialises_reconcile arith now
  | setGate selection => exact serialises_setGate arith selection
  | completeFinalPass => exact serialises_completeFinalPass arith
  | setFangirl lastChapter => exact serialises_setFangirl arith lastChapter
  | setCriticPass pass => exact serialises_setCriticPass arith pass

theorem serialises_init (title slug : String) (target : Int) :
    Serialises (initCommand now title slug target : Command toml CommandOutcome) := by
  refine Serialises.bind fun there => ?_
  cases there with
  | true => exact Serialises.raise _
  | false =>
      refine Serialises.bind fun _ => Serialises.bind fun _ => Serialises.bind fun _ =>
        Serialises.bind fun _ => Serialises.bind fun _ => Serialises.bind fun cwd =>
          Serialises.pure ?_
      simp

theorem serialises_check : Serialises (check arith : Command toml CommandOutcome) := by
  refine Serialises.bind fun report => Serialises.pure ?_
  have names : PlainItems (report.verdict.map fun violation => Value.str violation.invariant.text) :=
    plainItems_map _ fun violation _ => plain_str _
  have attached : PlainEntries (report.reconciliation.toList.map fun reconciliation =>
      ("reconciliation", Value.table (reconciliationPayload reconciliation))) :=
    plainEntries_map _ fun reconciliation _ =>
      plain_table.mpr (plain_reconciliationPayload reconciliation)
  simp [names, attached]

theorem serialises_compile : Serialises (compileManuscript : Command toml CommandOutcome) := by
  refine Serialises.bind fun state => Serialises.bind fun _ => Serialises.bind fun bodies =>
    Serialises.bind fun _ => Serialises.pure ?_
  simp

theorem serialises_checkCompiled : Serialises (checkCompiled : Command toml CommandOutcome) := by
  refine Serialises.bind fun state => Serialises.bind fun _ => Serialises.bind fun verdict => ?_
  by_cases current : compileIsCurrent verdict = true
  · rw [if_pos current]
    exact Serialises.pure (by simp)
  · rw [if_neg current]
    exact Serialises.pure (by simp)

theorem serialises_novelDone : Serialises (novelDone : Command toml CommandOutcome) := by
  refine Serialises.bind fun state => Serialises.bind fun clauses => ?_
  refine Prog.Ensures.observe fun world outcome _ looked => ?_
  cases looked
  unfold doneOutcome
  split
  · exact plain_clauses clauses
  · split <;> exact plain_clauses clauses

/-- A body that serialises is wired without a fault of its own. -/
theorem wired_eq {program : Command toml CommandOutcome} (serialises : Serialises program)
    (world : World toml.Text) :
    (wired program world).trail = (program world).trail ∧
      ((∃ fault, (program world).result = .error fault ∧
          (wired program world).result = .error (.raised fault)) ∨
        ∃ outcome result, (program world).result = .ok outcome ∧
          entriesToJson? outcome.result = some result ∧
          (wired program world).result = .ok ⟨outcome.code, result, outcome.messages⟩) := by
  cases run : program world with
  | mk trail result =>
      have mapped : program.mapFault ScanFault.raised world =
          ⟨trail, result.mapError .raised⟩ := by
        unfold Prog.mapFault
        rw [run]
      unfold wired
      cases result with
      | error fault =>
          rw [Prog.bind_error world mapped]
          exact ⟨rfl, Or.inl ⟨fault, rfl, rfl⟩⟩
      | ok outcome =>
          have plain := (serialises world trivial).2 outcome (by rw [run])
          obtain ⟨payload, converts⟩ := Option.isSome_iff_exists.mp plain
          rw [Prog.bind_ok world mapped, Prog.observe_apply, wireOutcome, converts]
          exact ⟨List.append_nil _, Or.inr ⟨outcome, payload, rfl, converts, rfl⟩⟩

end Bodies

/-! ## The state commands -/

namespace Host

variable (host : Host) (now : String)

/-- The command that an operation wires; the two scans build their payloads themselves. -/
def command? : Operation → Option (Command host.toml CommandOutcome)
  | .init title slug targetWordCount => some (initCommand now title slug targetWordCount)
  | .check => some (NovelRalph.check host.arith.toRatioArithmetic)
  | .mutate invocation => some (invocation.run host.arith.toRatioArithmetic now)
  | .done => some novelDone
  | .compile true => some checkCompiled
  | .compile false => some compileManuscript
  | .desloppify _ _ _ => none
  | .wordcount => none

variable {host now} {operation : Operation} {program : Command host.toml CommandOutcome}

theorem body_of_command? (wires : host.command? now operation = some program) :
    host.body now operation = wired program := by
  cases operation with
  | compile readOnly => cases readOnly <;> cases wires <;> rfl
  | desloppify chapter pack ledger => cases wires
  | wordcount => cases wires
  | _ => cases wires; rfl

/-- Every command that an operation wires returns payloads that serialise. -/
theorem serialises_command (wires : host.command? now operation = some program) :
    Serialises program := by
  cases operation with
  | init title slug targetWordCount => cases wires; exact serialises_init now title slug _
  | check => cases wires; exact serialises_check _
  | mutate invocation => cases wires; exact serialises_invocation _ now invocation
  | done => cases wires; exact serialises_novelDone
  | compile readOnly =>
      cases readOnly with
      | true => cases wires; exact serialises_checkCompiled
      | false => cases wires; exact serialises_compile
  | desloppify chapter pack ledger => cases wires
  | wordcount => cases wires

/-- A body faults where its command does, and with the same fault: serialising adds none. -/
theorem body_faults_iff (wires : host.command? now operation = some program) (fault : ScanFault)
    (world : World host.toml.Text) :
    (host.body now operation world).result = .error fault ↔
      ∃ raised, fault = .raised raised ∧ (program world).result = .error raised := by
  rw [body_of_command? wires]
  obtain ⟨-, ⟨raised, faulted, result⟩ | ⟨outcome, payload, returned, -, result⟩⟩ :=
    wired_eq (serialises_command wires) world
  · rw [result, faulted]
    constructor
    · rintro ⟨⟩
      exact ⟨raised, rfl, rfl⟩
    · rintro ⟨_, rfl, same⟩
      cases same
      rfl
  · rw [result, returned]
    constructor
    · rintro ⟨⟩
    · rintro ⟨_, -, ⟨⟩⟩

end Host

end NovelRalph
