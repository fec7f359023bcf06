import NovelRalph.Loader.PackChannels
import NovelRalph.Surface.Novel

/-!
# Reading a verdict back

The four checkers exit 0, 1 or 4 with a verdict. A harness can take the verdict
from the exit code or from the payload it reads off the printed line, and the two
never disagree: the payload is clean exactly when the code is 0. The findings of a
scan are aligned: one violation, one failed finding and one message that names it
each, in one order.
-/

namespace NovelRalph

/-- The read-only checkers: `check`, `done`, `compile --check` and `desloppify`. -/
def Operation.checks : Operation → Bool
  | .check => true
  | .done => true
  | .compile readOnly => readOnly
  | .desloppify _ _ _ => true
  | _ => false

/-- The clauses of `done`, as the payload names them. -/
def clauseNames : List String :=
  ["phase_is_done", "final_pass_complete", "all_chapters_flagged", "knitting_gates_passed",
   "compile_consistent", "no_unresolved_blockers"]

/-- The payload of a checker reports nothing to act on. -/
def SaysClean (operation : Operation) (result : Payload) : Prop :=
  match operation with
  | .done => ∀ name ∈ clauseNames, result.lookup name = some (.bool true)
  | .compile _ => result.lookup "diverged" = some (.bool false)
  | _ => result.lookup "violations" = some (.array [])

/-- Violations, failed findings and messages go together one by one, each message starting with
what names its finding; one message says that there is none. -/
def Aligned (identity : String) (result : Payload) (messages : List String) : Prop :=
  ∃ entries : List (String × Payload),
    result.lookup "violations" = some (.array (entries.map fun entry => .str entry.1)) ∧
    result.lookup "findings" = some (.array (entries.map fun entry => .object entry.2)) ∧
    (if entries = [] then messages.length = 1
      else List.Forall₂ (fun message entry => startsWith message (entry.1 ++ " ") = true)
        messages entries) ∧
    ∀ entry ∈ entries, entry.2.lookup identity = some (.str entry.1) ∧
      entry.2.lookup "passed" = some (.bool false)

/-- The key under which a finding of a scan names itself. -/
def Operation.identity : Operation → String
  | .desloppify _ _ (some _) => "device_id"
  | _ => "rule_id"

/-- What a verdict of a checker says, in its code and in its payload. -/
structure Verdict (operation : Operation) (outcome : WireOutcome) : Prop where
  clean : SaysClean operation outcome.result ↔ outcome.code = .success
  actionable : outcome.code ≠ .success → outcome.code = .actionableFinding ∨
    (outcome.code = .benignNegative ∧ operation = .done)
  aligned : ∀ chapter pack ledger, operation = .desloppify chapter pack ledger →
    Aligned operation.identity outcome.result outcome.messages

/-! ## Converted payloads -/

theorem itemsToJson?_str (texts : List String) :
    itemsToJson? (texts.map .str) = some (texts.map .str) := by
  induction texts with
  | nil => rfl
  | cons text rest inductionHypothesis =>
      rw [List.map_cons, itemsToJson?, inductionHypothesis]
      rfl

/-- The entries of a converted table are those of the table, converted. -/
theorem entriesToJson?_cons {key : String} {value : Value} {rest : Table} {payload : Payload}
    (converts : entriesToJson? ((key, value) :: rest) = some payload) :
    ∃ json later, value.toJson? = some json ∧ entriesToJson? rest = some later ∧
      payload = (key, json) :: later := by
  rw [entriesToJson?] at converts
  cases first : value.toJson? with
  | none => simp [first] at converts
  | some json =>
      cases others : entriesToJson? rest with
      | none => simp [first, others] at converts
      | some later =>
          simp only [first, others, Option.some.injEq] at converts
          exact ⟨json, later, rfl, rfl, converts.symm⟩

/-! ## The outcomes of the checkers -/

section Outcomes

variable {toml : Tomlkit} {arith : RatioArithmetic}

/-- A list of projected texts is empty when the list is. -/
theorem array_eq_nil {α : Type} {items : List α} {project : α → Json} :
    some (Json.array (items.map project)) = some (.array []) ↔ items = [] := by
  simp

theorem verdict_check {outcome : CommandOutcome} {payload : Payload} {world : World toml.Text}
    (returned : (check arith world).result = .ok outcome)
    (converts : entriesToJson? outcome.result = some payload) :
    Verdict .check ⟨outcome.code, payload, outcome.messages⟩ := by
  obtain ⟨trail, report, -, finished⟩ := Prog.bind_returns world returned
  cases finished
  obtain ⟨json, later, first, -, rfl⟩ := entriesToJson?_cons converts
  have names : (report.verdict.map fun violation => Value.str violation.invariant.text) =
      (report.verdict.map fun violation => violation.invariant.text).map .str := by
    rw [List.map_map]
    rfl
  rw [Value.toJson?, names, itemsToJson?_str, Option.map_some, Option.some.injEq] at first
  subst first
  have listed : ((("violations", Json.array ((report.verdict.map fun violation =>
      violation.invariant.text).map .str)) :: later : Payload).lookup "violations") =
        some (.array ((report.verdict.map fun violation => violation.invariant.text).map .str)) := rfl
  refine ⟨?_, fun dirty => Or.inl ?_, fun _ _ _ same => by cases same⟩
  · show (_ = some (Json.array [])) ↔ _
    rw [listed, array_eq_nil, List.map_eq_nil_iff]
    by_cases empty : report.verdict = [] <;> simp [empty]
  · by_cases empty : report.verdict = []
    · exact absurd (if_pos empty) dirty
    · exact if_neg empty

theorem verdict_checkCompiled {outcome : CommandOutcome} {payload : Payload}
    {world : World toml.Text} (returned : (checkCompiled world).result = .ok outcome)
    (converts : entriesToJson? outcome.result = some payload) :
    Verdict (.compile true) ⟨outcome.code, payload, outcome.messages⟩ := by
  obtain ⟨_, state, -, returned⟩ := Prog.bind_returns world returned
  obtain ⟨_, _, -, returned⟩ := Prog.bind_returns _ returned
  obtain ⟨_, verdict, -, returned⟩ := Prog.bind_returns _ returned
  by_cases current : compileIsCurrent verdict = true
  · rw [if_pos current] at returned
    cases returned
    cases converts
    exact ⟨by simp [SaysClean, List.lookup_cons], fun dirty => absurd rfl dirty,
      fun _ _ _ same => by cases same⟩
  · rw [if_neg current] at returned
    cases returned
    cases converts
    exact ⟨by simp [SaysClean, List.lookup_cons], fun _ => Or.inl rfl, fun _ _ _ same => by cases same⟩

theorem verdict_done {outcome : CommandOutcome} {payload : Payload} {world : World toml.Text}
    (returned : (novelDone world).result = .ok outcome)
    (converts : entriesToJson? outcome.result = some payload) :
    Verdict .done ⟨outcome.code, payload, outcome.messages⟩ := by
  obtain ⟨_, state, -, returned⟩ := Prog.bind_returns world returned
  obtain ⟨_, clauses, -, returned⟩ := Prog.bind_returns _ returned
  cases returned
  have fields : ∀ clauses : DoneClauses, entriesToJson? clauses.asResult =
      some (clauses.fields.map fun field => (field.1, .bool field.2)) := fun _ => rfl
  have result : ∀ disk : Disk, (doneOutcome clauses disk).result = clauses.asResult := by
    intro disk
    unfold doneOutcome
    split
    · rfl
    · split <;> rfl
  rw [result, fields, Option.some.injEq] at converts
  subst converts
  refine ⟨?_, fun dirty => ?_, fun _ _ _ same => by cases same⟩
  · have clean : SaysClean .done (clauses.fields.map fun field => (field.1, .bool field.2)) ↔
        clauses.allHold = true := by
      obtain ⟨phase, final, flagged, knitting, compile, blockers⟩ := clauses
      simp [SaysClean, clauseNames, DoneClauses.fields, DoneClauses.allHold, List.lookup_cons]
    show SaysClean .done _ ↔ _
    rw [clean]
    unfold doneOutcome
    split
    · next holds => simp [holds]
    · next fails => split <;> simp [fails]
  · unfold doneOutcome at dirty ⊢
    split at dirty
    · exact absurd rfl dirty
    · next fails =>
        rw [if_neg fails]
        split
        · exact Or.inl rfl
        · exact Or.inr ⟨rfl, rfl⟩

end Outcomes

/-! ## The outcomes of a scan -/

section Skeleton

variable {Report Finding : Type} {report : Report} {identity clean : String} {extra : Payload}
  {identify describe : Finding → String} {fields : Finding → Payload} {passed : Finding → Bool}
  {spells : Finding → List Int} {findings : List Finding} {outcome : ReportOutcome Report}
  (built : buildFindingOutcome report findings passed spells describe clean = .ok outcome)

include built

/-- It is aligned when each finding's message starts with what names the finding. -/
theorem aligned_findingResult (apart : extra.lookup "violations" = none)
    (apart' : extra.lookup "findings" = none)
    (named : ∀ finding, (fields finding).lookup identity = some (.str (identify finding)))
    (verdict : ∀ finding, (fields finding).lookup "passed" = some (.bool (passed finding)))
    (names : ∀ finding, startsWith (describe finding) (identify finding ++ " ") = true) :
    Aligned identity
      (findingResult extra identify (fun finding => .object (fields finding)) passed findings)
      outcome.messages := by
  refine ⟨(findings.filter fun finding => !passed finding).map fun finding =>
    (identify finding, fields finding), ?_, ?_, ?_, ?_⟩
  · rw [findingResult, List.lookup_append, apart, List.map_map]
    rfl
  · rw [findingResult, List.lookup_append, apart', List.map_map]
    rfl
  · rw [(buildFindingOutcome_eq_ok built).2.2]
    cases failed : findings.filter fun finding => !passed finding with
    | nil => simp
    | cons first rest =>
        rw [if_neg (by simp)]
        simp only [List.isEmpty_cons, Bool.false_eq_true, ↓reduceIte, List.forall₂_map_left_iff,
          List.forall₂_map_right_iff]
        exact List.forall₂_same.mpr fun finding _ => names finding
  · intro entry member
    obtain ⟨finding, failed, rfl⟩ := List.mem_map.mp member
    have fails := (List.mem_filter.mp failed).2
    refine ⟨named finding, ?_⟩
    rw [verdict finding]
    simpa using fails

/-- Its exit code is a success exactly when it lists no violation. -/
theorem clean_findingResult {payload : Finding → Json} (apart : extra.lookup "violations" = none) :
    ((findingResult extra identify payload passed findings).lookup "violations" =
        some (.array []) ↔ outcome.code = .success) ∧
      (outcome.code ≠ .success → outcome.code = .actionableFinding) := by
  have listed : (findingResult extra identify payload passed findings).lookup "violations" =
      some (.array ((findings.filter fun finding => !passed finding).map fun finding =>
        .str (identify finding))) := by
    rw [findingResult, List.lookup_append, apart]
    rfl
  rw [listed, array_eq_nil, (buildFindingOutcome_eq_ok built).1]
  cases failed : findings.filter fun finding => !passed finding <;> simp

end Skeleton

/-- A rule's message starts with the rule's id. -/
theorem startsWith_ruleFindingMessage (finding : RuleFinding) :
    startsWith (ruleFindingMessage finding) (finding.ruleId ++ " ") = true := by
  unfold ruleFindingMessage
  cases finding.density <;> simp [startsWith]

/-- A device's message starts with the device's id. -/
theorem startsWith_deviceFindingMessage (finding : DeviceFinding) :
    startsWith (deviceFindingMessage finding) (finding.deviceId ++ " ") = true := by
  unfold deviceFindingMessage
  simp [startsWith]

section Scans

variable {host : Host} {world : World host.toml.Text}

/-- A rule-pack scan that returns, returns a usage error or the outcome of its report. -/
theorem desloppify_returns {pack : Resource} {chapter : Option Int}
    {outcome : ReportOutcome DetectionReport}
    (returned : (desloppify host.engine host.arith host.tomllib pack chapter world).result =
      .ok outcome) :
    outcome.code = .usageError ∨ ∃ report, detectionOutcome report = .ok outcome := by
  unfold desloppify at returned
  cases loaded : loadRulepack host.engine host.tomllib pack with
  | ok rulepack =>
      rw [loaded] at returned
      rw [Prog.mapFault_returns] at returned
      obtain ⟨_, report, -, returned⟩ := Prog.bind_returns _ returned
      exact Or.inr ⟨report, returned⟩
  | error fault =>
      rw [loaded] at returned
      cases fault <;> cases returned
      exact Or.inl rfl

theorem ledgerScan_returns {path : Resource} {outcome : ReportOutcome LedgerReport}
    (returned : (ledgerScan host.engine host.tomllib path world).result = .ok outcome) :
    outcome.code = .usageError ∨ ∃ report, ledgerOutcome report = .ok outcome := by
  unfold ledgerScan at returned
  cases loaded : loadLedger host.engine host.tomllib path with
  | ok ledger =>
      rw [loaded] at returned
      rw [Prog.mapFault_returns] at returned
      obtain ⟨_, report, -, returned⟩ := Prog.bind_returns _ returned
      exact Or.inr ⟨report, returned⟩
  | error fault =>
      rw [loaded] at returned
      cases fault <;> cases returned
      exact Or.inl rfl

theorem verdict_scan {chapter : Option Int} {pack ledger : Option Resource} {outcome : WireOutcome}
    (returned : (scanOrUsage (host.dispatchScan chapter pack ledger) world).result = .ok outcome)
    (judged : outcome.code ≠ .usageError) :
    Verdict (.desloppify chapter pack ledger) outcome := by
  have inner : (host.dispatchScan chapter pack ledger world).result = .ok outcome := by
    obtain ⟨_, ended, attempted, returned⟩ := Prog.bind_returns _ returned
    cases attempted
    cases ended' : (host.dispatchScan chapter pack ledger world).result with
    | ok other =>
        simp only [ended', Prog.observe_apply] at returned
        exact returned
    | error fault =>
        simp only [ended', Prog.observe_apply] at returned
        split at returned
        · next found => cases found
        · cases returned
          exact absurd rfl judged
        · cases returned
  unfold Host.dispatchScan at inner
  cases ledger with
  | some path =>
      cases chapter with
      | some number => cases inner
      | none =>
          obtain ⟨_, scanned, found, inner⟩ := Prog.bind_returns _ inner
          cases inner
          have ran : (ledgerScan host.engine host.tomllib path world).result = .ok scanned := by
            rw [found]
          rcases ledgerScan_returns ran with usage | ⟨report, built⟩
          · exact absurd usage judged
          · have reported := (buildFindingOutcome_eq_ok built).2.1
            obtain ⟨clean, dirty⟩ := @clean_findingResult _ _ _ _ [] DeviceFinding.deviceId _ _ _ _
              _ built deviceFindingPayload rfl
            unfold reportWire
            rw [reported]
            refine ⟨clean, fun code => Or.inl (dirty code), ?_⟩
            rintro _ _ _ same
            cases same
            exact aligned_findingResult built rfl rfl (fun _ => rfl) (fun _ => rfl)
              startsWith_deviceFindingMessage
  | none =>
      obtain ⟨_, scanned, found, inner⟩ := Prog.bind_returns _ inner
      cases inner
      have ran : (desloppify host.engine host.arith host.tomllib (pack.getD host.offendersPack)
          chapter world).result = .ok scanned := by
        rw [found]
      rcases desloppify_returns ran with usage | ⟨report, built⟩
      · exact absurd usage judged
      · have reported := (buildFindingOutcome_eq_ok built).2.1
        obtain ⟨clean, dirty⟩ := @clean_findingResult _ _ _ _
          [("pack", .str report.pack), ("total_words", .int report.totalWords)] RuleFinding.ruleId
          _ _ _ _ _ built (ruleFindingPayload host.spell) rfl
        unfold reportWire
        rw [reported]
        refine ⟨clean, fun code => Or.inl (dirty code), ?_⟩
        rintro _ _ _ same
        cases same
        exact aligned_findingResult built rfl rfl (fun _ => rfl) (fun _ => rfl)
          startsWith_ruleFindingMessage

/-- A checker that returns with neither a usage error nor a state error returns a verdict. -/
theorem verdict_body {now : String} {operation : Operation} {outcome : WireOutcome}
    (checks : operation.checks = true)
    (returned : (host.body now operation world).result = .ok outcome)
    (judged : outcome.code ≠ .usageError) : Verdict operation outcome := by
  have unwired : ∀ {program : Command host.toml CommandOutcome}, Serialises program →
      (wired program world).result = .ok outcome →
      ∃ inner payload, (program world).result = .ok inner ∧
        entriesToJson? inner.result = some payload ∧
        outcome = ⟨inner.code, payload, inner.messages⟩ := by
    intro program serialises wires
    obtain ⟨-, ⟨fault, -, result⟩ | ⟨inner, payload, run, converts, result⟩⟩ :=
      wired_eq serialises world
    · rw [result] at wires
      cases wires
    · rw [result] at wires
      cases wires
      exact ⟨inner, payload, run, converts, rfl⟩
  cases operation with
  | check =>
      obtain ⟨inner, payload, run, converts, rfl⟩ := unwired (serialises_check _) returned
      exact verdict_check run converts
  | done =>
      obtain ⟨inner, payload, run, converts, rfl⟩ := unwired serialises_novelDone returned
      exact verdict_done run converts
  | compile readOnly =>
      cases checks
      obtain ⟨inner, payload, run, converts, rfl⟩ := unwired serialises_checkCompiled returned
      exact verdict_checkCompiled run converts
  | desloppify chapter pack ledger => exact verdict_scan returned judged
  | init _ _ _ => cases checks
  | mutate _ => cases checks
  | wordcount => cases checks

end Scans

/-- The verdict a harness reads off the printed line is the one the exit code gives. -/
theorem verdict_read_back (host : Host) (now : String) (cyclopts : List String → Parsed)
    (mounts : Mounts cyclopts) (argv : List String) (world : World host.toml.Text)
    (operation : Operation) (checks : operation.checks = true)
    (parsed : cyclopts argv = .command operation) (unflagged : humanFlag ∉ argv) (code : Nat)
    (text : String)
    (exits : (host.main now cyclopts argv world).result = .ok ⟨code, some text⟩) :
    (code = 0 ∨ code = 1 ∨ code = 2 ∨ code = 3 ∨ code = 4) ∧
    ∃ envelope, readEnvelope text = some envelope ∧
      envelope.command = operation.app.spacedName ∧
      (code ≠ 2 → code ≠ 3 →
        (SaysClean operation envelope.result ↔ code = 0) ∧
        (code = 1 → operation = .done) ∧
        ∀ chapter pack ledger, operation = .desloppify chapter pack ledger →
          Aligned operation.identity envelope.result envelope.messages) := by
  have same : argv.filter (fun token => token ≠ humanFlag) = argv :=
    List.filter_eq_self.mpr fun token member =>
      decide_eq_true fun flag => unflagged (flag ▸ member)
  have residual : (parseGlobalFlags argv).2 = argv := same
  obtain ⟨-, ended⟩ := @main_cases host now cyclopts argv world
  rw [residual, parsed] at ended
  rcases ended with ⟨help, -⟩ | ⟨operation', fault, -, -, -, result⟩ | ⟨outcome, settled, emission⟩
  · cases help
  · rw [result] at exits
    cases exits
  · rw [exits] at emission
    rcases printed_of_emission emission with ⟨line, same', printed⟩ | ⟨raised, -⟩
    swap
    · cases raised
    cases same'
    refine ⟨by cases outcome.code <;> simp [ExitCode.toNat], _, (printed.machine unflagged).1,
      main_named mounts (by rw [same]; exact parsed) printed.toStamped, fun usage stateError => ?_⟩
    rw [Host.settled] at settled
    cases returned : (host.body now operation world).result with
    | error fault =>
        rw [returned, settledOutcome, Option.map_eq_some_iff] at settled
        obtain ⟨messages, -, rfl⟩ := settled
        exact absurd rfl stateError
    | ok inner =>
        rw [returned, settledOutcome, Option.some.injEq] at settled
        subst settled
        have verdict : Verdict operation inner :=
          verdict_body checks returned fun same => usage (by rw [same]; rfl)
        have zero : inner.code = .success ↔ inner.code.toNat = 0 := by
          cases inner.code <;> decide
        refine ⟨verdict.clean.trans zero, fun one => ?_, verdict.aligned⟩
        rcases verdict.actionable (fun success => by rw [success] at one; cases one) with
          finding | ⟨-, done⟩
        · rw [finding] at one
          cases one
        · exact done

/-- A host whose pack is empty; no checker prints a float on it. -/
def structuralHost : Host where
  toml := .structural
  tomllib := emptyTomllib
  engine := literalEngine
  arith := .doubles
  spell _ := ⟨⟨false, ['0'], ['.', '0']⟩, by decide, by decide⟩
  offendersPack := ⟨"ai-isms.toml", .ok ⟨#[]⟩⟩

/-- A parser that knows `novel state check` only. -/
def checkParser (tokens : List String) : Parsed :=
  if tokens = ["state", "check"] then .command .check else .usageFault "unknown command"

theorem verdict_read_back_check :
    ∃ text envelope, readEnvelope text = some envelope ∧ envelope.command = "novel state" ∧
      envelope.result.lookup "violations" = some (.array []) ∧
      (structuralHost.main "2024-01-01T00:00:00Z" checkParser ["state", "check"]
        (initialWorld 1000)).result = .ok ⟨0, some text⟩ := by
  have mounts : Mounts checkParser := by
    intro tokens operation parsed
    unfold checkParser at parsed
    split at parsed
    · next same =>
        cases parsed
        rw [same]
        rfl
    · cases parsed
  have code : ((structuralHost.main "2024-01-01T00:00:00Z" checkParser ["state", "check"]
      (initialWorld 1000)).result.toOption.map fun exit => (exit.code, exit.printed.isSome)) =
        some (0, true) := by decide +kernel
  obtain ⟨⟨code, printed⟩, ended, facts⟩ := Option.map_eq_some_iff.mp code
  obtain ⟨rfl, shown⟩ := Prod.mk.inj facts
  obtain ⟨text, rfl⟩ := Option.isSome_iff_exists.mp shown
  have exits : (structuralHost.main "2024-01-01T00:00:00Z" checkParser ["state", "check"]
      (initialWorld 1000)).result = .ok ⟨0, some text⟩ := by
    cases run : (structuralHost.main "2024-01-01T00:00:00Z" checkParser ["state", "check"]
        (initialWorld 1000)).result with
    | error fault =>
        rw [run] at ended
        cases ended
    | ok exit =>
        rw [run] at ended
        cases ended
        rfl
  obtain ⟨-, envelope, reads, command, verdict⟩ := verdict_read_back structuralHost _ checkParser
    mounts ["state", "check"] (initialWorld 1000) .check rfl rfl (by decide) 0 text exits
  exact ⟨text, envelope, reads, command,
    (verdict (by decide) (by decide)).1.mpr rfl, exits⟩

end NovelRalph
