import NovelRalph.Loader.PackChannels

/-!
# The two grammars

Which decoded tables the pack parsers accept, and what they make of one: the
entries in authoring order, each with the values its table spells. A table that
is not accepted is rejected with the content error of its family, unless it is
one of those that slip through the error channels.
-/

namespace NovelRalph

/-- A pattern source the engine compiles. -/
def RegexEngine.Compiles (engine : RegexEngine) (pattern : String) : Prop :=
  ∃ compiled, engine.compile pattern = .ok compiled

/-! ## Arrays of entries -/

section Entries

variable {errors : CoercionErrors} {raw : Table} {arrayKey : String} {messages : EntriesMessages}
  {α : Type} {build : Table → Nat → Except LoadFault α} {entryId : α → String}
  {spells : α → Table → Prop} {tables : List Table}

/-- The value under the key is an array of tables: some, each accepted, no two of one id. -/
def ArrayOf (raw : Table) (arrayKey : String) (accepts : Table → Prop) : Prop :=
  ∃ tables : List Table, raw.lookup arrayKey = some (.array (tables.map Value.table)) ∧
    tables ≠ [] ∧ (∀ entry ∈ tables, accepts entry) ∧
    (tables.map fun entry => entry.lookup "id").Nodup

/-- The pass over the entries builds what each of them spells, in order. -/
theorem buildFrom_eq_ok
    (builds : ∀ entry index value, build entry index = .ok value ↔ spells value entry)
    {index : Nat} {built : List α} :
    buildFrom build index tables = .ok built ↔ List.Forall₂ spells built tables := by
  induction tables generalizing index built with
  | nil =>
      rw [List.forall₂_nil_right_iff]
      exact ⟨fun returned => (Except.ok.inj returned).symm, fun none => congrArg _ none.symm⟩
  | cons entry rest inductionHypothesis =>
      simp only [buildFrom, except_bind_eq_ok, builds, inductionHypothesis]
      rw [List.forall₂_cons_right_iff]
      constructor
      · rintro ⟨value, first, later, others, returned⟩
        cases returned
        exact ⟨value, later, first, others, rfl⟩
      · rintro ⟨value, later, first, others, rfl⟩
        exact ⟨value, first, later, others, rfl⟩

/-- What `build_entries` returns lists what the entries of the array spell, in order. -/
theorem buildEntries_eq_ok
    (builds : ∀ entry index value, build entry index = .ok value ↔ spells value entry)
    {entries : Entries entryId} :
    buildEntries errors raw arrayKey messages build entryId = .ok entries ↔
      ∃ tables : List Table, raw.lookup arrayKey = some (.array (tables.map Value.table)) ∧
        List.Forall₂ spells entries.list tables := by
  unfold buildEntries
  simp only [except_bind_eq_ok, exists_witnessed, arrayEntries_eq_ok, buildFrom_eq_ok builds,
    rejectDuplicateIds_eq_ok]
  constructor
  · rintro ⟨tables, ⟨found, _⟩, built, spelled, _, _, returned⟩
    cases returned
    exact ⟨tables, found, spelled⟩
  · rintro ⟨tables, found, spelled⟩
    have some : tables ≠ [] := by
      rintro rfl
      exact entries.nonempty (List.forall₂_nil_right_iff.mp spelled)
    exact ⟨tables, ⟨found, some⟩, entries.list, spelled, (), entries.distinct, rfl⟩

/-- Entries that each spell something spell a list. -/
theorem exists_spelled (each : ∀ entry ∈ tables, ∃ value, spells value entry) :
    ∃ values, List.Forall₂ spells values tables := by
  induction tables with
  | nil => exact ⟨[], .nil⟩
  | cons entry rest inductionHypothesis =>
      obtain ⟨value, first⟩ := each entry List.mem_cons_self
      obtain ⟨values, others⟩ :=
        inductionHypothesis fun other member => each other (List.mem_cons_of_mem _ member)
      exact ⟨value :: values, .cons first others⟩

theorem spelled_of_mem {values : List α} (spelled : List.Forall₂ spells values tables) {entry : Table}
    (member : entry ∈ tables) : ∃ value, spells value entry := by
  induction spelled with
  | nil => cases member
  | cons first others inductionHypothesis =>
      rcases List.mem_cons.mp member with rfl | later
      · exact ⟨_, first⟩
      · exact inductionHypothesis later

/-- The ids of the values are those of the tables. -/
theorem ids_of_spelled (ids : ∀ value entry, spells value entry →
    entry.lookup "id" = some (.str (entryId value))) {values : List α}
    (spelled : List.Forall₂ spells values tables) :
    tables.map (fun entry => entry.lookup "id") =
      (values.map entryId).map fun id => some (Value.str id) := by
  induction spelled with
  | nil => rfl
  | cons first others inductionHypothesis =>
      rw [List.map_cons, List.map_cons, List.map_cons, ids _ _ first, inductionHypothesis]

/-- There are entries to build exactly when the array is one of accepted tables. -/
theorem arrayOf_iff {accepts : Table → Prop}
    (accepted : ∀ entry, accepts entry ↔ ∃ value, spells value entry)
    (ids : ∀ value entry, spells value entry → entry.lookup "id" = some (.str (entryId value))) :
    (∃ entries : Entries entryId, ∃ tables : List Table,
      raw.lookup arrayKey = some (.array (tables.map Value.table)) ∧
        List.Forall₂ spells entries.list tables) ↔ ArrayOf raw arrayKey accepts := by
  have injective : Function.Injective fun id => some (Value.str id) := by
    intro left right same
    simpa using same
  constructor
  · rintro ⟨entries, tables, found, spelled⟩
    refine ⟨tables, found, ?_, fun entry member => ?_, ?_⟩
    · rintro rfl
      exact entries.nonempty (List.forall₂_nil_right_iff.mp spelled)
    · exact (accepted entry).mpr (spelled_of_mem spelled member)
    · rw [ids_of_spelled ids spelled]
      exact entries.distinct.map injective
  · rintro ⟨tables, found, some, each, distinct⟩
    obtain ⟨values, spelled⟩ := exists_spelled fun entry member =>
      (accepted entry).mp (each entry member)
    rw [ids_of_spelled ids spelled] at distinct
    refine ⟨⟨values, ?_, distinct.of_map _⟩, tables, found, spelled⟩
    rintro rfl
    exact some (List.forall₂_nil_left_iff.mp spelled)

end Entries

/-! ## Rule packs -/

section RulePacks

variable {engine : RegexEngine} {raw entry : Table}

/-- The table spells the rule, field by field, and nothing else. -/
structure Rule.Spells (rule : Rule engine) (entry : Table) : Prop where
  id : entry.lookup "id" = some (.str rule.id)
  known : KeysWithin entry ruleKeys
  pattern : entry.lookup "pattern" = some (.str rule.pattern)
  threshold : entry.lookup "threshold" = some (.int rule.threshold)
  basis : entry.lookup "basis" = some (.str rule.basis.text)
  pageWords : entry.lookup "page_words" = rule.pageWords.map Value.int

/-- The table spells the pack, its rules in order. -/
structure RulePack.Spells (pack : RulePack engine) (raw : Table) : Prop where
  known : KeysWithin raw packKeys
  version : raw.lookup "schema_version" = some (.int pack.schemaVersion)
  named : raw.lookup "pack" = some (.str pack.pack)
  rules : ∃ tables : List Table, raw.lookup "rule" = some (.array (tables.map Value.table)) ∧
    List.Forall₂ Rule.Spells pack.rules.list tables

/-- What the top level of a rule pack must look like. -/
structure PackGrammar (engine : RegexEngine) (raw : Table) : Prop where
  known : KeysWithin raw packKeys
  version : raw.lookup "schema_version" = some (.int rulepackSchemaVersion)
  named : ∃ name, raw.lookup "pack" = some (.str name)
  rules : ArrayOf raw "rule" fun entry =>
    ∃ pattern, RuleShape entry pattern ∧ engine.Compiles pattern

theorem ruleOf_eq_ok {index : Nat} {rule : Rule engine} :
    ruleOf engine entry index = .ok rule ↔ rule.Spells entry := by
  unfold ruleOf
  simp only [except_bind_eq_ok, ruleIdOf_eq_ok, rejectUnknownKeys_eq_ok, requireStr_eq_ok,
    ruleThreshold_eq_ok, resolveBasis_eq_ok, resolvePageWords_eq_ok, exists_witnessed,
    compilePattern_eq_ok]
  constructor
  · rintro ⟨id, named, _, known, pattern, sourced, threshold, bounded, _, counted, basis, rfl, words,
      paged, compiled, _, returned⟩
    cases returned
    exact ⟨named, known, sourced, bounded, counted, paged⟩
  · intro spells
    exact ⟨rule.id, spells.id, (), spells.known, rule.pattern, spells.pattern,
      ⟨rule.threshold, rule.threshold_nonneg⟩, spells.threshold, _, spells.basis, rule.basis, rfl,
      ⟨rule.pageWords, rule.pageWords_fit⟩, spells.pageWords, rule.compiled, rule.compiles, rfl⟩

/-- There is a rule to spell exactly when the entry has the shape and its pattern compiles. -/
theorem ruleShape_iff_spells : (∃ pattern, RuleShape entry pattern ∧ engine.Compiles pattern) ↔
    ∃ rule : Rule engine, rule.Spells entry := by
  constructor
  · rintro ⟨pattern, ⟨⟨id, named⟩, known, sourced, ⟨threshold, nonneg, bounded⟩,
      ⟨basis, words, fits, counted, paged⟩⟩, compiled, compiles⟩
    exact ⟨⟨id, pattern, compiled, threshold, basis, words, compiles, nonneg, fits⟩,
      named, known, sourced, bounded, counted, paged⟩
  · rintro ⟨rule, spells⟩
    exact ⟨rule.pattern, ⟨⟨rule.id, spells.id⟩, spells.known, spells.pattern,
      ⟨rule.threshold, rule.threshold_nonneg, spells.threshold⟩,
      ⟨rule.basis, rule.pageWords, rule.pageWords_fit, spells.basis, spells.pageWords⟩⟩,
      rule.compiled, rule.compiles⟩

theorem buildRules_eq_ok {rules : Entries (@Rule.id engine)} :
    buildEntries rulePackErrors raw "rule" ruleMessages (ruleOf engine) Rule.id = .ok rules ↔
      ∃ tables : List Table, raw.lookup "rule" = some (.array (tables.map Value.table)) ∧
        List.Forall₂ Rule.Spells rules.list tables :=
  buildEntries_eq_ok fun entry index rule => @ruleOf_eq_ok engine entry index rule

/-- A pack is returned exactly when the table spells it. -/
theorem parseRulepack_eq_ok {pack : RulePack engine} :
    parseRulepack engine raw = .ok pack ↔ pack.Spells raw := by
  unfold parseRulepack
  simp only [except_bind_eq_ok, exists_witnessed, resolveSchemaVersion_eq_ok, requireStr_eq_ok,
    buildRules_eq_ok]
  constructor
  · rintro ⟨version, ⟨known, supported, rfl⟩, name, named, rules, listed, returned⟩
    cases returned
    exact ⟨known, supported, named, listed⟩
  · intro spells
    have version := spells.version
    rw [pack.supported] at version
    exact ⟨pack.schemaVersion, ⟨spells.known, version, pack.supported⟩, pack.pack, spells.named,
      pack.rules, spells.rules, rfl⟩

/-- Some pack is spelled exactly by the tables of the grammar. -/
theorem packGrammar_iff : (∃ pack : RulePack engine, pack.Spells raw) ↔ PackGrammar engine raw := by
  have rules := @arrayOf_iff raw "rule" (Rule engine) Rule.id Rule.Spells _
    (fun entry => ruleShape_iff_spells) (fun rule entry spells => spells.id)
  constructor
  · rintro ⟨pack, spells⟩
    have version := spells.version
    rw [pack.supported] at version
    exact ⟨spells.known, version, ⟨_, spells.named⟩, rules.mp ⟨pack.rules, spells.rules⟩⟩
  · intro grammar
    obtain ⟨name, named⟩ := grammar.named
    obtain ⟨entries, listed⟩ := rules.mpr grammar.rules
    exact ⟨⟨rulepackSchemaVersion, name, entries, rfl⟩, grammar.known, grammar.version, named, listed⟩

end RulePacks

/-! ## Device ledgers -/

section Ledgers

variable {engine : RegexEngine} {raw entry : Table}

/-- An optional key holds a positive integer. -/
def PositiveAt (entry : Table) (key : String) : Prop :=
  ∀ value, entry.lookup key = some value → ∃ number : Int, 0 < number ∧ value = .int number

/-- What the rationing fields of a device must look like. -/
structure RationGrammar (entry : Table) : Prop where
  rationed : (entry.lookup "max_count").isSome ∨ presentWindows entry ≠ []
  single : (presentWindows entry).length ≤ 1
  maxCount : PositiveAt entry "max_count"
  allowedChapters : ∀ value, entry.lookup "allowed_chapters" = some value →
    ∃ chapters : List Int, chapters ≠ [] ∧ (∀ chapter ∈ chapters, 0 < chapter) ∧
      value = .array (chapters.map Value.int)
  retiredAfterChapter : PositiveAt entry "retired_after_chapter"
  reservedForChapter : PositiveAt entry "reserved_for_chapter"

/-- The table spells the device, field by field, and nothing else. -/
structure Device.Spells (device : Device engine) (entry : Table) : Prop where
  id : entry.lookup "id" = some (.str device.id)
  known : KeysWithin entry deviceKeys
  pattern : entry.lookup "pattern" = some (.str device.pattern)
  ration : device.toRation.Spells entry

/-- The table spells the ledger, its devices in order. -/
structure DeviceLedger.Spells (ledger : DeviceLedger engine) (raw : Table) : Prop where
  known : KeysWithin raw ledgerKeys
  version : raw.lookup "schema_version" = some (.int ledger.schemaVersion)
  devices : ∃ tables : List Table, raw.lookup "device" = some (.array (tables.map Value.table)) ∧
    List.Forall₂ Device.Spells ledger.devices.list tables

/-- What a device entry must look like. -/
structure DeviceGrammar (engine : RegexEngine) (entry : Table) : Prop where
  named : ∃ id, entry.lookup "id" = some (.str id)
  known : KeysWithin entry deviceKeys
  sourced : ∃ pattern, entry.lookup "pattern" = some (.str pattern) ∧ engine.Compiles pattern
  ration : RationGrammar entry

/-- What the top level of a device ledger must look like. -/
structure LedgerGrammar (engine : RegexEngine) (raw : Table) : Prop where
  known : KeysWithin raw ledgerKeys
  version : raw.lookup "schema_version" = some (.int ledgerSchemaVersion)
  devices : ArrayOf raw "device" (DeviceGrammar engine)

/-- An optional positive integer is a bound, or none. -/
theorem PositiveAt.bound {key : String} (positive : PositiveAt entry key) :
    ∃ bound : Option Positive, entry.lookup key = bound.map fun bound => .int bound.1 := by
  cases found : entry.lookup key with
  | none => exact ⟨none, rfl⟩
  | some value =>
      obtain ⟨number, above, rfl⟩ := positive value found
      exact ⟨some ⟨number, above⟩, rfl⟩

theorem positiveAt_of_bound {key : String} {bound : Option Positive}
    (spelled : entry.lookup key = bound.map fun bound => .int bound.1) : PositiveAt entry key := by
  intro value found
  rw [spelled] at found
  obtain ⟨bound, -, rfl⟩ := Option.map_eq_some_iff.mp found
  exact ⟨bound.1, bound.2, rfl⟩

/-- There is a ration to spell exactly when the rationing fields are as the grammar wants them. -/
theorem rationGrammar_iff : RationGrammar entry ↔ ∃ ration : Ration, ration.Spells entry := by
  constructor
  · intro grammar
    obtain ⟨maxCount, counted⟩ := grammar.maxCount.bound
    obtain ⟨retired, bounded⟩ := grammar.retiredAfterChapter.bound
    obtain ⟨reserved, kept⟩ := grammar.reservedForChapter.bound
    obtain ⟨allowed, listed⟩ : ∃ allowed : Option AllowedChapters,
        entry.lookup "allowed_chapters" = allowed.map fun chapters =>
          .array (chapters.1.map fun chapter => .int chapter.1) := by
      cases found : entry.lookup "allowed_chapters" with
      | none => exact ⟨none, rfl⟩
      | some value =>
          obtain ⟨chapters, some', positive, rfl⟩ := grammar.allowedChapters value found
          have values : (chapters.attachWith _ positive).map Subtype.val = chapters :=
            List.attachWith_map_subtype_val _
          refine ⟨some ⟨chapters.attachWith _ positive, ?_⟩, ?_⟩
          · intro none
            rw [none] at values
            exact some' values.symm
          · refine congrArg (some ∘ Value.array) ?_
            conv_lhs => rw [← values, List.map_map]
            rfl
    have windows := length_presentWindows entry
    rw [listed, bounded, kept] at windows
    simp only [Option.isSome_map] at windows
    refine ⟨⟨maxCount, allowed, retired, reserved, ?_, ?_⟩, counted, listed, bounded, kept⟩
    · rw [← windows]
      exact grammar.single
    · rw [← windows, List.length_pos_iff]
      have rationed := grammar.rationed
      rwa [counted, Option.isSome_map] at rationed
  · rintro ⟨ration, spells⟩
    refine ⟨?_, ?_, positiveAt_of_bound spells.maxCount, ?_,
      positiveAt_of_bound spells.retiredAfterChapter, positiveAt_of_bound spells.reservedForChapter⟩
    · by_contra neither
      rw [not_or, Bool.not_eq_true, Option.isSome_eq_false_iff, not_not] at neither
      exact spells.not_idle neither
    · rw [spells.windows]
      exact ration.single
    · intro value found
      rw [spells.allowedChapters] at found
      obtain ⟨chapters, -, rfl⟩ := Option.map_eq_some_iff.mp found
      refine ⟨chapters.1.map Subtype.val, mt List.map_eq_nil_iff.mp chapters.2,
        fun chapter member => ?_, ?_⟩
      · obtain ⟨positive, -, rfl⟩ := List.mem_map.mp member
        exact positive.2
      · rw [List.map_map]
        rfl

theorem deviceOf_eq_ok {index : Nat} {device : Device engine} :
    deviceOf engine entry index = .ok device ↔ device.Spells entry := by
  unfold deviceOf
  simp only [except_bind_eq_ok, deviceIdOf_eq_ok, rejectUnknownKeys_eq_ok, requireStr_eq_ok,
    rationingFields_eq_ok, exists_witnessed, compilePattern_eq_ok]
  constructor
  · rintro ⟨id, named, _, known, pattern, sourced, ration, spells, compiled, _, returned⟩
    cases returned
    exact ⟨named, known, sourced, spells⟩
  · intro spells
    exact ⟨device.id, spells.id, (), spells.known, device.pattern, spells.pattern, device.toRation,
      spells.ration, device.compiled, device.compiles, rfl⟩

theorem deviceGrammar_iff : DeviceGrammar engine entry ↔
    ∃ device : Device engine, device.Spells entry := by
  constructor
  · rintro ⟨⟨id, named⟩, known, ⟨pattern, sourced, compiled, compiles⟩, ration⟩
    obtain ⟨ration, spells⟩ := rationGrammar_iff.mp ration
    exact ⟨⟨ration, id, pattern, compiled, compiles⟩, named, known, sourced, spells⟩
  · rintro ⟨device, spells⟩
    exact ⟨⟨_, spells.id⟩, spells.known, ⟨_, spells.pattern, _, device.compiles⟩,
      rationGrammar_iff.mpr ⟨_, spells.ration⟩⟩

theorem buildDevices_eq_ok {devices : Entries (@Device.id engine)} :
    buildEntries ledgerErrors raw "device" deviceMessages (deviceOf engine) Device.id = .ok devices ↔
      ∃ tables : List Table, raw.lookup "device" = some (.array (tables.map Value.table)) ∧
        List.Forall₂ Device.Spells devices.list tables :=
  buildEntries_eq_ok fun entry index device => @deviceOf_eq_ok engine entry index device

/-- A ledger is returned exactly when the table spells it. -/
theorem parseLedger_eq_ok {ledger : DeviceLedger engine} :
    parseLedger engine raw = .ok ledger ↔ ledger.Spells raw := by
  unfold parseLedger
  simp only [except_bind_eq_ok, exists_witnessed, resolveSchemaVersion_eq_ok, buildDevices_eq_ok]
  constructor
  · rintro ⟨version, ⟨known, supported, rfl⟩, devices, listed, returned⟩
    cases returned
    exact ⟨known, supported, listed⟩
  · intro spells
    have version := spells.version
    rw [ledger.supported] at version
    exact ⟨ledger.schemaVersion, ⟨spells.known, version, ledger.supported⟩, ledger.devices,
      spells.devices, rfl⟩

/-- Some ledger is spelled exactly by the tables of the grammar. -/
theorem ledgerGrammar_iff :
    (∃ ledger : DeviceLedger engine, ledger.Spells raw) ↔ LedgerGrammar engine raw := by
  have devices := @arrayOf_iff raw "device" (Device engine) Device.id Device.Spells _
    (fun entry => deviceGrammar_iff) (fun device entry spells => spells.id)
  constructor
  · rintro ⟨ledger, spells⟩
    have version := spells.version
    rw [ledger.supported] at version
    exact ⟨spells.known, version, devices.mp ⟨ledger.devices, spells.devices⟩⟩
  · intro grammar
    obtain ⟨entries, listed⟩ := devices.mpr grammar.devices
    exact ⟨⟨ledgerSchemaVersion, entries, rfl⟩, grammar.known, grammar.version, listed⟩

end Ledgers

/-! ## Acceptance -/

section Acceptance

variable {α : Type} {engine : RegexEngine} {raw : Table}

/-- A parser accepts exactly a grammar, returns what the table spells, and rejects the rest with
a content error. -/
structure AcceptsExactly (parsed : Except LoadFault α) (grammar : Prop) (spells : α → Prop)
    (content : LoadFault → Prop) : Prop where
  accepts : (∃ value, parsed = .ok value) ↔ grammar
  faithful : ∀ value, parsed = .ok value → spells value
  rejects : ¬grammar → ∃ fault, parsed = .error fault ∧ content fault

/-- `RulePackError`. -/
def IsRulePackError : LoadFault → Prop
  | .rulePackError .. => True
  | _ => False

/-- `LedgerError`. -/
def IsLedgerError : LoadFault → Prop
  | .ledgerError .. => True
  | _ => False

/-- A parser that returns exactly what is spelled accepts exactly its grammar, unless it escapes. -/
theorem acceptsExactly_iff {parsed : Except LoadFault α} {grammar : Prop} {spells : α → Prop}
    {content : LoadFault → Prop} (returns : ∀ value, parsed = .ok value ↔ spells value)
    (spelled : (∃ value, spells value) ↔ grammar) :
    AcceptsExactly parsed grammar spells content ↔ ¬Escapes content parsed := by
  have accepts : (∃ value, parsed = .ok value) ↔ grammar :=
    (exists_congr returns).trans spelled
  rw [← confined_iff]
  constructor
  · intro exact' fault raised
    obtain ⟨other, raised', owned⟩ := exact'.rejects fun accepted => by
      obtain ⟨value, returned⟩ := accepts.mpr accepted
      rw [raised] at returned
      cases returned
    rw [raised, Except.error.injEq] at raised'
    exact raised' ▸ owned
  · intro confined
    refine ⟨accepts, fun value => (returns value).mp, fun refused => ?_⟩
    cases parsed with
    | ok value => exact absurd (accepts.mp ⟨value, rfl⟩) refused
    | error fault => exact ⟨fault, rfl, confined fault rfl⟩

/-- Each parser accepts exactly its grammar on the tables that do not slip through its channel. -/
theorem parsers_exact_iff (engine : RegexEngine) (raw : Table) :
    (AcceptsExactly (parseRulepack engine raw) (PackGrammar engine raw) (RulePack.Spells · raw)
      IsRulePackError ↔ ¬PackSlips engine raw) ∧
    (AcceptsExactly (parseLedger engine raw) (LedgerGrammar engine raw) (DeviceLedger.Spells · raw)
      IsLedgerError ↔ ¬LedgerSlips engine raw) := by
  rw [acceptsExactly_iff (fun _ => parseRulepack_eq_ok) packGrammar_iff,
    acceptsExactly_iff (fun _ => parseLedger_eq_ok) ledgerGrammar_iff,
    parseRulepack_escapes (fun _ _ => trivial) id id, parseLedger_escapes (fun _ _ => trivial) id id]
  exact ⟨Iff.rfl, Iff.rfl⟩

/-- A table whose only key is a schema version of more digits than can be written. -/
def longVersion : Table := [("schema_version", .int (10 ^ digitLimit : Nat))]

/-- Neither parser rejects such a version with its content error. -/
theorem long_version_escapes :
    ¬∀ (engine : RegexEngine) (raw : Table),
      AcceptsExactly (parseRulepack engine raw) (PackGrammar engine raw) (RulePack.Spells · raw)
        IsRulePackError ∧
      AcceptsExactly (parseLedger engine raw) (LedgerGrammar engine raw)
        (DeviceLedger.Spells · raw) IsLedgerError := by
  intro always
  have kept := (parsers_exact_iff literalEngine longVersion).1.mp (always literalEngine longVersion).1
  have unsupported : ((10 ^ digitLimit : Nat) : Int) ≠ rulepackSchemaVersion := by
    have long : 1 < 10 ^ digitLimit := Nat.one_lt_pow (by decide +kernel) (by decide)
    unfold rulepackSchemaVersion
    omega
  have long : tooLong (10 ^ digitLimit : Nat) = true := decide_eq_true (le_of_eq rfl)
  exact kept ⟨by decide, Or.inl ⟨_, rfl, unsupported, long⟩⟩

end Acceptance

end NovelRalph
