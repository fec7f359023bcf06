import NovelRalph.Loader.Load

/-!
# The device ledger

The typed device ledger and the validating boundary that builds it. A device's
ration is one value that cannot be empty, cannot hold two chapter windows and
cannot hold a bound that is not positive.
-/

namespace NovelRalph

/-- `LEDGER_SCHEMA_VERSION`. -/
def ledgerSchemaVersion : Int := 1

/-- A bound of a ration. -/
abbrev Positive := {number : Int // 0 < number}

/-- The chapters a device may be spent in. -/
abbrev AllowedChapters := {chapters : List Positive // chapters ≠ []}

/-- The rationing fields of a device. -/
structure Ration where
  maxCount : Option Positive
  allowedChapters : Option AllowedChapters
  retiredAfterChapter : Option Positive
  reservedForChapter : Option Positive
  /-- At most one chapter window. -/
  single : [allowedChapters.isSome, retiredAfterChapter.isSome, reservedForChapter.isSome].count
    true ≤ 1
  /-- At least one ration. -/
  rationed : maxCount.isSome ∨
    0 < [allowedChapters.isSome, retiredAfterChapter.isSome, reservedForChapter.isSome].count true

/-- `Device`. -/
structure Device (engine : RegexEngine) extends Ration where
  id : String
  pattern : String
  compiled : engine.Pattern
  compiles : engine.compile pattern = .ok compiled

/-- `DeviceLedger`. -/
structure DeviceLedger (engine : RegexEngine) where
  schemaVersion : Int
  devices : Entries (@Device.id engine)
  supported : schemaVersion = ledgerSchemaVersion

/-- `ledger._coerce._ERRORS`. -/
def ledgerErrors : CoercionErrors where
  contentError := .ledgerError
  perIdNoun := "device"
  perLevelNoun := "device ledger"

/-- `_LEDGER_KEYS`. -/
def ledgerKeys : List String := ["schema_version", "device"]

/-- `_DEVICE_KEYS`. -/
def deviceKeys : List String :=
  ["id", "pattern", "max_count", "allowed_chapters", "retired_after_chapter",
    "reserved_for_chapter"]

/-- `_WINDOW_KEYS`. -/
def windowKeys : List String :=
  ["allowed_chapters", "retired_after_chapter", "reserved_for_chapter"]

/-- `ledger.parse._ENTRIES_MESSAGES`. -/
def deviceMessages : EntriesMessages where
  notArray typeName := "'device' must be an array of tables, got " ++ typeName
  empty := "'device' array is empty; a ledger must declare at least one device"
  nonMapping index typeName :=
    "device at index " ++ intText index ++ " must be a table, got " ++ typeName

section Fields

variable (entry : Table) (deviceId : String)

/-- A fault that names the device. -/
def deviceFault (message : String) : LoadFault :=
  .ledgerError (wherePart ledgerErrors (some deviceId) ++ message) (some deviceId)

/-- `_positive_int`. -/
def positiveInt (key : String) : Except LoadFault Positive := do
  let value ← requireInt ledgerErrors entry key (some deviceId)
  if positive : 0 < value then return ⟨value, positive⟩
  else throw (deviceFault deviceId
    (" " ++ reprText key ++ " must be positive, got " ++ intText value))

/-- The loop of `_allowed_chapters` over the elements. -/
def chapterElements : List Value → Except LoadFault (List Positive)
  | [] => .ok []
  | .int element :: rest =>
      if positive : 0 < element then do
        let later ← chapterElements rest
        return ⟨element, positive⟩ :: later
      else .error (deviceFault deviceId
        (" 'allowed_chapters' elements must be positive, got " ++ intText element))
  | value :: _ => .error (deviceFault deviceId
      (" 'allowed_chapters' elements must be integers, got " ++ value.typeName))

theorem chapterElements_eq_ok {values : List Value} {chapters : List Positive} :
    chapterElements deviceId values = .ok chapters ↔
      values = chapters.map fun chapter => Value.int chapter.1 := by
  induction values generalizing chapters with
  | nil => cases chapters <;> simp [chapterElements]
  | cons value rest inductionHypothesis =>
      cases value with
      | int element =>
          unfold chapterElements
          split
          · next positive =>
              simp only [except_bind_eq_ok, inductionHypothesis]
              constructor
              · rintro ⟨later, rfl, returned⟩
                cases returned
                rfl
              · intro same
                cases chapters with
                | nil => cases same
                | cons first later =>
                    simp only [List.map_cons, List.cons.injEq, Value.int.injEq] at same
                    obtain ⟨rfl, rfl⟩ := same
                    exact ⟨later, rfl, rfl⟩
          · next refused =>
              apply iff_of_false
              · intro returned
                cases returned
              · intro same
                cases chapters with
                | nil => cases same
                | cons first later =>
                    simp only [List.map_cons, List.cons.injEq, Value.int.injEq] at same
                    obtain ⟨rfl, rfl⟩ := same
                    exact refused first.2
      | _ => cases chapters <;> simp [chapterElements]

/-- An array with elements gives chapters. -/
theorem chapters_nonempty {first : Value} {rest : List Value} {chapters : List Positive}
    (listed : chapterElements deviceId (first :: rest) = .ok chapters) : chapters ≠ [] := by
  rintro rfl
  have same := (chapterElements_eq_ok deviceId).mp listed
  cases same

/-- `_allowed_chapters`. -/
def allowedChaptersOf : Except LoadFault AllowedChapters := do
  match ← require ledgerErrors entry "allowed_chapters" (some deviceId) with
  | .array [] => throw (deviceFault deviceId " 'allowed_chapters' must be non-empty")
  | .array (first :: rest) =>
      let ⟨chapters, listed⟩ ← witnessed (chapterElements deviceId (first :: rest))
      return ⟨chapters, chapters_nonempty deviceId listed⟩
  | value => throw (deviceFault deviceId
      (" 'allowed_chapters' must be an array of positive integers, got " ++ value.typeName))

/-- `_present_windows`. -/
def presentWindows : List String := windowKeys.filter fun key => (entry.lookup key).isSome

/-- How many windows are present, key by key. -/
theorem length_presentWindows : (presentWindows entry).length =
    [(entry.lookup "allowed_chapters").isSome, (entry.lookup "retired_after_chapter").isSome,
      (entry.lookup "reserved_for_chapter").isSome].count true := by
  simp only [presentWindows, windowKeys, ← List.countP_eq_length_filter, List.count,
    List.countP_cons, List.countP_nil, beq_true]

/-- `read() if key in entry else None`. -/
def whenPresent {α : Type} (key : String) (read : Except LoadFault α) :
    Except LoadFault {field : Option α // field.isSome = (entry.lookup key).isSome} :=
  if present : (entry.lookup key).isSome then do
    let value ← read
    return ⟨some value, present.symm⟩
  else .ok ⟨none, by simp [present]⟩

/-- `_rationing_fields`. -/
def rationingFields : Except LoadFault Ration :=
  let windows := presentWindows entry
  if several : 1 < windows.length then
    .error (deviceFault deviceId (" carries more than one window constraint (" ++
      String.intercalate ", " (windows.map reprText) ++ "); a device may carry at most one of " ++
      "'allowed_chapters', 'retired_after_chapter', 'reserved_for_chapter'"))
  else if idle : (entry.lookup "max_count").isNone ∧ windows = [] then
    .error (deviceFault deviceId (" carries no ration; declare at least one of " ++
      "'max_count', 'allowed_chapters', 'retired_after_chapter', 'reserved_for_chapter'"))
  else do
    let maxCount ← whenPresent entry "max_count" (positiveInt entry deviceId "max_count")
    let allowed ← whenPresent entry "allowed_chapters" (allowedChaptersOf entry deviceId)
    let retired ← whenPresent entry "retired_after_chapter"
      (positiveInt entry deviceId "retired_after_chapter")
    let reserved ← whenPresent entry "reserved_for_chapter"
      (positiveInt entry deviceId "reserved_for_chapter")
    return {
      maxCount := maxCount.1
      allowedChapters := allowed.1
      retiredAfterChapter := retired.1
      reservedForChapter := reserved.1
      single := by
        rw [allowed.2, retired.2, reserved.2, ← length_presentWindows]
        exact Nat.le_of_not_lt several
      rationed := by
        rw [maxCount.2, allowed.2, retired.2, reserved.2, ← length_presentWindows,
          List.length_pos_iff, ← Option.not_isNone]
        by_contra neither
        rw [not_or, Bool.not_eq_true, Bool.not_eq_false', not_not] at neither
        exact idle neither }

end Fields

section Parse

variable (engine : RegexEngine)

/-- The resolution of a device's `id`, the name every later fault uses. -/
def deviceIdOf (entry : Table) (index : Nat) : Except LoadFault String :=
  match entry.lookup "id" with
  | some (.str id) => .ok id
  | _ => .error (.ledgerError
      ("device at index " ++ intText index ++ " is missing a string 'id'") none)

/-- `_device`. -/
def deviceOf (entry : Table) (index : Nat) : Except LoadFault (Device engine) := do
  let deviceId ← deviceIdOf entry index
  rejectUnknownKeys ledgerErrors entry (some deviceId) deviceKeys
  let pattern ← requireStr ledgerErrors entry "pattern" (some deviceId)
  let ration ← rationingFields entry deviceId
  let ⟨compiled, returned⟩ ← witnessed (compilePattern ledgerErrors engine pattern deviceId)
  return {
    toRation := ration
    id := deviceId
    pattern
    compiled
    compiles := compilePattern_eq_ok.mp returned }

/-- `parse_ledger`. -/
def parseLedger (raw : Table) : Except LoadFault (DeviceLedger engine) := do
  let ⟨schemaVersion, resolved⟩ ← witnessed
    (resolveSchemaVersion ledgerErrors raw ledgerKeys ledgerSchemaVersion "device-ledger")
  let devices ← buildEntries ledgerErrors raw "device" deviceMessages (deviceOf engine) Device.id
  return ⟨schemaVersion, devices, (resolveSchemaVersion_eq_ok.mp resolved).2.2⟩

/-- `load_ledger`. -/
def loadLedger (toml : Tomllib) (path : Resource) : Except LoadFault (DeviceLedger engine) := do
  let raw ← loadToml toml path "device ledger" .ledgerFileError
  parseLedger engine raw

end Parse

/-! ## What a device entry must look like -/

/-- The entry spells the ration, field by field. -/
structure Ration.Spells (ration : Ration) (entry : Table) : Prop where
  maxCount : entry.lookup "max_count" = ration.maxCount.map fun bound => .int bound.1
  allowedChapters : entry.lookup "allowed_chapters" = ration.allowedChapters.map fun chapters =>
    .array (chapters.1.map fun chapter => .int chapter.1)
  retiredAfterChapter : entry.lookup "retired_after_chapter" =
    ration.retiredAfterChapter.map fun bound => .int bound.1
  reservedForChapter : entry.lookup "reserved_for_chapter" =
    ration.reservedForChapter.map fun bound => .int bound.1

/-- The field checks of `_device` let the entry through, with this pattern source. -/
structure DeviceShape (entry : Table) (pattern : String) : Prop where
  named : ∃ id, entry.lookup "id" = some (.str id)
  known : KeysWithin entry deviceKeys
  sourced : entry.lookup "pattern" = some (.str pattern)
  rationed : ∃ ration : Ration, ration.Spells entry

/-- The faults `load_ledger` documents. -/
def LedgerChannel : LoadFault → Prop
  | .ledgerError .. | .ledgerFileError .. => True
  | _ => False

theorem ledgerErrors_raisesIn : ledgerErrors.RaisesIn LedgerChannel :=
  fun _ _ => trivial

section Checks

variable {entry : Table} {index : Nat} {deviceId key : String} {owned : LoadFault → Prop}

theorem deviceIdOf_eq_ok : deviceIdOf entry index = .ok deviceId ↔
    entry.lookup "id" = some (.str deviceId) := by
  unfold deviceIdOf
  split
  · next id found => simp [found]
  · next other =>
      apply iff_of_false
      · intro returned
        cases returned
      · intro found
        exact other _ found

theorem deviceIdOf_confined (own : ledgerErrors.RaisesIn owned) :
    Confined owned (deviceIdOf entry index) := by
  unfold deviceIdOf
  split
  · exact confined_ok
  · exact confined_error.mpr (own _ _)

theorem positiveInt_eq_ok {bound : Positive} :
    positiveInt entry deviceId key = .ok bound ↔ entry.lookup key = some (.int bound.1) := by
  simp only [positiveInt, except_bind_eq_ok, requireInt_eq_ok]
  constructor
  · rintro ⟨number, found, rest⟩
    split at rest <;> cases rest
    exact found
  · intro found
    refine ⟨_, found, ?_⟩
    rw [dif_pos bound.2]
    rfl

theorem positiveInt_confined (own : ledgerErrors.RaisesIn owned) :
    Confined owned (positiveInt entry deviceId key) := by
  apply (requireInt_confined own).bind
  intro number found
  split
  · exact confined_ok
  · exact confined_error.mpr (own _ _)

theorem chapterElements_confined (own : ledgerErrors.RaisesIn owned) {values : List Value} :
    Confined owned (chapterElements deviceId values) := by
  induction values with
  | nil => exact confined_ok
  | cons value rest inductionHypothesis =>
      cases value with
      | int element =>
          unfold chapterElements
          split
          · apply inductionHypothesis.bind
            intro later returned
            exact confined_ok
          · exact confined_error.mpr (own _ _)
      | _ => exact confined_error.mpr (own _ _)

theorem allowedChaptersOf_eq_ok {chapters : AllowedChapters} :
    allowedChaptersOf entry deviceId = .ok chapters ↔
      entry.lookup "allowed_chapters" =
        some (.array (chapters.1.map fun chapter => .int chapter.1)) := by
  simp only [allowedChaptersOf, except_bind_eq_ok, require_eq_ok]
  constructor
  · rintro ⟨value, found, rest⟩
    cases value with
    | array items =>
        cases items with
        | nil => cases rest
        | cons first others =>
            obtain ⟨⟨listed, same⟩, -, returned⟩ := except_bind_eq_ok.mp rest
            cases returned
            exact found.trans
              (congrArg (some ∘ Value.array) ((chapterElements_eq_ok deviceId).mp same))
    | _ => cases rest
  · intro found
    refine ⟨_, found, ?_⟩
    obtain ⟨chapters, some⟩ := chapters
    cases chapters with
    | nil => exact absurd rfl some
    | cons first others =>
        have listed : chapterElements deviceId _ = .ok (first :: others) :=
          (chapterElements_eq_ok deviceId).mpr rfl
        exact except_bind_eq_ok.mpr (exists_witnessed.mpr ⟨_, listed, rfl⟩)

theorem allowedChaptersOf_confined (own : ledgerErrors.RaisesIn owned) :
    Confined owned (allowedChaptersOf entry deviceId) := by
  apply (require_confined own).bind
  intro value found
  cases value with
  | array items =>
      cases items with
      | nil => exact confined_error.mpr (own _ _)
      | cons first others =>
          rw [confined_iff, (chapterElements_confined own).escapes_witnessed_bind]
          rintro ⟨chapters, listed, escapes⟩
          exact not_escapes_ok escapes
  | _ => exact confined_error.mpr (own _ _)

theorem whenPresent_eq_ok {α : Type} {read : Except LoadFault α} {spell : α → Value}
    (reads : ∀ value, read = .ok value ↔ entry.lookup key = some (spell value))
    {field : {field : Option α // field.isSome = (entry.lookup key).isSome}} :
    whenPresent entry key read = .ok field ↔ entry.lookup key = field.1.map spell := by
  obtain ⟨field, present⟩ := field
  unfold whenPresent
  split
  · next there =>
      simp only [except_bind_eq_ok, reads]
      constructor
      · rintro ⟨value, found, returned⟩
        cases returned
        exact found
      · intro found
        cases field with
        | none =>
            rw [there] at present
            cases present
        | some value => exact ⟨value, found, rfl⟩
  · next absent =>
      cases field with
      | none => exact iff_of_true rfl (Option.not_isSome_iff_eq_none.mp absent)
      | some value => exact absurd present.symm absent

theorem whenPresent_of_spelled {α : Type} (read : Except LoadFault α) {spell : α → Value}
    (reads : ∀ value, read = .ok value ↔ entry.lookup key = some (spell value)) {field : Option α}
    (spelled : entry.lookup key = field.map spell) :
    ∃ same : field.isSome = (entry.lookup key).isSome,
      whenPresent entry key read = .ok ⟨field, same⟩ := by
  have same : field.isSome = (entry.lookup key).isSome := by rw [spelled, Option.isSome_map]
  exact ⟨same, (whenPresent_eq_ok reads).mpr spelled⟩

theorem whenPresent_confined {α : Type} {read : Except LoadFault α} (confined : Confined owned read) :
    Confined owned (whenPresent entry key read) := by
  unfold whenPresent
  split
  · apply confined.bind
    intro value returned
    exact confined_ok
  · exact confined_ok

/-- The keys a spelled ration leaves present are the ones of its own fields. -/
theorem Ration.Spells.windows {ration : Ration} (spells : ration.Spells entry) :
    (presentWindows entry).length = [ration.allowedChapters.isSome,
      ration.retiredAfterChapter.isSome, ration.reservedForChapter.isSome].count true := by
  rw [length_presentWindows, spells.allowedChapters, spells.retiredAfterChapter,
    spells.reservedForChapter]
  simp only [Option.isSome_map]

/-- An entry that spells a ration declares one. -/
theorem Ration.Spells.not_idle {ration : Ration} (spells : ration.Spells entry) :
    ¬((entry.lookup "max_count").isNone ∧ presentWindows entry = []) := by
  rintro ⟨uncounted, empty⟩
  have windows := spells.windows
  rw [empty] at windows
  rw [spells.maxCount, Option.isNone_map] at uncounted
  rcases ration.rationed with counted | windowed
  · rw [← Option.not_isNone, uncounted] at counted
    cases counted
  · rw [← windows] at windowed
    exact absurd windowed (Nat.lt_irrefl 0)

/-- The ration is read exactly when the entry spells it. -/
theorem rationingFields_eq_ok {ration : Ration} :
    rationingFields entry deviceId = .ok ration ↔ ration.Spells entry := by
  unfold rationingFields
  dsimp only
  constructor
  · intro read
    split at read
    · cases read
    · split at read
      · cases read
      · simp only [except_bind_eq_ok, whenPresent_eq_ok fun _ => positiveInt_eq_ok,
          whenPresent_eq_ok fun _ => allowedChaptersOf_eq_ok] at read
        obtain ⟨maxCount, counted, allowed, listed, retired, bounded, reserved, kept, returned⟩ :=
          read
        cases returned
        exact ⟨counted, listed, bounded, kept⟩
  · intro spells
    have windows := spells.windows
    have single := ration.single
    obtain ⟨_, counted⟩ := whenPresent_of_spelled (positiveInt entry deviceId "max_count")
      (fun _ => positiveInt_eq_ok) spells.maxCount
    obtain ⟨_, listed⟩ := whenPresent_of_spelled (allowedChaptersOf entry deviceId)
      (fun _ => allowedChaptersOf_eq_ok) spells.allowedChapters
    obtain ⟨_, bounded⟩ := whenPresent_of_spelled
      (positiveInt entry deviceId "retired_after_chapter")
      (fun _ => positiveInt_eq_ok) spells.retiredAfterChapter
    obtain ⟨_, kept⟩ := whenPresent_of_spelled
      (positiveInt entry deviceId "reserved_for_chapter")
      (fun _ => positiveInt_eq_ok) spells.reservedForChapter
    rw [dif_neg (by omega), dif_neg spells.not_idle, counted, listed, bounded, kept]
    rfl

theorem rationingFields_confined (own : ledgerErrors.RaisesIn owned) :
    Confined owned (rationingFields entry deviceId) := by
  unfold rationingFields
  dsimp only
  split
  · exact confined_error.mpr (own _ _)
  · split
    · exact confined_error.mpr (own _ _)
    · apply (whenPresent_confined (positiveInt_confined own)).bind
      intro maxCount counted
      apply (whenPresent_confined (allowedChaptersOf_confined own)).bind
      intro allowed listed
      apply (whenPresent_confined (positiveInt_confined own)).bind
      intro retired bounded
      apply (whenPresent_confined (positiveInt_confined own)).bind
      intro reserved kept
      exact confined_ok

end Checks

/-! ## Which ledgers escape -/

variable {engine : RegexEngine} {entry : Table} {index : Nat} {owned : LoadFault → Prop}

/-- The run of the field checks up to the compile, as the shape it leaves behind. -/
theorem deviceShape_iff (index : Nat) {compiles : String → Prop} :
    (∃ deviceId, deviceIdOf entry index = .ok deviceId ∧
      ∃ done, rejectUnknownKeys ledgerErrors entry (some deviceId) deviceKeys = .ok done ∧
      ∃ pattern, requireStr ledgerErrors entry "pattern" (some deviceId) = .ok pattern ∧
      ∃ ration, rationingFields entry deviceId = .ok ration ∧ compiles pattern) ↔
      ∃ pattern, DeviceShape entry pattern ∧ compiles pattern := by
  simp only [deviceIdOf_eq_ok, rejectUnknownKeys_eq_ok, requireStr_eq_ok, rationingFields_eq_ok]
  constructor
  · rintro ⟨id, named, -, known, pattern, sourced, ration, spells, compiled⟩
    exact ⟨pattern, ⟨⟨id, named⟩, known, sourced, ⟨ration, spells⟩⟩, compiled⟩
  · rintro ⟨pattern, ⟨⟨id, named⟩, known, sourced, ⟨ration, spells⟩⟩, compiled⟩
    exact ⟨id, named, (), known, pattern, sourced, ration, spells, compiled⟩

/-- A device entry is built exactly when it has the shape and its pattern compiles. -/
theorem deviceOf_returns : (∃ device, deviceOf engine entry index = .ok device) ↔
    ∃ pattern, DeviceShape entry pattern ∧ ∃ compiled, engine.compile pattern = .ok compiled := by
  rw [← deviceShape_iff index]
  unfold deviceOf
  simp only [bind_returns, exists_witnessed, compilePattern_eq_ok]
  simp [pure, Except.pure]

/-- A device entry escapes exactly when it has the shape and its pattern overflows the compiler. -/
theorem deviceOf_escapes (own : ledgerErrors.RaisesIn owned) (foreign : ¬owned .overflowError) :
    Escapes owned (deviceOf engine entry index) ↔
      ∃ pattern, DeviceShape entry pattern ∧ engine.compile pattern = .error .overflow := by
  rw [← deviceShape_iff index]
  unfold deviceOf
  simp only [(deviceIdOf_confined own).escapes_bind, (rejectUnknownKeys_confined own).escapes_bind,
    (requireStr_confined own).escapes_bind, (rationingFields_confined own).escapes_bind,
    escapes_witnessed_bind, compilePattern_escapes own foreign]
  simp [pure, Except.pure]

/-- The entries of a decoded ledger reach a pattern that overflows the compiler: every
entry before it is accepted, and it passes its own field checks. -/
def DeviceOverflows (engine : RegexEngine) (raw : Table) : Prop :=
  ∃ before entry after,
    raw.lookup "device" = some (.array ((before ++ entry :: after).map Value.table)) ∧
    (∀ earlier ∈ before, ∃ pattern, DeviceShape earlier pattern ∧
      ∃ compiled, engine.compile pattern = .ok compiled) ∧
    ∃ pattern, DeviceShape entry pattern ∧ engine.compile pattern = .error .overflow

/-- What the loader of a decoded ledger does not translate. -/
def LedgerSlips (engine : RegexEngine) (raw : Table) : Prop :=
  KeysWithin raw ledgerKeys ∧
    (UnwritableVersion raw ledgerSchemaVersion ∨
      raw.lookup "schema_version" = some (.int ledgerSchemaVersion) ∧ DeviceOverflows engine raw)

theorem parseLedger_escapes {raw : Table} (own : ledgerErrors.RaisesIn owned)
    (overflow : ¬owned .overflowError) (unwritable : ¬owned .valueError) :
    Escapes owned (parseLedger engine raw) ↔ LedgerSlips engine raw := by
  have version : Escapes owned
      (resolveSchemaVersion ledgerErrors raw ledgerKeys ledgerSchemaVersion "device-ledger") ↔
      KeysWithin raw ledgerKeys ∧ UnwritableVersion raw ledgerSchemaVersion :=
    resolveSchemaVersion_escapes own unwritable
  have devices : Escapes owned
      (buildEntries ledgerErrors raw "device" deviceMessages (deviceOf engine) Device.id) ↔
      DeviceOverflows engine raw :=
    buildEntries_escapes own (fun _ _ => deviceOf_returns) (fun _ _ => deviceOf_escapes own overflow)
  unfold parseLedger LedgerSlips
  rw [escapes_witnessed_bind, version, and_or_left]
  apply or_congr_right
  simp only [escapes_bind, devices, resolveSchemaVersion_eq_ok]
  constructor
  · rintro ⟨version, ⟨known, supported, rfl⟩, overflows | ⟨_, -, escapes⟩⟩
    · exact ⟨known, supported, overflows⟩
    · exact absurd escapes not_escapes_ok
  · rintro ⟨known, supported, overflows⟩
    exact ⟨_, ⟨known, supported, rfl⟩, .inl overflows⟩

/-- The loader escapes on bytes that are not UTF-8, on a literal that is too long and on a
decoded ledger that slips. -/
theorem loadLedger_escapes {toml : Tomllib} {path : Resource} :
    Escapes LedgerChannel (loadLedger engine toml path) ↔
      path.NotUtf8 ∨ toml.Refuses path ∨ ∃ raw, toml.Decodes path raw ∧ LedgerSlips engine raw := by
  unfold loadLedger
  rw [escapes_bind, loadToml_escapes (fun _ => trivial) (fun owned => owned) (fun owned => owned),
    or_assoc]
  simp only [loadToml_eq_ok, parseLedger_escapes ledgerErrors_raisesIn (fun owned => owned)
    (fun owned => owned)]

/-- It keeps to its channel on the other inputs. -/
theorem loadLedger_confined {toml : Tomllib} {path : Resource} :
    Confined LedgerChannel (loadLedger engine toml path) ↔ ¬path.NotUtf8 ∧
      ¬toml.Refuses path ∧ ∀ raw, toml.Decodes path raw → ¬LedgerSlips engine raw := by
  rw [confined_iff, loadLedger_escapes]
  simp only [not_or, not_exists, not_and]

end NovelRalph
