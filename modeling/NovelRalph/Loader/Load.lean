import NovelRalph.Base.Text
import NovelRalph.Loader.Coerce
import NovelRalph.Loader.Regex

/-!
# The loader kit

The array extraction, the pattern compile, the duplicate-id pass, the parse
skeleton and the reading of the file, shared by the rule-pack and the
device-ledger loader. Four faults leave the kit under their own names: a compile
overflow, a file that is not UTF-8, a decimal literal with too many digits, and a
schema version too long to be written into the message that rejects it.
-/

namespace NovelRalph

/-- `EntriesMessages`. -/
structure EntriesMessages where
  notArray : String → String
  empty : String
  nonMapping : Nat → String → String

section Entries

variable (errors : CoercionErrors)

/-- The check of every array entry in `entries`, from an index on. -/
def entryTables (messages : EntriesMessages) (index : Nat) : List Value → Except LoadFault (List Table)
  | [] => .ok []
  | .table entry :: rest => do
      let later ← entryTables messages (index + 1) rest
      return entry :: later
  | value :: _ => .error (errors.contentError (messages.nonMapping index value.typeName) none)

/-- `entries`. -/
def arrayEntries (mapping : Table) (arrayKey : String) (messages : EntriesMessages) :
    Except LoadFault (List Table) := do
  match ← require errors mapping arrayKey none with
  | .array [] => throw (errors.contentError messages.empty none)
  | .array items => entryTables errors messages 0 items
  | value => throw (errors.contentError (messages.notArray value.typeName) none)

/-- `compile_pattern`. -/
def compilePattern (engine : RegexEngine) (pattern offendingId : String) :
    Except LoadFault engine.Pattern :=
  match engine.compile pattern with
  | .ok compiled => .ok compiled
  | .error (.invalid message) => .error (errors.contentError
      (wherePart errors (some offendingId) ++ " has an invalid pattern " ++ reprText pattern ++
        ": " ++ message) (some offendingId))
  | .error .overflow => .error .overflowError

/-- The loop of `reject_duplicate_ids`, with the ids seen so far. -/
def rejectDuplicatesFrom (seen : List String) : List String → Except LoadFault Unit
  | [] => .ok ()
  | id :: rest =>
      if id ∈ seen then .error (errors.contentError
        (wherePart errors (some id) ++ " is defined more than once; ids must be unique") (some id))
      else rejectDuplicatesFrom (id :: seen) rest

/-- `reject_duplicate_ids`. -/
def rejectDuplicateIds (ids : List String) : Except LoadFault Unit :=
  rejectDuplicatesFrom errors [] ids

/-- `resolve_schema_version`. A negative number is written in decimal and bounded by the
decoder, so no other message meets the digit limit. -/
def resolveSchemaVersion (raw : Table) (allowedKeys : List String) (constant : Int)
    (unsupportedNoun : String) : Except LoadFault Int := do
  rejectUnknownKeys errors raw none allowedKeys
  let schemaVersion ← requireInt errors raw "schema_version" none
  if schemaVersion = constant then return schemaVersion
  else if tooLong schemaVersion then throw .valueError
  else throw (errors.contentError ("unsupported " ++ unsupportedNoun ++ " schema_version " ++
      intText schemaVersion ++ "; expected " ++ intText constant) none)

/-- The builder's pass over the entries, from an index on. -/
def buildFrom {α : Type} (build : Table → Nat → Except LoadFault α) (index : Nat) :
    List Table → Except LoadFault (List α)
  | [] => .ok []
  | entry :: rest => do
      let built ← build entry index
      let later ← buildFrom build (index + 1) rest
      return built :: later

end Entries

/-! ## The file -/

/-- How a text is no table: a syntax error with its text, or a decimal literal of more digits
than `int` converts, which is a plain `ValueError`. -/
inductive TomllibFault where
  | tomlDecodeError (message : String)
  | valueError
  deriving DecidableEq, Repr

/-- `tomllib`: bytes that are UTF-8 are parsed. -/
structure Tomllib where
  parse : String → Except TomllibFault Table

/-- A resource: what opening and reading it gives, or the text of the `OSError`. -/
structure Resource where
  path : String
  bytes : Except String ByteArray

/-- `load_toml`. -/
def loadToml (toml : Tomllib) (resource : Resource) (noun : String)
    (fileError : String → LoadFault) : Except LoadFault Table :=
  let unreadable (text : String) :=
    fileError ("cannot read " ++ noun ++ " at " ++ resource.path ++ ": " ++ text)
  match resource.bytes with
  | .error text => .error (unreadable text)
  | .ok bytes =>
      match String.fromUTF8? bytes with
      | none => .error .unicodeDecodeError
      | some text =>
          match toml.parse text with
          | .ok table => .ok table
          | .error (.tomlDecodeError message) => .error (unreadable message)
          | .error .valueError => .error .valueError

/-! ## What the kit returns and what escapes it -/

section Laws

variable {errors : CoercionErrors} {raw : Table} {arrayKey : String} {messages : EntriesMessages}
  {owned : LoadFault → Prop}

theorem entryTables_eq_ok {index : Nat} {values : List Value} {tables : List Table} :
    entryTables errors messages index values = .ok tables ↔ values = tables.map Value.table := by
  induction values generalizing index tables with
  | nil => cases tables <;> simp [entryTables]
  | cons value rest inductionHypothesis =>
      cases value with
      | table entry =>
          simp only [entryTables, except_bind_eq_ok, inductionHypothesis]
          constructor
          · rintro ⟨later, rfl, returned⟩
            cases returned
            rfl
          · intro same
            cases tables with
            | nil => cases same
            | cons first later =>
                simp only [List.map_cons, List.cons.injEq, Value.table.injEq] at same
                obtain ⟨rfl, rfl⟩ := same
                exact ⟨later, rfl, rfl⟩
      | _ => cases tables <;> simp [entryTables]

theorem entryTables_confined (own : errors.RaisesIn owned) {index : Nat} {values : List Value} :
    Confined owned (entryTables errors messages index values) := by
  induction values generalizing index with
  | nil => exact confined_ok
  | cons value rest inductionHypothesis =>
      cases value with
      | table entry =>
          apply inductionHypothesis.bind
          intro later returned
          exact confined_ok
      | _ => exact confined_error.mpr (own _ _)

/-- The array extraction returns the tables of an array that has some and nothing else. -/
theorem arrayEntries_eq_ok {tables : List Table} :
    arrayEntries errors raw arrayKey messages = .ok tables ↔
      raw.lookup arrayKey = some (.array (tables.map Value.table)) ∧ tables ≠ [] := by
  simp only [arrayEntries, except_bind_eq_ok, require_eq_ok]
  constructor
  · rintro ⟨value, found, listed⟩
    cases value with
    | array items =>
        cases items with
        | nil => cases listed
        | cons first rest =>
            have same := entryTables_eq_ok.mp listed
            rw [← same]
            refine ⟨found, ?_⟩
            rintro rfl
            cases same
    | _ => cases listed
  · rintro ⟨found, some⟩
    refine ⟨_, found, ?_⟩
    cases tables with
    | nil => exact absurd rfl some
    | cons first rest => exact entryTables_eq_ok.mpr rfl

theorem arrayEntries_confined (own : errors.RaisesIn owned) :
    Confined owned (arrayEntries errors raw arrayKey messages) := by
  apply (require_confined own).bind
  intro value found
  cases value with
  | array items =>
      cases items with
      | nil => exact confined_error.mpr (own _ _)
      | cons first rest => exact entryTables_confined own
  | _ => exact confined_error.mpr (own _ _)

theorem compilePattern_eq_ok {engine : RegexEngine} {pattern offendingId : String}
    {compiled : engine.Pattern} :
    compilePattern errors engine pattern offendingId = .ok compiled ↔
      engine.compile pattern = .ok compiled := by
  unfold compilePattern
  split <;> simp_all

theorem compilePattern_escapes {engine : RegexEngine} {pattern offendingId : String}
    (own : errors.RaisesIn owned) (foreign : ¬owned .overflowError) :
    Escapes owned (compilePattern errors engine pattern offendingId) ↔
      engine.compile pattern = .error .overflow := by
  unfold compilePattern
  split
  · next compiled => simp [compiled]
  · next invalid =>
      rw [invalid, escapes_error]
      simp [own _ _]
  · next overflow => exact iff_of_true (escapes_error.mpr foreign) overflow

theorem rejectDuplicatesFrom_eq_ok {seen ids : List String} {done : Unit} :
    rejectDuplicatesFrom errors seen ids = .ok done ↔ ids.Nodup ∧ ∀ id ∈ ids, id ∉ seen := by
  induction ids generalizing seen with
  | nil => simp [rejectDuplicatesFrom]
  | cons id rest inductionHypothesis =>
      unfold rejectDuplicatesFrom
      split
      · next repeated =>
          apply iff_of_false
          · intro returned
            cases returned
          · rintro ⟨-, fresh⟩
            exact fresh id List.mem_cons_self repeated
      · next fresh =>
          rw [inductionHypothesis]
          simp only [List.nodup_cons, List.mem_cons, not_or, forall_eq_or_imp]
          constructor
          · rintro ⟨distinct, apart⟩
            refine ⟨⟨?_, distinct⟩, fresh, fun other member => (apart other member).2⟩
            intro member
            exact (apart id member).1 rfl
          · rintro ⟨⟨absent, distinct⟩, -, apart⟩
            refine ⟨distinct, fun other member => ⟨?_, apart other member⟩⟩
            rintro rfl
            exact absent member

theorem rejectDuplicateIds_eq_ok {ids : List String} {done : Unit} :
    rejectDuplicateIds errors ids = .ok done ↔ ids.Nodup := by
  unfold rejectDuplicateIds
  rw [rejectDuplicatesFrom_eq_ok]
  simp

theorem rejectDuplicateIds_confined (own : errors.RaisesIn owned) {ids : List String} :
    Confined owned (rejectDuplicateIds errors ids) := by
  suffices general : ∀ seen, Confined owned (rejectDuplicatesFrom errors seen ids) from
    general []
  induction ids with
  | nil => exact fun _ => confined_ok
  | cons id rest inductionHypothesis =>
      intro seen
      unfold rejectDuplicatesFrom
      split
      · exact confined_error.mpr (own _ _)
      · exact inductionHypothesis _

section SchemaVersion

variable {allowed : List String} {constant : Int} {noun : String}

theorem resolveSchemaVersion_eq_ok {version : Int} :
    resolveSchemaVersion errors raw allowed constant noun = .ok version ↔
      KeysWithin raw allowed ∧ raw.lookup "schema_version" = some (.int constant) ∧
        version = constant := by
  simp only [resolveSchemaVersion, except_bind_eq_ok, rejectUnknownKeys_eq_ok, requireInt_eq_ok]
  constructor
  · rintro ⟨-, within, number, found, rest⟩
    split at rest
    · next same =>
        cases rest
        subst same
        exact ⟨within, found, rfl⟩
    · split at rest <;> cases rest
  · rintro ⟨within, found, rfl⟩
    refine ⟨(), within, version, found, ?_⟩
    rw [if_pos rfl]
    rfl

/-- The schema version is an unsupported one that cannot be written into the message. -/
def UnwritableVersion (raw : Table) (constant : Int) : Prop :=
  ∃ number, raw.lookup "schema_version" = some (.int number) ∧ number ≠ constant ∧
    tooLong number = true

/-- The version check escapes on an unsupported version whose message cannot be written. -/
theorem resolveSchemaVersion_escapes (own : errors.RaisesIn owned) (foreign : ¬owned .valueError) :
    Escapes owned (resolveSchemaVersion errors raw allowed constant noun) ↔
      KeysWithin raw allowed ∧ UnwritableVersion raw constant := by
  unfold resolveSchemaVersion UnwritableVersion
  rw [(rejectUnknownKeys_confined own).escapes_bind]
  simp only [rejectUnknownKeys_eq_ok, (requireInt_confined own).escapes_bind, requireInt_eq_ok,
    exists_and_left, exists_const]
  apply and_congr_right
  intro within
  apply exists_congr
  intro number
  apply and_congr_right
  intro found
  split
  · next same => simp [pure, Except.pure, same]
  · next other =>
      split
      · next long => exact iff_of_true (escapes_error.mpr foreign) ⟨other, long⟩
      · next short =>
          apply iff_of_false
          · exact confined_iff.mp (confined_error.mpr (own _ _))
          · exact fun both => short both.2

end SchemaVersion

section Build

variable {α : Type} {build : Table → Nat → Except LoadFault α} {accepts slips : Table → Prop}
  {entryId : α → String}

/-- The pass over the entries escapes at one that slips after others that were accepted. -/
theorem buildFrom_escapes {index : Nat} {entries : List Table}
    (accepted : ∀ entry index, (∃ built, build entry index = .ok built) ↔ accepts entry)
    (slipped : ∀ entry index, Escapes owned (build entry index) ↔ slips entry) :
    Escapes owned (buildFrom build index entries) ↔
      ∃ before entry after, entries = before ++ entry :: after ∧
        (∀ earlier ∈ before, accepts earlier) ∧ slips entry := by
  induction entries generalizing index with
  | nil => simp [buildFrom]
  | cons first rest inductionHypothesis =>
      have later : Escapes owned (buildFrom build index (first :: rest)) ↔
          slips first ∨ (accepts first ∧ Escapes owned (buildFrom build (index + 1) rest)) := by
        simp only [buildFrom, escapes_bind, slipped, ← accepted first index]
        simp [pure, Except.pure]
      rw [later, inductionHypothesis]
      constructor
      · rintro (slip | ⟨fine, before, entry, after, rfl, earlier, slip⟩)
        · exact ⟨[], first, rest, rfl, by simp, slip⟩
        · exact ⟨first :: before, entry, after, rfl, by simpa using ⟨fine, earlier⟩, slip⟩
      · rintro ⟨before, entry, after, same, earlier, slip⟩
        cases before with
        | nil =>
            cases same
            exact .inl slip
        | cons head before =>
            cases same
            have fine := earlier _ List.mem_cons_self
            exact .inr ⟨fine, before, entry, after, rfl,
              fun other member => earlier other (List.mem_cons_of_mem _ member), slip⟩

theorem buildFrom_length {index : Nat} {entries : List Table} {built : List α}
    (passed : buildFrom build index entries = .ok built) : built.length = entries.length := by
  induction entries generalizing index built with
  | nil =>
      cases passed
      rfl
  | cons first rest inductionHypothesis =>
      obtain ⟨head, -, passed⟩ := except_bind_eq_ok.mp passed
      obtain ⟨later, followed, returned⟩ := except_bind_eq_ok.mp passed
      cases returned
      simp [inductionHypothesis followed]

/-- The entries of a pack: some, and no two of one id. -/
structure Entries (entryId : α → String) where
  list : List α
  nonempty : list ≠ []
  distinct : (list.map entryId).Nodup

/-- What `build_entries` returns is well formed: each check left its fact behind. -/
theorem wellFormed_of_built {tables : List Table} {built : List α} {done : Unit}
    (listed : arrayEntries errors raw arrayKey messages = .ok tables)
    (passed : buildFrom build 0 tables = .ok built)
    (checked : rejectDuplicateIds errors (built.map entryId) = .ok done) :
    built ≠ [] ∧ (built.map entryId).Nodup := by
  have some := (arrayEntries_eq_ok.mp listed).2
  have length := buildFrom_length passed
  constructor
  · rintro rfl
    exact some (List.length_eq_zero_iff.mp length.symm)
  · exact rejectDuplicateIds_eq_ok.mp checked

variable (errors raw arrayKey messages build entryId) in
/-- `build_entries`. -/
def buildEntries : Except LoadFault (Entries entryId) := do
  let ⟨rawEntries, listed⟩ ← witnessed (arrayEntries errors raw arrayKey messages)
  let ⟨built, passed⟩ ← witnessed (buildFrom build 0 rawEntries)
  let ⟨_, checked⟩ ← witnessed (rejectDuplicateIds errors (built.map entryId))
  have sound := wellFormed_of_built listed passed checked
  return ⟨built, sound.1, sound.2⟩

/-- The entry tail escapes at the first entry that slips, when all before it are accepted. -/
theorem buildEntries_escapes (own : errors.RaisesIn owned)
    (accepted : ∀ entry index, (∃ built, build entry index = .ok built) ↔ accepts entry)
    (slipped : ∀ entry index, Escapes owned (build entry index) ↔ slips entry) :
    Escapes owned (buildEntries errors raw arrayKey messages build entryId) ↔
      ∃ before entry after,
        raw.lookup arrayKey = some (.array ((before ++ entry :: after).map Value.table)) ∧
          (∀ earlier ∈ before, accepts earlier) ∧ slips entry := by
  have tail : ∀ tables, ∀ listed : arrayEntries errors raw arrayKey messages = .ok tables,
      Escapes owned (do
        let ⟨built, passed⟩ ← witnessed (buildFrom build 0 tables)
        let ⟨_, checked⟩ ← witnessed (rejectDuplicateIds errors (built.map entryId))
        have sound := wellFormed_of_built listed passed checked
        return (⟨built, sound.1, sound.2⟩ : Entries entryId)) ↔
      Escapes owned (buildFrom build 0 tables) := by
    intro tables listed
    rw [escapes_witnessed_bind, or_iff_left]
    rintro ⟨built, passed, escapes⟩
    rw [(rejectDuplicateIds_confined own).escapes_witnessed_bind] at escapes
    obtain ⟨done, checked, escapes⟩ := escapes
    exact not_escapes_ok escapes
  unfold buildEntries
  rw [(arrayEntries_confined own).escapes_witnessed_bind]
  constructor
  · rintro ⟨tables, listed, escapes⟩
    obtain ⟨before, entry, after, rfl, earlier, slip⟩ :=
      (buildFrom_escapes accepted slipped).mp ((tail tables listed).mp escapes)
    exact ⟨before, entry, after, (arrayEntries_eq_ok.mp listed).1, earlier, slip⟩
  · rintro ⟨before, entry, after, found, earlier, slip⟩
    have listed : arrayEntries errors raw arrayKey messages = .ok (before ++ entry :: after) :=
      arrayEntries_eq_ok.mpr ⟨found, by simp⟩
    refine ⟨_, listed, (tail _ listed).mpr ?_⟩
    exact (buildFrom_escapes accepted slipped).mpr ⟨before, entry, after, rfl, earlier, slip⟩

end Build

end Laws

/-- The resource can be read and holds bytes that are not UTF-8. -/
def Resource.NotUtf8 (resource : Resource) : Prop :=
  ∃ bytes, resource.bytes = .ok bytes ∧ String.fromUTF8? bytes = none

/-- The resource can be read and decodes to the table. -/
def Tomllib.Decodes (toml : Tomllib) (resource : Resource) (table : Table) : Prop :=
  ∃ bytes text, resource.bytes = .ok bytes ∧ String.fromUTF8? bytes = some text ∧
    toml.parse text = .ok table

/-- The resource can be read as a text with a decimal literal that is too long. -/
def Tomllib.Refuses (toml : Tomllib) (resource : Resource) : Prop :=
  ∃ bytes text, resource.bytes = .ok bytes ∧ String.fromUTF8? bytes = some text ∧
    toml.parse text = .error .valueError

section File

variable {toml : Tomllib} {resource : Resource} {noun : String} {fileError : String → LoadFault}
  {owned : LoadFault → Prop}

theorem loadToml_eq_ok {table : Table} :
    loadToml toml resource noun fileError = .ok table ↔ toml.Decodes resource table := by
  unfold loadToml Tomllib.Decodes
  cases read : resource.bytes with
  | error text => simp
  | ok bytes =>
      cases decoded : String.fromUTF8? bytes with
      | none => simp [decoded]
      | some text =>
          cases parsed : toml.parse text with
          | ok parsed' => simp [decoded, parsed]
          | error fault => cases fault <;> simp [decoded, parsed]

/-- Reading the file escapes exactly on bytes that are not UTF-8 and on a literal that is too
long. -/
theorem loadToml_escapes (own : ∀ message, owned (fileError message))
    (undecoded : ¬owned .unicodeDecodeError) (unconverted : ¬owned .valueError) :
    Escapes owned (loadToml toml resource noun fileError) ↔
      resource.NotUtf8 ∨ toml.Refuses resource := by
  unfold loadToml Resource.NotUtf8 Tomllib.Refuses
  cases read : resource.bytes with
  | error text => simp [own]
  | ok bytes =>
      cases decoded : String.fromUTF8? bytes with
      | none => simp [decoded, undecoded]
      | some text =>
          cases parsed : toml.parse text with
          | ok parsed' => simp [decoded, parsed]
          | error fault => cases fault <;> simp [decoded, parsed, own, unconverted]

end File

end NovelRalph
