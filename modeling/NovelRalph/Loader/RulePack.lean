import NovelRalph.Loader.Load

/-!
# The rule pack

The typed rule pack and the validating boundary that builds it. A `Rule` and a
`RulePack` carry what the boundary checks, so a pack that was loaded cannot be an
invalid one. `RuleShape` says declaratively which entries the field checks let
through to the pattern compile.
-/

namespace NovelRalph

/-- `RULEPACK_SCHEMA_VERSION`. -/
def rulepackSchemaVersion : Int := 1

/-- `RuleBasis`. -/
inductive RuleBasis where
  | manuscript
  | perPage
  deriving DecidableEq, Repr

namespace RuleBasis

/-- `str(member)`. -/
def text : RuleBasis → String
  | manuscript => "manuscript"
  | perPage => "per_page"

/-- `list(RuleBasis)`. -/
def members : List RuleBasis := [manuscript, perPage]

theorem text_injective {first second : RuleBasis} (same : first.text = second.text) :
    first = second := by
  cases first <;> cases second <;> simp_all [text]

end RuleBasis

/-- A page size is given, and positive, exactly when hits are counted per page. -/
def PageWordsFit : RuleBasis → Option Int → Prop
  | .perPage, some words => 0 < words
  | .perPage, none => False
  | .manuscript, words => words = none

/-- `Rule`. -/
structure Rule (engine : RegexEngine) where
  id : String
  pattern : String
  compiled : engine.Pattern
  threshold : Int
  basis : RuleBasis
  pageWords : Option Int
  compiles : engine.compile pattern = .ok compiled
  threshold_nonneg : 0 ≤ threshold
  pageWords_fit : PageWordsFit basis pageWords

/-- `RulePack`. -/
structure RulePack (engine : RegexEngine) where
  schemaVersion : Int
  pack : String
  rules : Entries (@Rule.id engine)
  supported : schemaVersion = rulepackSchemaVersion

/-- `rulepack._coerce._ERRORS`. -/
def rulePackErrors : CoercionErrors where
  contentError := .rulePackError
  perIdNoun := "rule"
  perLevelNoun := "rule pack"

/-- `_PACK_KEYS`. -/
def packKeys : List String := ["schema_version", "pack", "rule"]

/-- `_RULE_KEYS`. -/
def ruleKeys : List String := ["id", "pattern", "threshold", "basis", "page_words"]

/-- `rulepack.parse._ENTRIES_MESSAGES`. -/
def ruleMessages : EntriesMessages where
  notArray typeName := "'rule' must be an array of tables, got " ++ typeName
  empty := "'rule' array is empty; a pack must declare at least one rule"
  nonMapping index typeName :=
    "rule at index " ++ intText index ++ " must be a table, got " ++ typeName

section Parse

/-- A fault that names the rule. -/
def ruleFault (ruleId message : String) : LoadFault :=
  .rulePackError (wherePart rulePackErrors (some ruleId) ++ message) (some ruleId)

/-- The resolution of a rule's `id`, the name every later fault uses. -/
def ruleIdOf (entry : Table) (index : Nat) : Except LoadFault String :=
  match entry.lookup "id" with
  | some (.str id) => .ok id
  | _ => .error (.rulePackError
      ("rule at index " ++ intText index ++ " is missing a string 'id'") none)

/-- The threshold of a rule, never negative. -/
def ruleThreshold (entry : Table) (ruleId : String) : Except LoadFault {number : Int // 0 ≤ number} := do
  let threshold ← requireInt rulePackErrors entry "threshold" (some ruleId)
  if negative : threshold < 0 then
    throw (ruleFault ruleId (" 'threshold' must be non-negative, got " ++ intText threshold))
  else return ⟨threshold, by omega⟩

/-- `_resolve_basis`. -/
def resolveBasis (value ruleId : String) : Except LoadFault RuleBasis :=
  match RuleBasis.members.find? fun basis => basis.text = value with
  | some basis => .ok basis
  | none => .error (ruleFault ruleId
      (" has unknown basis " ++ reprText value ++ "; allowed: " ++
        String.intercalate ", " (RuleBasis.members.map fun basis => reprText basis.text)))

/-- `_resolve_page_words`. -/
def resolvePageWords (entry : Table) (basis : RuleBasis) (ruleId : String) :
    Except LoadFault {words : Option Int // PageWordsFit basis words} :=
  match basis with
  | .perPage => do
      let pageWords ← requireInt rulePackErrors entry "page_words" (some ruleId)
      if positive : 0 < pageWords then return ⟨some pageWords, positive⟩
      else throw (ruleFault ruleId (" 'page_words' must be positive, got " ++ intText pageWords))
  | .manuscript =>
      match entry.lookup "page_words" with
      | none => .ok ⟨none, rfl⟩
      | some _ => .error (ruleFault ruleId
          (" carries 'page_words' but its basis is " ++ reprText RuleBasis.manuscript.text ++
            "; 'page_words' is only valid for 'per_page'"))

variable (engine : RegexEngine)

/-- `_rule`. -/
def ruleOf (entry : Table) (index : Nat) : Except LoadFault (Rule engine) := do
  let ruleId ← ruleIdOf entry index
  rejectUnknownKeys rulePackErrors entry (some ruleId) ruleKeys
  let pattern ← requireStr rulePackErrors entry "pattern" (some ruleId)
  let threshold ← ruleThreshold entry ruleId
  let basisText ← requireStr rulePackErrors entry "basis" (some ruleId)
  let basis ← resolveBasis basisText ruleId
  let pageWords ← resolvePageWords entry basis ruleId
  let ⟨compiled, returned⟩ ← witnessed (compilePattern rulePackErrors engine pattern ruleId)
  return {
    id := ruleId
    pattern
    compiled
    threshold := threshold.1
    basis
    pageWords := pageWords.1
    compiles := compilePattern_eq_ok.mp returned
    threshold_nonneg := threshold.2
    pageWords_fit := pageWords.2 }

/-- `parse_rulepack`. -/
def parseRulepack (raw : Table) : Except LoadFault (RulePack engine) := do
  let ⟨schemaVersion, resolved⟩ ← witnessed
    (resolveSchemaVersion rulePackErrors raw packKeys rulepackSchemaVersion "rule-pack")
  let pack ← requireStr rulePackErrors raw "pack" none
  let rules ← buildEntries rulePackErrors raw "rule" ruleMessages (ruleOf engine) Rule.id
  return ⟨schemaVersion, pack, rules, (resolveSchemaVersion_eq_ok.mp resolved).2.2⟩

/-- `load_rulepack`. -/
def loadRulepack (toml : Tomllib) (path : Resource) : Except LoadFault (RulePack engine) := do
  let raw ← loadToml toml path "rule pack" .rulePackFileError
  parseRulepack engine raw

end Parse

/-! ## What a rule entry must look like -/

/-- The field checks of `_rule` let the entry through, with this pattern source. -/
structure RuleShape (entry : Table) (pattern : String) : Prop where
  named : ∃ id, entry.lookup "id" = some (.str id)
  known : KeysWithin entry ruleKeys
  sourced : entry.lookup "pattern" = some (.str pattern)
  bounded : ∃ threshold, 0 ≤ threshold ∧ entry.lookup "threshold" = some (.int threshold)
  counted : ∃ basis words, PageWordsFit basis words ∧
    entry.lookup "basis" = some (.str basis.text) ∧
    entry.lookup "page_words" = words.map Value.int

/-- The faults `load_rulepack` documents. -/
def RulePackChannel : LoadFault → Prop
  | .rulePackError .. | .rulePackFileError .. => True
  | _ => False

theorem rulePackErrors_raisesIn : rulePackErrors.RaisesIn RulePackChannel :=
  fun _ _ => trivial

section Checks

variable {entry : Table} {index : Nat} {ruleId : String} {owned : LoadFault → Prop}

theorem ruleIdOf_eq_ok : ruleIdOf entry index = .ok ruleId ↔
    entry.lookup "id" = some (.str ruleId) := by
  unfold ruleIdOf
  split
  · next id found => simp [found]
  · next other =>
      apply iff_of_false
      · intro returned
        cases returned
      · intro found
        exact other _ found

theorem ruleIdOf_confined (own : rulePackErrors.RaisesIn owned) :
    Confined owned (ruleIdOf entry index) := by
  unfold ruleIdOf
  split
  · exact confined_ok
  · exact confined_error.mpr (own _ _)

theorem ruleThreshold_eq_ok {threshold : {number : Int // 0 ≤ number}} :
    ruleThreshold entry ruleId = .ok threshold ↔
      entry.lookup "threshold" = some (.int threshold.1) := by
  simp only [ruleThreshold, except_bind_eq_ok, requireInt_eq_ok]
  constructor
  · rintro ⟨number, found, rest⟩
    split at rest <;> cases rest
    exact found
  · intro found
    refine ⟨_, found, ?_⟩
    have nonneg := threshold.2
    rw [dif_neg (by omega)]
    rfl

theorem ruleThreshold_confined (own : rulePackErrors.RaisesIn owned) :
    Confined owned (ruleThreshold entry ruleId) := by
  apply (requireInt_confined own).bind
  intro number found
  split
  · exact confined_error.mpr (own _ _)
  · exact confined_ok

theorem resolveBasis_eq_ok {value : String} {basis : RuleBasis} :
    resolveBasis value ruleId = .ok basis ↔ value = basis.text := by
  unfold resolveBasis
  split
  · next other found =>
      have spelled : other.text = value := by simpa using List.find?_some found
      rw [← spelled]
      constructor
      · intro returned
        cases returned
        rfl
      · intro same
        rw [RuleBasis.text_injective same]
  · next absent =>
      have none := List.find?_eq_none.mp absent
      apply iff_of_false
      · intro returned
        cases returned
      · rintro rfl
        have member : basis ∈ RuleBasis.members := by cases basis <;> decide
        exact none basis member (by simp)

theorem resolveBasis_confined (own : rulePackErrors.RaisesIn owned) {value : String} :
    Confined owned (resolveBasis value ruleId) := by
  unfold resolveBasis
  split
  · exact confined_ok
  · exact confined_error.mpr (own _ _)

theorem resolvePageWords_eq_ok {basis : RuleBasis}
    {words : {words : Option Int // PageWordsFit basis words}} :
    resolvePageWords entry basis ruleId = .ok words ↔
      entry.lookup "page_words" = words.1.map Value.int := by
  obtain ⟨words, fits⟩ := words
  cases basis with
  | manuscript =>
      cases fits
      simp only [resolvePageWords, Option.map_none]
      split
      · next absent => exact iff_of_true rfl absent
      · next stray =>
          apply iff_of_false
          · intro returned
            cases returned
          · intro absent
            rw [absent] at stray
            cases stray
  | perPage =>
      cases words with
      | none => cases fits
      | some number =>
          simp only [resolvePageWords, except_bind_eq_ok, requireInt_eq_ok, Option.map_some]
          constructor
          · rintro ⟨other, found, rest⟩
            split at rest <;> cases rest
            exact found
          · intro found
            have positive : 0 < number := fits
            refine ⟨number, found, ?_⟩
            rw [dif_pos positive]
            rfl

theorem resolvePageWords_confined (own : rulePackErrors.RaisesIn owned) {basis : RuleBasis} :
    Confined owned (resolvePageWords entry basis ruleId) := by
  cases basis with
  | manuscript =>
      simp only [resolvePageWords]
      split
      · exact confined_ok
      · exact confined_error.mpr (own _ _)
  | perPage =>
      apply (requireInt_confined own).bind
      intro number found
      split
      · exact confined_ok
      · exact confined_error.mpr (own _ _)

end Checks

/-! ## Which packs escape -/

variable {engine : RegexEngine} {entry : Table} {index : Nat} {owned : LoadFault → Prop}

/-- The run of the field checks up to the compile, as the shape it leaves behind. -/
theorem ruleShape_iff (index : Nat) {compiles : String → Prop} :
    (∃ ruleId, ruleIdOf entry index = .ok ruleId ∧
      ∃ done, rejectUnknownKeys rulePackErrors entry (some ruleId) ruleKeys = .ok done ∧
      ∃ pattern, requireStr rulePackErrors entry "pattern" (some ruleId) = .ok pattern ∧
      ∃ threshold, ruleThreshold entry ruleId = .ok threshold ∧
      ∃ basisText, requireStr rulePackErrors entry "basis" (some ruleId) = .ok basisText ∧
      ∃ basis, resolveBasis basisText ruleId = .ok basis ∧
      ∃ words, resolvePageWords entry basis ruleId = .ok words ∧ compiles pattern) ↔
      ∃ pattern, RuleShape entry pattern ∧ compiles pattern := by
  simp only [ruleIdOf_eq_ok, rejectUnknownKeys_eq_ok, requireStr_eq_ok, ruleThreshold_eq_ok,
    resolveBasis_eq_ok, resolvePageWords_eq_ok]
  constructor
  · rintro ⟨id, named, -, known, pattern, sourced, ⟨threshold, nonneg⟩, bounded, _, counted, basis,
      rfl, ⟨words, fits⟩, paged, compiled⟩
    exact ⟨pattern, ⟨⟨id, named⟩, known, sourced, ⟨threshold, nonneg, bounded⟩,
      ⟨basis, words, fits, counted, paged⟩⟩, compiled⟩
  · rintro ⟨pattern, ⟨⟨id, named⟩, known, sourced, ⟨threshold, nonneg, bounded⟩,
      ⟨basis, words, fits, counted, paged⟩⟩, compiled⟩
    exact ⟨id, named, (), known, pattern, sourced, ⟨threshold, nonneg⟩, bounded, _, counted, basis,
      rfl, ⟨words, fits⟩, paged, compiled⟩

/-- A rule entry is built exactly when it has the shape and its pattern compiles. -/
theorem ruleOf_returns : (∃ rule, ruleOf engine entry index = .ok rule) ↔
    ∃ pattern, RuleShape entry pattern ∧ ∃ compiled, engine.compile pattern = .ok compiled := by
  rw [← ruleShape_iff index]
  unfold ruleOf
  simp only [bind_returns, exists_witnessed, compilePattern_eq_ok]
  simp [pure, Except.pure]

/-- A rule entry escapes exactly when it has the shape and its pattern overflows the compiler. -/
theorem ruleOf_escapes (own : rulePackErrors.RaisesIn owned) (foreign : ¬owned .overflowError) :
    Escapes owned (ruleOf engine entry index) ↔
      ∃ pattern, RuleShape entry pattern ∧ engine.compile pattern = .error .overflow := by
  rw [← ruleShape_iff index]
  unfold ruleOf
  simp only [(ruleIdOf_confined own).escapes_bind, (rejectUnknownKeys_confined own).escapes_bind,
    (requireStr_confined own).escapes_bind, (ruleThreshold_confined own).escapes_bind,
    (resolveBasis_confined own).escapes_bind, (resolvePageWords_confined own).escapes_bind,
    escapes_witnessed_bind, compilePattern_escapes own foreign]
  simp [pure, Except.pure]

/-- The entries of a decoded pack reach a pattern that overflows the compiler: every
entry before it is accepted, and it passes its own field checks. -/
def RuleOverflows (engine : RegexEngine) (raw : Table) : Prop :=
  ∃ before entry after,
    raw.lookup "rule" = some (.array ((before ++ entry :: after).map Value.table)) ∧
    (∀ earlier ∈ before, ∃ pattern, RuleShape earlier pattern ∧
      ∃ compiled, engine.compile pattern = .ok compiled) ∧
    ∃ pattern, RuleShape entry pattern ∧ engine.compile pattern = .error .overflow

/-- What the loader of a decoded pack does not translate. -/
def PackSlips (engine : RegexEngine) (raw : Table) : Prop :=
  KeysWithin raw packKeys ∧
    (UnwritableVersion raw rulepackSchemaVersion ∨
      raw.lookup "schema_version" = some (.int rulepackSchemaVersion) ∧
      (∃ pack, raw.lookup "pack" = some (.str pack)) ∧ RuleOverflows engine raw)

theorem parseRulepack_escapes {raw : Table} (own : rulePackErrors.RaisesIn owned)
    (overflow : ¬owned .overflowError) (unwritable : ¬owned .valueError) :
    Escapes owned (parseRulepack engine raw) ↔ PackSlips engine raw := by
  have version : Escapes owned
      (resolveSchemaVersion rulePackErrors raw packKeys rulepackSchemaVersion "rule-pack") ↔
      KeysWithin raw packKeys ∧ UnwritableVersion raw rulepackSchemaVersion :=
    resolveSchemaVersion_escapes own unwritable
  have rules : Escapes owned
      (buildEntries rulePackErrors raw "rule" ruleMessages (ruleOf engine) Rule.id) ↔
      RuleOverflows engine raw :=
    buildEntries_escapes own (fun _ _ => ruleOf_returns) (fun _ _ => ruleOf_escapes own overflow)
  unfold parseRulepack PackSlips
  rw [escapes_witnessed_bind, version, and_or_left]
  apply or_congr_right
  simp only [(requireStr_confined own).escapes_bind, requireStr_eq_ok, escapes_bind, rules,
    resolveSchemaVersion_eq_ok]
  constructor
  · rintro ⟨version, ⟨known, supported, rfl⟩, pack, packed, overflows | ⟨_, -, escapes⟩⟩
    · exact ⟨known, supported, ⟨pack, packed⟩, overflows⟩
    · exact absurd escapes not_escapes_ok
  · rintro ⟨known, supported, ⟨pack, packed⟩, overflows⟩
    exact ⟨_, ⟨known, supported, rfl⟩, pack, packed, .inl overflows⟩

/-- The loader escapes on bytes that are not UTF-8, on a literal that is too long and on a
decoded pack that slips. -/
theorem loadRulepack_escapes {toml : Tomllib} {path : Resource} :
    Escapes RulePackChannel (loadRulepack engine toml path) ↔
      path.NotUtf8 ∨ toml.Refuses path ∨ ∃ raw, toml.Decodes path raw ∧ PackSlips engine raw := by
  unfold loadRulepack
  rw [escapes_bind, loadToml_escapes (fun _ => trivial) (fun owned => owned) (fun owned => owned),
    or_assoc]
  simp only [loadToml_eq_ok, parseRulepack_escapes rulePackErrors_raisesIn (fun owned => owned)
    (fun owned => owned)]

/-- It keeps to its channel on the other inputs. -/
theorem loadRulepack_confined {toml : Tomllib} {path : Resource} :
    Confined RulePackChannel (loadRulepack engine toml path) ↔ ¬path.NotUtf8 ∧
      ¬toml.Refuses path ∧ ∀ raw, toml.Decodes path raw → ¬PackSlips engine raw := by
  rw [confined_iff, loadRulepack_escapes]
  simp only [not_or, not_exists, not_and]

end NovelRalph
