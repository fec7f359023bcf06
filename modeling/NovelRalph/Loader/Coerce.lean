import Mathlib.Data.List.Sort
import Mathlib.Data.String.Basic
import NovelRalph.Base.Channel
import NovelRalph.Base.Toml
import NovelRalph.Loader.Regex

/-!
# The loader kit

The scalar checks, the array extraction, the duplicate-id pass and the parse
skeleton which the rule-pack and the device-ledger loader share. Each raises
through the error factory of its family, so one body serves both; only a compile
overflow and a file that is not UTF-8 leave the kit under their own names.
-/

namespace NovelRalph

/-- What the pack loaders can raise. -/
inductive LoadFault where
  | rulePackError (message : String) (ruleId : Option String)
  | rulePackFileError (message : String)
  | ledgerError (message : String) (deviceId : Option String)
  | ledgerFileError (message : String)
  | unicodeDecodeError
  | overflowError
  | valueError
  deriving DecidableEq, Repr

/-- `CoercionErrors`. -/
structure CoercionErrors where
  contentError : String → Option String → LoadFault
  perIdNoun : String
  perLevelNoun : String

/-- `type(value).__name__` of a decoded value. -/
def Value.typeName : Value → String
  | .str _ => "str"
  | .int _ => "int"
  | .bool _ => "bool"
  | .float _ => "float"
  | .dateTime literal =>
      if ':' ∉ literal.toList then "date"
      else if literal.toList[4]? = some '-' then "datetime"
      else "time"
  | .array _ => "list"
  | .table _ => "dict"

/-- `sorted` of a list of texts. -/
def sortedTexts (texts : List String) : List String := texts.insertionSort (· ≤ ·)

section Coerce

variable (errors : CoercionErrors) (mapping : Table) (key : String) (offendingId : Option String)

/-- `where`. -/
def wherePart : String :=
  match offendingId with
  | some id => errors.perIdNoun ++ " " ++ reprText id
  | none => errors.perLevelNoun

/-- `reject_unknown_keys`. -/
def rejectUnknownKeys (allowed : List String) : Except LoadFault Unit :=
  let unknown := sortedTexts ((mapping.map Prod.fst).filter fun key => key ∉ allowed)
  if unknown = [] then .ok ()
  else .error (errors.contentError
    (wherePart errors offendingId ++ " has unknown key(s) " ++
      String.intercalate ", " (unknown.map reprText) ++ "; allowed keys are " ++
      String.intercalate ", " ((sortedTexts allowed).map reprText)) offendingId)

/-- `require`. -/
def require : Except LoadFault Value :=
  match mapping.lookup key with
  | some value => .ok value
  | none => .error (errors.contentError
      (wherePart errors offendingId ++ " is missing required key " ++ reprText key) offendingId)

/-- `require_str`. -/
def requireStr : Except LoadFault String := do
  match ← require errors mapping key offendingId with
  | .str text => return text
  | value => throw (errors.contentError
      (wherePart errors offendingId ++ " key " ++ reprText key ++ " must be a string, got " ++
        value.typeName) offendingId)

/-- `require_int`. -/
def requireInt : Except LoadFault Int := do
  match ← require errors mapping key offendingId with
  | .int number => return number
  | value => throw (errors.contentError
      (wherePart errors offendingId ++ " key " ++ reprText key ++ " must be an integer, got " ++
        value.typeName) offendingId)

end Coerce

/-! ## When the checks pass, and what they raise -/

/-- The channel holds every content fault of the family. -/
def CoercionErrors.RaisesIn (errors : CoercionErrors) (owned : LoadFault → Prop) : Prop :=
  ∀ message offendingId, owned (errors.contentError message offendingId)

section Laws

variable {errors : CoercionErrors} {mapping : Table} {key : String} {offendingId : Option String}
  {owned : LoadFault → Prop}

theorem require_eq_ok {value : Value} :
    require errors mapping key offendingId = .ok value ↔ mapping.lookup key = some value := by
  unfold require
  cases mapping.lookup key <;> simp

theorem require_confined (own : errors.RaisesIn owned) :
    Confined owned (require errors mapping key offendingId) := by
  unfold require
  cases mapping.lookup key with
  | none => exact confined_error.mpr (own _ _)
  | some value => exact confined_ok

theorem requireStr_eq_ok {text : String} :
    requireStr errors mapping key offendingId = .ok text ↔
      mapping.lookup key = some (.str text) := by
  unfold requireStr require
  cases found : mapping.lookup key with
  | none => simp [bind, Except.bind]
  | some value => cases value <;> simp [bind, Except.bind, pure, Except.pure, throw, throwThe,
      MonadExceptOf.throw]

theorem requireStr_confined (own : errors.RaisesIn owned) :
    Confined owned (requireStr errors mapping key offendingId) := by
  apply (require_confined own).bind
  intro value found
  cases value with
  | str text => exact confined_ok
  | _ => exact confined_error.mpr (own _ _)

theorem requireInt_eq_ok {number : Int} :
    requireInt errors mapping key offendingId = .ok number ↔
      mapping.lookup key = some (.int number) := by
  unfold requireInt require
  cases found : mapping.lookup key with
  | none => simp [bind, Except.bind]
  | some value => cases value <;> simp [bind, Except.bind, pure, Except.pure, throw, throwThe,
      MonadExceptOf.throw]

theorem requireInt_confined (own : errors.RaisesIn owned) :
    Confined owned (requireInt errors mapping key offendingId) := by
  apply (require_confined own).bind
  intro value found
  cases value with
  | int number => exact confined_ok
  | _ => exact confined_error.mpr (own _ _)

/-- Every key of the table is one of the allowed ones. -/
def KeysWithin (mapping : Table) (allowed : List String) : Prop :=
  ∀ key ∈ mapping.map Prod.fst, key ∈ allowed

instance (mapping : Table) (allowed : List String) : Decidable (KeysWithin mapping allowed) :=
  inferInstanceAs (Decidable (∀ key ∈ _, _))

theorem rejectUnknownKeys_eq_ok {allowed : List String} {done : Unit} :
    rejectUnknownKeys errors mapping offendingId allowed = .ok done ↔
      KeysWithin mapping allowed := by
  have sorted : sortedTexts ((mapping.map Prod.fst).filter fun key => key ∉ allowed) = [] ↔
      KeysWithin mapping allowed := by
    unfold sortedTexts KeysWithin
    rw [← List.length_eq_zero_iff, List.length_insertionSort, List.length_eq_zero_iff,
      List.filter_eq_nil_iff]
    simp
  unfold rejectUnknownKeys
  rw [← sorted]
  dsimp only
  split
  · next empty => exact iff_of_true rfl empty
  · next unknown =>
      apply iff_of_false _ unknown
      intro returned
      cases returned

theorem rejectUnknownKeys_confined (own : errors.RaisesIn owned) {allowed : List String} :
    Confined owned (rejectUnknownKeys errors mapping offendingId allowed) := by
  unfold rejectUnknownKeys
  dsimp only
  split
  · exact confined_ok
  · exact confined_error.mpr (own _ _)

end Laws

end NovelRalph
