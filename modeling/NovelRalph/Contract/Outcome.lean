import NovelRalph.Base.Channel
import NovelRalph.Base.Path
import NovelRalph.Base.Text
import NovelRalph.Base.Toml

/-!
# The command contract

Exit codes, command outcomes and the faults a command body can raise. The
runner turns a returned outcome into its exit code, a `StateInputError` into
exit 3 and a usage error into exit 2; every other fault escapes as a traceback.

`Fault.illTyped` marks the edge of the typed model: the parser of `state.toml`
checks no leaf types, and a document whose leaves do not have the types its
schema declares is left to the untyped readings of `check` and of the mutators,
which meet the faults of the interpreter's operators instead.
-/

namespace NovelRalph

/-- The exit codes of the contract. -/
inductive ExitCode where
  | success
  | benignNegative
  | usageError
  | stateError
  | actionableFinding
  deriving DecidableEq, Repr

namespace ExitCode

/-- The process exit code of each member. -/
def toNat : ExitCode → Nat
  | success => 0
  | benignNegative => 1
  | usageError => 2
  | stateError => 3
  | actionableFinding => 4

end ExitCode

/-- What a command body returns: its code, the payload and the messages. -/
structure CommandOutcome where
  code : ExitCode
  result : Table
  messages : List String
  deriving Repr

/-- What a command body can raise. -/
inductive Fault where
  | os (fault : OsError)
  | unicodeDecodeError
  | tomlDecodeError
  | keyError (key : String)
  | valueError
  | typeError
  | attributeError
  | overflowError
  | stateInputError (messages : List String)
  | usageError (messages : List String)
  | illTyped (field : String)
  deriving DecidableEq, Repr

namespace Fault

/-- Membership in `STATE_INPUT_ERRORS`, by the exception classes of Python. -/
def isStateInput : Fault → Bool
  | os _ | unicodeDecodeError | tomlDecodeError | keyError _ | valueError | typeError => true
  | attributeError | overflowError | stateInputError _ | usageError _ | illTyped _ => false

/-- The exceptions a TOML editor raises on a text that is no document. -/
def ofToml : TomlFault → Fault
  | .notUtf8 => unicodeDecodeError
  | .syntaxFault => tomlDecodeError

end Fault

/-- `str(number)`. -/
def spellInt (number : Int) : Except Fault String :=
  if tooLong number then .error .valueError else .ok (intText number)

/-- What spelling these numbers raises, in whatever form they are spelled. -/
def spelled (numbers : List Int) : Except Fault Unit :=
  if numbers.any tooLong then .error .valueError else .ok ()

theorem spelled_eq_ok {numbers : List Int} :
    spelled numbers = .ok () ↔ ∀ number ∈ numbers, tooLong number = false := by
  simp [spelled]

theorem spelled_singleton {number : Int} : spelled [number] = .ok () ↔ tooLong number = false := by
  simp [spelled]

theorem spelled_error {numbers : List Int} {fault : Fault} (raises : spelled numbers = .error fault) :
    fault = .valueError := by
  unfold spelled at raises
  split at raises <;> cases raises
  rfl

/-- `except STATE_INPUT_ERRORS as exc: raise replacement from exc`. -/
def guardStateInput {α : Type} (replacement : Fault) : Except Fault α → Except Fault α
  | .ok value => .ok value
  | .error fault => .error (if fault.isStateInput then replacement else fault)

@[simp]
theorem guardStateInput_ok {α : Type} (replacement : Fault) (value : α) :
    guardStateInput replacement (.ok value) = .ok value := rfl

/-- A guarded computation succeeds exactly when the computation itself does. -/
theorem guardStateInput_eq_ok {α : Type} {replacement : Fault} {inner : Except Fault α} {value : α} :
    guardStateInput replacement inner = .ok value ↔ inner = .ok value := by
  cases inner <;> simp [guardStateInput]

/-- The runner's exit code for how a body ended; `none` is an escaped traceback. -/
def exitCodeOf : Except Fault CommandOutcome → Option Nat
  | .ok outcome => some outcome.code.toNat
  | .error (.stateInputError _) => some ExitCode.stateError.toNat
  | .error (.usageError _) => some ExitCode.usageError.toNat
  | .error _ => none

/-- A process exits 0 exactly when its body returned a success. -/
theorem exitCodeOf_eq_zero {result : Except Fault CommandOutcome} :
    exitCodeOf result = some 0 ↔ ∃ outcome, result = .ok outcome ∧ outcome.code = .success := by
  constructor
  · intro exits
    cases result with
    | ok outcome =>
        refine ⟨outcome, rfl, ?_⟩
        cases code : outcome.code <;> simp [exitCodeOf, code, ExitCode.toNat] at exits ⊢
    | error fault => cases fault <;> simp [exitCodeOf, ExitCode.toNat] at exits
  · rintro ⟨outcome, rfl, success⟩
    simp [exitCodeOf, success, ExitCode.toNat]

end NovelRalph
