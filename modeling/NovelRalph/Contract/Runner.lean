import NovelRalph.Base.Program
import NovelRalph.Contract.Envelope

/-!
# The runner

The one wrapper that every command is driven through. The command-line parser
either rejects the arguments, shows a help text, or hands over a command body.
The runner owns every envelope and every exit: it runs the body, turns how the
body ended into a code, and prints one envelope, or none for a help text.

A fault that no clause catches leaves the process as a traceback, and so does an
envelope that cannot be rendered.
-/

namespace NovelRalph

/-- `CommandOutcome`, with the payload as it is serialised. -/
structure WireOutcome where
  code : ExitCode
  result : Payload
  messages : List String

/-- `usage_error_outcome`, for a fault that carries messages. -/
def usageWireOutcome (messages : List String) : WireOutcome where
  code := .usageError
  result := []
  messages

/-- `RunContext`. -/
structure RunContext where
  command : String
  workingDir : String
  human : Bool
  deriving DecidableEq, Repr

/-- What the command-line parser makes of the arguments. -/
inductive Dispatch (σ ε : Type) where
  /-- A `CycloptsError`, with its text. -/
  | usageFault (text : String)
  /-- A help or version text was shown. -/
  | help
  | body (program : Prog σ ε WireOutcome)

/-- An exception that leaves the process. -/
inductive Traceback (ε : Type) where
  | raised (fault : ε)
  | valueError
  deriving DecidableEq, Repr

/-- How a process exits: its code and what it printed as an envelope. -/
structure ProcessExit where
  code : Nat
  printed : Option String
  deriving DecidableEq, Repr

/-! ## The global flag -/

/-- `_HUMAN_FLAG`. -/
def humanFlag : String := "--human"

/-- `parse_global_flags`. -/
def parseGlobalFlags (argv : List String) : Bool × List String :=
  let residual := argv.filter fun token => token ≠ humanFlag
  (decide (residual.length ≠ argv.length), residual)

/-- The flag is seen wherever it stands. -/
theorem human_parseGlobalFlags (argv : List String) :
    (parseGlobalFlags argv).1 = true ↔ humanFlag ∈ argv := by
  have shorter : (argv.filter fun token => token ≠ humanFlag).length = argv.length ↔
      ∀ token ∈ argv, token ≠ humanFlag := by
    rw [List.length_filter_eq_length_iff]
    simp only [decide_eq_true_eq]
  simp only [parseGlobalFlags, decide_eq_true_eq, ne_eq, shorter]
  constructor
  · intro seen
    by_contra absent
    exact seen fun token member same => absent (same ▸ member)
  · intro present all
    exact all humanFlag present rfl

/-- Arguments that differ in the flag only leave the same tokens behind. -/
theorem residual_parseGlobalFlags_idem (argv : List String) :
    parseGlobalFlags (parseGlobalFlags argv).2 = (false, (parseGlobalFlags argv).2) := by
  have same : ((parseGlobalFlags argv).2.filter fun token => token ≠ humanFlag) =
      (parseGlobalFlags argv).2 := by
    unfold parseGlobalFlags
    rw [List.filter_filter]
    simp only [Bool.and_self]
  unfold parseGlobalFlags at same ⊢
  rw [same]
  simp only [ne_eq, not_true_eq_false, decide_false]

section Run

variable {σ ε : Type}

/-- The rendering that the context asks for. -/
def RunContext.render (context : RunContext) (envelope : Envelope) : Except Fault String :=
  if context.human then .ok envelope.renderHuman else envelope.renderMachine

/-- `_emit`: the text that is printed. Building and rendering raise nothing but a `ValueError`. -/
def emit (context : RunContext) (outcome : WireOutcome) : Except (Traceback ε) String :=
  (buildEnvelope context.command context.workingDir outcome.code outcome.result
    outcome.messages >>= context.render).mapError fun _ => .valueError

/-- Emit one envelope and exit with its code. -/
def emitAndExit (context : RunContext) (outcome : WireOutcome) :
    Prog σ (Traceback ε) ProcessExit :=
  .observe fun _ => (emit context outcome).map fun text => ⟨outcome.code.toNat, some text⟩

variable (stateInput : ε → Option (List String))

/-- The normal return of `run` and its `StateInputError` clause; no other fault is caught. -/
def settle (context : RunContext) : Except ε WireOutcome → Prog σ (Traceback ε) ProcessExit
  | .ok outcome => emitAndExit context outcome
  | .error fault =>
      match stateInput fault with
      | some messages => emitAndExit context ⟨.stateError, [], messages⟩
      | none => .raise (.raised fault)

/-- `run`; `stateInput` gives the messages of a `StateInputError` among the faults. -/
def runApp (context : RunContext) : Dispatch σ ε → Prog σ (Traceback ε) ProcessExit
  | .usageFault text => emitAndExit context (usageWireOutcome [text])
  | .help => pure ⟨ExitCode.success.toNat, none⟩
  | .body program => (Prog.attempt program).mapFault .raised >>= settle stateInput context

end Run

/-! ## What a run prints -/

section Laws

variable {σ ε : Type} {stateInput : ε → Option (List String)} {context : RunContext}

/-- The envelope an outcome is printed as. -/
def RunContext.envelope (context : RunContext) (outcome : WireOutcome) : Envelope :=
  ⟨context.command, envelopeSchemaVersion, outcome.code.isOk, context.workingDir, outcome.result,
    outcome.messages⟩

/-- How an outcome is printed, or fails to be. -/
inductive Emission (context : RunContext) (outcome : WireOutcome) :
    Except (Traceback ε) ProcessExit → Prop where
  | human (asked : context.human = true) : Emission context outcome
      (.ok ⟨outcome.code.toNat, some (context.envelope outcome).renderHuman⟩)
  | machine (unasked : context.human = false) {line : String}
      (rendered : (context.envelope outcome).renderMachine = .ok line) :
      Emission context outcome (.ok ⟨outcome.code.toNat, some line⟩)
  | unrendered (unasked : context.human = false) {number : Int}
      (member : number ∈ (context.envelope outcome).ints) (long : tooLong number = true) :
      Emission context outcome (.error .valueError)

/-- Under a registered command name every outcome is printed, for a machine unless it holds an
integer that is too long. -/
theorem emitAndExit_registered (registered : context.command ∈ envelopeCommandNames)
    (outcome : WireOutcome) (state : σ) :
    ∃ ended, (emitAndExit context outcome : Prog σ (Traceback ε) ProcessExit) state = ⟨[], ended⟩ ∧
      Emission context outcome ended := by
  have built : buildEnvelope context.command context.workingDir outcome.code outcome.result
      outcome.messages = .ok (context.envelope outcome) :=
    buildEnvelope_eq_ok.mpr ⟨registered, rfl⟩
  have emits : ∀ rendered, context.render (context.envelope outcome) = rendered →
      (emitAndExit context outcome : Prog σ (Traceback ε) ProcessExit) state =
        ⟨[], (rendered.mapError fun _ => Traceback.valueError).map fun text =>
          ⟨outcome.code.toNat, some text⟩⟩ := by
    rintro _ rfl
    unfold emitAndExit emit
    rw [Prog.observe_apply, built]
    rfl
  cases asked : context.human with
  | true =>
      have rendered : context.render (context.envelope outcome) =
          .ok (context.envelope outcome).renderHuman := if_pos asked
      exact ⟨_, emits _ rendered, .human asked⟩
  | false =>
      have machine : context.render (context.envelope outcome) =
          (context.envelope outcome).renderMachine := if_neg (by rw [asked]; exact Bool.false_ne_true)
      rcases (context.envelope outcome).renderMachine_cases with
        ⟨line, rendered⟩ | ⟨⟨number, member, long⟩, failed⟩
      · exact ⟨_, emits _ (machine.trans rendered), .machine asked rendered⟩
      · exact ⟨_, emits _ (machine.trans failed), .unrendered asked member long⟩

/-- The outcome that is printed for how a body ended; `none` is an escaping fault. -/
def settledOutcome (stateInput : ε → Option (List String)) :
    Except ε WireOutcome → Option WireOutcome
  | .ok outcome => some outcome
  | .error fault => (stateInput fault).map fun messages => ⟨.stateError, [], messages⟩

/-- A run of a body has the effects of the body, and ends as the body's end demands. -/
theorem runApp_body (registered : context.command ∈ envelopeCommandNames)
    (program : Prog σ ε WireOutcome) (state : σ) :
    (runApp stateInput context (.body program) state).trail = (program state).trail ∧
      ((∃ outcome, settledOutcome stateInput (program state).result = some outcome ∧
          Emission context outcome (runApp stateInput context (.body program) state).result) ∨
        ∃ fault, (program state).result = .error fault ∧ stateInput fault = none ∧
          (runApp stateInput context (.body program) state).result = .error (.raised fault)) := by
  have opening : (Prog.attempt program).mapFault Traceback.raised state =
      ⟨(program state).trail, .ok (program state).result⟩ := rfl
  have run : runApp stateInput context (.body program) state = _ := Prog.bind_ok state opening
  rw [run]
  cases ended : (program state).result with
  | ok outcome =>
      obtain ⟨exit, emitted, emission⟩ := @emitAndExit_registered σ ε context registered outcome
        ((program state).trail.getLastD state)
      rw [settle, emitted, List.append_nil]
      exact ⟨rfl, Or.inl ⟨outcome, rfl, emission⟩⟩
  | error fault =>
      rw [settle]
      cases caught : stateInput fault with
      | some messages =>
          obtain ⟨exit, emitted, emission⟩ := @emitAndExit_registered σ ε context registered
            ⟨.stateError, [], messages⟩ ((program state).trail.getLastD state)
          dsimp only
          rw [emitted, List.append_nil]
          refine ⟨rfl, Or.inl ⟨⟨.stateError, [], messages⟩, ?_, emission⟩⟩
          rw [settledOutcome, caught]
          rfl
      | none =>
          dsimp only
          rw [Prog.raise_apply, List.append_nil]
          exact ⟨rfl, Or.inr ⟨fault, rfl, caught, rfl⟩⟩

end Laws

end NovelRalph
