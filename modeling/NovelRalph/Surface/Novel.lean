import NovelRalph.Surface.Serialises

/-!
# The `novel` process

The entry point: split the global flag off the arguments, name the command from
the first token that is no flag, and drive the parsed arguments through the
runner. The command-line parser is a parameter; it decides which operation the
residual tokens stand for.

`process_contract` is the contract of the whole process, whatever the arguments
and the tree: a code of the table and exactly one envelope that says what the
code says, or a help text, or a traceback: of a fault that the body let through, or of a
rendering whose integers cannot be spelled.
-/

namespace NovelRalph

/-- `_command_name_for`. -/
def commandNameFor (residual : List String) : String :=
  match residual.find? fun token => !startsWith token "-" with
  | none => multiplexerName
  | some verb => (subcommandForVerb.lookup verb).getD multiplexerName

/-- What Cyclopts makes of the residual tokens. -/
inductive Parsed where
  | usageFault (text : String)
  | help
  | command (operation : Operation)

/-- The messages of a `StateInputError`. -/
def ScanFault.stateInput : ScanFault → Option (List String)
  | .raised (.stateInputError messages) => some messages
  | _ => none

/-- The five mounted apps of `_build_mount_table`. -/
inductive MountedApp where
  | state
  | done
  | compile
  | desloppify
  | wordcount
  deriving DecidableEq, Repr

namespace MountedApp

/-- The mount verb. -/
def verb : MountedApp → String
  | state => "state"
  | done => "done"
  | compile => "compile"
  | desloppify => "desloppify"
  | wordcount => "wordcount"

/-- The spaced registry name. -/
def spacedName (app : MountedApp) : String := multiplexerName ++ " " ++ app.verb

end MountedApp

/-- The app an operation is a leaf of. -/
def Operation.app : Operation → MountedApp
  | .init _ _ _ => .state
  | .check => .state
  | .mutate _ => .state
  | .done => .done
  | .compile _ => .compile
  | .desloppify _ _ _ => .desloppify
  | .wordcount => .wordcount

namespace Host

variable (host : Host)

/-- The app on parsed tokens. -/
def dispatch (now : String) : Parsed → Dispatch (World host.toml.Text) ScanFault
  | .usageFault text => .usageFault text
  | .help => .help
  | .command operation => .body (host.body now operation)

/-- `main`, from the raw arguments on. -/
def main (now : String) (cyclopts : List String → Parsed) (argv : List String) :
    Prog (World host.toml.Text) (Traceback ScanFault) ProcessExit := do
  let split := parseGlobalFlags argv
  let workingDir ← Prog.observe fun world => .ok (placeText (workingLoc world.cwd))
  runApp ScanFault.stateInput ⟨commandNameFor split.2, workingDir, split.1⟩
    (host.dispatch now (cyclopts split.2))

end Host

/-! ## Naming -/

/-- Whatever the tokens, the name that is stamped is registered. -/
theorem commandNameFor_registered (residual : List String) :
    commandNameFor residual ∈ envelopeCommandNames := by
  have named : ∀ verb, (subcommandForVerb.lookup verb).getD multiplexerName ∈
      envelopeCommandNames := by
    intro verb
    have all : ∀ entry ∈ subcommandForVerb, entry.2 ∈ envelopeCommandNames := by decide
    cases found : subcommandForVerb.lookup verb with
    | none => decide
    | some name =>
        obtain ⟨before, after, listed, -⟩ := List.lookup_eq_some_iff.mp found
        exact all (verb, name) (by rw [listed]; simp)
  unfold commandNameFor
  split
  · decide
  · exact named _

/-- Tokens that start with the verb of an app are named after that app. -/
theorem commandNameFor_verb (app : MountedApp) (rest : List String) :
    commandNameFor (app.verb :: rest) = app.spacedName := by
  have plain : startsWith app.verb "-" = false := by cases app <;> decide
  have named : (subcommandForVerb.lookup app.verb).getD multiplexerName = app.spacedName := by
    cases app <;> decide
  unfold commandNameFor
  rw [List.find?_cons_of_pos (by rw [plain]; rfl)]
  exact named

section Process

variable {host : Host} {now : String} {cyclopts : List String → Parsed} {argv : List String}
  {world : World host.toml.Text}

/-- The context of a process. -/
def processContext {Text : Type} (argv : List String) (world : World Text) : RunContext :=
  ⟨commandNameFor (parseGlobalFlags argv).2, placeText (workingLoc world.cwd),
    (parseGlobalFlags argv).1⟩

/-- A process runs its app in its context; looking at the place has no effect. -/
theorem main_eq : host.main now cyclopts argv world =
    runApp ScanFault.stateInput (processContext argv world)
      (host.dispatch now (cyclopts (parseGlobalFlags argv).2)) world :=
  Prog.observe_bind_ok world rfl

/-- The outcome a process settles on; `none` for a help text and for an escaping fault. -/
def Host.settled (host : Host) (now : String) (parsed : Parsed)
    (world : World host.toml.Text) : Option WireOutcome :=
  match parsed with
  | .usageFault text => some (usageWireOutcome [text])
  | .help => none
  | .command operation =>
      settledOutcome ScanFault.stateInput (host.body now operation world).result

/-- The states a process leaves behind. -/
def Host.effects (host : Host) (now : String) (parsed : Parsed) (world : World host.toml.Text) :
    List (World host.toml.Text) :=
  match parsed with
  | .usageFault _ => []
  | .help => []
  | .command operation => (host.body now operation world).trail

/-- Everything a process can do. -/
theorem main_cases :
    (host.main now cyclopts argv world).trail =
        host.effects now (cyclopts (parseGlobalFlags argv).2) world ∧
      ((cyclopts (parseGlobalFlags argv).2 = .help ∧
          (host.main now cyclopts argv world).result = .ok ⟨0, none⟩) ∨
        (∃ operation fault, cyclopts (parseGlobalFlags argv).2 = .command operation ∧
          (host.body now operation world).result = .error fault ∧ fault.stateInput = none ∧
          (host.main now cyclopts argv world).result = .error (.raised fault)) ∨
        ∃ outcome, host.settled now (cyclopts (parseGlobalFlags argv).2) world = some outcome ∧
          Emission (processContext argv world) outcome (host.main now cyclopts argv world).result) := by
  have registered : (processContext argv world).command ∈ envelopeCommandNames :=
    commandNameFor_registered _
  rw [main_eq]
  cases parsed : cyclopts (parseGlobalFlags argv).2 with
  | usageFault text =>
      obtain ⟨ended, emitted, emission⟩ := emitAndExit_registered registered
        (usageWireOutcome [text]) world
      rw [Host.dispatch, runApp, emitted]
      exact ⟨rfl, Or.inr (Or.inr ⟨_, rfl, emission⟩)⟩
  | help =>
      rw [Host.dispatch, runApp]
      exact ⟨rfl, Or.inl ⟨rfl, rfl⟩⟩
  | command operation =>
      obtain ⟨trail, ended⟩ := @runApp_body _ _ ScanFault.stateInput _ registered
        (host.body now operation) world
      rw [Host.dispatch]
      refine ⟨trail, Or.inr ?_⟩
      rcases ended with ⟨outcome, settled, emission⟩ | ⟨fault, raised, escapes, result⟩
      · exact Or.inr ⟨outcome, settled, emission⟩
      · exact Or.inl ⟨operation, fault, rfl, raised, escapes, result⟩

end Process

/-! ## The contract of a process -/

/-- The envelope of a process that exits with this code. -/
structure Stamped {Text : Type} (argv : List String) (world : World Text) (code : ExitCode)
    (envelope : Envelope) : Prop where
  command : envelope.command = commandNameFor (argv.filter fun token => token ≠ humanFlag)
  registered : envelope.command ∈ envelopeCommandNames
  version : envelope.schemaVersion = envelopeSchemaVersion
  place : envelope.workingDir = placeText (workingLoc world.cwd)
  ok : envelope.ok = true ↔ code.toNat = 0

/-- What is printed: the rendering of an envelope that says what the exit code says. -/
structure Printed {Text : Type} (argv : List String) (world : World Text) (code : ExitCode)
    (text : String) (envelope : Envelope) : Prop extends Stamped argv world code envelope where
  human : humanFlag ∈ argv → text = envelope.renderHuman
  rendered : humanFlag ∉ argv → envelope.renderMachine = .ok text
  /-- A harness that does not ask for the human rendering reads the envelope back. -/
  machine : humanFlag ∉ argv →
    readEnvelope text = some envelope ∧ ∀ char ∈ text.toList, Json.Printable char

section Prints

variable {Text : Type} {argv : List String} {world : World Text}

theorem human_processContext : (processContext argv world).human = true ↔ humanFlag ∈ argv :=
  human_parseGlobalFlags argv

theorem unflagged_of_unasked (unasked : (processContext argv world).human = false) :
    humanFlag ∉ argv := by
  intro present
  rw [human_processContext.mpr present] at unasked
  cases unasked

theorem stamped_envelope (argv : List String) (world : World Text) (outcome : WireOutcome) :
    Stamped argv world outcome.code ((processContext argv world).envelope outcome) := by
  refine ⟨rfl, commandNameFor_registered _, rfl, rfl, ?_⟩
  show outcome.code.isOk = true ↔ outcome.code.toNat = 0
  cases outcome.code <;> decide

/-- An outcome that is printed in the context of a process is printed by the contract. -/
theorem printed_of_emission {outcome : WireOutcome} {ended : Except (Traceback ScanFault) ProcessExit}
    (emission : Emission (processContext argv world) outcome ended) :
    (∃ text, ended = .ok ⟨outcome.code.toNat, some text⟩ ∧
      Printed argv world outcome.code text ((processContext argv world).envelope outcome)) ∨
    ended = .error .valueError ∧ humanFlag ∉ argv ∧
      ∃ number ∈ ((processContext argv world).envelope outcome).ints, tooLong number = true := by
  have stamped := stamped_envelope argv world outcome
  cases emission with
  | human asked =>
      have present := human_processContext.mp asked
      exact Or.inl ⟨_, rfl, { stamped with
        human := fun _ => rfl
        rendered := fun absent => absurd present absent
        machine := fun absent => absurd present absent }⟩
  | machine unasked rendered =>
      have absent := unflagged_of_unasked unasked
      exact Or.inl ⟨_, rfl, { stamped with
        human := fun present => absurd present absent
        rendered := fun _ => rendered
        machine := fun _ => ⟨Envelope.readEnvelope_renderMachine rendered,
          Envelope.printable_renderMachine rendered⟩ }⟩
  | unrendered unasked member long => exact Or.inr ⟨rfl, unflagged_of_unasked unasked, _, member, long⟩

end Prints

section Flag

variable {Text : Type} {argv : List String} {world : World Text} {outcome : WireOutcome}
  {exit exit' : Except (Traceback ScanFault) ProcessExit}

/-- Without the flag the same envelope is stamped. -/
theorem envelope_unflagged (outcome : WireOutcome) :
    (processContext (parseGlobalFlags argv).2 world).envelope outcome =
      (processContext argv world).envelope outcome := by
  unfold processContext
  rw [residual_parseGlobalFlags_idem]
  rfl

/-- An outcome that a plain process prints, the process with the flag prints for a human. -/
theorem renders_of_emissions (emission : Emission (processContext argv world) outcome exit)
    (plain : Emission (processContext (parseGlobalFlags argv).2 world) outcome exit')
    (unasked : (processContext (parseGlobalFlags argv).2 world).human = false) :
    (∃ text, exit' = .ok ⟨outcome.code.toNat, some text⟩ ∧
      ∃ envelope, readEnvelope text = some envelope ∧ exit =
        .ok ⟨outcome.code.toNat, some (if humanFlag ∈ argv then envelope.renderHuman else text)⟩) ∨
    exit' = .error .valueError ∧
      ∃ envelope number, Stamped argv world outcome.code envelope ∧ number ∈ envelope.ints ∧
        tooLong number = true ∧ exit =
          if humanFlag ∈ argv then .ok ⟨outcome.code.toNat, some envelope.renderHuman⟩
          else .error .valueError := by
  have stamped := stamped_envelope argv world outcome
  cases plain with
  | human asked =>
      rw [asked] at unasked
      cases unasked
  | machine _ rendered =>
      rw [envelope_unflagged] at rendered
      have reads := Envelope.readEnvelope_renderMachine rendered
      refine Or.inl ⟨_, rfl, _, reads, ?_⟩
      cases emission with
      | human asked => rw [if_pos (human_processContext.mp asked)]
      | machine unasked rendered' =>
          rw [rendered, Except.ok.injEq] at rendered'
          rw [if_neg (unflagged_of_unasked unasked), rendered']
      | unrendered _ member long =>
          rw [(Envelope.renderMachine_eq_ok.mp rendered).1 _ member] at long
          cases long
  | unrendered _ member long =>
      rw [envelope_unflagged] at member
      refine Or.inr ⟨rfl, _, _, stamped, member, long, ?_⟩
      cases emission with
      | human asked => rw [if_pos (human_processContext.mp asked)]
      | machine _ rendered =>
          rw [(Envelope.renderMachine_eq_ok.mp rendered).1 _ member] at long
          cases long
      | unrendered unasked _ _ => rw [if_neg (unflagged_of_unasked unasked)]

end Flag

/-- A parser that dispatches to a leaf only for tokens that start with the verb of its app. -/
def Mounts (cyclopts : List String → Parsed) : Prop :=
  ∀ tokens operation, cyclopts tokens = .command operation →
    tokens.head? = some operation.app.verb

/-- The envelope of an operation is stamped with the name of its app. -/
theorem main_named {Text : Type} {cyclopts : List String → Parsed} {argv : List String}
    {world : World Text} {operation : Operation} {code : ExitCode} {envelope : Envelope}
    (mounts : Mounts cyclopts)
    (parsed : cyclopts (argv.filter fun token => token ≠ humanFlag) = .command operation)
    (stamped : Stamped argv world code envelope) :
    envelope.command = operation.app.spacedName := by
  have head := mounts _ operation parsed
  cases tokens : argv.filter fun token => token ≠ humanFlag with
  | nil =>
      rw [tokens] at head
      cases head
  | cons first rest =>
      rw [tokens] at head
      cases head
      rw [stamped.command, tokens, commandNameFor_verb]

end NovelRalph
