import NovelRalph.Base.Json
import NovelRalph.Contract.Outcome

/-!
# The envelope

Every command prints one envelope: six fields in a fixed order, as one line of
JSON, or line by line for a human reader. Its `ok` is derived from the exit code
and its command must be one of the registered names.

An integer with more digits than are converted leaves the machine rendering as a
`ValueError`. `readEnvelope` is what a harness makes of a machine rendering; it is
the inverse of `renderMachine` on every envelope that has one.
-/

namespace NovelRalph

/-! ## Names -/

/-- `MULTIPLEXER_NAME`. -/
def multiplexerName : String := "novel"

/-- `SUBCOMMAND_NAMES`, in the order of the surface. -/
def subcommandNames : List String :=
  ["novel state", "novel done", "novel compile", "novel desloppify", "novel wordcount"]

/-- `ENVELOPE_COMMAND_NAMES`. -/
def envelopeCommandNames : List String := (subcommandNames ++ [multiplexerName]).dedup

/-- `name.split(" ", 1)[1]`, for a name with a space. -/
def afterSpace (name : String) : String :=
  String.ofList ((name.toList.dropWhile fun char => char ≠ ' ').drop 1)

/-- `SUBCOMMAND_VERBS`. -/
def subcommandVerbs : List String := subcommandNames.map afterSpace

/-- `_SUBCOMMAND_FOR_VERB`. -/
def subcommandForVerb : List (String × String) := subcommandVerbs.zip subcommandNames

/-- `is_ok`. -/
def ExitCode.isOk (code : ExitCode) : Bool := decide (code = .success)

/-! ## Building and rendering -/

/-- The payload of an envelope, in the order of its keys. -/
abbrev Payload := List (String × Json)

/-- `Envelope`. -/
structure Envelope where
  command : String
  schemaVersion : Int
  ok : Bool
  workingDir : String
  result : Payload
  messages : List String

/-- `ENVELOPE_SCHEMA_VERSION`. -/
def envelopeSchemaVersion : Int := 1

/-- `build_envelope`. -/
def buildEnvelope (command workingDir : String) (code : ExitCode) (result : Payload)
    (messages : List String) : Except Fault Envelope :=
  if command ∈ envelopeCommandNames then
    .ok {
      command
      schemaVersion := envelopeSchemaVersion
      ok := code.isOk
      workingDir
      result
      messages }
  else .error .valueError

namespace Envelope

variable (envelope : Envelope)

/-- The ordered mapping of `render_machine`, in `ENVELOPE_FIELD_ORDER`. -/
def ordered : Payload :=
  [("command", .str envelope.command), ("schema_version", .int envelope.schemaVersion),
   ("ok", .bool envelope.ok), ("working_dir", .str envelope.workingDir),
   ("result", .object envelope.result), ("messages", .array (envelope.messages.map .str))]

/-- The integers of the machine rendering. -/
def ints : List Int := (Json.object envelope.ordered).ints

/-- `render_machine`. -/
def renderMachine : Except Fault String := do
  spelled envelope.ints
  return String.ofList (Json.object envelope.ordered).dumps

/-- `render_human`. -/
def renderHuman : String :=
  String.intercalate "\n" <|
    ["command: " ++ envelope.command, "ok: " ++ (if envelope.ok then "True" else "False"),
      "working_dir: " ++ envelope.workingDir] ++
    if envelope.messages = [] then ["messages: (none)"]
    else "messages:" :: envelope.messages.map fun message => "  - " ++ message

end Envelope

/-! ## Reading the machine rendering -/

/-- The texts of an array of texts. -/
def readMessages : List Json → Option (List String)
  | [] => some []
  | .str message :: rest => (readMessages rest).map (message :: ·)
  | _ :: _ => none

/-- The envelope that a line of JSON holds. -/
def readEnvelope (line : String) : Option Envelope :=
  match Json.loads line.toList with
  | some (.object [("command", .str command), ("schema_version", .int schemaVersion),
      ("ok", .bool ok), ("working_dir", .str workingDir), ("result", .object result),
      ("messages", .array messages)]) =>
      (readMessages messages).map fun messages =>
        { command, schemaVersion, ok, workingDir, result, messages }
  | _ => none

theorem readMessages_map (messages : List String) :
    readMessages (messages.map .str) = some messages := by
  induction messages with
  | nil => rfl
  | cons message rest inductionHypothesis =>
      rw [List.map_cons, readMessages, inductionHypothesis, Option.map_some]

namespace Envelope

variable {envelope : Envelope} {line : String}

theorem renderMachine_eq_ok : envelope.renderMachine = .ok line ↔
    (∀ number ∈ envelope.ints, tooLong number = false) ∧
      line = String.ofList (Json.object envelope.ordered).dumps := by
  unfold renderMachine
  rw [except_bind_eq_ok, ← spelled_eq_ok]
  constructor
  · rintro ⟨_, named, written⟩
    cases written
    exact ⟨named, rfl⟩
  · rintro ⟨named, rfl⟩
    exact ⟨(), named, rfl⟩

/-- A machine rendering is read back as the envelope. -/
theorem readEnvelope_renderMachine (rendered : envelope.renderMachine = .ok line) :
    readEnvelope line = some envelope := by
  obtain ⟨-, rfl⟩ := renderMachine_eq_ok.mp rendered
  unfold readEnvelope
  rw [String.toList_ofList, Json.loads_dumps]
  simp only [ordered, readMessages_map, Option.map_some]

/-- A machine rendering is one line of printable ASCII. -/
theorem printable_renderMachine (rendered : envelope.renderMachine = .ok line) :
    ∀ char ∈ line.toList, Json.Printable char := by
  obtain ⟨-, rfl⟩ := renderMachine_eq_ok.mp rendered
  rw [String.toList_ofList]
  exact Json.printable_dumps _

/-- An envelope has a machine rendering unless one of its integers is too long. -/
theorem renderMachine_cases (envelope : Envelope) :
    (∃ line, envelope.renderMachine = .ok line) ∨
      (∃ number ∈ envelope.ints, tooLong number = true) ∧
        envelope.renderMachine = .error .valueError := by
  by_cases short : ∀ number ∈ envelope.ints, tooLong number = false
  · exact Or.inl ⟨_, renderMachine_eq_ok.mpr ⟨short, rfl⟩⟩
  · push Not at short
    simp only [ne_eq, Bool.not_eq_false] at short
    refine Or.inr ⟨short, ?_⟩
    unfold renderMachine
    cases named : spelled envelope.ints with
    | ok _ =>
        obtain ⟨number, member, long⟩ := short
        rw [spelled_eq_ok.mp named number member] at long
        cases long
    | error fault =>
        rw [spelled_error named]
        rfl

end Envelope

/-- The machine rendering is one line of printable ASCII that loses nothing of the envelope, and
every envelope without an integer that is too long has one. -/
theorem machine_line_lossless (envelope : Envelope) :
    ((∃ line, envelope.renderMachine = .ok line) ↔
      ∀ number ∈ envelope.ints, tooLong number = false) ∧
    ∀ line, envelope.renderMachine = .ok line →
      readEnvelope line = some envelope ∧ (∀ char ∈ line.toList, Json.Printable char) ∧
        ∀ other : Envelope, other.renderMachine = .ok line → envelope = other := by
  constructor
  · constructor
    · rintro ⟨line, rendered⟩
      exact (Envelope.renderMachine_eq_ok.mp rendered).1
    · exact fun short => ⟨_, Envelope.renderMachine_eq_ok.mpr ⟨short, rfl⟩⟩
  · intro line rendered
    have reads := Envelope.readEnvelope_renderMachine rendered
    refine ⟨reads, Envelope.printable_renderMachine rendered, fun other rendered' => ?_⟩
    rw [Envelope.readEnvelope_renderMachine rendered'] at reads
    exact (Option.some.inj reads).symm

/-- An envelope is built for every registered name, with the code's `ok`. -/
theorem buildEnvelope_eq_ok {command workingDir : String} {code : ExitCode} {result : Payload}
    {messages : List String} {envelope : Envelope} :
    buildEnvelope command workingDir code result messages = .ok envelope ↔
      command ∈ envelopeCommandNames ∧
        envelope = ⟨command, envelopeSchemaVersion, code.isOk, workingDir, result, messages⟩ := by
  unfold buildEnvelope
  by_cases registered : command ∈ envelopeCommandNames
  · rw [if_pos registered, Except.ok.injEq]
    exact ⟨fun same => ⟨registered, same.symm⟩, fun same => same.2.symm⟩
  · rw [if_neg registered]
    exact ⟨fun same => (by cases same), fun same => absurd same.1 registered⟩

end NovelRalph
