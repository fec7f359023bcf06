import NovelRalph.State.Document
import NovelRalph.System.World

/-!
# The mutator contract

Six of the commands share one shape: open `state.toml`, read its typed view,
plan some edits, validate the edited view, and only then replace the file.
`mutateState` is that shape and `mutateState_cases` says everything a run of it
can do: it faults and touches nothing, or it performs exactly one replacement,
whose text reads as a coherent state.
-/

namespace NovelRalph

/-- A command body over the world, for one TOML editor. -/
abbrev Command (toml : Tomlkit) (α : Type) := Prog (World toml.Text) Fault α

/-- `INSPECT_REPAIR_REMEDY`. -/
def inspectRepairRemedy : String := "inspect and repair it, or restore it from a known-good copy"

/-- The text of an absolute place. -/
def placeText (loc : Loc) : String := "/" ++ String.intercalate "/" loc.reverse

/-- `_state_input_error`. -/
def stateInputErrorAt {Text : Type} (world : World Text) : Fault :=
  if !world.exists? (workingLoc world.cwd) || !world.exists? (stateLoc world.cwd) then
    .stateInputError ["no novel working/ found in " ++ placeText world.cwd ++
      "; run from the novel root, or run 'novel state init' to create one"]
  else
    .stateInputError ["working/state.toml is unreadable or corrupt; " ++ inspectRepairRemedy]

/-- `_draft_read_error`, for the relative `working/` the commands report. -/
def draftReadError : Fault :=
  .stateInputError ["cannot read the drafts under working; a draft.md (or compiled.md) is " ++
    "unreadable or corrupt — " ++ inspectRepairRemedy]

section Contract

variable {toml : Tomlkit} (arith : RatioArithmetic)

/-- `load_document`, before its faults are translated. -/
def openDocument (world : World toml.Text) : Except Fault (Document toml) :=
  match world.readState with
  | .error fault => .error fault
  | .ok text =>
      match Document.load text with
      | .ok document => .ok document
      | .error fault => .error (Fault.ofToml fault)

/-- `_load_document_or_state_error`. -/
def loadDocumentOrStateError : Command toml (Document toml) :=
  .observe fun world => guardStateInput (stateInputErrorAt world) (openDocument world)

variable {View : Type} (view : Document toml → Except Fault View)
  (validate : View → Except Fault (List Violation))

/-- `_state_view_or_state_error`, for a way to view a document. -/
def stateViewOrStateError (document : Document toml) : Command toml View :=
  .observe fun world => guardStateInput (stateInputErrorAt world) (view document)

/-- `_refuse_if_incoherent`, for a validator of views. -/
def refuseIfIncoherent (state : View) (context : String) (remedy : View → List String) :
    Except Fault Unit := do
  let verdict ← validate state
  if verdict = [] then return ()
  else
    let names := String.intercalate ", " (verdict.map fun violation => violation.invariant.text)
    throw (.stateInputError ((context ++ " would violate: " ++ names) ::
      verdict.map Violation.detail ++ remedy state))

/-- No command-specific advice. -/
def noRemedy {View : Type} (_ : View) : List String := []

/-- `write_document_atomically`. -/
def writeDocumentAtomically (document : Document toml) : Command toml Unit :=
  .perform fun world => world.replaceState document.dump

/-- `path.mkdir(parents=True, exist_ok=True)` for a path joined to the place `base`, when the system
takes its text. -/
def makeDirsAt (base : World toml.Text → Loc) (path : PosixPath) : Command toml Unit :=
  fun world =>
    Prog.mapFault Fault.os
      (World.dirStore.mkdirs (path.start (base world)) path.parts.reverse) world

/-- `path.mkdir(parents=True, exist_ok=True)` for a path joined to `working/`. -/
def makeDirs (path : PosixPath) : Command toml Unit :=
  if path.embedsNull then .raise .valueError
  else if path.tooDeep "working" then .raise (.os .nameTooLong)
  else makeDirsAt (fun world => workingLoc world.cwd) path

/-- What adding directories keeps, making a path keeps. -/
theorem always_makeDirsAt {inv : World toml.Text → Prop} {base : World toml.Text → Loc}
    {path : PosixPath} (keeps : ∀ world loc, inv world → inv (World.addDir world loc)) :
    Prog.Always inv (makeDirsAt base path : Command toml Unit) := fun world holds =>
  Prog.Always.mapFault (World.dirStore.always_mkdirs _ (fun world loc _ => keeps world loc) _) world
    holds

theorem makeDirs_taken {path : PosixPath} (taken : path.refused "working" = false) :
    (makeDirs path : Command toml Unit) = makeDirsAt (fun world => workingLoc world.cwd) path := by
  unfold PosixPath.refused at taken
  rw [Bool.or_eq_false_iff] at taken
  simp only [makeDirs, taken, Bool.false_eq_true, if_false]

theorem makeDirs_refused {path : PosixPath} (refused : path.refused "working" = true)
    (world : World toml.Text) :
    ∃ fault, (makeDirs path : Command toml Unit) world = ⟨[], .error fault⟩ := by
  unfold PosixPath.refused at refused
  unfold makeDirs
  cases null : path.embedsNull with
  | true => exact ⟨_, rfl⟩
  | false =>
      rw [null, Bool.false_or] at refused
      rw [refused]
      exact ⟨_, rfl⟩

/-- A refused path makes nothing. -/
theorem always_makeDirs {inv : World toml.Text → Prop} {path : PosixPath}
    (makes : Prog.Always inv (makeDirsAt (fun world => workingLoc world.cwd) path)) :
    Prog.Always inv (makeDirs path : Command toml Unit) := by
  unfold makeDirs
  split
  · exact Prog.Always.raise _
  · split
    · exact Prog.Always.raise _
    · exact makes

/-- What a single-file mutator has decided to do; its advice is given on a view of the state. -/
structure MutationPlan (View : Type) where
  edits : List Edit
  context : String
  remedy : View → List String
  outcome : CommandOutcome

/-- The single-file mutators: load, view, plan, edit, view, refuse or write. -/
def mutateView (plan : World toml.Text → Document toml → View → Except Fault (MutationPlan View)) :
    Command toml CommandOutcome := do
  let document ← loadDocumentOrStateError
  let prior ← stateViewOrStateError view document
  let planned ← Prog.observe fun world => plan world document prior
  let edited := document.editAll planned.edits
  let proposed ← stateViewOrStateError view edited
  Prog.observe fun _ => refuseIfIncoherent validate proposed planned.context planned.remedy
  writeDocumentAtomically edited
  return planned.outcome

/-- The single-file mutators on typed states. -/
def mutateState (plan : World toml.Text → State → Except Fault (MutationPlan State)) :
    Command toml CommandOutcome :=
  mutateView documentToState (spelledVerdict arith) fun world _ prior => plan world prior

/-- The plan of `set_cursor`; an integer that is assigned is spelled by the editor at once. -/
def cursorPlan {View : Type} (chapter scene beat : Int) : Except Fault (MutationPlan View) := do
  spelled [chapter, scene, beat]
  return {
    edits := [setDrafting "current_chapter" chapter, setDrafting "current_scene" scene,
      setDrafting "current_beat" beat]
    context := "set-cursor"
    remedy := noRemedy
    outcome := {
      code := .success
      result := [("current_chapter", .int chapter), ("current_scene", .int scene),
        ("current_beat", .int beat)]
      messages := ["cursor set to chapter=" ++ intText chapter ++ ", scene=" ++ intText scene ++
        ", beat=" ++ intText beat] } }

/-- `set_cursor`. -/
def setCursor (chapter scene beat : Int) : Command toml CommandOutcome :=
  mutateState arith fun _ _ => cursorPlan chapter scene beat

/-- `_successor_or_state_error`. -/
def successorOrStateError (current : Phase) : Except Fault Phase :=
  match Phase.order[current.index + 1]? with
  | some successor => .ok successor
  | none => .error (.stateInputError ["no phase after " ++ reprText current.value ++
      "; cannot advance from the terminal phase"])

/-- The plan of `advance_phase`, whose prior state is coherent. -/
def advancePlan {View : Type} (phase : PhaseState) (unplanned : Bool) :
    Except Fault (MutationPlan View) := do
  let successor ← successorOrStateError phase.current
  if successor = .drafting && unplanned then
    throw (.stateInputError
      ["advancing into drafting requires a populated chapter manifest"])
  return {
    edits := [setCompleted (phase.completed ++ [phase.current]), setCurrentPhase successor]
    context := "advance-phase"
    remedy := noRemedy
    outcome := {
      code := .success
      result := [("from", .str phase.current.value), ("to", .str successor.value)]
      messages := ["advanced phase from " ++ reprText phase.current.value ++ " to " ++
        reprText successor.value] } }

/-- `advance_phase`. -/
def advancePhase : Command toml CommandOutcome :=
  mutateState arith fun _ prior => do
    refuseIfIncoherent (spelledVerdict arith) prior "advance-phase from an incoherent state" noRemedy
    advancePlan prior.phase prior.chapters.isEmpty

end Contract

/-! ## The view of a world -/

section View

variable {toml : Tomlkit} {arith : RatioArithmetic}

/-- The text of `state.toml` reads as a state. -/
def Shows (world : World toml.Text) (state : State) : Prop :=
  ∃ text body, world.stateToml = some text ∧ toml.parse text = .ok body ∧
    parseState body = .ok state

/-- A world shows at most one state. -/
theorem Shows.unique {world : World toml.Text} {left right : State} (first : Shows world left)
    (second : Shows world right) : left = right := by
  obtain ⟨text, body, held, parsed, read⟩ := first
  obtain ⟨text', body', held', parsed', read'⟩ := second
  rw [held, Option.some.injEq] at held'
  subst held'
  rw [parsed, Except.ok.injEq] at parsed'
  subst parsed'
  rw [read, Except.ok.injEq] at read'
  exact read'

theorem Shows.held {world : World toml.Text} {state : State} (shows : Shows world state) :
    world.stateToml.isSome := by
  obtain ⟨text, -, held, -⟩ := shows
  rw [held]
  rfl

/-- An opened document whose view is a state: the world shows that state. -/
theorem openDocument_ok {world : World toml.Text} {document : Document toml}
    (opens : openDocument world = .ok document) :
    ∃ text, world.stateToml = some text ∧ toml.parse text = .ok document.body := by
  unfold openDocument at opens
  cases found : world.readState with
  | error fault => simp [found] at opens
  | ok text =>
      rw [found] at opens
      cases loaded : Document.load text with
      | error fault => simp [loaded] at opens
      | ok other =>
          simp only [loaded, Except.ok.injEq] at opens
          subst opens
          refine ⟨text, ?_, Document.load_ok loaded⟩
          unfold World.readState at found
          cases held : world.stateToml with
          | none =>
              rw [held] at found
              dsimp only at found
              split at found <;> cases found
          | some stored =>
              rw [held, Except.ok.injEq] at found
              rw [found]

/-- A world that shows a state opens as a document with that view. -/
theorem Shows.opens {world : World toml.Text} {state : State} (shows : Shows world state) :
    ∃ document, openDocument world = .ok document ∧ documentToState document = .ok state := by
  obtain ⟨text, body, held, parsed, read⟩ := shows
  obtain ⟨document, loaded, same⟩ := Document.load_of_parse parsed
  refine ⟨document, ?_, by rw [documentToState, same, read]⟩
  simp [openDocument, World.readState, held, loaded]

theorem shows_of_opens {world : World toml.Text} {document : Document toml} {state : State}
    (opens : openDocument world = .ok document) (view : documentToState document = .ok state) :
    Shows world state := by
  obtain ⟨text, held, parsed⟩ := openDocument_ok opens
  exact ⟨text, _, held, parsed, view⟩

/-- The state a world shows, if any. -/
def shown? (world : World toml.Text) : Option State :=
  (openDocument world >>= documentToState).toOption

theorem shown?_eq_some {world : World toml.Text} {state : State} :
    shown? world = some state ↔ Shows world state := by
  unfold shown?
  constructor
  · intro found
    cases read : (openDocument world >>= documentToState) with
    | error fault => simp [read, Except.toOption] at found
    | ok other =>
        simp only [read, Except.toOption, Option.some.injEq] at found
        subst found
        obtain ⟨document, opens, viewed⟩ := except_bind_eq_ok.mp read
        exact shows_of_opens opens viewed
  · intro shows
    obtain ⟨document, opens, viewed⟩ := shows.opens
    rw [except_bind_eq_ok.mpr ⟨document, opens, viewed⟩]
    rfl

/-- The replaced state file shows what was written. -/
theorem shows_withState {world : World toml.Text} (held : world.stateToml.isSome) {text : toml.Text}
    {body : Table} {state : State} (parsed : toml.parse text = .ok body)
    (read : parseState body = .ok state) : Shows (World.withState held text) state :=
  ⟨text, body, rfl, parsed, read⟩

/-- Opening and viewing the state file: a fault without effects, or the state it shows. -/
theorem opening_cases {α : Type} (rest : Document toml → State → Command toml α)
    (world : World toml.Text) :
    (∃ fault, (loadDocumentOrStateError >>= fun document =>
        stateViewOrStateError documentToState document >>= rest document) world =
          ⟨[], .error fault⟩) ∨
      ∃ document state, Shows world state ∧ documentToState document = .ok state ∧
        (loadDocumentOrStateError >>= fun document =>
          stateViewOrStateError documentToState document >>= rest document) world =
            rest document state world := by
  unfold loadDocumentOrStateError stateViewOrStateError
  cases loaded : guardStateInput (stateInputErrorAt world) (openDocument world) with
  | error fault => exact Or.inl ⟨fault, Prog.bind_error _ (by rw [Prog.observe_apply, loaded])⟩
  | ok document =>
      rw [Prog.bind_quiet _ (by rw [Prog.observe_apply, loaded])]
      cases viewed : guardStateInput (stateInputErrorAt world) (documentToState document) with
      | error fault => exact Or.inl ⟨fault, Prog.bind_error _ (by rw [Prog.observe_apply, viewed])⟩
      | ok state =>
          rw [Prog.bind_quiet _ (by rw [Prog.observe_apply, viewed])]
          rw [guardStateInput_eq_ok] at loaded viewed
          exact Or.inr ⟨document, state, shows_of_opens loaded viewed, viewed, rfl⟩

/-- In a world that shows a state, opening and viewing give that state. -/
theorem opening_of_shows {α : Type} {world : World toml.Text} {state : State}
    (shows : Shows world state) (rest : Document toml → State → Command toml α) :
    ∃ document, documentToState document = .ok state ∧
      (loadDocumentOrStateError >>= fun document =>
        stateViewOrStateError documentToState document >>= rest document) world =
          rest document state world := by
  obtain ⟨document, opens, viewed⟩ := shows.opens
  refine ⟨document, viewed, ?_⟩
  unfold loadDocumentOrStateError stateViewOrStateError
  rw [Prog.bind_quiet _ (by rw [Prog.observe_apply, opens, guardStateInput_ok])]
  exact Prog.bind_quiet _ (by rw [Prog.observe_apply, viewed, guardStateInput_ok])

/-- One world is another with its state file replaced. -/
def Rewrites (world next : World toml.Text) : Prop :=
  ∃ (held : world.stateToml.isSome) (text : toml.Text), next = World.withState held text

theorem Rewrites.disk {world next : World toml.Text} (rewrites : Rewrites world next) :
    next.disk = world.disk := by
  obtain ⟨held, text, rfl⟩ := rewrites
  exact World.disk_withState held text

theorem Rewrites.files {world next : World toml.Text} (rewrites : Rewrites world next) :
    next.files = world.files := by
  obtain ⟨held, text, rfl⟩ := rewrites
  rfl

theorem Rewrites.dirs {world next : World toml.Text} (rewrites : Rewrites world next) :
    next.dirs = world.dirs := by
  obtain ⟨held, text, rfl⟩ := rewrites
  rfl

end View

/-! ## What a single-file mutator can do -/

section Runs

variable {toml : Tomlkit} {arith : RatioArithmetic}
  {plan : World toml.Text → State → Except Fault (MutationPlan State)} {world : World toml.Text}

/-- A state passes the refusal exactly when it is coherent. -/
theorem refuseIfIncoherent_eq_ok {state : State} {context : String} {remedy : State → List String} :
    refuseIfIncoherent (spelledVerdict arith) state context remedy = .ok () ↔ Coherent arith state := by
  rw [← spelledVerdict_eq_nil]
  unfold refuseIfIncoherent
  cases verdict : spelledVerdict arith state with
  | error fault => simp [bind, Except.bind]
  | ok violations =>
      by_cases empty : violations = []
      · simp [empty, bind, Except.bind, pure, Except.pure]
      · simp [empty, bind, Except.bind, throw, throwThe, MonadExceptOf.throw]

/-- Either the run faults before any effect, or its one effect writes a coherent state. -/
theorem mutateState_cases :
    (∃ fault, mutateState arith plan world = ⟨[], .error fault⟩) ∨
      ∃ prior planned body proposed text, ∃ held : world.stateToml.isSome,
        Shows world prior ∧ plan world prior = .ok planned ∧ parseState body = .ok prior ∧
        parseState (planned.edits.foldl Table.edit body) = .ok proposed ∧
        Coherent arith proposed ∧
        toml.parse text = .ok (planned.edits.foldl Table.edit body) ∧
        mutateState arith plan world = ⟨[World.withState held text], .ok planned.outcome⟩ := by
  unfold mutateState mutateView
  rcases opening_cases _ world with ⟨fault, faults⟩ | ⟨document, prior, shows, viewed, opened⟩
  · exact Or.inl ⟨fault, faults⟩
  rw [opened]
  rcases Prog.observe_bind_cases world _ _ with ⟨fault, -, faults⟩ | ⟨planned, chosen, run⟩
  · exact Or.inl ⟨fault, faults⟩
  rw [run]
  rcases Prog.observe_bind_cases world _ _ with ⟨fault, -, faults⟩ | ⟨proposed, review, run⟩
  · exact Or.inl ⟨fault, faults⟩
  rw [stateViewOrStateError, run]
  rcases Prog.observe_bind_cases world _ _ with ⟨fault, -, faults⟩ | ⟨approved, verdict, run⟩
  · exact Or.inl ⟨fault, faults⟩
  rw [run]
  rw [guardStateInput_eq_ok, documentToState, Document.body_editAll] at review
  have edited := Document.parse_dump (document.editAll planned.edits)
  rw [Document.body_editAll] at edited
  refine Or.inr ⟨prior, planned, document.body, proposed, _, shows.held, shows, chosen, viewed,
    review, refuseIfIncoherent_eq_ok.mp verdict, edited, ?_⟩
  exact Prog.bind_ok _ (Prog.perform_ok _ (World.replaceState_of_held shows.held _))

/-- When every planned edit turns the prior view into a `step` of it, so does the run. -/
theorem mutateState_steps {step : State → State → Prop}
    (effect : ∀ prior planned body, plan world prior = .ok planned → parseState body = .ok prior →
      ∃ proposed, parseState (planned.edits.foldl Table.edit body) = .ok proposed ∧
        step prior proposed) :
    (∃ fault, mutateState arith plan world = ⟨[], .error fault⟩) ∨
      ∃ prior proposed next outcome, Shows world prior ∧ step prior proposed ∧
        Coherent arith proposed ∧ Rewrites world next ∧ Shows next proposed ∧
        mutateState arith plan world = ⟨[next], .ok outcome⟩ := by
  rcases @mutateState_cases toml arith plan world with
    refused | ⟨prior, planned, body, proposed, text, held, shows, chosen, read, reread, coherent,
      parsed, run⟩
  · exact Or.inl refused
  · obtain ⟨proposed', reread', stepped⟩ := effect prior planned body chosen read
    rw [reread, Except.ok.injEq] at reread'
    subst reread'
    exact Or.inr ⟨prior, proposed, _, _, shows, stepped, coherent, ⟨held, text, rfl⟩,
      shows_withState held parsed reread, run⟩

end Runs

end NovelRalph
