import NovelRalph.System.Frame
import NovelRalph.System.Journal
import NovelRalph.System.Lifecycle
import NovelRalph.System.TornChapters

/-!
# The records of torn turns

`reconcile` follows whatever record it finds in `[pending_turn]`. In a run from
`init` it only ever finds records the commands wrote themselves: the one of
`reconcile`, or the one of `set-chapters` with exactly the paths of the manifest
that is in force. The manifest is planned together with its record, and it is
frozen afterwards, so the two cannot drift apart.
-/

namespace NovelRalph

/-- The record an invocation brackets its effects with. -/
def Invocation.record : Invocation → Option PendingTurn
  | .setChapters chapters => some ⟨setChaptersOperation, declaredPaths (orderedChapters chapters)⟩
  | .reconcile => some reconcileRecord
  | _ => none

/-- The paths `set-chapters` declares for a manifest. -/
def manifestPaths (state : State) : List String :=
  "working/state.toml" :: state.numbers.map chapterPath

/-- The record is one the commands write for the manifest in force. -/
inductive OwnRecord (state : State) : Prop where
  | settled (none : state.pendingTurn = none)
  | reconcile (recorded : state.pendingTurn = some reconcileRecord)
  | setChapters (planned : WellPlanned state.chapters) (nonempty : state.chapters ≠ [])
      (recorded : state.pendingTurn = some ⟨setChaptersOperation, manifestPaths state⟩)

/-! ## The record key of a document -/

section Key

variable {before after : Table} {invocation : Invocation}

/-- A command without a record writes below other keys. -/
theorem Invocation.apart_of_unrecorded (unrecorded : invocation.record = none) {own : List String}
    (listed : own ∈ invocation.keyPaths) : Apart own ["pending_turn"] := by
  have outer : ∃ key rest, own = key :: rest ∧ key ≠ "pending_turn" := by
    cases invocation with
    | setChapters chapters => cases unrecorded
    | reconcile => cases unrecorded
    | _ =>
        simp only [keyPaths, KnittingGate.all, List.map_cons, List.map_nil, List.cons_append,
          List.nil_append, List.mem_cons, List.not_mem_nil, or_false] at listed
        rcases listed with rfl | rfl | rfl | rfl <;> exact ⟨_, _, rfl, by decide⟩
  obtain ⟨key, rest, rfl, differs⟩ := outer
  exact Apart.of_head differs rest []

/-- An edit a command owns spares the record, or clears it, or opens the command's own. -/
theorem Invocation.Owns.pending {change : Edit} (owns : invocation.Owns change) :
    Apart change.path ["pending_turn"] ∨ ∃ record, invocation.record = some record ∧
      (change = clearPendingTurn ∨ change = openPendingTurn record.operation record.paths) := by
  have counts : ∀ change, CountsEdit change → Apart change.path ["pending_turn"] := by
    intro change counts
    rcases counts.path with same | same <;> rw [same] <;> exact Apart.of_head (by decide) _ _
  cases invocation with
  | setChapters chapters =>
      rcases owns with rfl | rfl | rfl | rfl
      · exact Or.inl (Apart.of_head (by decide) _ _)
      · exact Or.inl (counts _ (Or.inr ⟨_, rfl⟩))
      · exact Or.inr ⟨_, rfl, Or.inr rfl⟩
      · exact Or.inr ⟨_, rfl, Or.inl rfl⟩
  | reconcile =>
      rcases owns with recounts | rfl | rfl
      · exact Or.inl (counts _ recounts)
      · exact Or.inr ⟨_, rfl, Or.inr rfl⟩
      · exact Or.inr ⟨_, rfl, Or.inl rfl⟩
  | _ => exact Or.inl (apart_of_unrecorded rfl owns.path)

/-- The value a record is written as. -/
def recordValue (record : PendingTurn) : Value :=
  .table [("operation", .str record.operation), ("paths", .array (record.paths.map .str))]

theorem pendingTurnRecord_recordValue (record : PendingTurn) :
    pendingTurnRecord (recordValue record) = .ok record := by
  have back := mapM_ok (asStr_str "paths") record.paths
  simp [recordValue, pendingTurnRecord, readArray, readStr, subscript, lookup_entry, back]

/-- The record key holds what it held, or the command's own record was opened or cleared. -/
def RecordKept (invocation : Invocation) (before after : Table) : Prop :=
  after.lookup "pending_turn" = before.lookup "pending_turn" ∨
    ∃ record, invocation.record = some record ∧ (after.lookup "pending_turn" = none ∨
      after.lookup "pending_turn" = some (recordValue record))

/-- A journal of one command leaves no other record. -/
theorem recordKept_of_journaled (journaled : Table.Journaled invocation.Owns before after) :
    RecordKept invocation before after := by
  have start : RecordKept invocation before before := Or.inl rfl
  refine journaled.keeps (fun change table owns held => ?_) start
  rcases owns.pending with apart | ⟨record, brackets, rfl | rfl⟩
  · have kept : (table.edit change).lookup "pending_turn" = table.lookup "pending_turn" :=
      Table.value?_edit apart table
    unfold RecordKept at held ⊢
    rwa [kept]
  · refine Or.inr ⟨record, brackets, Or.inl ?_⟩
    rw [clearPendingTurn, Table.edit, lookup_discard, if_pos rfl]
  · refine Or.inr ⟨record, brackets, Or.inr ?_⟩
    exact lookup_assign_self ..

end Key

/-! ## The record at a cut -/

section Cuts

variable {toml : Tomlkit} {arith : RatioArithmetic} {now : String} {world next : World toml.Text}
  {state later : State} {invocation : Invocation}

/-- At a cut the record is the one that was there, or the command's own was opened or cleared. -/
theorem pendingTurn_of_cut (shows : Shows world state)
    (cut : next ∈ (invocation.run arith now world).trail) (after : Shows next later) :
    later.pendingTurn = state.pendingTurn ∨ ∃ record, invocation.record = some record ∧
      (later.pendingTurn = none ∨ later.pendingTurn = some record) := by
  obtain ⟨before, stored, read⟩ := shows_iff_stored.mp shows
  obtain ⟨written, stored', journaled⟩ :=
    (journal_run invocation world (Journal.start stored)).1 next cut
  obtain ⟨written', stored'', read'⟩ := shows_iff_stored.mp after
  cases stored''.unique stored'
  have reads : ∀ {raw : Table} {state : State}, parseState raw = .ok state →
      pendingTurn? raw = .ok state.pendingTurn := fun parsed =>
    (parseState_eq_ok.mp parsed).2.2.2.2.2.2.2
  have earlier := reads read
  have present := reads read'
  rcases recordKept_of_journaled journaled with same | ⟨record, brackets, gone | opened⟩
  · left
    unfold pendingTurn? at earlier present
    rw [same, earlier, Except.ok.injEq] at present
    exact present.symm
  · refine Or.inr ⟨record, brackets, Or.inl ?_⟩
    unfold pendingTurn? at present
    rw [gone] at present
    exact (Except.ok.inj present).symm
  · refine Or.inr ⟨record, brackets, Or.inr ?_⟩
    unfold pendingTurn? at present
    rw [opened] at present
    simp only [pendingTurnRecord_recordValue] at present
    exact (Except.ok.inj present).symm

/-- A command that writes only `state.toml` once keeps the manifest. -/
theorem Mutates.chapters {prior next : State} (mutates : Mutates arith prior invocation next) :
    next.chapters = prior.chapters := by
  cases mutates <;> rfl

/-- The paths declared for a plan are those of the manifest it becomes. -/
theorem manifestPaths_planned (chapters : List ChapterPlanEntry) (pending : Option PendingTurn) :
    manifestPaths { state.planned chapters with pendingTurn := pending } =
      declaredPaths (orderedChapters chapters) := by
  rw [declaredPaths_eq, manifestPaths]
  refine congrArg (fun numbers => _ :: List.map chapterPath numbers) ?_
  show ((orderedChapters chapters).map ChapterPlanEntry.record).map ChapterEntry.number = _
  rw [List.map_map]
  rfl

/-- A record of the commands stays one at every cut. -/
theorem OwnRecord.of_cut (own : OwnRecord state) (shows : Shows world state)
    (cut : next ∈ (invocation.run arith now world).trail) (after : Shows next later) :
    OwnRecord later := by
  obtain ⟨later', after', effect⟩ := effect_of_cut shows cut
  cases after'.unique after
  have pending := pendingTurn_of_cut shows cut after
  cases effect with
  | mutated mutates coherent =>
      have kept := mutates.ownFieldsOnly.2
      have chapters := mutates.chapters
      cases own with
      | settled none => exact .settled (kept.trans none)
      | reconcile recorded => exact .reconcile (kept.trans recorded)
      | setChapters planned nonempty recorded =>
          refine .setChapters (chapters ▸ planned) (chapters ▸ nonempty) ?_
          rw [kept, recorded, manifestPaths, manifestPaths, State.numbers, State.numbers, chapters]
  | @planned chapters accepted record =>
      obtain ⟨nonempty, planned⟩ := wellPlanned_of_accepted accepted.accepted
      rcases pending with same | ⟨record', brackets, gone | opened⟩
      · cases own with
        | settled none => exact .settled (same.trans none)
        | reconcile recorded => exact .reconcile (same.trans recorded)
        | setChapters _ occupied _ => exact absurd accepted.empty occupied
      · exact .settled gone
      · cases brackets
        refine .setChapters planned nonempty (opened.trans ?_)
        rw [manifestPaths_planned]
  | recovered recovers =>
      have chapters : later.chapters = state.chapters := by
        cases recovers <;> rfl
      rcases pending with same | ⟨record, brackets, gone | opened⟩
      · cases own with
        | settled none => exact .settled (same.trans none)
        | reconcile recorded => exact .reconcile (same.trans recorded)
        | setChapters planned nonempty recorded =>
            refine .setChapters (chapters ▸ planned) (chapters ▸ nonempty) ?_
            rw [same, recorded, manifestPaths, manifestPaths, State.numbers, State.numbers, chapters]
      · exact .settled gone
      · cases brackets
        exact .reconcile opened

end Cuts

/-! ## The record over a run -/

section Runs

variable {toml : Tomlkit} {arith : RatioArithmetic} {world later : World toml.Text}

/-- Over a run the record stays one of the commands' own. -/
theorem Runs.ownRecord (run : Runs arith world later) (holds : Holds OwnRecord world) :
    Holds OwnRecord later := by
  induction run with
  | refl => exact holds
  | tail _ transition inductionHypothesis =>
      intro held
      cases transition with
      | edit place kept =>
          obtain ⟨state, shows, own⟩ := inductionHypothesis (by rwa [kept] at held)
          exact ⟨state, shows.of_eq kept, own⟩
      | invoke invocation now cut =>
          obtain ⟨state, shows⟩ := shows_of_cut cut
          obtain ⟨prior, shows', own⟩ := inductionHypothesis shows.held
          obtain ⟨after, shown, -⟩ := effect_of_cut shows' cut
          exact ⟨after, shown, own.of_cut shows' cut shown⟩

end Runs

end NovelRalph
