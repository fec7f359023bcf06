import NovelRalph.System.Runs
import NovelRalph.Untyped.Check
import NovelRalph.Untyped.Derivation
import NovelRalph.Untyped.Evaluable

/-!
# Which documents let a fault out of `check`

The load and the detector are guarded, the validator and the derivation are not.
So a document of any types ends in a verdict or a state-input error unless it is
parsed and then meets an unguarded operator that refuses it: in the validator
(`Evaluable`), or where the derivation reads a record (`RecordReadable`).
-/

namespace NovelRalph.Untyped

/-! ## The load -/

section Load

theorem caught_subscript (raw : Table) (key : String) :
    Confined Fault.Caught (subscript raw key) := by
  unfold subscript
  split
  · exact confined_ok
  · exact confined_error.mpr rfl

theorem caught_asTable (value : Value) : Confined Fault.Caught (asTable value) := by
  cases value with
  | table => exact confined_ok
  | _ => exact confined_error.mpr rfl

theorem caught_asPhase (value : Value) : Confined Fault.Caught (asPhase value) := by
  cases value with
  | str text =>
      unfold asPhase
      dsimp only
      split
      · exact confined_ok
      · exact confined_error.mpr rfl
  | _ => exact confined_error.mpr rfl

/-- A table read by a constructor that raises only what the guard translates. -/
theorem caught_readTable {α : Type} {build : Table → Except Fault α} (raw : Table) (key : String)
    (builds : ∀ table, Confined Fault.Caught (build table)) :
    Confined Fault.Caught (readTable raw key >>= build) := by
  apply Confined.bind
  · exact (caught_subscript raw key).bind fun value _ => caught_asTable value
  · intro table _
    exact builds table

theorem caught_novelMeta (raw : Table) : Confined Fault.Caught (novelMeta raw) :=
  (caught_subscript raw _).bind fun _ _ => (caught_subscript raw _).bind fun _ _ =>
    (caught_subscript raw _).bind fun _ _ => (caught_subscript raw _).bind fun _ _ => confined_ok

theorem caught_phaseState (raw : Table) : Confined Fault.Caught (phaseState raw) := by
  apply (caught_subscript raw _).bind
  intro completed _
  apply ((caught_subscript raw _).bind fun value _ => caught_asPhase value).bind
  intro current _
  apply Confined.bind
  · apply (caught_iterate completed).bind
    intro members _
    exact Confined.mapM fun member _ => caught_asPhase member
  · intro completed _
    exact confined_ok

theorem caught_chapterEntries (rawEntries : Value) :
    Confined Fault.Caught (chapterEntries rawEntries) := by
  apply (caught_iterate rawEntries).bind
  intro entries _
  apply Confined.mapM
  intro value _
  apply (caught_asTable value).bind
  intro entry _
  exact (caught_subscript entry _).bind fun _ _ => (caught_subscript entry _).bind fun _ _ =>
    (caught_subscript entry _).bind fun _ _ => (caught_subscript entry _).bind fun _ _ => confined_ok

theorem caught_findingCounts (raw : Table) : Confined Fault.Caught (findingCounts raw) :=
  (caught_subscript raw _).bind fun _ _ => (caught_subscript raw _).bind fun _ _ =>
    (caught_subscript raw _).bind fun _ _ => (caught_subscript raw _).bind fun _ _ => confined_ok

theorem caught_criticState (raw : Table) : Confined Fault.Caught (criticState raw) :=
  (caught_subscript raw _).bind fun _ _ => (caught_subscript raw _).bind fun _ _ =>
    (caught_subscript raw _).bind fun _ _ =>
      (caught_readTable raw _ caught_findingCounts).bind fun _ _ => confined_ok

theorem caught_draftingState (raw : Table) : Confined Fault.Caught (draftingState raw) :=
  (caught_subscript raw _).bind fun _ _ => (caught_subscript raw _).bind fun _ _ =>
    (caught_subscript raw _).bind fun _ _ =>
      (caught_readTable raw _ caught_criticState).bind fun _ _ =>
        (caught_readTable raw _ fun fangirl => caught_subscript fangirl _).bind fun _ _ => confined_ok

theorem caught_gatesState (raw : Table) : Confined Fault.Caught (gatesState raw) := by
  have flag : ∀ (value : Value) (key : String),
      Confined Fault.Caught (asTable value >>= fun table => subscript table key) := fun value key =>
    (caught_asTable value).bind fun table _ => caught_subscript table key
  exact (caught_subscript raw _).bind fun _ _ => (caught_subscript raw _).bind fun _ _ =>
    (flag _ _).bind fun _ _ => (flag _ _).bind fun _ _ => (flag _ _).bind fun _ _ =>
      (flag _ _).bind fun _ _ => confined_ok

theorem caught_wordCountsOf (interp : Interpreter) (raw : Table) :
    Confined Fault.Caught (wordCountsOf interp raw) :=
  (caught_subscript raw _).bind fun _ _ => (caught_subscript raw _).bind fun _ _ =>
    ((caught_subscript raw _).bind fun value _ => caught_dict value).bind fun _ _ => confined_ok

theorem caught_pendingTurnOf (raw : Value) : Confined Fault.Caught (pendingTurnOf raw) :=
  (caught_asTable raw).bind fun table _ => (caught_subscript table _).bind fun paths _ =>
    (caught_subscript table _).bind fun _ _ => (caught_iterate paths).bind fun _ _ => confined_ok

/-- What the parser raises, on any table, the guard of the load translates. -/
theorem caught_parseState (interp : Interpreter) (raw : Table) :
    Confined Fault.Caught (parseState interp raw) := by
  apply (caught_subscript raw _).bind
  intro schemaVersion _
  apply (caught_readTable raw _ caught_novelMeta).bind
  intro novel _
  apply (caught_readTable raw _ caught_phaseState).bind
  intro phase _
  apply Confined.bind
  · exact (caught_subscript raw _).bind fun value _ => caught_chapterEntries value
  intro chapters _
  apply (caught_readTable raw _ caught_draftingState).bind
  intro drafting _
  apply (caught_readTable raw _ caught_gatesState).bind
  intro gates _
  apply (caught_readTable raw _ (caught_wordCountsOf interp)).bind
  intro wordCounts _
  apply Confined.bind
  · unfold pendingTurn?
    split
    · exact confined_ok
    · next pending _ => exact confined_map.mpr (caught_pendingTurnOf pending)
  · intro pendingTurn _
    exact confined_ok

end Load

/-! ## What no guard translates -/

section Bare

variable {α : Type} {interp : Interpreter} {state : State} {disk : Disk}

/-- A fault that the runner has no exit code for. -/
def Bare (fault : Fault) : Prop := ¬fault.Handled

theorem bare_of_caught {outcome : Except Fault α} (caught : Confined Fault.Caught outcome) :
    Confined Bare outcome := caught.mono fun _ caught => caught.not_handled

/-- Outside a guard, what raises bare faults only is contained when it returns. -/
theorem contained_of_bare {outcome : Except Fault α} (bare : Confined Bare outcome) :
    Contained outcome ↔ ∃ value, outcome = .ok value := confined_iff_returns bare

theorem bare_sum (values : List Value) : Confined Bare (interp.sum values) := by
  unfold Interpreter.sum
  split
  · exact confined_error.mpr id
  · split
    · exact confined_ok
    · exact confined_error.mpr id

/-- A breach that spells what it found. -/
theorem bare_spell {build : String → Except Fault α} (value : Value)
    (builds : ∀ text, Confined Bare (build text)) :
    Confined Bare (interp.str value >>= build) :=
  (bare_of_caught (caught_str value)).bind fun text _ => builds text

theorem bare_withinRange (clean target : Value) : Confined Bare (withinRange interp clean target) := by
  apply (bare_of_caught (caught_lessEqual _ clean)).bind
  intro answer _
  split
  · exact bare_of_caught (caught_lessEqual clean target)
  · exact confined_ok

theorem bare_checkByChapterSum : Confined Bare (checkByChapterSum interp state) := by
  apply (bare_sum _).bind
  intro total _
  split
  · exact confined_ok
  · apply Confined.bind
    · cases total with
      | int number => exact bare_of_caught (caught_spellInt number)
      | float value => exact confined_ok
    · intro text _
      exact bare_spell _ fun _ => confined_ok

theorem bare_checkCursorCoherent : Confined Bare (checkCursorCoherent interp state) := by
  apply Confined.bind
  · apply (bare_withinRange _ _).bind
    intro within _
    split
    · apply (bare_of_caught (caught_lessEqual _ _)).bind
      intro answer _
      split
      · exact bare_of_caught (caught_lessEqual _ _)
      · exact confined_ok
    · exact confined_ok
  · intro bounded _
    split
    · exact confined_ok
    · exact bare_spell _ fun _ => bare_spell _ fun _ => bare_spell _ fun _ => confined_ok

theorem bare_checkGateRatioConsistent : Confined Bare (checkGateRatioConsistent interp state) := by
  apply (bare_of_caught (caught_lessEqual _ _)).bind
  intro settled _
  split
  · exact confined_ok
  apply (bare_sum _).bind
  intro total _
  split
  · exact confined_error.mpr id
  split
  · exact confined_error.mpr id
  apply Confined.bind
  · apply Confined.mapM
    intro gate _
    exact bare_spell _ fun _ => confined_ok
  · intro texts _
    split <;> exact confined_ok

/-- The validator raises nothing that the runner has an exit code for. -/
theorem bare_validateState : Confined Bare (validateState interp state) := by
  apply Confined.bind
  · apply Confined.mapM
    intro predicate listed
    simp only [purePredicates, List.mem_cons, List.not_mem_nil, or_false] at listed
    rcases listed with rfl | rfl | rfl | rfl | rfl | rfl | rfl | rfl
    · exact confined_ok
    · exact confined_ok
    · exact bare_checkByChapterSum
    · apply (bare_withinRange _ _).bind
      intro within _
      split
      · exact confined_ok
      · exact bare_spell _ fun _ => bare_spell _ fun _ => confined_ok
    · apply (bare_of_caught (caught_lessEqual _ _)).bind
      intro least _
      split
      · exact confined_ok
      · exact bare_spell _ fun _ => confined_ok
    · apply Confined.bind
      · apply Confined.bind
        · exact Confined.mapM fun words _ => bare_of_caught (caught_less _ words)
        · intro answers _
          exact confined_ok
      · intro drafted _
        apply (bare_of_caught (caught_lessEqual _ _)).bind
        intro within _
        split
        · exact confined_ok
        · exact bare_spell _ fun _ => confined_ok
    · exact bare_checkCursorCoherent
    · exact bare_checkGateRatioConsistent
  · intro found _
    exact confined_ok

theorem bare_missingDeclaredPaths (paths : List Value) :
    Confined Bare (missingDeclaredPaths paths disk) := by
  apply Confined.bind
  · apply Confined.mapM
    intro path _
    cases path with
    | str => exact confined_ok
    | _ => exact confined_error.mpr id
  · intro declared _
    exact confined_ok

theorem bare_explains (fired : List InvariantName) :
    Confined Bare (setChaptersTurnExplainsBijection interp state disk fired) := by
  unfold setChaptersTurnExplainsBijection
  split
  · exact confined_ok
  split
  · exact confined_ok
  split
  · exact confined_ok
  apply (bare_of_caught caught_onDiskChapterNumbers).bind
  intro onDisk _
  apply (bare_of_caught (caught_classifyBijection state.numbers onDisk)).bind
  intro broken _
  split
  · apply (bare_missingDeclaredPaths _).bind
    intro missing _
    apply (bare_of_caught (caught_declaredChapterNumbers missing)).bind
    intro declared _
    split <;> exact confined_ok
  · exact confined_ok

variable (reads : ∀ loc, Confined Fault.Caught (disk.read loc))

include reads

theorem bare_deriveRecount (names : List InvariantName) :
    Confined Bare (deriveRecount interp state disk names) :=
  (bare_of_caught (caught_recount reads state.chapters)).bind fun _ _ => confined_ok

theorem bare_gap (fired : List InvariantName) :
    Confined Bare (draftingSubsetCoverGap interp state disk fired) := by
  unfold draftingSubsetCoverGap
  split
  · exact confined_ok
  split
  · exact confined_ok
  apply (bare_of_caught (caught_setOf state.numbers)).bind
  intro manifest _
  apply (bare_of_caught caught_onDiskChapterNumbers).bind
  intro onDisk _
  apply (bare_of_caught (caught_properCoherentSubset manifest onDisk)).bind
  intro subset _
  split
  · split
    · exact confined_ok
    · exact (bare_of_caught (caught_coverDrafts reads state true)).bind fun _ _ => confined_ok
  · exact confined_ok

theorem bare_classifyFired (fired : List InvariantName) :
    Confined Bare (classifyFired interp state disk fired) := by
  unfold classifyFired
  apply Confined.bind
  · apply (bare_explains fired).bind
    intro explained _
    split
    · apply Confined.bind
      · exact (bare_missingDeclaredPaths _).bind fun _ _ => confined_ok
      · exact fun _ _ => confined_ok
    · apply (bare_gap reads fired).bind
      intro gap _
      split
      · exact (bare_deriveRecount reads _).bind fun _ _ => confined_ok
      · exact confined_ok
  · intro exception _
    split
    · exact confined_ok
    dsimp only
    split
    · exact confined_ok
    split
    · apply (bare_missingDeclaredPaths _).bind
      intro missing _
      exact (bare_of_caught (caught_repr _)).bind fun _ _ => confined_ok
    · split
      · exact bare_deriveRecount reads _
      · split <;> exact confined_ok

/-- Nor does the derivation. -/
theorem bare_deriveReconciliation : Confined Bare (deriveReconciliation interp state disk) :=
  (bare_of_caught (caught_detector reads state false)).bind fun _ _ => bare_classifyFired reads _

end Bare

/-! ## The command -/

section Command

variable {toml : Tomlkit} {interp : Interpreter} {world : World toml.Text} {state : State}

/-- The text of `state.toml` is parsed as this state. -/
def Reads (interp : Interpreter) (world : World toml.Text) (state : State) : Prop :=
  (do let document ← openDocument world; parseState interp document.body) = .ok state

theorem caught_openDocument (world : World toml.Text) :
    Confined Fault.Caught (openDocument world) := by
  intro fault raised
  unfold openDocument at raised
  split at raised
  · next other found =>
      cases raised
      unfold World.readState at found
      split at found
      · cases found
      · split at found <;> cases found <;> rfl
  · split at raised
    · cases raised
    · next other _ =>
        cases raised
        cases other <;> rfl

/-- A document that is not parsed ends `check` in a state-input error. -/
theorem contained_unread (unread : ∀ state, ¬Reads interp world state) :
    Contained (check interp world).result := by
  have loads : Confined Fault.Caught
      (do let document ← openDocument world; parseState interp document.body) :=
    (caught_openDocument world).bind fun document _ => caught_parseState interp document.body
  unfold check
  rw [Prog.result_bind_pure, Contained, confined_map]
  unfold checkReport loadOrStateError
  rw [Prog.result_observe_bind]
  have guarded : Contained (guardStateInput (stateInputErrorAt world) do
      let document ← openDocument world
      parseState interp document.body) := by
    unfold stateInputErrorAt
    split <;> exact contained_guard loads
  apply guarded.bind
  intro state loaded
  rw [guardStateInput_eq_ok] at loaded
  exact absurd loaded (unread state)

/-- On a document that is parsed, `check` is contained exactly when the validator can judge the
state and the derivation can read the record. -/
theorem contained_of_reads (reads : Reads interp world state) :
    Contained (check interp world).result ↔
      Evaluable interp state ∧ RecordReadable interp state world.disk := by
  have detects : Contained
      (guardStateInput draftReadError (checkDiskEvidence interp state world.disk true)) :=
    contained_guard (caught_detector caught_read state true)
  unfold check
  rw [Prog.result_bind_pure, Contained, confined_map]
  unfold checkReport loadOrStateError
  rw [Prog.result_observe_bind, guardStateInput_eq_ok.mpr reads]
  change Contained (((Prog.observe fun _ => validateState interp state) >>= _) world).result ↔ _
  rw [Prog.result_observe_bind]
  refine (confined_bind.trans (and_congr_left fun _ =>
    (contained_of_bare bare_validateState).trans validateState_returns)).trans ?_
  refine and_congr_right fun evaluable => ?_
  obtain ⟨verdict, validated⟩ := validateState_returns.mpr evaluable
  have derives : ∀ surveyed : Surveyed interp state world.disk,
      Contained (deriveReconciliation interp state world.disk) ↔
        RecordReadable interp state world.disk := fun surveyed =>
    (contained_of_bare (bare_deriveReconciliation caught_read)).trans (derive_returns surveyed)
  constructor
  · intro contained pending broken recorded surveyed unrefused classified
    obtain ⟨relaxed, detectedRelaxed⟩ := (detector_returns true).mpr surveyed
    have later := contained verdict validated
    rw [Prog.observe_bind_ok world (guardStateInput_eq_ok.mpr detectedRelaxed)] at later
    have fired : relaxed ≠ [] := by
      rintro rfl
      exact absurd (pending_reported detectedRelaxed recorded) List.not_mem_nil
    rw [if_neg fired, Prog.result_bind_pure, confined_map, Prog.observe_apply] at later
    exact (derives surveyed).mp later pending broken recorded surveyed unrefused classified
  · intro readable pureState _
    rw [Prog.result_observe_bind]
    apply detects.bind
    intro violations detected
    rw [guardStateInput_eq_ok] at detected
    by_cases silent : violations = []
    · rw [if_pos silent]
      exact confined_ok
    · rw [if_neg silent, Prog.result_bind_pure, confined_map, Prog.observe_apply]
      exact (derives ((detector_returns true).mp ⟨violations, detected⟩)).mpr readable

/-- Whatever `state.toml` decodes to, `check` lets no fault out exactly when what is parsed of it
can be judged and its record read. -/
theorem any_document_contained_iff : Contained (check interp world).result ↔
    ∀ state, Reads interp world state →
      Evaluable interp state ∧ RecordReadable interp state world.disk := by
  constructor
  · intro contained state reads
    exact (contained_of_reads reads).mp contained
  · intro kept
    by_cases read : ∃ state, Reads interp world state
    · obtain ⟨state, reads⟩ := read
      exact (contained_of_reads reads).mpr (kept state reads)
    · exact contained_unread (not_exists.mp read)

end Command

/-- A fresh novel whose target is written as a text. -/
def quotedTargetWorld : World Tomlkit.structural.Text :=
  (initialWorld 1000).putState (.ok (((initialEdits "Title" "slug" 1000 "2024-01-01T00:00:00Z") ++
    [Edit.set ["word_counts", "target"] (.str "1000")]).foldl Table.edit []))

/-- The validator compares the text with a number, outside every guard. -/
theorem quoted_target_escapes :
    ¬∀ (interp : Interpreter) (world : World Tomlkit.structural.Text),
      Contained (check interp world).result := by
  intro contained
  let interp := Interpreter.exact (fun _ => none) fun _ => ⟨.date, 0⟩
  have raised : (check interp quotedTargetWorld).result = .error .typeError :=
    raised?_eq_some.mp (by decide +kernel)
  exact contained interp quotedTargetWorld _ raised

end NovelRalph.Untyped
