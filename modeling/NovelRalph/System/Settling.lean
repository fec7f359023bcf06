import NovelRalph.System.Reruns

/-!
# Repeating `reconcile`

With nothing else touching the tree, at most three runs of `reconcile` lead to
one that is idle, if none of them meets a step that goes wrong: a derivation
that raises, a directory that cannot be made, or a recount that the validator
refuses. Where counts have drifted, nothing is refused and the recount would be
incoherent, the runs alternate between recounting and clearing the record of the
recount, and never rest.
-/

namespace NovelRalph

section Settling

variable {toml : Tomlkit} {arith : RatioArithmetic} {clock : Nat → String}
  {world : World toml.Text} {state : State} {reconciliation : Reconciliation String}

/-- A run of `reconcile` starts here, derives `reconciliation`, and can carry it out. -/
structure Unhindered (arith : RatioArithmetic) (world : World toml.Text) (state : State)
    (reconciliation : Reconciliation String) : Prop where
  shows : Shows world state
  derives : deriveReconciliation state world.disk = .ok reconciliation
  /-- Where nothing is refused, the counts that are rewritten are coherent. -/
  counts : rewritesCounts reconciliation = true → refusal state world.disk = false →
    Coherent arith (state.counted world.disk)
  /-- The directories of a `set-chapters` turn can be made, and the log is none of them. -/
  dirs : completesSetChapters reconciliation = true →
    ∀ next, Stands world world.log.isSome state.recorded next →
      (createMissingChapterDirs reconciliation next).result = .ok () ∧
        LogOpen ((createMissingChapterDirs reconciliation next).final next)

/-- Nothing is refused, the counts have drifted, and recounting them would be incoherent. -/
structure Hindered (arith : RatioArithmetic) (world : World toml.Text) (state : State)
    (reconciliation : Reconciliation String) : Prop where
  shows : Shows world state
  opens : LogOpen world
  derives : deriveReconciliation state world.disk = .ok reconciliation
  agreed : refusal state world.disk = false
  stale : drift state world.disk = true
  incoherent : ¬ Coherent arith (state.counted world.disk)
  /-- No directory of a `set-chapters` turn is left to be made. -/
  made : completesSetChapters reconciliation = true → reconciliation.missingPaths = []

/-- A refusal under no record, or under one of another operation, is final. -/
theorem Rests.of_plain (opens : LogOpen world) (shows : Shows world state)
    (readable : Readable state world.disk)
    (plain : ∀ pending, state.pendingTurn = some pending → pending.operation ≠ setChaptersOperation)
    (noGap : ¬ CoverGap state world.disk) (refused : refusal state world.disk = true) :
    Rests arith clock world := by
  refine .of_refuse opens shows fun logged next stands => ?_
  have same := stands.sameManuscript
  refine derives_refusal (same.readable readable) plain (fun gap => noGap (same.coverGap.mp gap)) ?_
  rw [same.refusal, refused]

/-- Recounting closes the coverage gap of a drafting subset. -/
theorem noGap_counted (disk : Disk) : ¬ CoverGap (state.counted disk).settled disk := by
  rintro ⟨-, -, -, -, proper, uncovered⟩
  have inside : disk.onDisk ⊆ state.manifest :=
    (of_decide_eq_true (Bool.and_eq_true_iff.mp proper).1 : disk.onDisk ⊂ state.manifest).subset
  have covered : disk.onDisk.image padTwo \
      (disk.recountTable state.chapters).keys.toFinset = ∅ := by
    rw [Finset.sdiff_eq_empty_iff_subset]
    intro key member
    obtain ⟨number, onDisk, rfl⟩ := Finset.mem_image.mp member
    obtain ⟨chapter, listed, rfl⟩ := List.mem_map.mp (List.mem_toFinset.mp (inside onDisk))
    exact List.mem_toFinset.mpr (Disk.mem_keys_recountTable.mpr ⟨chapter, listed, rfl⟩)
  unfold draftedSubsetCoverViolation at uncovered
  change (if disk.onDisk.image padTwo \ (disk.recountTable state.chapters).keys.toFinset = ∅ then none
    else some _ : Option Violation).isSome = true at uncovered
  rw [if_pos covered] at uncovered
  cases uncovered

/-- Without a record, one run at most comes before an idle one. -/
theorem settles_settled (opens : LogOpen world) (shows : Shows world state)
    (readable : Readable state world.disk) (settled : state.pendingTurn = none)
    (coherent : refusal state world.disk = false → drift state world.disk = true →
      Coherent arith (state.counted world.disk)) : SettlesWithin arith clock 2 world := by
  have plain : ∀ pending, state.pendingTurn = some pending →
      pending.operation ≠ setChaptersOperation := by
    intro pending recorded
    rw [settled] at recorded
    cases recorded
  cases refused : refusal state world.disk with
  | false =>
      have calm : Calm state world := ⟨shows, readable, refused, opens⟩
      exact (calm.converges settled (coherent refused)).settles
  | true =>
      by_cases gap : CoverGap state world.disk
      swap
      · exact (Rests.of_plain opens shows readable plain gap refused).settles 1
      have derives := (deriveReconciliation_iff readable).mpr (.coverGap gap)
      refine SettlesWithin.after (Rests.settles ?_ 0)
      by_cases enacted : Coherent arith (state.counted world.disk)
      · -- The recount closes the gap, and the bijection break is refused from then on.
        have final := (Repairs.recount opens shows derives enacted : Repairs arith (clock 0) world
          state (state.counted world.disk)).final
        have same := final.sameManuscript
        refine .of_plain (final.logOpen opens) final.shows (same.readable (readable.congr rfl))
          (fun _ recorded => by cases recorded) (fun gap => ?_) (same.refusal.trans refused)
        exact noGap_counted world.disk (same.coverGap.mp gap)
      · -- The record that the refused recount leaves behind hides the gap.
        have final := (@stalls toml arith (clock 0) world state _ shows derives rfl enacted).2
        have same := final.sameManuscript
        refine .of_plain (final.logOpen opens) final.shows (same.readable (readable.congr rfl))
          (fun pending recorded => ?_) (fun gap => ?_) (same.refusal.trans refused)
        · cases recorded
          decide
        · cases gap.1

/-- A turn with no directories to make leaves two runs at most before an idle one. -/
theorem settles_turn (opens : LogOpen world) (shows : Shows world state)
    (derives : deriveReconciliation state world.disk = .ok reconciliation)
    (turn : reconciliation.action = .rollbackPendingTurn ∨
      reconciliation.action = .completePendingTurn)
    (made : completesSetChapters reconciliation = true → reconciliation.missingPaths = [])
    (agreed : refusal state world.disk = false)
    (coherent : rewritesCounts reconciliation = true → Coherent arith (state.counted world.disk))
    (later : Stands world true state.settled ((reconcile arith (clock 0) world).final world) →
      drift state world.disk = true → Coherent arith (state.counted world.disk)) :
    SettlesWithin arith clock 3 world := by
  have readable := readable_of_derive derives
  rcases @Repairs.turn_cases toml arith (clock 0) world state reconciliation opens shows derives turn
    made with cleared | ⟨rewrites, counts⟩
  · have final := cleared.final
    have calm := Calm.moved final (readable.congr rfl) agreed opens
    refine SettlesWithin.after (calm.converges rfl fun stale => ?_).settles
    have enacted := later final (final.sameManuscript.drift.symm.trans stale)
    unfold State.counted
    rw [final.sameManuscript.recountTable]
    exact coherent_withPending.mpr enacted
  · have final := (counts (coherent rewrites)).final
    have calm := Calm.moved final (readable.congr rfl) agreed opens
    have current : drift (state.counted world.disk).settled _ = false :=
      (final.sameManuscript.drift).trans (drift_counted state world.disk)
    exact SettlesWithin.after ((calm.rests rfl current final.log).settles 1)

/-- An unhindered run without a record can recount whatever has drifted. -/
theorem Unhindered.coherent (unhindered : Unhindered arith world state reconciliation)
    (settled : state.pendingTurn = none) (agreed : refusal state world.disk = false)
    (stale : drift state world.disk = true) : Coherent arith (state.counted world.disk) := by
  have derives := (deriveReconciliation_iff (readable_of_derive unhindered.derives)).mpr
    (.recount settled agreed stale)
  have same := derives.symm.trans unhindered.derives
  rw [Except.ok.injEq] at same
  exact unhindered.counts (by rw [← same]; rfl) agreed

/-- After an unhindered run without a record, the next one at the latest is idle. -/
theorem Unhindered.settles_settled (unhindered : Unhindered arith world state reconciliation)
    (opens : LogOpen world) (settled : state.pendingTurn = none) :
    SettlesWithin arith clock 2 world :=
  NovelRalph.settles_settled opens unhindered.shows (readable_of_derive unhindered.derives) settled
    (unhindered.coherent settled)

/-- Completing a `set-chapters` turn leaves two runs at most before an idle one. -/
theorem Unhindered.settles_completed (unhindered : Unhindered arith world state reconciliation)
    (completes : completesSetChapters reconciliation = true)
    (next : ∃ state reconciliation, Unhindered arith
      ((reconcile arith (clock 0) world).final world) state reconciliation) :
    SettlesWithin arith clock 3 world := by
  obtain ⟨shows, -, opens⟩ := reconcile_completes unhindered.shows unhindered.derives completes
    (unhindered.dirs completes)
  obtain ⟨other, later, free⟩ := next
  refine SettlesWithin.after (free.settles_settled opens ?_)
  rw [free.shows.unique shows]
  rfl

/-- A refusal which its own receipt does not lift is the first idle run; else a turn is completed. -/
theorem Unhindered.settles_refused {names : List InvariantName}
    (unhindered : Unhindered arith world state (refuseReconciliation names)) (opens : LogOpen world)
    (second : ∃ state reconciliation, Unhindered arith
      ((reconcile arith (clock 0) world).final world) state reconciliation)
    (third : ∃ state reconciliation, Unhindered arith (rerun arith clock 2 world) state reconciliation) :
    SettlesWithin arith clock 4 world := by
  obtain ⟨shows, derives, -, -⟩ := unhindered
  -- With the log there, the receipt changes nothing that the next run looks at.
  have steady : ∀ {next : World toml.Text} {others : List InvariantName}, LogOpen next →
      Shows next state → next.log.isSome = true →
      deriveReconciliation state next.disk = .ok (refuseReconciliation others) →
      ∀ clock, Rests arith clock next := by
    intro next others opens shows logged derives clock
    refine Rests.of_refuse opens shows fun later after stands => ⟨others, ?_⟩
    rw [stands.disk shows.held ((stands.kept logged).trans logged.symm)]
    exact derives
  cases logged : world.log.isSome with
  | true => exact (steady opens shows logged derives _).settles 3
  | false =>
      obtain ⟨-, final, -⟩ := @reconcile_refuses toml arith (clock 0) world state opens shows _ derives
      obtain ⟨other, later, free⟩ := second
      have again : other = state := free.shows.unique final.shows
      subst again
      have opens' := final.logOpen opens
      refine SettlesWithin.after ?_
      by_cases completes : completesSetChapters later = true
      · exact free.settles_completed completes third
      have derivation := (deriveReconciliation_iff (readable_of_derive derives)).mp derives
      have derivation' := (deriveReconciliation_iff (readable_of_derive free.derives)).mp free.derives
      obtain ⟨noGap, refused⟩ := derivation.refused rfl
      have same := final.sameManuscript
      obtain explained | others := derivation'.of_refusal (same.refusal.trans refused)
        (fun gap => noGap (same.coverGap.mp gap))
      · exact absurd (completesSetChapters_iff.mpr explained) completes
      · obtain ⟨others, rfl⟩ := others
        exact (steady opens' free.shows final.log free.derives _).settles 2

/-- Unhindered runs settle: the fourth one at the latest is idle. -/
theorem settles_of_unhindered (opens : LogOpen world)
    (free : ∀ runs < 4, ∃ state reconciliation,
      Unhindered arith (rerun arith clock runs world) state reconciliation) :
    SettlesWithin arith clock 4 world := by
  obtain ⟨state, reconciliation, first⟩ := free 0 (by decide)
  have second := free 1 (by decide)
  have third := free 2 (by decide)
  change Unhindered arith world state reconciliation at first
  change ∃ state reconciliation, Unhindered arith ((reconcile arith (clock 0) world).final world)
    state reconciliation at second
  have readable := readable_of_derive first.derives
  by_cases completes : completesSetChapters reconciliation = true
  · exact (first.settles_completed completes second).mono (by decide)
  cases recorded : state.pendingTurn with
  | none => exact (first.settles_settled opens recorded).mono (by decide)
  | some pending =>
      cases refused : refusal state world.disk with
      | true =>
          have derivation := (deriveReconciliation_iff readable).mp first.derives
          obtain explained | ⟨names, rfl⟩ := derivation.of_refusal refused (fun gap => by
            have settled := gap.1
            rw [recorded] at settled
            cases settled)
          · exact absurd (completesSetChapters_iff.mpr explained) completes
          · exact first.settles_refused opens second third
      | false =>
          have derivation := (deriveReconciliation_iff readable).mp first.derives
          refine (settles_turn opens first.shows first.derives
            (derivation.turn_of_agreed recorded refused) (fun done => absurd done completes) refused
            (fun rewrites => first.counts rewrites refused) fun final stale => ?_).mono (by decide)
          obtain ⟨other, later, free⟩ := second
          have cleared : other = state.settled := free.shows.unique final.shows
          subst cleared
          have enacted := free.coherent rfl (final.sameManuscript.refusal.trans refused)
            (final.sameManuscript.drift.trans stale)
          unfold State.counted at enacted
          rw [final.sameManuscript.recountTable] at enacted
          exact coherent_withPending.mp enacted

/-! ## Where the runs never rest -/

/-- The worlds between which hindered runs alternate: with the record, and without. -/
def Alternates (base : World toml.Text) (state : State) (world : World toml.Text) : Prop :=
  ∃ logged, Stands base logged state.recorded world ∨ Stands base logged state.settled world

/-- Neither action of the alternation is an idle one. -/
def Busy (action : Option ReconcileAction) : Prop :=
  action ≠ some .none ∧ action ≠ some .refuse

/-- A hindered run that starts with the record, or with none, ends with one or the other. -/
theorem Hindered.alternates (hindered : Hindered arith world state reconciliation)
    {now : String} {next : World toml.Text} (alternates : Alternates world state next) :
    Busy (actionAt next) ∧ Alternates world state ((reconcile arith now next).final next) := by
  have readable := readable_of_derive hindered.derives
  obtain ⟨logged, stands | stands⟩ := alternates
  · have calm := Calm.moved stands (readable.congr rfl) hindered.agreed hindered.opens
    obtain ⟨action, repairs⟩ := @Calm.closes toml arith now next state calm
    refine ⟨?_, true, Or.inr (stands.trans repairs.final)⟩
    rw [action]
    exact ⟨by decide, by decide⟩
  · have calm := Calm.moved stands (readable.congr rfl) hindered.agreed hindered.opens
    have same := stands.sameManuscript
    have stale : drift state.settled next.disk = true := same.drift.trans hindered.stale
    have derives := (deriveReconciliation_iff calm.readable).mpr (.recount rfl calm.agreed stale)
    have incoherent : ¬ Coherent arith (state.settled.counted next.disk) := by
      intro coherent
      unfold State.counted at coherent
      rw [same.recountTable] at coherent
      exact hindered.incoherent (coherent_withPending.mp coherent)
    have final := (@stalls toml arith now next _ _ stands.shows derives rfl incoherent).2
    refine ⟨?_, _, Or.inl (stands.trans final)⟩
    rw [actionAt_of_derive stands.shows derives]
    exact ⟨fun same => (by cases same), fun same => (by cases same)⟩

/-- The first hindered run is busy and enters the alternation. -/
theorem Hindered.enters (hindered : Hindered arith world state reconciliation) (now : String) :
    Busy (actionAt world) ∧ Alternates world state ((reconcile arith now world).final world) := by
  have derivation := (deriveReconciliation_iff (readable_of_derive hindered.derives)).mp
    hindered.derives
  cases recorded : state.pendingTurn with
  | none =>
      have stands : Stands world world.log.isSome state.settled world := by
        rw [State.settled_of_none recorded]
        exact Stands.refl hindered.shows
      exact hindered.alternates ⟨_, Or.inr stands⟩
  | some pending =>
      have turn := derivation.turn_of_agreed recorded hindered.agreed
      refine ⟨?_, ?_⟩
      · rw [actionAt_of_derive hindered.shows hindered.derives]
        rcases turn with action | action <;> rw [action] <;> exact ⟨by decide, by decide⟩
      · rcases @Repairs.turn_cases toml arith now world state reconciliation hindered.opens
          hindered.shows hindered.derives turn hindered.made with cleared | ⟨rewrites, -⟩
        · exact ⟨_, Or.inr cleared.final⟩
        · exact ⟨_, Or.inl (stalls hindered.shows hindered.derives rewrites hindered.incoherent).2⟩

/-- From a hindered run on, no run is idle. -/
theorem Hindered.busy (hindered : Hindered arith world state reconciliation) (runs : Nat) :
    Busy (actionAt (rerun arith clock runs world)) := by
  cases runs with
  | zero => exact (hindered.enters (clock 0)).1
  | succ runs =>
      rw [Nat.add_comm, rerun_add]
      have kept := @rerun_keeps toml arith (fun later => clock (1 + later))
        ((reconcile arith (clock 0) world).final world) (Alternates world state)
        (fun now next alternates => (hindered.alternates alternates).2)
        (hindered.enters (clock 0)).2 runs
      exact (@Hindered.alternates toml arith world state reconciliation hindered "" _ kept).1

/-- A sequence with a hindered run never rests. -/
theorem never_settles {runs : Nat}
    (hindered : Hindered arith (rerun arith clock runs world) state reconciliation) (bound : Nat) :
    ¬ SettlesWithin arith clock bound world := by
  rintro ⟨first, -, rests⟩
  have busy : Busy (actionAt (rerun arith (fun later => clock (runs + later)) first
      (rerun arith clock runs world))) := hindered.busy first
  rw [← rerun_add, Nat.add_comm, rerun_add] at busy
  have same := rests.action runs
  rw [same] at busy
  exact rests.idle.elim busy.1 busy.2

/-! ## Records of other operations -/

/-- Under a record of another operation than `set-chapters`, no directory is made. -/
theorem incomplete_of_plain
    (plain : ∀ pending, state.pendingTurn = some pending → pending.operation ≠ setChaptersOperation)
    (derives : deriveReconciliation state world.disk = .ok reconciliation) :
    completesSetChapters reconciliation = false := by
  rw [Bool.eq_false_iff, Ne, completesSetChapters_iff]
  rintro ⟨action, operation⟩
  cases derived_of_derive derives with
  | explained pending recorded same => exact plain pending recorded same
  | pendingTurn pending recorded =>
      rw [operation_classifyPendingTurn, Option.some.injEq] at operation
      exact plain pending recorded operation
  | _ => cases action

/-- Without a `set-chapters` record the runs settle exactly when a recount would be coherent. -/
theorem settles_iff_of_plain (opens : LogOpen world) (shows : Shows world state)
    (coherent : Coherent arith state)
    (plain : ∀ pending, state.pendingTurn = some pending →
      pending.operation ≠ setChaptersOperation) :
    SettlesWithin arith clock 4 world ↔
      (∃ reconciliation, deriveReconciliation state world.disk = .ok reconciliation) ∧
        (refusal state world.disk = false → Coherent arith (state.counted world.disk)) := by
  constructor
  · intro settles
    cases derives : deriveReconciliation state world.disk with
    | error fault =>
        obtain ⟨runs, -, rests⟩ := settles
        have idle := rests.idle
        rw [rerun_of_error shows derives runs, actionAt_of_error shows derives] at idle
        rcases idle with idle | idle <;> cases idle
    | ok reconciliation =>
        refine ⟨⟨reconciliation, rfl⟩, fun agreed => ?_⟩
        by_contra incoherent
        have stale : drift state world.disk = true := by
          by_contra current
          exact incoherent (coherent_counted coherent agreed (Bool.eq_false_iff.mpr current))
        have hindered : Hindered arith world state reconciliation :=
          ⟨shows, opens, derives, agreed, stale, incoherent, fun completes => by
            rw [incomplete_of_plain plain derives] at completes
            cases completes⟩
        exact @never_settles _ _ clock world state reconciliation 0 hindered 4 settles
  · rintro ⟨⟨reconciliation, derives⟩, counted⟩
    have readable := readable_of_derive derives
    cases recorded : state.pendingTurn with
    | none =>
        exact (settles_settled opens shows readable recorded fun agreed _ => counted agreed).mono
          (by decide)
    | some pending =>
        cases refused : refusal state world.disk with
        | true =>
            refine (Rests.of_plain opens shows readable plain (fun gap => ?_) refused).settles 3
            have settled := gap.1
            rw [recorded] at settled
            cases settled
        | false =>
            have derivation := (deriveReconciliation_iff readable).mp derives
            exact (settles_turn opens shows derives (derivation.turn_of_agreed recorded refused)
              (fun completes => by
                rw [incomplete_of_plain plain derives] at completes
                cases completes) refused (fun _ => counted refused)
              fun _ _ => counted refused).mono (by decide)

/-- Exactly when the repeated runs settle; with a `set-chapters` record, a condition on each run. -/
theorem reconcile_settles {toml : Tomlkit} (arith : RatioArithmetic) (clock : Nat → String)
    (world : World toml.Text) (state : State) (shows : Shows world state)
    (coherent : Coherent arith state)
    (regular : world.log.isSome ∨ world.layout (logLoc world.cwd) = none) :
    ((∀ pending, state.pendingTurn = some pending → pending.operation ≠ setChaptersOperation) →
      (SettlesWithin arith clock 4 world ↔
        (∃ reconciliation, deriveReconciliation state world.disk = .ok reconciliation) ∧
          (refusal state world.disk = false → Coherent arith (state.counted world.disk)))) ∧
    ((∀ runs < 4, ∃ state reconciliation,
        Unhindered arith (rerun arith clock runs world) state reconciliation) →
      SettlesWithin arith clock 4 world) ∧
    ((∃ runs state reconciliation,
        Hindered arith (rerun arith clock runs world) state reconciliation) →
      ¬ SettlesWithin arith clock 4 world) :=
  ⟨settles_iff_of_plain (LogOpen.of_regular regular) shows coherent,
    settles_of_unhindered (LogOpen.of_regular regular),
    fun ⟨_, _, _, hindered⟩ => never_settles hindered 4⟩

end Settling

/-! ## A recount that is never enacted, and a log that is -/

/-- In `crossedWorld` the draft has three words, the table none, and the gate stays false. -/
theorem hindered_crossed : ∃ reconciliation,
    Hindered .doubles crossedWorld crossedState reconciliation := by
  have readable : Readable crossedState crossedWorld.disk :=
    ⟨⟨readable_crossed, fun there => absurd there (by decide +kernel)⟩, by decide +kernel⟩
  have agreed : refusal crossedState crossedWorld.disk = false := by decide +kernel
  have stale : drift crossedState crossedWorld.disk = true := by decide +kernel
  refine ⟨_, shows_crossed, LogOpen.of_regular (Or.inl (by decide +kernel)),
    (deriveReconciliation_iff readable).mpr (.recount rfl agreed stale), agreed, stale, ?_,
    fun completes => by cases completes⟩
  intro coherent
  obtain ⟨detail, verdict⟩ := lagging_crossed.verdict
  rw [State.counted] at coherent
  rw [validateState_eq_nil.mpr coherent] at verdict
  cases verdict

/-- Reconciling `crossedWorld` again and again alternates two actions and never rests. -/
theorem crossed_never_settles :
    Shows crossedWorld crossedState ∧ Coherent .doubles crossedState ∧
      (∀ entry ∈ crossedState.chapters, crossedWorld.disk.DraftReadable entry.number) ∧
      crossedWorld.log.isSome = true ∧
      ∀ clock bound, ¬ SettlesWithin .doubles clock bound crossedWorld := by
  obtain ⟨reconciliation, hindered⟩ := hindered_crossed
  exact ⟨shows_crossed, coherent_crossed, readable_crossed, by decide +kernel, fun clock bound =>
    @never_settles _ _ clock _ _ _ 0 hindered bound⟩

/-- A fresh novel whose log was deleted. -/
def droppedWorld : World Tomlkit.structural.Text := (initialWorld 1000).dropLog

/-- What `droppedWorld` shows. -/
def droppedState : State := initialState "Title" "slug" 1000 "2024-01-01T00:00:00Z"

theorem shows_dropped : Shows droppedWorld droppedState := shown?_eq_some.mp (by decide +kernel)

theorem coherent_dropped : Coherent .exact droppedState := validateState_eq_nil.mp (by decide +kernel)

/-- All three parts of the theorem: a lost log, a fresh novel, and a recount that is refused. -/
theorem reconcile_settles_dropped :
    SettlesWithin .exact (fun _ => "") 4 droppedWorld ∧
      SettlesWithin .exact (fun _ => "") 4 (initialWorld 1000) ∧
      ¬ SettlesWithin .doubles (fun _ => "") 4 crossedWorld := by
  have recreates : deriveReconciliation droppedState droppedWorld.disk =
      .ok recreateLogReconciliation := by decide +kernel
  have shows : Shows (initialWorld 1000) droppedState := shown?_eq_some.mp (by decide +kernel)
  have idles : deriveReconciliation droppedState (initialWorld 1000).disk =
      .ok noReconciliation := by decide +kernel
  refine ⟨?_, ?_, ?_⟩
  · refine ((reconcile_settles .exact _ droppedWorld droppedState shows_dropped coherent_dropped
      (Or.inr (by decide +kernel))).1 (fun _ recorded => by cases recorded)).mpr
        ⟨⟨_, recreates⟩, fun _ => ?_⟩
    exact validateState_eq_nil.mp (by decide +kernel)
  · refine (reconcile_settles .exact _ (initialWorld 1000) droppedState shows coherent_dropped
      (Or.inl (by decide +kernel))).2.1 fun runs _ => ⟨droppedState, noReconciliation, ?_⟩
    rw [rerun_of_none shows idles]
    exact ⟨shows, idles, fun rewrites => (by cases rewrites), fun completes => (by cases completes)⟩
  · exact (reconcile_settles .doubles _ crossedWorld crossedState shows_crossed coherent_crossed
      (Or.inl (by decide +kernel))).2.2 ⟨0, crossedState, hindered_crossed⟩

end NovelRalph
