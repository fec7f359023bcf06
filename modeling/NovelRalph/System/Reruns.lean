import NovelRalph.System.Rounds

/-!
# Running `reconcile` again and again

`rerun` is a number of uninterrupted runs of `reconcile` with nothing else
touching the tree, and `Rests` a world in which further runs change neither the
action nor anything but the log. A world at rest derives no action or a refusal.

A tree without a refusal is calm. On it `reconcile` closes its own record, then
recounts if the counts have drifted, and rests; a recount that would be
incoherent instead writes the record that the next run closes, for ever.
-/

namespace NovelRalph

section Reruns

variable {toml : Tomlkit}

/-- The action `reconcile` derives in a world, if it derives one. -/
def actionAt (world : World toml.Text) : Option ReconcileAction := do
  let state ← shown? world
  let reconciliation ← (deriveReconciliation state world.disk).toOption
  return reconciliation.action

/-- The world after a number of uninterrupted runs of `reconcile`, by the given clock. -/
def rerun (arith : RatioArithmetic) (clock : Nat → String) :
    Nat → World toml.Text → World toml.Text
  | 0, world => world
  | runs + 1, world =>
      let before := rerun arith clock runs world
      (reconcile arith (clock runs) before).final before

/-- Idle: every further run returns the same action and leaves the state and directories alone. -/
structure Rests (arith : RatioArithmetic) (clock : Nat → String) (world : World toml.Text) : Prop where
  idle : actionAt world = some .none ∨ actionAt world = some .refuse
  returns : ∀ runs, ∃ outcome,
    (reconcile arith (clock runs) (rerun arith clock runs world)).result = .ok outcome
  action : ∀ runs, actionAt (rerun arith clock runs world) = actionAt world
  stateToml : ∀ runs, (rerun arith clock runs world).stateToml = world.stateToml
  dirs : ∀ runs, (rerun arith clock runs world).dirs = world.dirs

/-- Fewer runs than the bound reach a world at rest. -/
def SettlesWithin (arith : RatioArithmetic) (clock : Nat → String) (bound : Nat)
    (world : World toml.Text) : Prop :=
  ∃ runs < bound, Rests arith (fun later => clock (runs + later)) (rerun arith clock runs world)

variable {arith : RatioArithmetic} {clock : Nat → String} {world : World toml.Text} {state : State}

theorem actionAt_of_derive {reconciliation : Reconciliation String} (shows : Shows world state)
    (derives : deriveReconciliation state world.disk = .ok reconciliation) :
    actionAt world = some reconciliation.action := by
  unfold actionAt
  rw [shown?_eq_some.mpr shows]
  simp [derives, Except.toOption]

theorem rerun_add (runs more : Nat) :
    rerun arith clock (runs + more) world =
      rerun arith (fun later => clock (runs + later)) more (rerun arith clock runs world) := by
  induction more with
  | zero => rfl
  | succ more inductionHypothesis =>
      rw [← Nat.add_assoc, rerun, inductionHypothesis]
      rfl

/-- What every run keeps, any number of runs keeps. -/
theorem rerun_keeps {inv : World toml.Text → Prop}
    (step : ∀ now world, inv world → inv ((reconcile arith now world).final world))
    (holds : inv world) (runs : Nat) : inv (rerun arith clock runs world) := by
  induction runs with
  | zero => exact holds
  | succ runs inductionHypothesis => exact step _ _ inductionHypothesis

/-- Where nothing can be derived, nothing is ever done. -/
theorem rerun_of_error {fault : Fault} (shows : Shows world state)
    (fails : deriveReconciliation state world.disk = .error fault) (runs : Nat) :
    rerun arith clock runs world = world := by
  refine @rerun_keeps toml arith clock world (fun next => next = world) ?_ rfl runs
  rintro now next rfl
  have run : reconcile arith now next = ⟨[], .error fault⟩ := by
    rw [reconcile_run shows]
    exact Prog.bind_error _ (by rw [Prog.observe_apply, fails])
  rw [run]
  rfl

theorem actionAt_of_error {fault : Fault} (shows : Shows world state)
    (fails : deriveReconciliation state world.disk = .error fault) : actionAt world = none := by
  unfold actionAt
  rw [shown?_eq_some.mpr shows]
  simp [fails, Except.toOption]

/-- A world at rest is reached without a run. -/
theorem Rests.settles (rests : Rests arith clock world) (bound : Nat) :
    SettlesWithin arith clock (bound + 1) world := by
  refine ⟨0, Nat.succ_pos bound, ?_⟩
  have same : (fun later => clock (0 + later)) = clock := by
    funext later
    rw [Nat.zero_add]
  rw [same]
  exact rests

/-- One run more. -/
theorem SettlesWithin.after {bound : Nat}
    (settles : SettlesWithin arith (fun later => clock (1 + later)) bound
      ((reconcile arith (clock 0) world).final world)) :
    SettlesWithin arith clock (bound + 1) world := by
  obtain ⟨runs, below, rests⟩ := settles
  refine ⟨1 + runs, by omega, ?_⟩
  rw [rerun_add]
  have clocks : (fun later => clock (1 + (runs + later))) = fun later => clock (1 + runs + later) := by
    funext later
    rw [Nat.add_assoc]
  rw [← clocks]
  exact rests

theorem SettlesWithin.mono {bound larger : Nat} (settles : SettlesWithin arith clock bound world)
    (within : bound ≤ larger) : SettlesWithin arith clock larger world := by
  obtain ⟨runs, below, rests⟩ := settles
  exact ⟨runs, by omega, rests⟩

/-- Runs with nothing to reconcile change nothing. -/
theorem rerun_of_none (shows : Shows world state)
    (derives : deriveReconciliation state world.disk = .ok noReconciliation) (runs : Nat) :
    rerun arith clock runs world = world := by
  refine @rerun_keeps toml arith clock world (fun next => next = world) ?_ rfl runs
  rintro now next rfl
  rw [reconcile_idle shows derives]
  rfl

/-- Fewer runs than the bound lead to rest on the same tree, none of them a refusal. -/
def Converges (arith : RatioArithmetic) (clock : Nat → String) (bound : Nat) (world : World toml.Text)
    (ends : State → Prop) : Prop :=
  ∃ runs < bound, ∃ logged final,
    Rests arith (fun later => clock (runs + later)) (rerun arith clock runs world) ∧
    (∀ earlier < runs, actionAt (rerun arith clock earlier world) ≠ some .refuse) ∧
    Stands world logged final (rerun arith clock runs world) ∧ ends final

variable {ends : State → Prop}

theorem Converges.settles {bound : Nat} (converges : Converges arith clock bound world ends) :
    SettlesWithin arith clock bound world := by
  obtain ⟨runs, below, -, -, rests, -⟩ := converges
  exact ⟨runs, below, rests⟩

theorem Converges.imp {bound : Nat} {ends' : State → Prop}
    (converges : Converges arith clock bound world ends) (implies : ∀ final, ends final → ends' final) :
    Converges arith clock bound world ends' := by
  obtain ⟨runs, below, logged, final, rests, calm, standing, ending⟩ := converges
  exact ⟨runs, below, logged, final, rests, calm, standing, implies final ending⟩

theorem Rests.converges (rests : Rests arith clock world) (shows : Shows world state)
    (ending : ends state) (bound : Nat) : Converges arith clock (bound + 1) world ends := by
  have same : (fun later => clock (0 + later)) = clock := by
    funext later
    rw [Nat.zero_add]
  refine ⟨0, Nat.succ_pos bound, _, state, ?_, fun _ below => absurd below (Nat.not_lt_zero _),
    Stands.refl shows, ending⟩
  rw [same]
  exact rests

/-- One run more, that leaves the tree standing and is no refusal. -/
theorem Converges.after {bound : Nat} {logged : Bool} {next : State}
    (busy : actionAt world ≠ some .refuse)
    (stands : Stands world logged next ((reconcile arith (clock 0) world).final world))
    (converges : Converges arith (fun later => clock (1 + later)) bound
      ((reconcile arith (clock 0) world).final world) ends) :
    Converges arith clock (bound + 1) world ends := by
  obtain ⟨runs, below, later, final, rests, calm, standing, ending⟩ := converges
  have moved : ∀ runs, rerun arith clock (1 + runs) world =
      rerun arith (fun later => clock (1 + later)) runs
        ((reconcile arith (clock 0) world).final world) := fun runs => rerun_add 1 runs
  refine ⟨1 + runs, by omega, later, final, ?_, fun earlier before => ?_, ?_, ending⟩
  · have clocks : (fun later => clock (1 + (runs + later))) = fun later => clock (1 + runs + later) := by
      funext later
      rw [Nat.add_assoc]
    rw [moved, ← clocks]
    exact rests
  · cases earlier with
    | zero => exact busy
    | succ earlier =>
        rw [Nat.add_comm earlier, moved]
        exact calm earlier (by omega)
  · rw [moved]
    exact stands.trans standing

/-- A world with nothing to reconcile is at rest. -/
theorem Rests.of_none (shows : Shows world state)
    (derives : deriveReconciliation state world.disk = .ok noReconciliation) :
    Rests arith clock world where
  idle := Or.inl (actionAt_of_derive shows derives)
  returns runs := by
    rw [rerun_of_none shows derives runs, reconcile_idle shows derives]
    exact ⟨_, rfl⟩
  action runs := by rw [rerun_of_none shows derives runs]
  stateToml runs := by rw [rerun_of_none shows derives runs]
  dirs runs := by rw [rerun_of_none shows derives runs]

/-- A world whose refusal does not hang on the log is at rest. -/
theorem Rests.of_refuse (opens : LogOpen world) (shows : Shows world state)
    (steady : ∀ logged next, Stands world logged state next →
      ∃ names, deriveReconciliation state next.disk = .ok (refuseReconciliation names)) :
    Rests arith clock world := by
  have refuses : ∀ logged next, Stands world logged state next → actionAt next = some .refuse := by
    intro logged next stands
    obtain ⟨names, derives⟩ := steady logged next stands
    exact actionAt_of_derive stands.shows derives
  have kept : ∀ runs, (∃ logged, Stands world logged state (rerun arith clock runs world)) ∧
      (rerun arith clock runs world).stateToml = world.stateToml := by
    intro runs
    refine @rerun_keeps toml arith clock world (fun next =>
      (∃ logged, Stands world logged state next) ∧ next.stateToml = world.stateToml) ?_
      ⟨⟨_, Stands.refl shows⟩, rfl⟩ runs
    rintro now next ⟨⟨logged, stands⟩, same⟩
    obtain ⟨names, derives⟩ := steady logged next stands
    obtain ⟨-, after, kept⟩ := reconcile_refuses (stands.logOpen opens) stands.shows derives
    exact ⟨⟨true, stands.trans after⟩, kept.trans same⟩
  have here := refuses _ world (Stands.refl shows)
  refine ⟨Or.inr here, fun runs => ?_, fun runs => ?_, fun runs => (kept runs).2, fun runs => ?_⟩
  · obtain ⟨⟨logged, stands⟩, -⟩ := kept runs
    obtain ⟨names, derives⟩ := steady logged _ stands
    exact (reconcile_refuses (stands.logOpen opens) stands.shows derives).1
  · obtain ⟨⟨logged, stands⟩, -⟩ := kept runs
    rw [here]
    exact refuses logged _ stands
  · obtain ⟨⟨logged, stands⟩, -⟩ := kept runs
    exact stands.dirs

end Reruns

/-! ## Calm trees -/

section Calm

variable {toml : Tomlkit} {arith : RatioArithmetic} {now : String} {clock : Nat → String}
  {world next : World toml.Text} {state after : State} {logged : Bool}

/-- A readable tree without a refusal, and a log that can be opened. -/
structure Calm (state : State) (world : World toml.Text) : Prop where
  shows : Shows world state
  readable : Readable state world.disk
  agreed : refusal state world.disk = false
  opens : LogOpen world

/-- Calm is what the tree is, whatever record and counts the state file shows on it. -/
theorem Calm.moved (stands : Stands world logged state next) (readable : Readable state world.disk)
    (agreed : refusal state world.disk = false) (opens : LogOpen world) : Calm state next where
  shows := stands.shows
  readable := stands.sameManuscript.readable readable
  agreed := by rw [stands.sameManuscript.refusal, agreed]
  opens := stands.logOpen opens

/-- The record, and the counts, are no part of what makes a tree readable. -/
theorem Readable.congr {disk : Disk} (readable : Readable state disk)
    (chapters : after.chapters = state.chapters) : Readable after disk where
  drafts := by rw [chapters]; exact readable.drafts
  compiled := readable.compiled
  names := readable.names

/-- A state with the counts of the drafts has not drifted from them. -/
theorem drift_counted (state : State) (disk : Disk) : drift (state.counted disk) disk = false := by
  have stale : countsStale (state.counted disk) disk = false := by
    unfold countsStale sharedKeysAgree
    rw [Bool.not_eq_false', List.all_eq_true]
    intro key member
    have table : (state.counted disk).wordCounts.byChapter = disk.recountTable state.chapters := rfl
    have manifest : (state.counted disk).chapters = state.chapters := rfl
    rw [table, manifest]
    cases (disk.recountTable state.chapters).get? key <;> simp
  have covered : coverageBroken (state.counted disk) disk false = false := by
    unfold coverageBroken
    split
    · show (coverageBreak (disk.recountTable state.chapters)
        (disk.recountTable state.chapters)).isSome = false
      simp [coverageBreak]
    · rfl
  unfold drift
  rw [stale, covered]
  rfl

/-- At bijection, a table that has not drifted holds the counts of the drafts. -/
theorem table_of_current {disk : Disk} (agreed : refusal state disk = false)
    (current : drift state disk = false) (key : String) :
    state.wordCounts.byChapter.get? key = (disk.recountTable state.chapters).get? key := by
  unfold refusal at agreed
  unfold drift at current
  rw [Bool.or_eq_false_iff] at agreed current
  have whole : (classifyBijection state.manifest disk.onDisk).isBijection = true := by
    simpa [bijectionBroken] using agreed.1
  have covered := current.2
  unfold coverageBroken at covered
  rw [if_pos (isBijection_iff.mp whole).2] at covered
  have keys : state.wordCounts.byChapter.keys.toFinset =
      (disk.recountTable state.chapters).keys.toFinset := by
    have subsets : (disk.recountTable state.chapters).keys.toFinset ⊆
          state.wordCounts.byChapter.keys.toFinset ∧
        state.wordCounts.byChapter.keys.toFinset ⊆
          (disk.recountTable state.chapters).keys.toFinset := by
      simpa [coverageBreak] using covered
    exact Finset.Subset.antisymm subsets.2 subsets.1
  have same : key ∈ state.wordCounts.byChapter.keys ↔
      key ∈ (disk.recountTable state.chapters).keys := by
    rw [← List.mem_toFinset, keys, List.mem_toFinset]
  by_cases there : key ∈ (disk.recountTable state.chapters).keys
  · have shared : sharedKeysAgree (disk.recountTable state.chapters)
        state.wordCounts.byChapter = true := by simpa [countsStale] using current.1
    obtain ⟨recorded, found⟩ := Option.isSome_iff_exists.mp (Dict.mem_keys_iff.mp (same.mpr there))
    have agree := List.all_eq_true.mp shared key there
    rw [found] at agree
    rw [found, beq_iff_eq.mp agree]
  · rw [Dict.not_mem_keys_iff.mp there, Dict.not_mem_keys_iff.mp fun member => there (same.mp member)]

/-- Recounting a coherent state that has not drifted leaves it coherent. -/
theorem coherent_counted {disk : Disk} (coherent : Coherent arith state)
    (agreed : refusal state disk = false) (current : drift state disk = false) :
    Coherent arith (state.counted disk) := by
  have same := table_of_current agreed current
  have total : (state.counted disk).wordCounts.draftedTotal = state.wordCounts.draftedTotal :=
    (Dict.sum_values_eq same).symm
  have drafted : (state.counted disk).wordCounts.draftedChapters =
      state.wordCounts.draftedChapters :=
    (((Dict.perm_of_get? same).map Prod.snd).countP_eq _).symm
  refine ⟨coherent.completed, rfl, coherent.clean_nonneg, coherent.clean_le_target,
    coherent.target_pos, ?_, coherent.cursor, fun positive => ?_⟩
  · rw [drafted]
    exact coherent.clean_le_drafted
  · rw [total]
    exact coherent.gates positive

/-- On a calm tree the record of `reconcile` is closed. -/
theorem Calm.closes (calm : Calm state.recorded world) :
    actionAt world = some .completePendingTurn ∧
      Repairs arith now world state.recorded state.recorded := by
  have derives := (deriveReconciliation_iff calm.readable).mpr
    (.pendingTurn reconcileRecord rfl calm.agreed)
  have missing := missing_reconcilePaths calm.shows.held
  have form : ∃ r, classifyPendingTurn world.disk reconcileRecord
      [InvariantName.pendingTurnCleared] = r ∧ r.action = .completePendingTurn ∧
      completesSetChapters r = false ∧ writesState r = false := by
    refine ⟨_, rfl, ?_⟩
    unfold classifyPendingTurn tornTurn
    rw [reconcileRecord, missing]
    split <;> decide +kernel
  obtain ⟨r, same, action, incomplete, kept⟩ := form
  rw [same] at derives
  refine ⟨?_, Repairs.clears calm.opens calm.shows derives (Or.inr action) (fun completes => ?_) kept⟩
  · rw [actionAt_of_derive calm.shows derives, action]
  · rw [incomplete] at completes
    cases completes

/-- A calm tree without record or drift is at rest once its log is there. -/
theorem Calm.rests (calm : Calm state world) (settled : state.pendingTurn = none)
    (current : drift state world.disk = false) (present : world.log.isSome = true) :
    Rests arith clock world := by
  have there := (Stands.refl calm.shows).logFile calm.opens
  rw [present] at there
  exact .of_none calm.shows ((deriveReconciliation_iff calm.readable).mpr
    (.none settled calm.agreed current there))

/-- A calm tree without record or drift gets its log back. -/
theorem Calm.recreates (calm : Calm state world) (settled : state.pendingTurn = none)
    (current : drift state world.disk = false) (absent : world.log.isSome = false) :
    actionAt world = some .recreateLog ∧ Repairs arith now world state state := by
  have missing := (Stands.refl calm.shows).logFile calm.opens
  rw [absent] at missing
  have derives := (deriveReconciliation_iff calm.readable).mpr
    (.recreateLog settled calm.agreed current missing)
  exact ⟨actionAt_of_derive calm.shows derives,
    Repairs.recreateLog calm.opens calm.shows settled derives⟩

/-- On a calm tree drifted counts are recounted, if the result is coherent. -/
theorem Calm.recounts (calm : Calm state world) (settled : state.pendingTurn = none)
    (stale : drift state world.disk = true) (coherent : Coherent arith (state.counted world.disk)) :
    actionAt world = some .recount ∧ Repairs arith now world state (state.counted world.disk) := by
  have derives := (deriveReconciliation_iff calm.readable).mpr (.recount settled calm.agreed stale)
  exact ⟨actionAt_of_derive calm.shows derives,
    Repairs.recount calm.opens calm.shows derives coherent⟩

/-- The end of the runs on a calm tree: the state as it was if it had not drifted, or recounted. -/
def Ends (disk : Disk) (state final : State) : Prop :=
  final = state.settled ∧ drift state disk = false ∨ final = (state.counted disk).settled

/-- A calm tree without a record rests after one run, if recounting drifted counts is coherent. -/
theorem Calm.converges (calm : Calm state world) (settled : state.pendingTurn = none)
    (coherent : drift state world.disk = true → Coherent arith (state.counted world.disk)) :
    Converges arith clock 2 world (Ends world.disk state) := by
  cases stale : drift state world.disk with
  | true =>
      obtain ⟨action, repairs⟩ := (calm.recounts settled stale (coherent stale) :
        _ ∧ Repairs arith (clock 0) world state (state.counted world.disk))
      have final := repairs.final
      have calm' := Calm.moved final (calm.readable.congr rfl) calm.agreed calm.opens
      have current : drift (state.counted world.disk).settled _ = false :=
        (final.sameManuscript.drift).trans (drift_counted state world.disk)
      refine Converges.after (fun refused => ?_) final
        (Rests.converges (calm'.rests rfl current final.log) final.shows (Or.inr rfl) 0)
      rw [action] at refused
      cases refused
  | false =>
      have same := State.settled_of_none settled
      cases logged : world.log.isSome with
      | true =>
          exact (calm.rests settled stale logged).converges calm.shows (Or.inl ⟨same.symm, stale⟩) 1
      | false =>
          obtain ⟨action, repairs⟩ := (calm.recreates settled stale logged :
            _ ∧ Repairs arith (clock 0) world state state)
          have final := repairs.final
          rw [same] at final
          have calm' := Calm.moved final calm.readable calm.agreed calm.opens
          have current := final.sameManuscript.drift.trans stale
          refine Converges.after (fun refused => ?_) final (Rests.converges
            (calm'.rests settled current final.log) final.shows (Or.inl ⟨same.symm, stale⟩) 0)
          rw [action] at refused
          cases refused

/-- What a run does whose recount would be incoherent: the record is written, and no more. -/
theorem stalls {reconciliation : Reconciliation String} (shows : Shows world state)
    (derives : deriveReconciliation state world.disk = .ok reconciliation)
    (rewritesThem : rewritesCounts reconciliation = true)
    (incoherent : ¬ Coherent arith (state.counted world.disk)) :
    (∃ fault, (reconcile arith now world).result = .error fault) ∧
      Stands world world.log.isSome state.recorded ((reconcile arith now world).final world) := by
  have readable := readable_of_derive derives
  obtain ⟨next, -, fault, rewrites, shows', -, -, run⟩ := reconcile_stalls now shows derives
    rewritesThem (Disk.recountWords_of_readable readable.drafts) incoherent
  rw [run]
  exact ⟨⟨fault, rfl⟩, Stands.of_rewrites rewrites shows'⟩

end Calm

end NovelRalph
