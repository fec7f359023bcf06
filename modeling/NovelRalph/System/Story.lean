import NovelRalph.System.CleanCheck

/-!
# The story `check` and `reconcile` tell

`check` lists what the relaxed detector reports and attaches the reconciliation
that the strict one implies. The attached action is never `none`, and `reconcile`
on the unchanged tree enacts it. Every discrepancy it names is listed, except the
bijection break which the relaxed detector forgives in a drafting subset.
-/

namespace NovelRalph

open InvariantName

section Detectors

variable {state : State} {disk : Disk}

/-- The strict coverage rule fires only at bijection, where the relaxed one is the same. -/
theorem coverage_relaxed (fires : coverageBroken state disk false = true) :
    coverageBroken state disk true = true := by
  unfold coverageBroken at fires ⊢
  by_cases whole : state.manifest = disk.onDisk
  · rwa [if_pos whole] at fires ⊢
  · rw [if_neg whole] at fires
    cases fires

/-- The relaxed detector forgives a bijection break only in a drafting subset. -/
theorem bijection_relaxed (fires : bijectionBroken state disk false = true)
    (silent : bijectionBroken state disk true = false) :
    state.phase.current = .drafting ∧
      properCoherentSubset state.manifest disk.onDisk = true := by
  obtain ⟨coherent, same | subset⟩ := coherentSubset_of_silent silent
  · have whole := isBijection_iff.mpr ⟨coherent, same⟩
    unfold bijectionBroken at fires
    simp [whole] at fires
  · exact subset

/-- Where the strict detector refuses nothing and finds no drift, the relaxed one is silent too. -/
theorem relaxed_silent (settled : state.pendingTurn = none) (agreed : refusal state disk = false)
    (current : drift state disk = false) (present : disk.exists? disk.logFile = true) :
    evidence state disk true = [] := by
  unfold refusal otherRefusal at agreed
  unfold drift at current
  simp only [Bool.or_eq_false_iff] at agreed current
  obtain ⟨bijection, ⟨cursor, done⟩, compiled⟩ := agreed
  obtain ⟨counts, coverage⟩ := current
  have whole : (classifyBijection state.manifest disk.onDisk).isBijection = true := by
    simpa [bijectionBroken] using bijection
  have same := (isBijection_iff.mp whole).2
  have bijection' : bijectionBroken state disk true = false := by simp [bijectionBroken, whole]
  have coverage' : coverageBroken state disk true = false := by
    unfold coverageBroken at coverage ⊢
    rwa [if_pos same] at coverage ⊢
  simp [evidence, evidenceTable, bijection', cursor, done, compiled, settled, counts, present,
    coverage']

/-- Every discrepancy a derivation names is listed by the relaxed detector, or is a forgiven break. -/
theorem Derivation.listed {reconciliation : Reconciliation String}
    (derivation : Derivation state disk reconciliation) {name : InvariantName}
    (named : name ∈ reconciliation.discrepancies) :
    name ∈ evidence state disk true ∨ name = manifestDiskBijection ∧
      state.phase.current = .drafting ∧
      properCoherentSubset state.manifest disk.onDisk = true := by
  have bijection : bijectionBroken state disk false = true →
      manifestDiskBijection ∈ evidence state disk true ∨
        manifestDiskBijection = manifestDiskBijection ∧ state.phase.current = .drafting ∧
        properCoherentSubset state.manifest disk.onDisk = true := by
    intro fires
    cases relaxed : bijectionBroken state disk true
    · exact Or.inr ⟨rfl, bijection_relaxed fires relaxed⟩
    · exact Or.inl ((mem_evidence (by simp [evidenceTable])).mpr relaxed)
  -- A question both detectors answer alike is listed by the relaxed one when it fires.
  have alike : ∀ {other fires}, (other, fires) ∈ evidenceTable state disk false →
      (other, fires) ∈ evidenceTable state disk true → other ∈ evidence state disk false →
      other ∈ evidence state disk true := fun strictly relaxedly fired =>
    (mem_evidence relaxedly).mpr ((mem_evidence strictly).mp fired)
  cases derivation with
  | explained pending recorded explains =>
      rw [List.mem_singleton.mp named]
      exact bijection explains.2.1
  | coverGap gap =>
      rw [List.mem_singleton.mp named]
      obtain ⟨-, drafting, -, -, proper, uncovered⟩ := gap
      have differs : state.manifest ≠ disk.onDisk := ne_of_properCoherentSubset proper
      have fires : coverageBroken state disk true = true := by
        unfold coverageBroken
        rw [if_neg differs]
        simp [drafting, proper, uncovered]
      exact Or.inl ((mem_evidence (by simp [evidenceTable])).mpr fires)
  | refuse explanation unexplained noGap refused =>
      obtain ⟨fired, refusable⟩ := List.mem_filter.mp named
      simp only [refuseClass, List.mem_cons, List.not_mem_nil, or_false, decide_eq_true_eq]
        at refusable
      rcases refusable with rfl | rfl | rfl | rfl
      · exact bijection ((mem_evidence (by simp [evidenceTable])).mp fired)
      · exact Or.inl (@alike _ (doneWithoutDraft state disk) (by simp [evidenceTable])
          (by simp [evidenceTable]) fired)
      · exact Or.inl (@alike _ (compiledStale state disk) (by simp [evidenceTable])
          (by simp [evidenceTable]) fired)
      · exact Or.inl (@alike _ (cursorPlanMissing state disk) (by simp [evidenceTable])
          (by simp [evidenceTable]) fired)
  | pendingTurn pending recorded agreed =>
      have only : (classifyPendingTurn disk pending [pendingTurnCleared]).discrepancies =
          [pendingTurnCleared] := by
        unfold classifyPendingTurn tornTurn
        dsimp only
        split <;> rfl
      rw [only] at named
      rw [List.mem_singleton.mp named]
      exact Or.inl (@alike _ state.pendingTurn.isSome (by simp [evidenceTable])
        (by simp [evidenceTable]) (pending_mem_evidence.mpr (by rw [recorded]; rfl)))
  | recount settled agreed stale =>
      obtain ⟨-, triggered⟩ := List.mem_filter.mp named
      obtain ⟨trigger, fired⟩ := of_decide_eq_true triggered
      simp only [recountTriggers, List.mem_cons, List.not_mem_nil, or_false] at trigger
      rcases trigger with rfl | rfl
      · exact Or.inl (@alike _ (countsStale state disk) (by simp [evidenceTable])
          (by simp [evidenceTable]) fired)
      · have strictly : coverageBroken state disk false = true :=
          (mem_evidence (by simp [evidenceTable])).mp fired
        exact Or.inl ((mem_evidence (by simp [evidenceTable])).mpr (coverage_relaxed strictly))
  | recreateLog settled agreed current absent =>
      rw [List.mem_singleton.mp named]
      exact Or.inl (@alike _ (!disk.exists? disk.logFile) (by simp [evidenceTable])
        (by simp [evidenceTable]) (log_mem_evidence.mpr absent))
  | none settled agreed current present => cases named

end Detectors

section Report

variable {toml : Tomlkit} {arith : RatioArithmetic} {now : String} {world : World toml.Text}
  {state : State} {report : CheckReport} {reconciliation : Reconciliation String}

/-- A report with an attached reconciliation: its verdict, and what was derived for it. -/
theorem checkReport_attached (shows : Shows world state)
    (ran : (checkReport arith world).result = .ok report)
    (attached : report.reconciliation = some reconciliation) :
    ∃ pureState diskEvidence, checkDiskEvidence state world.disk true = .ok diskEvidence ∧
      diskEvidence ≠ [] ∧ report.verdict = pureState ++ diskEvidence ∧
      deriveReconciliation state world.disk = .ok reconciliation := by
  obtain ⟨document, opens, viewed⟩ := shows.opens
  have loads : (guardStateInput (stateInputErrorAt world) do
      let document ← openDocument world
      documentToState document) = .ok state := by
    rw [guardStateInput_eq_ok]
    exact except_bind_eq_ok.mpr ⟨document, opens, viewed⟩
  unfold checkReport loadOrStateError at ran
  rw [Prog.observe_bind_ok world loads] at ran
  rcases Prog.observe_bind_cases world _ _ with ⟨fault, -, run⟩ | ⟨pureState, -, run⟩
  · rw [run] at ran
    cases ran
  rw [run] at ran
  rcases Prog.observe_bind_cases world _ _ with ⟨fault, -, run⟩ | ⟨diskEvidence, detected, run⟩
  · rw [run] at ran
    cases ran
  rw [run] at ran
  rw [guardStateInput_eq_ok] at detected
  by_cases silent : diskEvidence = []
  · rw [if_pos silent] at ran
    cases ran
    cases attached
  · rw [if_neg silent] at ran
    rcases Prog.observe_bind_cases world _ _ with ⟨fault, -, run⟩ | ⟨derived, derives, run⟩
    · rw [run] at ran
      cases ran
    · rw [run] at ran
      cases ran
      cases attached
      exact ⟨pureState, diskEvidence, detected, silent, rfl, derives⟩

/-- The attached reconciliation is no `none`, is listed but for a forgiven break, and is enacted. -/
theorem check_tells_story (shows : Shows world state) (readable : Readable state world.disk)
    (ran : (checkReport arith world).result = .ok report)
    (attached : report.reconciliation = some reconciliation) :
    reconciliation.action ≠ .none ∧
    (∀ name ∈ reconciliation.discrepancies, name ∈ report.verdict.map Violation.invariant ∨
      name = manifestDiskBijection ∧ state.phase.current = .drafting ∧
      properCoherentSubset state.manifest world.disk.onDisk = true) ∧
    deriveReconciliation state world.disk = .ok reconciliation ∧
    reconcile arith now world = enactReconciliation arith now reconciliation world := by
  obtain ⟨pureState, diskEvidence, detected, fires, verdict, derives⟩ :=
    checkReport_attached shows ran attached
  have derivation := (deriveReconciliation_iff readable).mp derives
  obtain ⟨violations, detected', names⟩ := checkDiskEvidence_of_readable readable true
  rw [detected, Except.ok.injEq] at detected'
  subst detected'
  refine ⟨fun idle => ?_, fun name named => ?_, derives, reconcile_enacts shows derives⟩
  · cases derivation with
    | none settled agreed current present =>
        rw [relaxed_silent settled agreed current present, List.map_eq_nil_iff] at names
        exact fires names
    | pendingTurn pending recorded agreed =>
        rcases action_classifyPendingTurn world.disk pending [pendingTurnCleared] with turn | turn <;>
          rw [turn] at idle <;> cases idle
    | _ => cases idle
  · refine (derivation.listed named).imp_left fun listed => ?_
    rw [verdict, List.map_append, names]
    exact List.mem_append_right _ listed

end Report

/-! ## A drafting subset without a log -/

/-- `subsetWorld` with its log deleted. -/
def unloggedWorld : World Tomlkit.structural.Text := subsetWorld.dropLog

theorem shows_unlogged : Shows unloggedWorld subsetState :=
  shown?_eq_some.mp (by decide +kernel)

theorem readable_unlogged : Readable subsetState unloggedWorld.disk where
  drafts entry member := by
    rcases List.mem_cons.mp member with rfl | later
    · exact ⟨by decide +kernel, Or.inl ⟨"a b", by decide +kernel⟩⟩
    · rw [List.mem_singleton.mp later]
      exact ⟨by decide +kernel, Or.inr (by decide +kernel)⟩
  compiled there := absurd there (by decide +kernel)
  names := by decide +kernel

/-- What `check` reports there: a missing log, and a refusal over the bijection. -/
def unloggedReport : CheckReport where
  verdict := [⟨logPresent, "log.md is absent beside a present state.toml (partial init)"⟩]
  reconciliation := some (refuseReconciliation [manifestDiskBijection])

theorem reports_unlogged : (checkReport .exact unloggedWorld).result = .ok unloggedReport := by
  decide +kernel

/-- The attached refusal names a bijection break that the violations do not list. -/
theorem unlogged_story_differs :
    Shows unloggedWorld subsetState ∧ Readable subsetState unloggedWorld.disk ∧
      (checkReport .exact unloggedWorld).result = .ok unloggedReport ∧
      ∃ reconciliation, unloggedReport.reconciliation = some reconciliation ∧
        manifestDiskBijection ∈ reconciliation.discrepancies ∧
        manifestDiskBijection ∉ unloggedReport.verdict.map Violation.invariant :=
  ⟨shows_unlogged, readable_unlogged, reports_unlogged, _, rfl, List.mem_cons_self, by decide⟩

/-- The refusal attached in `unloggedWorld` is the one `reconcile` derives there. -/
theorem check_tells_story_unlogged :
    deriveReconciliation subsetState unloggedWorld.disk =
      .ok (refuseReconciliation [manifestDiskBijection]) :=
  (@check_tells_story _ _ "" _ _ _ _ shows_unlogged readable_unlogged reports_unlogged rfl).2.2.1

end NovelRalph
