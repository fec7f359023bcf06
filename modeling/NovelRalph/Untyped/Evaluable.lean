import NovelRalph.Untyped.Validate

/-!
# The states the validator can judge

`Evaluable` says of a state of any types that every comparison the validator
comes to is one of numbers, that its sum and its ratio stay within a float, and
that the breaches it reports can be spelled. `validateState_returns` says that
these are exactly the states it has a verdict for.
-/

namespace NovelRalph.Untyped

/-! ## Comparisons -/

section Comparisons

variable (interp : Interpreter)

/-- `left <= right` holds. -/
def Le (left right : Value) : Prop := interp.lessEqual left right = .ok true

/-- `0 <= clean <= target` holds. -/
def Within (clean target : Value) : Prop := Le interp (.int 0) clean ∧ Le interp clean target

/-- The number of values above zero. -/
def positives (counts : List Value) : Nat :=
  counts.countP fun words => interp.less (.int 0) words matches .ok true

variable {interp}

/-- A number of the interpreter can be spelled. -/
def Spelled (number : Number interp.Double) : Prop := ∃ text, interp.strNumber number = .ok text

/-- A branch returns when its condition does, and the side that is taken. -/
theorem branch_returns {α : Type} {condition : Except Fault Bool} {yes no : Except Fault α} :
    (∃ result, (condition >>= fun answer => if answer = true then yes else no) = .ok result) ↔
      (∃ answer, condition = .ok answer) ∧ (condition = .ok true → ∃ result, yes = .ok result) ∧
        (condition ≠ .ok true → ∃ result, no = .ok result) := by
  cases condition with
  | error fault => simp [bind, Except.bind]
  | ok answer => cases answer <;> simp [bind, Except.bind]

/-- Two texts that a breach spells. -/
theorem spells_both {first second : Value} {breach : String → String → Violation} :
    (∃ found, (interp.str first >>= fun left => interp.str second >>= fun right =>
        pure (some (breach left right)) : Except Fault (Option Violation)) = .ok found) ↔
      first.holdsTooLong = false ∧ second.holdsTooLong = false := by
  rw [← interp.str_returns, ← interp.str_returns]
  exact both_return

theorem spells {value : Value} {breach : String → Violation} :
    (∃ found, (interp.str value >>= fun text => pure (some (breach text)) :
        Except Fault (Option Violation)) = .ok found) ↔ value.holdsTooLong = false := by
  rw [← interp.str_returns]
  cases interp.str value <;> simp [bind, Except.bind, pure, Except.pure]

theorem withinRange_eq_true {clean target : Value} :
    withinRange interp clean target = .ok true ↔ Within interp clean target := by
  unfold withinRange Within Le
  cases interp.lessEqual (.int 0) clean with
  | error fault => simp [bind, Except.bind]
  | ok answer => cases answer <;> simp [bind, Except.bind, pure, Except.pure]

theorem withinRange_returns {clean target : Value} :
    (∃ answer, withinRange interp clean target = .ok answer) ↔
      clean.isNumber = true ∧ (Le interp (.int 0) clean → target.isNumber = true) := by
  unfold withinRange
  rw [branch_returns, interp.lessEqual_returns, interp.lessEqual_returns]
  constructor
  · rintro ⟨⟨-, number⟩, later, -⟩
    exact ⟨number, fun holds => (later holds).2⟩
  · rintro ⟨number, later⟩
    exact ⟨⟨rfl, number⟩, fun holds => ⟨number, later holds⟩, fun _ => ⟨_, rfl⟩⟩

theorem draftedChapters_eq_ok {counts : List Value} {drafted : Nat} :
    draftedChapters interp counts = .ok drafted ↔
      (∀ words ∈ counts, words.isNumber = true) ∧ drafted = positives interp counts := by
  unfold draftedChapters
  rw [except_bind_eq_ok]
  have counted : ∀ counts : List Value, (∀ words ∈ counts, words.isNumber = true) →
      ∃ answers, (counts.mapM fun words => interp.less (.int 0) words) = .ok answers ∧
        answers.count true = positives interp counts := by
    intro counts
    induction counts with
    | nil => exact fun _ => ⟨[], rfl, rfl⟩
    | cons words rest inductionHypothesis =>
        intro numbers
        obtain ⟨answer, compared⟩ := interp.less_returns.mpr
          ⟨(rfl : (Value.int 0).isNumber = true), numbers words List.mem_cons_self⟩
        obtain ⟨answers, later, count⟩ := inductionHypothesis fun other member =>
          numbers other (List.mem_cons_of_mem _ member)
        refine ⟨answer :: answers, ?_, ?_⟩
        · rw [List.mapM_cons, compared, later]
          rfl
        · rw [positives, List.countP_cons, compared, List.count_cons, count]
          cases answer <;> rfl
  constructor
  · rintro ⟨answers, compared, same⟩
    have numbers : ∀ words ∈ counts, words.isNumber = true := by
      intro words member
      obtain ⟨answer, -, returned⟩ := result_of_mapM compared member
      exact (interp.less_returns.mp ⟨answer, returned⟩).2
    obtain ⟨others, again, count⟩ := counted counts numbers
    rw [compared] at again
    cases again
    cases same
    exact ⟨numbers, count⟩
  · rintro ⟨numbers, rfl⟩
    obtain ⟨answers, compared, count⟩ := counted counts numbers
    exact ⟨answers, compared, congrArg Except.ok count⟩

theorem cursorBounded_returns {chapter scene beat : Value} {chapters : Nat} :
    (∃ answer, cursorBounded interp chapter scene beat chapters = .ok answer) ↔
      chapter.isNumber = true ∧ (Within interp chapter (.int chapters) →
        scene.isNumber = true ∧ (Le interp (.int 0) scene → beat.isNumber = true)) := by
  unfold cursorBounded
  rw [branch_returns, branch_returns, withinRange_returns, withinRange_eq_true,
    interp.lessEqual_returns, interp.lessEqual_returns]
  constructor
  · rintro ⟨⟨number, -⟩, later, -⟩
    refine ⟨number, fun within => ?_⟩
    obtain ⟨⟨-, scene⟩, beat, -⟩ := later within
    exact ⟨scene, fun holds => (beat holds).2⟩
  · rintro ⟨number, later⟩
    refine ⟨⟨number, fun _ => rfl⟩, fun within => ?_, fun _ => ⟨_, rfl⟩⟩
    obtain ⟨scene, beat⟩ := later within
    exact ⟨⟨rfl, scene⟩, fun holds => ⟨rfl, beat holds⟩, fun _ => ⟨_, rfl⟩⟩

/-- A value with too long an integer is no flag. -/
theorem equals_bool_of_tooLong {value : Value} (long : value.holdsTooLong = true) (flag : Bool) :
    interp.equals value (.bool flag) = false := by
  cases value with
  | int number =>
      have other : number ≠ if flag then 1 else 0 := by
        rintro rfl
        have short : tooLong (if flag then 1 else 0) = false := by
          apply not_tooLong_of_small
          cases flag <;> decide
        rw [Value.holdsTooLong, short] at long
        cases long
      show decide (_ = _) = false
      rw [decide_eq_false_iff_not]
      intro same
      apply other
      exact_mod_cast same
  | array items => rfl
  | table entries => rfl
  | _ => cases long

end Comparisons

/-! ## The states -/

/-- Every comparison of the validator is one of numbers, its sum and ratio stay within a float,
and what a breach spells holds no integer that is too long. -/
structure Evaluable (interp : Interpreter) (state : State) : Prop where
  counts : ∀ words ∈ state.wordCounts.counts, words.isNumber = true
  clean : state.drafting.critic.consecutiveClean.isNumber = true
  convergence : state.drafting.critic.convergenceTarget.isNumber = true
  chapter : state.drafting.currentChapter.isNumber = true
  /-- The scene and the beat are looked at when the bounds before them hold. -/
  scene : Within interp state.drafting.currentChapter (.int state.chapters.length) →
    state.drafting.currentScene.isNumber = true
  beat : Within interp state.drafting.currentChapter (.int state.chapters.length) →
    Le interp (.int 0) state.drafting.currentScene → state.drafting.currentBeat.isNumber = true
  target : state.wordCounts.target.isNumber = true
  total : ∃ total, interp.total (interp.leadingNumbers state.wordCounts.counts) = some total ∧
    (interp.equalsNumber total state.wordCounts.current = false →
      Spelled total ∧ state.wordCounts.current.holdsTooLong = false) ∧
    (¬Le interp state.wordCounts.target (.int 0) → ∃ divisor ratio,
      interp.number? state.wordCounts.target = some divisor ∧
      interp.quotient total divisor = some ratio)
  cleanSpelled : ¬Within interp state.drafting.critic.consecutiveClean
        state.drafting.critic.convergenceTarget ∨
      ¬Le interp state.drafting.critic.consecutiveClean
        (.int (positives interp state.wordCounts.counts)) →
    state.drafting.critic.consecutiveClean.holdsTooLong = false
  convergenceSpelled : ¬Within interp state.drafting.critic.consecutiveClean
        state.drafting.critic.convergenceTarget ∨
      ¬Le interp (.int 1) state.drafting.critic.convergenceTarget →
    state.drafting.critic.convergenceTarget.holdsTooLong = false
  cursorSpelled : ¬(cursorBounded interp state.drafting.currentChapter state.drafting.currentScene
        state.drafting.currentBeat state.chapters.length = .ok true ∧
      sceneBeatPastChapter interp state.drafting.currentChapter state.drafting.currentScene
        state.drafting.currentBeat = false) →
    state.drafting.currentChapter.holdsTooLong = false ∧
      state.drafting.currentScene.holdsTooLong = false ∧
      state.drafting.currentBeat.holdsTooLong = false
  flagsSpelled : ¬Le interp state.wordCounts.target (.int 0) →
    ∀ gate, (state.gates.knitting.flag gate).holdsTooLong = false

section Rules

variable {interp : Interpreter} {state : State}

theorem checkByChapterSum_returns :
    (∃ found, checkByChapterSum interp state = .ok found) ↔
      (∀ words ∈ state.wordCounts.counts, words.isNumber = true) ∧
      ∃ total, interp.total (interp.leadingNumbers state.wordCounts.counts) = some total ∧
        (interp.equalsNumber total state.wordCounts.current = false →
          Spelled total ∧ state.wordCounts.current.holdsTooLong = false) := by
  unfold checkByChapterSum
  dsimp only
  rw [bind_returns]
  simp only [interp.sum_eq_ok, and_assoc, exists_and_left]
  refine and_congr_right fun _ => exists_congr fun total => and_congr_right fun _ => ?_
  cases interp.equalsNumber total state.wordCounts.current with
  | true => simp [pure, Except.pure]
  | false =>
      simp only [Bool.false_eq_true, if_false, forall_const, ← interp.str_returns]
      exact both_return

theorem checkConsecutiveCleanWithinTarget_returns :
    (∃ found, checkConsecutiveCleanWithinTarget interp state = .ok found) ↔
      (state.drafting.critic.consecutiveClean.isNumber = true ∧
        (Le interp (.int 0) state.drafting.critic.consecutiveClean →
          state.drafting.critic.convergenceTarget.isNumber = true)) ∧
      (¬Within interp state.drafting.critic.consecutiveClean
          state.drafting.critic.convergenceTarget →
        state.drafting.critic.consecutiveClean.holdsTooLong = false ∧
          state.drafting.critic.convergenceTarget.holdsTooLong = false) := by
  unfold checkConsecutiveCleanWithinTarget
  dsimp only
  rw [branch_returns, withinRange_returns, ne_eq, withinRange_eq_true, spells_both]
  exact and_congr_right fun _ => and_iff_right fun _ => ⟨_, rfl⟩

theorem checkConvergenceTargetAtLeastOne_returns :
    (∃ found, checkConvergenceTargetAtLeastOne interp state = .ok found) ↔
      state.drafting.critic.convergenceTarget.isNumber = true ∧
      (¬Le interp (.int 1) state.drafting.critic.convergenceTarget →
        state.drafting.critic.convergenceTarget.holdsTooLong = false) := by
  unfold checkConvergenceTargetAtLeastOne
  dsimp only
  rw [branch_returns, interp.lessEqual_returns, ne_eq, spells]
  constructor
  · rintro ⟨⟨-, number⟩, -, spelled⟩
    exact ⟨number, spelled⟩
  · rintro ⟨number, spelled⟩
    exact ⟨⟨rfl, number⟩, fun _ => ⟨_, rfl⟩, spelled⟩

theorem checkConsecutiveCleanWithinDrafted_returns :
    (∃ found, checkConsecutiveCleanWithinDrafted interp state = .ok found) ↔
      (∀ words ∈ state.wordCounts.counts, words.isNumber = true) ∧
      state.drafting.critic.consecutiveClean.isNumber = true ∧
      (¬Le interp state.drafting.critic.consecutiveClean
          (.int (positives interp state.wordCounts.counts)) →
        state.drafting.critic.consecutiveClean.holdsTooLong = false) := by
  unfold checkConsecutiveCleanWithinDrafted
  dsimp only
  rw [bind_returns]
  simp only [draftedChapters_eq_ok, and_assoc, exists_and_left, exists_eq_left]
  refine and_congr_right fun _ => ?_
  rw [branch_returns, interp.lessEqual_returns, ne_eq, spells]
  constructor
  · rintro ⟨⟨number, -⟩, -, spelled⟩
    exact ⟨number, spelled⟩
  · rintro ⟨number, spelled⟩
    exact ⟨⟨number, rfl⟩, fun _ => ⟨_, rfl⟩, spelled⟩

theorem checkCursorCoherent_returns :
    (∃ found, checkCursorCoherent interp state = .ok found) ↔
      (state.drafting.currentChapter.isNumber = true ∧
        (Within interp state.drafting.currentChapter (.int state.chapters.length) →
          state.drafting.currentScene.isNumber = true ∧
            (Le interp (.int 0) state.drafting.currentScene →
              state.drafting.currentBeat.isNumber = true))) ∧
      (¬(cursorBounded interp state.drafting.currentChapter state.drafting.currentScene
            state.drafting.currentBeat state.chapters.length = .ok true ∧
          sceneBeatPastChapter interp state.drafting.currentChapter state.drafting.currentScene
            state.drafting.currentBeat = false) →
        state.drafting.currentChapter.holdsTooLong = false ∧
          state.drafting.currentScene.holdsTooLong = false ∧
          state.drafting.currentBeat.holdsTooLong = false) := by
  rw [← cursorBounded_returns]
  unfold checkCursorCoherent
  dsimp only
  have breach : ∀ detail : String → String → String → Violation,
      (∃ found, (interp.str state.drafting.currentChapter >>= fun chapter =>
          interp.str state.drafting.currentScene >>= fun scene =>
            interp.str state.drafting.currentBeat >>= fun beat =>
              pure (some (detail chapter scene beat)) : Except Fault (Option Violation)) =
          .ok found) ↔
        state.drafting.currentChapter.holdsTooLong = false ∧
          state.drafting.currentScene.holdsTooLong = false ∧
          state.drafting.currentBeat.holdsTooLong = false := by
    intro detail
    rw [bind_returns]
    simp only [spells_both, exists_and_right, interp.str_returns]
  cases cursorBounded interp state.drafting.currentChapter state.drafting.currentScene
      state.drafting.currentBeat state.chapters.length with
  | error fault => simp [bind, Except.bind]
  | ok bounded =>
      cases bounded with
      | false =>
          simp only [bind, Except.bind, Bool.false_and, Bool.false_eq_true, if_false]
          exact (breach _).trans (by simp)
      | true =>
          cases sceneBeatPastChapter interp state.drafting.currentChapter
              state.drafting.currentScene state.drafting.currentBeat with
          | false => simp [bind, Except.bind, pure, Except.pure]
          | true =>
              simp only [bind, Except.bind, Bool.not_true, Bool.and_false, Bool.false_eq_true,
                if_false]
              exact (breach _).trans (by simp)

theorem gateRatioDisagreement_returns {gate : KnittingGate} {flag : Value} {ratio : interp.Double} :
    (∃ text, gateRatioDisagreement interp gate flag ratio = .ok text) ↔
      flag.holdsTooLong = false := by
  rw [← interp.str_returns]
  unfold gateRatioDisagreement
  cases interp.str flag <;> simp [bind, Except.bind, pure, Except.pure]

/-- The flags that disagree can be spelled exactly when all of them can. -/
theorem disagreements_return {ratio : interp.Double} :
    (∃ texts, ((disagreeingGates interp state.gates.knitting ratio).mapM fun gate =>
        gateRatioDisagreement interp gate (state.gates.knitting.flag gate) ratio) = .ok texts) ↔
      ∀ gate, (state.gates.knitting.flag gate).holdsTooLong = false := by
  rw [mapM_returns]
  constructor
  · intro spelled gate
    cases long : (state.gates.knitting.flag gate).holdsTooLong with
    | false => rfl
    | true =>
        have disagrees : gate ∈ disagreeingGates interp state.gates.knitting ratio := by
          rw [disagreeingGates, List.mem_filter, equals_bool_of_tooLong long]
          exact ⟨gate.mem_all, rfl⟩
        rw [gateRatioDisagreement_returns.mp (spelled gate disagrees)] at long
        cases long
  · intro spelled gate _
    exact gateRatioDisagreement_returns.mpr (spelled gate)

theorem checkGateRatioConsistent_returns :
    (∃ found, checkGateRatioConsistent interp state = .ok found) ↔
      state.wordCounts.target.isNumber = true ∧
      (¬Le interp state.wordCounts.target (.int 0) →
        (∀ words ∈ state.wordCounts.counts, words.isNumber = true) ∧
        (∃ total, interp.total (interp.leadingNumbers state.wordCounts.counts) = some total ∧
          ∃ divisor ratio, interp.number? state.wordCounts.target = some divisor ∧
            interp.quotient total divisor = some ratio) ∧
        ∀ gate, (state.gates.knitting.flag gate).holdsTooLong = false) := by
  unfold checkGateRatioConsistent
  dsimp only
  rw [branch_returns, interp.lessEqual_returns, bind_returns]
  have numbers : (state.wordCounts.target.isNumber = true ∧ (Value.int 0).isNumber = true) ↔
      state.wordCounts.target.isNumber = true := and_iff_left rfl
  rw [numbers]
  refine and_congr_right fun _ => ?_
  rw [and_iff_right fun _ => ⟨_, rfl⟩]
  refine imp_congr_right fun _ => ?_
  simp only [interp.sum_eq_ok, and_assoc, exists_and_left]
  refine and_congr_right fun _ => ?_
  constructor
  · rintro ⟨total, added, found, ran⟩
    cases divides : interp.number? state.wordCounts.target with
    | none =>
        rw [divides] at ran
        cases ran
    | some divisor =>
        rw [divides] at ran
        dsimp only at ran
        cases divided : interp.quotient total divisor with
        | none =>
            rw [divided] at ran
            cases ran
        | some ratio =>
            rw [divided] at ran
            obtain ⟨texts, spelled, -⟩ := except_bind_eq_ok.mp ran
            exact ⟨⟨total, added, divisor, rfl, ratio, divided⟩,
              disagreements_return.mp ⟨texts, spelled⟩⟩
  · rintro ⟨⟨total, added, divisor, divides, ratio, divided⟩, spelled⟩
    refine ⟨total, added, ?_⟩
    obtain ⟨texts, returned⟩ := (@disagreements_return interp state ratio).mpr spelled
    rw [divides]
    dsimp only
    rw [divided]
    dsimp only
    rw [returned]
    dsimp only [bind, Except.bind]
    split <;> exact ⟨_, rfl⟩

/-- The validator has a verdict for exactly the evaluable states. -/
theorem validateState_returns :
    (∃ verdict, validateState interp state = .ok verdict) ↔ Evaluable interp state := by
  have rules : (∃ verdict, validateState interp state = .ok verdict) ↔
      ∀ predicate ∈ purePredicates interp, ∃ found, predicate state = .ok found := by
    rw [← mapM_returns]
    unfold validateState
    cases (purePredicates interp).mapM fun predicate => predicate state <;>
      simp [bind, Except.bind, pure, Except.pure]
  rw [rules]
  simp only [purePredicates, List.forall_mem_cons, List.not_mem_nil, false_implies, implies_true,
    and_true, Except.ok.injEq, exists_eq', true_and, checkByChapterSum_returns,
    checkConsecutiveCleanWithinTarget_returns, checkConvergenceTargetAtLeastOne_returns,
    checkConsecutiveCleanWithinDrafted_returns, checkCursorCoherent_returns,
    checkGateRatioConsistent_returns]
  constructor
  · rintro ⟨⟨counts, total, added, spelled⟩, ⟨⟨clean, -⟩, range⟩, ⟨convergence, least⟩,
      ⟨-, -, drafted⟩, ⟨⟨chapter, bounds⟩, cursor⟩, target, gates⟩
    exact {
      counts, clean, convergence, chapter, target
      scene := fun within => (bounds within).1
      beat := fun within => (bounds within).2
      total := ⟨total, added, spelled, fun positive => by
        obtain ⟨-, ⟨other, again, divisor, ratio, divides, divided⟩, -⟩ := gates positive
        rw [added] at again
        cases again
        exact ⟨divisor, ratio, divides, divided⟩⟩
      cleanSpelled := fun breach => breach.elim (fun out => (range out).1) drafted
      convergenceSpelled := fun breach => breach.elim (fun out => (range out).2) least
      cursorSpelled := cursor
      flagsSpelled := fun positive => (gates positive).2.2 }
  · intro evaluable
    obtain ⟨total, added, spelled, divides⟩ := evaluable.total
    exact ⟨⟨evaluable.counts, total, added, spelled⟩,
      ⟨⟨evaluable.clean, fun _ => evaluable.convergence⟩, fun out =>
        ⟨evaluable.cleanSpelled (.inl out), evaluable.convergenceSpelled (.inl out)⟩⟩,
      ⟨evaluable.convergence, fun out => evaluable.convergenceSpelled (.inr out)⟩,
      ⟨evaluable.counts, evaluable.clean, fun out => evaluable.cleanSpelled (.inr out)⟩,
      ⟨⟨evaluable.chapter, fun within => ⟨evaluable.scene within, evaluable.beat within⟩⟩,
        evaluable.cursorSpelled⟩,
      evaluable.target, fun positive => ⟨evaluable.counts, ⟨total, added, divides positive⟩,
        evaluable.flagsSpelled positive⟩⟩

end Rules

end NovelRalph.Untyped
