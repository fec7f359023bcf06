import NovelRalph.Commands.DoubleReadings
import NovelRalph.System.Machine

/-!
# The machine in exact numbers

The guards of the machine speak of ratios, which the program computes in doubles.
For a target of at most 2^49 words a guard holds in doubles exactly when it holds in
exact numbers, so the commands are the machine over rationals: `recount` is carried
out exactly when ten times the drafted total stays below three times the target.
-/

namespace NovelRalph

section Exact

variable {state : State} {disk : Disk} {invocation : Invocation} {target total : Int}

/-- In exact numbers a total is held back below three tenths of the target. -/
theorem heldBack_exact :
    heldBack .exact target total = true ↔ target ≤ 0 ∨ 10 * total < 3 * target := by
  by_cases positive : 0 < target
  · have positive' : (0 : ℚ) < target := by exact_mod_cast positive
    have divided := quotient_exact total positive
    have first : ∀ gate : KnittingGate, KnittingGate.done30.literal ≤ gate.literal := by
      intro gate
      cases gate <;> decide +kernel
    have held : heldBack .exact target total = true ↔
        (total : ℚ) / target < KnittingGate.done30.literal := by
      constructor
      · intro held
        obtain ⟨ratio, same, below⟩ := gates_of_heldBack held positive
        rw [divided, Option.some.injEq] at same
        rw [same]
        exact below .done30
      · intro below
        refine heldBack_of_gates fun _ => ⟨_, divided, fun gate => ?_⟩
        exact (decide_eq_false (not_le.mpr (below.trans_le (first gate)))).symm
    have literal : KnittingGate.done30.literal = 3 / 10 := by decide +kernel
    rw [held, literal, div_lt_iff₀ positive']
    have scaled : (total : ℚ) < 3 / 10 * target ↔ (10 * total : ℚ) < 3 * target := by
      constructor <;> intro below <;> linarith
    rw [scaled]
    refine ⟨fun below => Or.inr (by exact_mod_cast below), fun either => ?_⟩
    exact_mod_cast either.resolve_left (not_le.mpr positive)
  · refine ⟨fun _ => Or.inl (not_lt.mp positive), fun _ => ?_⟩
    exact heldBack_of_gates fun positive' => absurd positive' positive

/-- Up to 2^49 words a total is held back in doubles exactly when it is in exact numbers. -/
theorem heldBack_doubles (bounded : target ≤ 2 ^ 49) (drafted : 0 ≤ total) :
    heldBack .doubles target total = heldBack .exact target total := by
  rw [Bool.eq_iff_iff]
  by_cases positive : 0 < target
  · have positive' : (0 : ℚ) < target := by exact_mod_cast positive
    have nonneg : (0 : ℚ) ≤ total / target :=
      div_nonneg (by exact_mod_cast drafted) positive'.le
    constructor
    · intro held
      obtain ⟨ratio, divided, below⟩ := gates_of_heldBack held positive
      have rounded := quotient_doubles positive drafted (by rw [divided]; exact Option.some_ne_none _)
      rw [divided, Option.some.injEq] at rounded
      subst rounded
      refine heldBack_of_gates fun _ => ⟨_, quotient_exact total positive, fun gate => ?_⟩
      refine (decide_eq_false fun reached => ?_).symm
      exact absurd ((reached_doubles positive bounded drafted gate).mpr reached)
        (not_le.mpr (below gate))
    · intro held
      obtain ⟨ratio, divided, below⟩ := gates_of_heldBack held positive
      rw [quotient_exact total positive, Option.some.injEq] at divided
      subst divided
      -- a ratio below a threshold is small enough not to overflow
      have small : (total : ℚ) / target ≤ 2 ^ 52 := by
        have literal : KnittingGate.done30.literal ≤ 2 ^ 52 := by decide +kernel
        exact (below .done30).le.trans literal
      have finite : RatioArithmetic.doubles.quotient total target ≠ none := by
        have same : RatioArithmetic.doubles.quotient total target =
            binary64 ((total : ℚ) / target) :=
          congrArg binary64 (Option.some.inj (quotient_exact total positive))
        rw [same, binary64_small nonneg small]
        exact Option.some_ne_none _
      refine heldBack_of_gates fun _ =>
        ⟨_, quotient_doubles positive drafted finite, fun gate => ?_⟩
      refine (decide_eq_false fun reached => ?_).symm
      exact absurd ((reached_doubles positive bounded drafted gate).mp reached)
        (not_le.mpr (below gate))
  · have held : ∀ arith : RatioArithmetic, heldBack arith target total = true := fun arith =>
      heldBack_of_gates fun positive' => absurd positive' positive
    simp only [held]

/-- The total of a recount is not negative. -/
theorem recounted_nonneg {chapters : List ChapterEntry} {table : Dict String Int}
    (counted : disk.recountWords chapters = .ok (total, table)) : 0 ≤ total := by
  have same := Disk.recountWords_of_readable (Disk.readable_of_recountWords counted)
  rw [counted, Except.ok.injEq, Prod.mk.injEq] at same
  rw [same.1]
  exact List.sum_nonneg fun value member => Disk.recountTable_values_nonneg member

/-- The machine over doubles is the machine over rationals. -/
theorem respond_doubles (bounded : state.wordCounts.target ≤ 2 ^ 49) :
    state.respond .doubles disk invocation = state.respond .exact disk invocation := by
  cases invocation with
  | recount =>
      cases counted : disk.recountWords state.chapters with
      | error fault => simp only [State.respond, counted]
      | ok result =>
          obtain ⟨total, table⟩ := result
          simp only [State.respond, counted, heldBack_doubles bounded (recounted_nonneg counted)]
  | _ => rfl

end Exact

section Throughout

variable {toml : Tomlkit} {arith : RatioArithmetic} {title slug : String} {target : Int}
  {createdAt : String} {start world : World toml.Text} {state : State}

/-- A run keeps the target that `init` was given. -/
theorem Created.keepsTarget (created : Created title slug target createdAt start)
    (run : Runs arith start world) (shows : Shows world state) : state.wordCounts.target = target := by
  have initial : Holds (fun state => state.wordCounts.target = target) start := created.holds rfl
  obtain ⟨other, shows', same⟩ := run.preserves
    (fun _ _ _ holds effect => effect.target.trans holds) initial shows.held
  rw [shows.unique shows']
  exact same

/-- Over every run in doubles from an `init` with a target of at most 2^49 words, the single-file
mutators are the machine over rationals; `recount` exits 0 exactly below three tenths. -/
theorem exact_machine_throughout (created : Created title slug target createdAt start)
    (bounded : target ≤ 2 ^ 49) (run : Runs .doubles start world) (shows : Shows world state)
    (now : String) :
    (∀ invocation : Invocation, invocation.singleFile = true →
      (∀ next, state.respond .exact world.disk invocation = some next →
        Steps world next (invocation.run .doubles now world)) ∧
      (state.respond .exact world.disk invocation = none →
        (invocation.run .doubles now world).trail = [] ∧
          exitCodeOf (invocation.run .doubles now world).result ≠ some 0)) ∧
    (exitCodeOf (recount .doubles world).result = some 0 ↔
      ∃ total table, world.disk.recountWords state.chapters = .ok (total, table) ∧
        (target ≤ 0 ∨ 10 * total < 3 * target)) := by
  have same := created.keepsTarget run shows
  have machine : ∀ invocation : Invocation, invocation.singleFile = true →
      (∀ next, state.respond .exact world.disk invocation = some next →
        Steps world next (invocation.run .doubles now world)) ∧
      (state.respond .exact world.disk invocation = none →
        (invocation.run .doubles now world).trail = [] ∧
          exitCodeOf (invocation.run .doubles now world).result ≠ some 0) := by
    intro invocation single
    rw [← respond_doubles (same.le.trans bounded)]
    exact run_eq_respond shows (created.ungated run shows) single
  refine ⟨machine, ?_⟩
  obtain ⟨steps, refuses⟩ := machine .recount rfl
  constructor
  · intro exits
    cases counted : world.disk.recountWords state.chapters with
    | error fault =>
        have none : state.respond .exact world.disk .recount = none := by
          simp only [State.respond, counted]
        exact absurd exits (refuses none).2
    | ok result =>
        obtain ⟨total, table⟩ := result
        refine ⟨total, table, rfl, ?_⟩
        by_contra reached
        rw [← same, ← heldBack_exact] at reached
        have none : state.respond .exact world.disk .recount = none := by
          simp only [State.respond, counted, if_neg reached]
        exact absurd exits (refuses none).2
  · rintro ⟨total, table, counted, below⟩
    rw [← same, ← heldBack_exact] at below
    have some : state.respond .exact world.disk .recount = some (state.recounted table) := by
      simp only [State.respond, counted, if_pos below]
    obtain ⟨later, outcome, ran, success, -, -⟩ := steps _ some
    have ran' : recount .doubles world = ⟨[later], .ok outcome⟩ := ran
    rw [ran']
    exact exitCodeOf_eq_zero.mpr ⟨outcome, rfl, success⟩

/-- After `init` with 1000 words to write a recount exits 0. -/
theorem exact_machine_throughout_initial :
    exitCodeOf (recount .doubles (initialWorld 1000)).result = some 0 := by
  refine (exact_machine_throughout created_initialWorld (by decide) .refl shows_initialWorld "").2.mpr
    ⟨0, Dict.empty, by decide +kernel, Or.inr (by decide)⟩

end Throughout

end NovelRalph
