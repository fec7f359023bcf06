import Mathlib.Logic.Basic

/-!
# Faults and their channels

A computation that may fail is meant to fail only with the faults it owns. A fault
it does not own escapes. Where a sequence of steps escapes is read off its steps:
a step that owns all its faults only decides whether the next one runs.
-/

namespace NovelRalph

section Channel

variable {ε α β : Type} {owned : ε → Prop}

/-- The computation fails with a fault that is not among the owned ones. -/
def Escapes (owned : ε → Prop) (outcome : Except ε α) : Prop :=
  ∃ fault, outcome = .error fault ∧ ¬owned fault

/-- The computation returns, or fails with a fault of its own. -/
def Confined (owned : ε → Prop) (outcome : Except ε α) : Prop :=
  ∀ fault, outcome = .error fault → owned fault

instance [DecidablePred owned] (outcome : Except ε α) : Decidable (Confined owned outcome) :=
  match outcome with
  | .ok _ => isTrue fun _ raised => by cases raised
  | .error fault => decidable_of_iff (owned fault)
      ⟨fun own _ raised => Except.error.inj raised ▸ own, fun confined => confined fault rfl⟩

theorem confined_iff {outcome : Except ε α} : Confined owned outcome ↔ ¬Escapes owned outcome := by
  constructor
  · rintro confined ⟨fault, raised, foreign⟩
    exact foreign (confined fault raised)
  · intro kept fault raised
    apply Classical.byContradiction
    intro foreign
    exact kept ⟨fault, raised, foreign⟩

@[simp] theorem confined_ok {value : α} : Confined owned (.ok value) := by
  intro fault raised
  cases raised

@[simp] theorem confined_error {fault : ε} :
    Confined owned (.error fault : Except ε α) ↔ owned fault := by
  constructor
  · intro confined
    exact confined fault rfl
  · intro own other raised
    cases raised
    exact own

@[simp] theorem escapes_error {fault : ε} :
    Escapes owned (.error fault : Except ε α) ↔ ¬owned fault := by
  constructor
  · rintro ⟨other, raised, foreign⟩
    cases raised
    exact foreign
  · intro foreign
    exact ⟨fault, rfl, foreign⟩

@[simp] theorem not_escapes_ok {value : α} : ¬Escapes owned (.ok value) := by
  rintro ⟨fault, raised, -⟩
  cases raised

/-- The fault a computation ended in. -/
def raised? (outcome : Except ε α) : Option ε :=
  match outcome with
  | .ok _ => none
  | .error fault => some fault

theorem raised?_eq_some {outcome : Except ε α} {fault : ε} :
    raised? outcome = some fault ↔ outcome = .error fault := by
  cases outcome <;> simp [raised?]

/-- A sequence of fallible steps succeeds exactly when both steps do. -/
theorem except_bind_eq_ok {ε α β : Type} {first : Except ε α} {rest : α → Except ε β} {value : β} :
    (first >>= rest) = .ok value ↔ ∃ middle, first = .ok middle ∧ rest middle = .ok value := by
  cases first <;> simp [bind, Except.bind]

/-- Every item of a list that was mapped without a fault has its result in the outcome. -/
theorem result_of_mapM {ε α β : Type} {step : α → Except ε β} {items : List α} {results : List β}
    (runs : items.mapM step = .ok results) {item : α} (member : item ∈ items) :
    ∃ result ∈ results, step item = .ok result := by
  induction items generalizing results with
  | nil => cases member
  | cons first rest inductionHypothesis =>
      rw [List.mapM_cons] at runs
      obtain ⟨head, stepped, runs⟩ := except_bind_eq_ok.mp runs
      obtain ⟨tail, continued, returned⟩ := except_bind_eq_ok.mp runs
      cases returned
      rcases List.mem_cons.mp member with rfl | later
      · exact ⟨head, List.mem_cons_self, stepped⟩
      · obtain ⟨result, found, same⟩ := inductionHypothesis continued later
        exact ⟨result, List.mem_cons_of_mem _ found, same⟩

/-- Every result of such a mapping comes from an item. -/
theorem item_of_mapM {ε α β : Type} {step : α → Except ε β} {items : List α} {results : List β}
    (runs : items.mapM step = .ok results) {result : β} (member : result ∈ results) :
    ∃ item ∈ items, step item = .ok result := by
  induction items generalizing results with
  | nil =>
      cases runs
      cases member
  | cons first rest inductionHypothesis =>
      rw [List.mapM_cons] at runs
      obtain ⟨head, stepped, runs⟩ := except_bind_eq_ok.mp runs
      obtain ⟨tail, continued, returned⟩ := except_bind_eq_ok.mp runs
      cases returned
      rcases List.mem_cons.mp member with rfl | later
      · exact ⟨first, List.mem_cons_self, stepped⟩
      · obtain ⟨item, found, same⟩ := inductionHypothesis continued later
        exact ⟨item, List.mem_cons_of_mem _ found, same⟩

/-- A sequence returns exactly when its steps do, one after the other. -/
theorem bind_returns {first : Except ε α} {next : α → Except ε β} :
    (∃ result, first >>= next = .ok result) ↔
      ∃ value, first = .ok value ∧ ∃ result, next value = .ok result := by
  cases first with
  | error fault => simp [bind, Except.bind]
  | ok value => simp [bind, Except.bind]

/-- Putting two independent results together returns exactly when both do. -/
theorem both_return {γ : Type} {first : Except ε α} {second : Except ε β} {join : α → β → γ} :
    (∃ result, (first >>= fun left => second >>= fun right => pure (join left right)) = .ok result) ↔
      (∃ left, first = .ok left) ∧ ∃ right, second = .ok right := by
  cases first <;> cases second <;> simp [bind, Except.bind, pure, Except.pure]

/-- A sequence escapes in its first step, or in the rest after a first step that returned. -/
theorem escapes_bind {first : Except ε α} {next : α → Except ε β} :
    Escapes owned (first >>= next) ↔
      Escapes owned first ∨ ∃ value, first = .ok value ∧ Escapes owned (next value) := by
  cases first with
  | error fault => simp [bind, Except.bind]
  | ok value => simp [bind, Except.bind]

theorem Confined.escapes_bind {first : Except ε α} {next : α → Except ε β}
    (confined : Confined owned first) :
    Escapes owned (first >>= next) ↔
      ∃ value, first = .ok value ∧ Escapes owned (next value) := by
  rw [NovelRalph.escapes_bind]
  have kept := confined_iff.mp confined
  simp only [kept, false_or]

/-- The result of a computation together with the fact that it returned it. -/
def witnessed (outcome : Except ε α) : Except ε {value : α // outcome = .ok value} :=
  match outcome with
  | .ok value => .ok ⟨value, rfl⟩
  | .error fault => .error fault

theorem exists_witnessed {first : Except ε α} {holds : {value : α // first = .ok value} → Prop} :
    (∃ value, witnessed first = .ok value ∧ holds value) ↔
      ∃ value, ∃ returned : first = .ok value, holds ⟨value, returned⟩ := by
  cases first with
  | error fault => simp [witnessed]
  | ok value => simp [witnessed]

theorem escapes_witnessed_bind {first : Except ε α}
    {next : {value : α // first = .ok value} → Except ε β} :
    Escapes owned (witnessed first >>= next) ↔
      Escapes owned first ∨
        ∃ value, ∃ returned : first = .ok value, Escapes owned (next ⟨value, returned⟩) := by
  cases first with
  | error fault => simp [witnessed, bind, Except.bind]
  | ok value => simp [witnessed, bind, Except.bind]

theorem Confined.escapes_witnessed_bind {first : Except ε α}
    {next : {value : α // first = .ok value} → Except ε β} (confined : Confined owned first) :
    Escapes owned (witnessed first >>= next) ↔
      ∃ value, ∃ returned : first = .ok value, Escapes owned (next ⟨value, returned⟩) := by
  rw [NovelRalph.escapes_witnessed_bind]
  have kept := confined_iff.mp confined
  simp only [kept, false_or]

theorem Confined.bind {first : Except ε α} {next : α → Except ε β}
    (confined : Confined owned first)
    (rest : ∀ value, first = .ok value → Confined owned (next value)) :
    Confined owned (first >>= next) := by
  rw [confined_iff, confined.escapes_bind]
  rintro ⟨value, returned, escapes⟩
  exact confined_iff.mp (rest value returned) escapes

/-- A sequence is confined when its first step is, and the rest after a value it returned. -/
theorem confined_bind {first : Except ε α} {next : α → Except ε β} :
    Confined owned (first >>= next) ↔
      Confined owned first ∧ ∀ value, first = .ok value → Confined owned (next value) := by
  constructor
  · intro confined
    have kept := confined_iff.mp confined
    rw [NovelRalph.escapes_bind, not_or] at kept
    refine ⟨confined_iff.mpr kept.1, fun value returned => confined_iff.mpr fun escapes => ?_⟩
    exact kept.2 ⟨value, returned, escapes⟩
  · rintro ⟨opening, rest⟩
    exact opening.bind rest

/-- A computation is confined to a wider channel, too. -/
theorem Confined.mono {wider : ε → Prop} {outcome : Except ε α} (confined : Confined owned outcome)
    (widens : ∀ fault, owned fault → wider fault) : Confined wider outcome := by
  intro fault raised
  exact widens fault (confined fault raised)

@[simp] theorem confined_map {outcome : Except ε α} {image : α → β} :
    Confined owned (outcome.map image) ↔ Confined owned outcome := by
  cases outcome <;> simp [Except.map]

/-- A mapping is confined when each of its steps is. -/
theorem Confined.mapM {step : α → Except ε β} {items : List α}
    (steps : ∀ item ∈ items, Confined owned (step item)) : Confined owned (items.mapM step) := by
  induction items with
  | nil => exact confined_ok
  | cons item rest inductionHypothesis =>
      rw [List.mapM_cons]
      apply (steps item List.mem_cons_self).bind
      intro head _
      apply (inductionHypothesis fun later member => steps later (List.mem_cons_of_mem _ member)).bind
      intro tail _
      exact confined_ok

theorem Confined.foldlM {step : β → α → Except ε β} {items : List α}
    (steps : ∀ item ∈ items, ∀ accumulated, Confined owned (step accumulated item)) (start : β) :
    Confined owned (items.foldlM step start) := by
  induction items generalizing start with
  | nil => exact confined_ok
  | cons item rest inductionHypothesis =>
      rw [List.foldlM_cons]
      apply (steps item List.mem_cons_self start).bind
      intro next _
      apply inductionHypothesis
      intro later member
      exact steps later (List.mem_cons_of_mem _ member)

/-- A mapping returns exactly when each of its steps does. -/
theorem mapM_returns {step : α → Except ε β} {items : List α} :
    (∃ results, items.mapM step = .ok results) ↔
      ∀ item ∈ items, ∃ result, step item = .ok result := by
  constructor
  · rintro ⟨results, runs⟩ item member
    obtain ⟨result, -, stepped⟩ := result_of_mapM runs member
    exact ⟨result, stepped⟩
  · intro returns
    induction items with
    | nil => exact ⟨[], rfl⟩
    | cons item rest inductionHypothesis =>
        obtain ⟨head, stepped⟩ := returns item List.mem_cons_self
        obtain ⟨tail, continued⟩ := inductionHypothesis fun later member =>
          returns later (List.mem_cons_of_mem _ member)
        rw [List.mapM_cons, stepped, continued]
        exact ⟨_, rfl⟩

/-- A mapping whose items all return is confined; otherwise the first that fails decides. -/
theorem confined_mapM {step : α → Except ε β} {items : List α}
    (foreign : ∀ item ∈ items, ∀ fault, step item = .error fault → ¬owned fault) :
    Confined owned (items.mapM step) ↔ ∀ item ∈ items, ∃ value, step item = .ok value := by
  constructor
  · intro confined
    induction items with
    | nil => exact fun _ member => absurd member List.not_mem_nil
    | cons item rest inductionHypothesis =>
        rw [List.mapM_cons, confined_bind] at confined
        obtain ⟨opening, closing⟩ := confined
        cases stepped : step item with
        | error fault =>
            exact absurd (opening fault stepped) (foreign item List.mem_cons_self fault stepped)
        | ok value =>
            have later := (confined_bind.mp (closing value stepped)).1
            have rest := inductionHypothesis
              (fun other member => foreign other (List.mem_cons_of_mem _ member)) later
            intro other member
            rcases List.mem_cons.mp member with rfl | member
            · exact ⟨value, stepped⟩
            · exact rest other member
  · intro returns
    apply Confined.mapM
    intro item member fault raised
    obtain ⟨value, stepped⟩ := returns item member
    rw [stepped] at raised
    cases raised

/-- Where no fault is owned, the confined computations are those that return. -/
theorem confined_iff_returns {outcome : Except ε α}
    (foreign : ∀ fault, outcome = .error fault → ¬owned fault) :
    Confined owned outcome ↔ ∃ value, outcome = .ok value := by
  cases outcome with
  | ok value => exact iff_of_true confined_ok ⟨value, rfl⟩
  | error fault =>
      refine iff_of_false (fun confined => foreign fault rfl (confined fault rfl)) ?_
      rintro ⟨value, returned⟩
      cases returned

end Channel

end NovelRalph
