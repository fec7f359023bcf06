import Mathlib.Data.List.Basic

/-!
# Programs with observable effects

A program reads and rewrites a shared store one atomic effect at a time. Running
it from a state yields a `Run`: the trail of states its effects left behind, in
order, and the value or the fault it ended with. A process can be killed between
any two effects, so the states a cut can leave are the starting state and every
state on the trail; nothing else is ever visible to the next process.

`Prog.Always` is the invariant rule of this semantics: an invariant which every
single effect preserves holds at every cut of every program built from them.
`Prog.Ensures` and `Prog.Achieves` are its triples: from a precondition, what
holds at every cut and what holds on return; an achieving program also returns.
-/

namespace NovelRalph

/-- What running a program did: the state after each effect and the result. -/
structure Run (σ ε α : Type) where
  /-- The state after each effect, in the order the effects were performed. -/
  trail : List σ
  result : Except ε α

namespace Run

variable {σ ε α : Type}

/-- The state in which the run ended. -/
def final (start : σ) (run : Run σ ε α) : σ :=
  run.trail.getLastD start

/-- Every state which killing the process between two effects can leave behind. -/
def cuts (start : σ) (run : Run σ ε α) : List σ :=
  start :: run.trail

/-- A run with effects ends on its trail. -/
theorem final_mem_trail {start : σ} {run : Run σ ε α} (effects : 0 < run.trail.length) :
    run.final start ∈ run.trail := by
  unfold final
  cases trail : run.trail with
  | nil => simp [trail] at effects
  | cons head tail =>
      rw [List.getLastD_cons]
      exact List.getLastD_mem_cons ..

/-- The final state is one of the cuts: a process may also be killed too late. -/
theorem final_mem_cuts (start : σ) (run : Run σ ε α) : run.final start ∈ run.cuts start := by
  by_cases effects : 0 < run.trail.length
  · exact List.mem_cons_of_mem _ (final_mem_trail effects)
  · rw [Nat.pos_iff_ne_zero, not_not, List.length_eq_zero_iff] at effects
    simp [final, cuts, effects]

/-- A run that goes on where another ended ends where its second part does. -/
theorem final_append {ε' β : Type} (start : σ) (trail : List σ) (later : Run σ ε' β)
    (result : Except ε α) :
    Run.final start ⟨trail ++ later.trail, result⟩ = later.final (trail.getLastD start) := by
  unfold final
  cases last : later.trail.getLast? <;> simp [List.getLastD_eq_getLast?, last]

/-- The same effects, and a return of the one whenever the other returns. -/
structure Alike {ε' : Type} (left : Run σ ε Unit) (right : Run σ ε' Unit) : Prop where
  trail : left.trail = right.trail
  returns : left.result = .ok () ↔ right.result = .ok ()

namespace Alike

variable {ε' : Type} {left : Run σ ε Unit} {right : Run σ ε' Unit}

theorem refl (run : Run σ ε Unit) : Alike run run := ⟨rfl, Iff.rfl⟩

theorem final (alike : Alike left right) (start : σ) : left.final start = right.final start := by
  unfold Run.final
  rw [alike.trail]

end Alike

end Run

/-- A program over a store of type `σ`, with faults in `ε` and results in `α`. -/
def Prog (σ ε α : Type) := σ → Run σ ε α

namespace Prog

variable {σ ε α β : Type}

/-- Return a value without touching the store. -/
def done (value : α) : Prog σ ε α :=
  fun _ => ⟨[], .ok value⟩

/-- Raise a fault. -/
def raise (fault : ε) : Prog σ ε α :=
  fun _ => ⟨[], .error fault⟩

/-- Observe the store; the observation itself may fault. -/
def observe (look : σ → Except ε α) : Prog σ ε α :=
  fun state => ⟨[], look state⟩

/-- Perform one atomic effect, or fault and leave the store as it was. -/
def perform (act : σ → Except ε σ) : Prog σ ε Unit :=
  fun state =>
    match act state with
    | .ok next => ⟨[next], .ok ()⟩
    | .error fault => ⟨[], .error fault⟩

/-- Run `first`, then the continuation on its value; a fault skips the rest. -/
def andThen (first : Prog σ ε α) (rest : α → Prog σ ε β) : Prog σ ε β :=
  fun state =>
    let opening := first state
    match opening.result with
    | .error fault => ⟨opening.trail, .error fault⟩
    | .ok value =>
        let closing := rest value (opening.final state)
        ⟨opening.trail ++ closing.trail, closing.result⟩

instance : Monad (Prog σ ε) where
  pure := done
  bind := andThen

/-- Turn the fault of a program into a value, as an `except` clause does. -/
def attempt (program : Prog σ ε α) : Prog σ ε (Except ε α) :=
  fun state =>
    let run := program state
    ⟨run.trail, .ok run.result⟩

/-- Translate the faults of a program. -/
def mapFault {ε' : Type} (translate : ε → ε') (program : Prog σ ε α) : Prog σ ε' α :=
  fun state =>
    let run := program state
    ⟨run.trail, run.result.mapError translate⟩

/-- Run one program for each element of a list, in order. -/
def forEach (items : List β) (body : β → Prog σ ε Unit) : Prog σ ε Unit :=
  match items with
  | [] => done ()
  | item :: rest => andThen (body item) fun _ => forEach rest body

theorem forEach_cons (item : β) (rest : List β) (body : β → Prog σ ε Unit) :
    forEach (item :: rest) body = body item >>= fun _ => forEach rest body := rfl

/-- A loop over computed items. -/
theorem forEach_map {γ : Type} (items : List γ) (name : γ → β) (body : β → Prog σ ε Unit) :
    forEach (items.map name) body = forEach items fun item => body (name item) := by
  induction items with
  | nil => rfl
  | cons item rest inductionHypothesis => rw [List.map_cons, forEach, forEach, inductionHypothesis]

/-- Loops whose bodies agree on every item. -/
theorem forEach_congr {items : List β} {body other : β → Prog σ ε Unit}
    (same : ∀ item ∈ items, body item = other item) : forEach items body = forEach items other := by
  induction items with
  | nil => rfl
  | cons item rest inductionHypothesis =>
      rw [forEach, forEach, same item List.mem_cons_self,
        inductionHypothesis fun later member => same later (List.mem_cons_of_mem _ member)]

section Equations

variable (state : σ)

@[simp]
theorem pure_apply (value : α) : (pure value : Prog σ ε α) state = ⟨[], .ok value⟩ := rfl

@[simp]
theorem raise_apply (fault : ε) : (raise fault : Prog σ ε α) state = ⟨[], .error fault⟩ := rfl

@[simp]
theorem observe_apply (look : σ → Except ε α) : observe look state = ⟨[], look state⟩ := rfl

theorem bind_apply (first : Prog σ ε α) (rest : α → Prog σ ε β) :
    (first >>= rest) state = andThen first rest state := rfl

/-- A sequence whose first part succeeds continues from the state it left. -/
theorem bind_ok {first : Prog σ ε α} {rest : α → Prog σ ε β} {trail : List σ} {value : α}
    (opening : first state = ⟨trail, .ok value⟩) :
    (first >>= rest) state =
      ⟨trail ++ (rest value (trail.getLastD state)).trail,
        (rest value (trail.getLastD state)).result⟩ := by
  simp [bind_apply, andThen, opening, Run.final]

/-- A sequence whose first part faults performs nothing more. -/
theorem bind_error {first : Prog σ ε α} {rest : α → Prog σ ε β} {trail : List σ} {fault : ε}
    (opening : first state = ⟨trail, .error fault⟩) :
    (first >>= rest) state = ⟨trail, .error fault⟩ := by
  simp [bind_apply, andThen, opening]

/-- Sequencing after an effect-free step that succeeded. -/
theorem bind_quiet {first : Prog σ ε α} {rest : α → Prog σ ε β} {value : α}
    (opening : first state = ⟨[], .ok value⟩) :
    (first >>= rest) state = rest value state := by
  simp [bind_ok state opening]

/-- Sequencing after an observation which returned. -/
theorem observe_bind_ok {look : σ → Except ε α} {rest : α → Prog σ ε β} {value : α}
    (looked : look state = .ok value) : (observe look >>= rest) state = rest value state :=
  bind_quiet state (by rw [observe_apply, looked])

/-- A sequence that starts with an observation: it faults there, or goes on with the value. -/
theorem observe_bind_cases (look : σ → Except ε α) (rest : α → Prog σ ε β) :
    (∃ fault, look state = .error fault ∧ (observe look >>= rest) state = ⟨[], .error fault⟩) ∨
      ∃ value, look state = .ok value ∧ (observe look >>= rest) state = rest value state := by
  cases looked : look state with
  | error fault => exact Or.inl ⟨fault, rfl, bind_error state (by rw [observe_apply, looked])⟩
  | ok value => exact Or.inr ⟨value, rfl, bind_quiet state (by rw [observe_apply, looked])⟩

/-- An observation and what follows it: the result is that of the two in sequence. -/
theorem result_observe_bind (look : σ → Except ε α) (rest : α → Prog σ ε β) :
    ((observe look >>= rest) state).result = look state >>= fun value => (rest value state).result := by
  rcases observe_bind_cases state look rest with ⟨fault, looked, run⟩ | ⟨value, looked, run⟩
  · rw [run, looked]
    rfl
  · rw [run, looked]
    rfl

/-- A value that is only rearranged leaves the result of the first part. -/
theorem result_bind_pure (first : Prog σ ε α) (value : α → β) :
    ((first >>= fun result => pure (value result)) state).result = (first state).result.map value := by
  cases run : first state with
  | mk trail result =>
      cases result with
      | error fault =>
          rw [bind_error state run]
          rfl
      | ok returned =>
          rw [bind_ok state run]
          rfl

/-- A sequence that returns has a first part that returned. -/
theorem bind_returns {first : Prog σ ε α} {rest : α → Prog σ ε β} {value : β}
    (returned : ((first >>= rest) state).result = .ok value) :
    ∃ trail middle, first state = ⟨trail, .ok middle⟩ ∧
      (rest middle (trail.getLastD state)).result = .ok value := by
  cases run : first state with
  | mk trail result =>
      cases result with
      | error fault =>
          rw [bind_error state run] at returned
          cases returned
      | ok middle =>
          rw [bind_ok state run] at returned
          exact ⟨trail, middle, rfl, returned⟩

/-- Translating faults leaves a returned value as it is. -/
theorem mapFault_returns {ε' : Type} {translate : ε → ε'} {program : Prog σ ε α} {value : α} :
    (mapFault translate program state).result = .ok value ↔ (program state).result = .ok value := by
  unfold mapFault
  cases run : (program state).result <;> simp [run, Except.mapError]

/-- Translating faults changes no effect. -/
theorem mapFault_alike {ε' : Type} (translate : ε → ε') (program : Prog σ ε Unit) :
    Run.Alike (mapFault translate program state) (program state) := by
  refine ⟨rfl, ?_⟩
  unfold mapFault
  cases run : (program state).result <;> simp [run, Except.mapError]

/-- What the first part of a sequence leaves behind, the sequence leaves behind. -/
theorem mem_trail_bind {first : Prog σ ε α} {rest : α → Prog σ ε β} {cut : σ}
    (member : cut ∈ (first state).trail) : cut ∈ ((first >>= rest) state).trail := by
  cases run : first state with
  | mk trail result =>
      rw [run] at member
      cases result with
      | error fault =>
          rw [bind_error state run]
          exact member
      | ok value =>
          rw [bind_ok state run]
          exact List.mem_append_left _ member

/-- Returning a value afterwards has no effect. -/
theorem trail_bind_pure (first : Prog σ ε α) (value : β) :
    ((first >>= fun _ => pure value) state).trail = (first state).trail := by
  cases run : first state with
  | mk trail result =>
      cases result with
      | error fault => rw [bind_error state run]
      | ok middle => rw [bind_ok state run]; simp

/-- Returning a value afterwards leaves the store as it is. -/
theorem final_bind_pure (first : Prog σ ε α) (value : β) :
    ((first >>= fun _ => pure value) state).final state = (first state).final state := by
  unfold Run.final
  rw [trail_bind_pure]

/-- Sequencing is associative. -/
theorem bind_assoc {γ : Type} (first : Prog σ ε α) (second : α → Prog σ ε β)
    (third : β → Prog σ ε γ) :
    ((first >>= second) >>= third) state = (first >>= fun value => second value >>= third) state := by
  cases run : first state with
  | mk trail result =>
      cases result with
      | error fault => rw [bind_error state run, bind_error state (bind_error state run)]
      | ok value =>
          rw [bind_ok state run]
          cases later : second value (trail.getLastD state) with
          | mk trail' result' =>
              have opening := @bind_ok _ _ _ _ state first second _ _ run
              rw [later] at opening
              cases result' with
              | error fault => rw [bind_error state opening, bind_error _ later]
              | ok other =>
                  rw [bind_ok state opening, bind_ok _ later]
                  simp [List.getLastD_eq_getLast?]

/-- Two lists of items, one after the other. -/
theorem forEach_append (early later : List β) (body : β → Prog σ ε Unit) :
    forEach (early ++ later) body state =
      (forEach early body >>= fun _ => forEach later body) state := by
  induction early generalizing state with
  | nil => rfl
  | cons item rest inductionHypothesis =>
      have same : forEach (rest ++ later) body =
          forEach rest body >>= fun _ => forEach later body := funext inductionHypothesis
      rw [List.cons_append, forEach, same]
      exact (bind_assoc state _ _ _).symm

/-- A loop over one item. -/
theorem forEach_singleton (item : β) (body : β → Prog σ ε Unit) :
    forEach [item] body state = body item state := by
  rw [forEach]
  unfold andThen forEach
  cases run : body item state with
  | mk trail result => cases result <;> simp [done]

/-- Sequences are alike when their parts are. -/
theorem alike_bind {ε' : Type} {first : Prog σ ε Unit} {other : Prog σ ε' Unit}
    {rest : Unit → Prog σ ε Unit} {later : Unit → Prog σ ε' Unit}
    (opening : Run.Alike (first state) (other state))
    (closing : (other state).result = .ok () →
      Run.Alike (rest () ((other state).final state)) (later () ((other state).final state))) :
    Run.Alike ((first >>= rest) state) ((other >>= later) state) := by
  have ends := opening.final state
  obtain ⟨sameTrail, returns⟩ := opening
  cases left : first state with
  | mk trail result =>
      cases right : other state with
      | mk trail' result' =>
          rw [left, right] at sameTrail returns ends
          rw [right] at closing
          dsimp only at sameTrail returns
          subst sameTrail
          cases result' with
          | error fault =>
              cases result with
              | ok value => cases returns.mp rfl
              | error fault' =>
                  rw [bind_error state left, bind_error state right]
                  exact ⟨rfl, by simp⟩
          | ok value =>
              cases result with
              | error fault' => cases returns.mpr rfl
              | ok value' =>
                  rw [bind_ok state left, bind_ok state right]
                  obtain ⟨laterTrail, laterReturns⟩ := closing rfl
                  exact ⟨congrArg (trail ++ ·) laterTrail, laterReturns⟩

/-- An effect that applies is the whole trail of its step. -/
theorem perform_ok {act : σ → Except ε σ} {next : σ} (applies : act state = .ok next) :
    perform act state = ⟨[next], .ok ()⟩ := by
  simp [perform, applies]

/-- An effect that faults leaves no trail. -/
theorem perform_error {act : σ → Except ε σ} {fault : ε} (faults : act state = .error fault) :
    perform act state = ⟨[], .error fault⟩ := by
  simp [perform, faults]

end Equations

/-- From every state satisfying `inv`, every cut of the program satisfies `inv`. -/
def Always (inv : σ → Prop) (program : Prog σ ε α) : Prop :=
  ∀ state, inv state → ∀ cut ∈ (program state).trail, inv cut

namespace Always

variable {inv : σ → Prop}

/-- An invariant that holds at every cut holds of the final state too. -/
theorem final {program : Prog σ ε α} (always : Always inv program) {state : σ}
    (holds : inv state) : inv ((program state).final state) := by
  have member := Run.final_mem_cuts state (program state)
  rcases List.mem_cons.mp member with here | onTrail
  · rw [here]
    exact holds
  · exact always state holds _ onTrail

theorem pure (value : α) : Always inv (Pure.pure value : Prog σ ε α) := by
  intro state _ cut member
  simp at member

theorem raise (fault : ε) : Always inv (Prog.raise fault : Prog σ ε α) := by
  intro state _ cut member
  simp at member

theorem observe (look : σ → Except ε α) : Always inv (Prog.observe look) := by
  intro state _ cut member
  simp at member

/-- One atomic effect keeps the invariant when its successful outcome does. -/
theorem perform {act : σ → Except ε σ}
    (keeps : ∀ state next, inv state → act state = .ok next → inv next) :
    Always inv (Prog.perform act) := by
  intro state holds cut member
  unfold Prog.perform at member
  split at member
  · next next applies =>
      rw [List.mem_singleton.mp member]
      exact keeps state _ holds applies
  · simp at member

/-- Sequencing keeps an invariant; the continuation may use how its value arose. -/
theorem bind_of {first : Prog σ ε α} {rest : α → Prog σ ε β}
    (opening : Always inv first)
    (closing : ∀ state value, inv state → (first state).result = .ok value →
      ∀ cut ∈ (rest value ((first state).final state)).trail, inv cut) :
    Always inv (first >>= rest) := by
  intro state holds cut member
  rw [bind_apply] at member
  unfold andThen at member
  dsimp only at member
  split at member
  · exact opening state holds cut member
  · next value succeeded =>
      rcases List.mem_append.mp member with early | late
      · exact opening state holds cut early
      · exact closing state value holds succeeded cut late

/-- Sequencing keeps an invariant that both parts keep. -/
theorem bind {first : Prog σ ε α} {rest : α → Prog σ ε β}
    (opening : Always inv first) (closing : ∀ value, Always inv (rest value)) :
    Always inv (first >>= rest) :=
  bind_of opening fun _ value holds _ cut member =>
    closing value _ (opening.final holds) cut member

/-- Sequencing after a check that does not look at the store. -/
theorem bind_check {look : Except ε α} {rest : α → Prog σ ε β}
    (closing : ∀ value, look = .ok value → Always inv (rest value)) :
    Always inv ((Prog.observe fun _ => look) >>= rest) :=
  bind_of (observe _) fun state value holds returned => closing value returned state holds

theorem attempt {program : Prog σ ε α} (always : Always inv program) :
    Always inv (Prog.attempt program) :=
  always

theorem mapFault {ε' : Type} {translate : ε → ε'} {program : Prog σ ε α}
    (always : Always inv program) : Always inv (Prog.mapFault translate program) :=
  always

/-- A loop keeps an invariant that each of its iterations keeps. -/
theorem forEach {items : List β} {body : β → Prog σ ε Unit}
    (iteration : ∀ item ∈ items, Always inv (body item)) :
    Always inv (Prog.forEach items body) := by
  induction items with
  | nil => exact pure ()
  | cons item rest inductionHypothesis =>
      exact bind (iteration item List.mem_cons_self) fun _ =>
        inductionHypothesis fun later member =>
          iteration later (List.mem_cons_of_mem _ member)

end Always

/-- From `pre`, every cut satisfies `cut`, and a returned value satisfies `post`. -/
def Ensures (pre : σ → Prop) (program : Prog σ ε α) (cut : σ → Prop) (post : α → σ → Prop) : Prop :=
  ∀ state, pre state → (∀ left ∈ (program state).trail, cut left) ∧
    ∀ value, (program state).result = .ok value → post value ((program state).final state)

namespace Ensures

variable {pre cut : σ → Prop}

theorem pure {value : α} {post : α → σ → Prop} (holds : ∀ state, pre state → post value state) :
    Ensures pre (Pure.pure value : Prog σ ε α) cut post := by
  intro state start
  refine ⟨fun left member => by simp at member, fun other returned => ?_⟩
  cases returned
  exact holds state start

theorem raise {fault : ε} {post : α → σ → Prop} : Ensures pre (Prog.raise fault) cut post := by
  intro state _
  refine ⟨fun left member => by simp at member, fun other returned => ?_⟩
  cases returned

theorem observe {look : σ → Except ε α} {post : α → σ → Prop}
    (holds : ∀ state value, pre state → look state = .ok value → post value state) :
    Ensures pre (Prog.observe look) cut post := by
  intro state start
  exact ⟨fun left member => by simp at member, fun value returned => holds state value start returned⟩

theorem perform {act : σ → Except ε σ} {post : Unit → σ → Prop}
    (holds : ∀ state next, pre state → act state = .ok next → cut next ∧ post () next) :
    Ensures pre (Prog.perform act) cut post := by
  intro state start
  cases applies : act state with
  | error fault =>
      rw [perform_error state applies]
      exact ⟨fun left member => by simp at member, fun value returned => by cases returned⟩
  | ok next =>
      rw [perform_ok state applies]
      obtain ⟨atCut, atEnd⟩ := holds state next start applies
      refine ⟨fun left member => ?_, fun value _ => atEnd⟩
      rw [List.mem_singleton.mp member]
      exact atCut

/-- Sequencing: the first part's postcondition is the second part's precondition. -/
theorem bind {first : Prog σ ε α} {rest : α → Prog σ ε β} {middle : α → σ → Prop}
    {post : β → σ → Prop} (opening : Ensures pre first cut middle)
    (closing : ∀ value, Ensures (middle value) (rest value) cut post) :
    Ensures pre (first >>= rest) cut post := by
  intro state start
  obtain ⟨early, returns⟩ := opening state start
  cases run : first state with
  | mk trail result =>
      rw [run] at early returns
      cases result with
      | error fault =>
          rw [bind_error state run]
          exact ⟨early, fun value returned => by cases returned⟩
      | ok value =>
          rw [bind_ok state run]
          obtain ⟨late, finishes⟩ := closing value _ (returns value rfl)
          refine ⟨fun left member => ?_, fun other returned => ?_⟩
          · rcases List.mem_append.mp member with first | second
            · exact early left first
            · exact late left second
          · rw [Run.final_append]
            exact finishes other returned

/-- Sequencing after a step which also settles a fact about its value. -/
theorem bind_fact {first : Prog σ ε α} {rest : α → Prog σ ε β} {middle : σ → Prop}
    {fact : α → Prop} {post : β → σ → Prop}
    (opening : Ensures pre first cut fun value state => middle state ∧ fact value)
    (closing : ∀ value, fact value → Ensures middle (rest value) cut post) :
    Ensures pre (first >>= rest) cut post :=
  bind opening fun value state held => closing value held.2 state held.1

/-- Sequencing after an observation, given a fact about whatever it returns. -/
theorem bind_observe {look : σ → Except ε α} {rest : α → Prog σ ε β} {post : β → σ → Prop}
    (fact : α → Prop) (looks : ∀ state value, pre state → look state = .ok value → fact value)
    (closing : ∀ value, fact value → Ensures pre (rest value) cut post) :
    Ensures pre (Prog.observe look >>= rest) cut post :=
  bind_fact (observe fun state value start looked => ⟨start, looks state value start looked⟩) closing

/-- Sequencing after a check that does not look at the store. -/
theorem bind_check {look : Except ε α} {rest : α → Prog σ ε β} {post : β → σ → Prop}
    (closing : ∀ value, look = .ok value → Ensures pre (rest value) cut post) :
    Ensures pre ((Prog.observe fun _ => look) >>= rest) cut post :=
  bind_observe _ (fun _ _ _ checked => checked) closing

/-- Catching the fault of a program: what a returned value stands for is still known. -/
theorem attempt {program : Prog σ ε α} {post : α → σ → Prop} (triple : Ensures pre program cut post) :
    Ensures pre (Prog.attempt program) cut fun outcome state =>
      ∀ value, outcome = .ok value → post value state := by
  intro state start
  obtain ⟨early, returns⟩ := triple state start
  refine ⟨early, fun outcome returned value same => ?_⟩
  cases returned
  exact returns value same

/-- Translating faults changes nothing about what is returned. -/
theorem mapFault {ε' : Type} {translate : ε → ε'} {program : Prog σ ε α} {post : α → σ → Prop}
    (triple : Ensures pre program cut post) :
    Ensures pre (Prog.mapFault translate program) cut post := by
  intro state start
  obtain ⟨early, returns⟩ := triple state start
  refine ⟨early, fun value returned => ?_⟩
  unfold Prog.mapFault at returned ⊢
  cases result : (program state).result with
  | error fault => simp [result, Except.mapError] at returned
  | ok other =>
      simp only [result, Except.mapError, Except.ok.injEq] at returned
      subst returned
      exact returns other result

/-- What a program keeps holds beside what it settles. -/
theorem and_always {inv : σ → Prop} {program : Prog σ ε α} {post : α → σ → Prop}
    (triple : Ensures pre program cut post) (always : Always inv program) :
    Ensures (fun state => pre state ∧ inv state) program cut
      (fun value state => post value state ∧ inv state) := by
  rintro state ⟨start, holds⟩
  obtain ⟨early, returns⟩ := triple state start
  exact ⟨early, fun value returned => ⟨returns value returned, always.final holds⟩⟩

/-- An invariant of a program, as a triple. -/
theorem of_always {inv : σ → Prop} {program : Prog σ ε α} (always : Always inv program) :
    Ensures inv program inv fun _ => inv :=
  fun state holds => ⟨always state holds, fun _ _ => always.final holds⟩

/-- Assume more, conclude less. -/
theorem weaken {pre' cut' : σ → Prop} {program : Prog σ ε α} {post post' : α → σ → Prop}
    (triple : Ensures pre program cut post) (stronger : ∀ state, pre' state → pre state)
    (cuts : ∀ state, cut state → cut' state) (posts : ∀ value state, post value state →
      post' value state) : Ensures pre' program cut' post' := by
  intro state start
  obtain ⟨early, returns⟩ := triple state (stronger state start)
  exact ⟨fun left member => cuts left (early left member),
    fun value returned => posts value _ (returns value returned)⟩

end Ensures

/-- From `pre`, the program returns, in `post`, and every cut satisfies `cut`. -/
def Achieves (pre : σ → Prop) (program : Prog σ ε α) (cut : σ → Prop) (post : α → σ → Prop) :
    Prop :=
  ∀ state, pre state → (∀ left ∈ (program state).trail, cut left) ∧
    ∃ value, (program state).result = .ok value ∧ post value ((program state).final state)

namespace Achieves

variable {pre cut : σ → Prop}

/-- A triple whose program always returns. -/
theorem of_ensures {program : Prog σ ε α} {post : α → σ → Prop}
    (triple : Ensures pre program cut post)
    (returns : ∀ state, pre state → ∃ value, (program state).result = .ok value) :
    Achieves pre program cut post := by
  intro state start
  obtain ⟨early, finishes⟩ := triple state start
  obtain ⟨value, returned⟩ := returns state start
  exact ⟨early, value, returned, finishes value returned⟩

theorem ensures {program : Prog σ ε α} {post : α → σ → Prop}
    (triple : Achieves pre program cut post) : Ensures pre program cut post := by
  intro state start
  obtain ⟨early, value, returned, finish⟩ := triple state start
  refine ⟨early, fun other returned' => ?_⟩
  rw [returned] at returned'
  cases returned'
  exact finish

theorem pure {value : α} {post : α → σ → Prop} (holds : ∀ state, pre state → post value state) :
    Achieves pre (Pure.pure value : Prog σ ε α) cut post :=
  of_ensures (Ensures.pure holds) fun _ _ => ⟨value, rfl⟩

theorem observe {look : σ → Except ε α} {post : α → σ → Prop}
    (holds : ∀ state, pre state → ∃ value, look state = .ok value ∧ post value state) :
    Achieves pre (Prog.observe look) cut post := by
  intro state start
  obtain ⟨value, returned, finish⟩ := holds state start
  exact ⟨fun left member => by simp at member, value, returned, finish⟩

theorem perform {act : σ → Except ε σ} {post : Unit → σ → Prop}
    (holds : ∀ state, pre state → ∃ next, act state = .ok next ∧ cut next ∧ post () next) :
    Achieves pre (Prog.perform act) cut post := by
  intro state start
  obtain ⟨next, applies, atCut, atEnd⟩ := holds state start
  rw [perform_ok state applies]
  refine ⟨fun left member => ?_, (), rfl, atEnd⟩
  rw [List.mem_singleton.mp member]
  exact atCut

/-- Sequencing of programs that return. -/
theorem bind {first : Prog σ ε α} {rest : α → Prog σ ε β} {middle : α → σ → Prop}
    {post : β → σ → Prop} (opening : Achieves pre first cut middle)
    (closing : ∀ value, Achieves (middle value) (rest value) cut post) :
    Achieves pre (first >>= rest) cut post := by
  refine of_ensures (Ensures.bind opening.ensures fun value => (closing value).ensures) ?_
  intro state start
  obtain ⟨-, value, returned, held⟩ := opening state start
  obtain ⟨-, other, finished, -⟩ := closing value _ held
  refine ⟨other, ?_⟩
  cases run : first state with
  | mk trail result =>
      rw [run] at returned finished
      simp only at returned
      subst returned
      rw [bind_ok state run]
      exact finished

/-- Sequencing after a step which also settles a fact about its value. -/
theorem bind_fact {first : Prog σ ε α} {rest : α → Prog σ ε β} {middle : σ → Prop}
    {fact : α → Prop} {post : β → σ → Prop}
    (opening : Achieves pre first cut fun value state => middle state ∧ fact value)
    (closing : ∀ value, fact value → Achieves middle (rest value) cut post) :
    Achieves pre (first >>= rest) cut post :=
  bind opening fun value state held => closing value held.2 state held.1

/-- Sequencing after a check that passes and does not look at the store. -/
theorem bind_check {look : Except ε α} {rest : α → Prog σ ε β} {post : β → σ → Prop} {value : α}
    (checked : look = .ok value) (closing : Achieves pre (rest value) cut post) :
    Achieves pre ((Prog.observe fun _ => look) >>= rest) cut post := by
  intro state start
  rw [observe_bind_ok state checked]
  exact closing state start

/-- Assume more, conclude less. -/
theorem weaken {pre' cut' : σ → Prop} {program : Prog σ ε α} {post post' : α → σ → Prop}
    (triple : Achieves pre program cut post) (stronger : ∀ state, pre' state → pre state)
    (cuts : ∀ state, cut state → cut' state) (posts : ∀ value state, post value state →
      post' value state) : Achieves pre' program cut' post' := by
  intro state start
  obtain ⟨early, value, returned, finish⟩ := triple state (stronger state start)
  exact ⟨fun left member => cuts left (early left member), value, returned, posts value _ finish⟩

/-- A step for its effects, and then a value. -/
theorem thenReturn {program : Prog σ ε Unit} {post : σ → Prop}
    (triple : Achieves pre program cut fun _ => post) (value : α) :
    Achieves pre (program >>= fun _ => Pure.pure value) cut
      fun other state => other = value ∧ post state :=
  bind triple fun _ => pure fun _ held => ⟨rfl, held⟩

end Achieves

/-- Whatever fault the program ends with is among the allowed ones. -/
def RaisesOnly (allowed : ε → Prop) (program : Prog σ ε α) : Prop :=
  ∀ state fault, (program state).result = .error fault → allowed fault

namespace RaisesOnly

variable {allowed : ε → Prop}

theorem pure (value : α) : RaisesOnly allowed (Pure.pure value : Prog σ ε α) := by
  intro state fault raised
  cases raised

theorem raise {fault : ε} (allows : allowed fault) :
    RaisesOnly allowed (Prog.raise fault : Prog σ ε α) := by
  intro state other raised
  cases raised
  exact allows

theorem perform {act : σ → Except ε σ} (faults : ∀ state fault, act state = .error fault →
    allowed fault) : RaisesOnly allowed (Prog.perform act) := by
  intro state fault raised
  cases acted : act state with
  | ok next =>
      rw [perform_ok state acted] at raised
      cases raised
  | error other =>
      rw [perform_error state acted] at raised
      cases raised
      exact faults state _ acted

/-- A sequence raises what its parts raise. -/
theorem bind {first : Prog σ ε α} {rest : α → Prog σ ε β} (opening : RaisesOnly allowed first)
    (closing : ∀ value, RaisesOnly allowed (rest value)) : RaisesOnly allowed (first >>= rest) := by
  intro state fault raised
  cases run : first state with
  | mk trail result =>
      cases result with
      | error other =>
          rw [bind_error state run] at raised
          cases raised
          exact opening state _ (by rw [run])
      | ok value =>
          rw [bind_ok state run] at raised
          exact closing value _ fault raised

theorem mapFault {ε' : Type} {translate : ε → ε'} {allowed : ε' → Prop} {program : Prog σ ε α}
    (translated : ∀ fault, allowed (translate fault)) :
    RaisesOnly allowed (Prog.mapFault translate program) := by
  intro state fault raised
  unfold Prog.mapFault at raised
  cases result : (program state).result with
  | ok value => simp [result, Except.mapError] at raised
  | error other =>
      simp only [result, Except.mapError, Except.error.injEq] at raised
      rw [← raised]
      exact translated other

theorem forEach {items : List β} {body : β → Prog σ ε Unit}
    (iteration : ∀ item, RaisesOnly allowed (body item)) :
    RaisesOnly allowed (Prog.forEach items body) := by
  induction items with
  | nil => exact pure ()
  | cons item rest inductionHypothesis => exact bind (iteration item) fun _ => inductionHypothesis

end RaisesOnly

/-- The program has no effect on the store, whatever it is run from. -/
def Quiet (program : Prog σ ε α) : Prop := ∀ state, (program state).trail = []

namespace Quiet

theorem pure (value : α) : Quiet (Pure.pure value : Prog σ ε α) := fun _ => rfl

theorem raise (fault : ε) : Quiet (Prog.raise fault : Prog σ ε α) := fun _ => rfl

theorem observe (look : σ → Except ε α) : Quiet (Prog.observe look) := fun _ => rfl

/-- A sequence of quiet parts is quiet. -/
theorem bind {first : Prog σ ε α} {rest : α → Prog σ ε β} (opening : Quiet first)
    (closing : ∀ value, Quiet (rest value)) : Quiet (first >>= rest) := by
  intro state
  cases run : first state with
  | mk trail result =>
      have silent : trail = [] := by
        have opened := opening state
        rwa [run] at opened
      subst silent
      cases result with
      | error fault => rw [bind_error state run]
      | ok value => rw [bind_quiet state run, closing value state]

/-- A quiet rest adds no effect to what comes before it. -/
theorem trail_bind (first : Prog σ ε α) {rest : α → Prog σ ε β}
    (closing : ∀ value, Quiet (rest value)) (state : σ) :
    ((first >>= rest) state).trail = (first state).trail := by
  cases run : first state with
  | mk trail result =>
      cases result with
      | error fault => rw [bind_error state run]
      | ok value => rw [bind_ok state run, closing value, List.append_nil]

theorem attempt {program : Prog σ ε α} (quiet : Quiet program) : Quiet (Prog.attempt program) :=
  quiet

theorem mapFault {ε' : Type} {translate : ε → ε'} {program : Prog σ ε α} (quiet : Quiet program) :
    Quiet (Prog.mapFault translate program) :=
  quiet

end Quiet

/-- Past its first effect the program ends with allowed faults only. -/
def RaisesLate (allowed : ε → Prop) (program : Prog σ ε α) : Prop :=
  ∀ state fault, (program state).result = .error fault → (program state).trail ≠ [] → allowed fault

namespace RaisesLate

variable {allowed : ε → Prop}

theorem of_quiet {program : Prog σ ε α} (quiet : Quiet program) : RaisesLate allowed program :=
  fun state _ _ effects => absurd (quiet state) effects

theorem of_raisesOnly {program : Prog σ ε α} (raises : RaisesOnly allowed program) :
    RaisesLate allowed program :=
  fun state fault raised _ => raises state fault raised

/-- What has no effect may be put in front. -/
theorem bind_quiet {first : Prog σ ε α} {rest : α → Prog σ ε β} (quiet : Quiet first)
    (later : ∀ value, RaisesLate allowed (rest value)) : RaisesLate allowed (first >>= rest) := by
  intro state fault raised effects
  cases run : first state with
  | mk trail result =>
      have silent : trail = [] := by
        have opened := quiet state
        rwa [run] at opened
      subst silent
      cases result with
      | error other =>
          rw [bind_error state run] at effects
          exact absurd rfl effects
      | ok value =>
          rw [Prog.bind_quiet state run] at raised effects
          exact later value state fault raised effects

end RaisesLate

end Prog

end NovelRalph
