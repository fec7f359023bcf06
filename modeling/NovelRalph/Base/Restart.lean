import NovelRalph.Base.Carve

/-!
# Running a program again

A process that was killed is started again from the cut it left behind. A program
can be run again when it ends settled, has nothing to do once settled, and ends
from every cut of a returning run where that run ends. Sequences and loops of
such programs are such programs, as long as the later parts do not unsettle the
earlier ones; making a path with its parents is one.
-/

namespace NovelRalph

namespace Prog

variable {σ ε α : Type}

/-- An effect that returned is the whole trail of its step. -/
theorem perform_returns {act : σ → Except ε σ} {state : σ} {trail : List σ}
    (run : perform act state = ⟨trail, .ok ()⟩) : ∃ next, act state = .ok next ∧ trail = [next] := by
  cases applied : act state with
  | error fault =>
      rw [perform_error state applied] at run
      cases run
  | ok next =>
      rw [perform_ok state applied] at run
      cases run
      exact ⟨next, rfl, rfl⟩

/-- From a store satisfying `inv`, the program can be run again from every cut. -/
structure Resumes (inv settled : σ → Prop) (program : Prog σ ε Unit) : Prop where
  ends : ∀ state, inv state → (program state).result = .ok () →
    settled ((program state).final state)
  still : ∀ state, inv state → settled state → program state = ⟨[], .ok ()⟩
  again : ∀ state, inv state → (program state).result = .ok () → ∀ cut ∈ (program state).trail,
    (program cut).result = .ok () ∧ (program cut).final cut = (program state).final state

namespace Resumes

variable {inv inv' settled later : σ → Prop} {first rest program : Prog σ ε Unit}

/-- A stronger assumption on the store. -/
theorem strengthen (resumes : Resumes inv settled program) (stronger : ∀ state, inv' state → inv state) :
    Resumes inv' settled program where
  ends state holds := resumes.ends state (stronger state holds)
  still state holds := resumes.still state (stronger state holds)
  again state holds := resumes.again state (stronger state holds)

/-- A program of at most one effect. -/
theorem of_single (keeps : Always inv program)
    (single : ∀ state, inv state → (program state).trail.length ≤ 1)
    (ends : ∀ state, inv state → (program state).result = .ok () →
      settled ((program state).final state))
    (still : ∀ state, inv state → settled state → program state = ⟨[], .ok ()⟩) :
    Resumes inv settled program where
  ends := ends
  still := still
  again state holds returned cut member := by
    have last : (program state).final state = cut := by
      have short := single state holds
      unfold Run.final
      cases trail : (program state).trail with
      | nil =>
          rw [trail] at member
          cases member
      | cons head tail =>
          rw [trail] at member short
          have none : tail = [] := by
            rw [List.length_cons] at short
            exact List.length_eq_zero_iff.mp (by omega)
          subst none
          exact (List.mem_singleton.mp member).symm
    have quiet := still cut (keeps state holds cut member) (last ▸ ends state holds returned)
    rw [quiet]
    exact ⟨rfl, last.symm⟩

/-- A sequence whose second part leaves the first one settled. -/
theorem bind (opening : Resumes inv settled first)
    (closing : Resumes (fun state => inv state ∧ settled state) later rest)
    (keeps : Always inv first) (stays : Always (fun state => inv state ∧ settled state) rest) :
    Resumes inv (fun state => settled state ∧ later state) (first >>= fun _ => rest) where
  ends state holds returned := by
    obtain ⟨trail, ⟨⟩, opened, ended⟩ := bind_returns state returned
    have middle : (first state).final state = trail.getLastD state := by rw [opened]; rfl
    have settled' := opening.ends state holds (by rw [opened])
    have holds' := keeps.final holds
    rw [middle] at settled' holds'
    rw [bind_ok state opened, Run.final_append]
    exact ⟨(stays.final ⟨holds', settled'⟩).2, closing.ends _ ⟨holds', settled'⟩ ended⟩
  still state holds both := by
    rw [bind_quiet state (opening.still state holds both.1)]
    exact closing.still state ⟨holds, both.1⟩ both.2
  again state holds returned cut member := by
    obtain ⟨trail, ⟨⟩, opened, ended⟩ := bind_returns state returned
    have middle : (first state).final state = trail.getLastD state := by rw [opened]; rfl
    have settled' := opening.ends state holds (by rw [opened])
    have holds' := keeps.final holds
    rw [middle] at settled' holds'
    rw [bind_ok state opened] at member ⊢
    rw [Run.final_append]
    rcases List.mem_append.mp member with early | late
    · -- killed in the first part: it is run again, and the second part starts where it did
      obtain ⟨returns, same⟩ := opening.again state holds (by rw [opened]) cut (by rw [opened]; exact early)
      rw [middle] at same
      cases reopened : first cut with
      | mk trail' result' =>
          rw [reopened] at returns same
          dsimp only at returns
          subst returns
          change trail'.getLastD cut = _ at same
          rw [bind_ok cut reopened, Run.final_append, same]
          exact ⟨ended, rfl⟩
    · -- killed in the second part: the first one has nothing left to do
      have still := stays _ ⟨holds', settled'⟩ cut late
      rw [bind_quiet cut (opening.still cut still.1 still.2)]
      exact closing.again _ ⟨holds', settled'⟩ ended cut late

/-- A loop over items that do not unsettle one another. -/
theorem forEach {β : Type} {items : List β} {body : β → Prog σ ε Unit} {settled : β → σ → Prop}
    (each : ∀ item ∈ items, Resumes inv (settled item) (body item))
    (keeps : ∀ item ∈ items, Always inv (body item))
    (stays : ∀ item ∈ items, ∀ other ∈ items,
      Always (fun state => inv state ∧ settled other state) (body item)) :
    Resumes inv (fun state => ∀ item ∈ items, settled item state) (Prog.forEach items body) := by
  induction items generalizing inv with
  | nil =>
      exact {
        ends := fun _ _ _ item member => absurd member List.not_mem_nil
        still := fun _ _ _ => rfl
        again := fun _ _ _ cut member => absurd member List.not_mem_nil }
  | cons item rest inductionHypothesis =>
      have here := List.mem_cons_self (a := item) (l := rest)
      have there : ∀ other ∈ rest, other ∈ item :: rest := fun _ => List.mem_cons_of_mem item
      have closing : Resumes (fun state => inv state ∧ settled item state)
          (fun state => ∀ other ∈ rest, settled other state) (Prog.forEach rest body) := by
        refine inductionHypothesis
          (fun other member => (each other (there other member)).strengthen fun _ both => both.1)
          (fun other member => stays other (there other member) item here)
          (fun other member third member' state both => ?_)
        intro cut left
        have first := stays other (there other member) item here state both.1 cut left
        have second := stays other (there other member) third (there third member') state
          ⟨both.1.1, both.2⟩ cut left
        exact ⟨first, second.2⟩
      have whole := (each item here).bind closing (keeps item here)
        (Always.forEach fun other member => stays other (there other member) item here)
      exact {
        ends := fun state holds returned => List.forall_mem_cons.mpr (whole.ends state holds returned)
        still := fun state holds settled' =>
          whole.still state holds (List.forall_mem_cons.mp settled')
        again := whole.again }

/-- A program with the effects of one that can be run again. -/
theorem of_alike {ε' : Type} {other : Prog σ ε' Unit} (resumes : Resumes inv settled other)
    (keeps : Always inv other) (alike : ∀ state, inv state → Run.Alike (program state) (other state)) :
    Resumes inv settled program where
  ends state holds returned := by
    rw [(alike state holds).final]
    exact resumes.ends state holds ((alike state holds).returns.mp returned)
  still state holds settled' := by
    have same := alike state holds
    rw [resumes.still state holds settled'] at same
    have returned := same.returns.mpr rfl
    have quiet := same.trail
    cases run : program state with
    | mk trail result =>
        rw [run] at returned quiet
        dsimp only at returned quiet
        rw [returned, quiet]
  again state holds returned cut member := by
    have same := alike state holds
    rw [same.trail] at member
    have here := alike cut (keeps state holds cut member)
    obtain ⟨returns, ends⟩ := resumes.again state holds (same.returns.mp returned) cut member
    rw [here.final, same.final]
    exact ⟨here.returns.mpr returns, ends⟩

end Resumes

end Prog

/-! ## Paths -/

namespace DirStore

variable {σ : Type} {store : DirStore σ} (lawful : store.Lawful)

include lawful

/-- Clearing a step from a directory takes no directory away. -/
theorem always_clear_step (base other : Loc) (name : String) :
    Prog.Always (fun state => store.layout state base = some .dir ∧ store.layout state other = some .dir)
      (store.clear (Layout.stepInto base name)) := by
  intro state holds cut member
  rcases store.place_cases state (Layout.stepInto base name) with there | ⟨free, short⟩ | blocks
  · rw [clear_dir there] at member
    cases member
  · rw [clear_free free short] at member
    rw [List.mem_singleton.mp member]
    have makes := lawful.makes state base name holds.1 free
    rw [makes, makes, holds.1, holds.2, ite_self, ite_self]
    exact ⟨rfl, rfl⟩
  · obtain ⟨fault, -, stops⟩ := clear_blocked blocks
    rw [stops] at member
    cases member

/-- From a directory, one step can be cleared again. -/
theorem resumes_clear (base : Loc) (name : String) :
    Prog.Resumes (fun state => store.layout state base = some .dir)
      (fun state => store.layout state (Layout.stepInto base name) = some .dir)
      (store.clear (Layout.stepInto base name)) := by
  refine .of_single (fun state here cut member => ?_) (fun state here => ?_)
    (fun state here returned => ?_) (fun state here there => ?_)
  · exact (always_clear_step lawful base base name state ⟨here, here⟩ cut member).1
  · rcases store.place_cases state (Layout.stepInto base name) with there | ⟨free, short⟩ | blocks
    · rw [clear_dir there]
      exact Nat.zero_le 1
    · rw [clear_free free short]
      exact Nat.le_refl 1
    · obtain ⟨fault, -, stops⟩ := clear_blocked blocks
      rw [stops]
      exact Nat.zero_le 1
  · rcases store.place_cases state (Layout.stepInto base name) with there | ⟨free, short⟩ | blocks
    · rw [clear_dir there]
      exact there
    · rw [clear_free free short]
      show store.layout (store.addDir state _) _ = _
      rw [lawful.makes state base name here free, if_pos rfl]
    · obtain ⟨fault, -, stops⟩ := clear_blocked blocks
      rw [stops] at returned
      cases returned
  · exact clear_dir there

/-- Carving a path takes no directory away. -/
theorem always_carve_path (base other : Loc) (parts : List String) :
    Prog.Always (fun state => store.layout state base = some .dir ∧ store.layout state other = some .dir)
      (store.carve (Layout.places base parts)) := by
  induction parts generalizing base other with
  | nil => exact Prog.Always.pure ()
  | cons name rest inductionHypothesis =>
      refine Prog.Always.bind_of (always_clear_step lawful base other name)
        fun state value holds returned cut member => ?_
      have reached := (resumes_clear lawful base name).ends state holds.1 returned
      have stands := (always_clear_step lawful base other name).final holds
      have first := inductionHypothesis (Layout.stepInto base name) base _ ⟨reached, stands.1⟩ cut member
      have second := inductionHypothesis (Layout.stepInto base name) other _ ⟨reached, stands.2⟩ cut member
      exact ⟨first.2, second.2⟩

/-- A path from a directory can be carved again. -/
theorem resumes_carve (base : Loc) (parts : List String) :
    Prog.Resumes (fun state => store.layout state base = some .dir)
      (fun state => ∀ place ∈ Layout.places base parts, store.layout state place = some .dir)
      (store.carve (Layout.places base parts)) := by
  induction parts generalizing base with
  | nil =>
      exact {
        ends := fun _ _ _ place member => absurd member List.not_mem_nil
        still := fun _ _ _ => rfl
        again := fun _ _ _ cut member => absurd member List.not_mem_nil }
  | cons name rest inductionHypothesis =>
      have closing := inductionHypothesis (Layout.stepInto base name)
      have whole := (resumes_clear lawful base name).bind
        (closing.strengthen fun state both => both.2)
        (fun state here cut member => (always_clear_step lawful base base name state ⟨here, here⟩ cut
          member).1)
        (fun state both cut member => (always_carve_path lawful (Layout.stepInto base name) base rest
          state both.symm cut member).symm)
      exact {
        ends := fun state here returned => List.forall_mem_cons.mpr (whole.ends state here returned)
        still := fun state here there => whole.still state here (List.forall_mem_cons.mp there)
        again := whole.again }

/-- `mkdir(parents=True, exist_ok=True)` from a directory can be run again from every cut. -/
theorem resumes_mkdirs (base : Loc) (parts : List String) :
    Prog.Resumes (fun state => store.layout state base = some .dir)
      (fun state => ∀ place ∈ Layout.places base parts, store.layout state place = some .dir)
      (store.mkdirs base parts.reverse) :=
  (resumes_carve lawful base parts).of_alike
    (fun state here cut member =>
      (always_carve_path lawful base base parts state ⟨here, here⟩ cut member).1)
    fun _ here => mkdirs_carves lawful here parts

/-- Making a path takes no directory away. -/
theorem always_mkdirs_dirs (base other : Loc) (parts : List String) :
    Prog.Always (fun state => store.layout state base = some .dir ∧ store.layout state other = some .dir)
      (store.mkdirs base parts.reverse) := by
  intro state holds cut member
  rw [(mkdirs_carves lawful holds.1 parts).trail] at member
  exact always_carve_path lawful base other parts state holds cut member

end DirStore

end NovelRalph
