import NovelRalph.Base.Toml

/-!
# Key paths of a document

A value of a decoded document stands at a path of keys. An edit changes what
stands at its own path, above it and below it, and nothing else: what stands
apart from the paths of all the edits made is kept, however many they are.

`Journaled` says that one table is another after edits of an allowed kind. It is
reflexive and transitive, so it composes along a program and along a run.
-/

namespace NovelRalph

/-- Neither of two paths leads through the other. -/
def Apart (left right : List String) : Prop := ¬left <+: right ∧ ¬right <+: left

instance (left right : List String) : Decidable (Apart left right) :=
  inferInstanceAs (Decidable (_ ∧ _))

theorem Apart.tail {key : String} {left right : List String}
    (apart : Apart (key :: left) (key :: right)) : Apart left right :=
  ⟨fun leads => apart.1 ((List.prefix_cons_inj key).mpr leads),
    fun leads => apart.2 ((List.prefix_cons_inj key).mpr leads)⟩

/-- Nothing is apart from the whole document. -/
theorem Apart.ne_nil {left right : List String} (apart : Apart left right) :
    left ≠ [] ∧ right ≠ [] := by
  constructor
  · rintro rfl
    exact apart.1 (List.nil_prefix)
  · rintro rfl
    exact apart.2 (List.nil_prefix)

/-- Paths below different keys are apart. -/
theorem Apart.of_head {first second : String} (differs : first ≠ second) (left right : List String) :
    Apart (first :: left) (second :: right) :=
  ⟨fun leads => differs (List.cons_prefix_cons.mp leads).1,
    fun leads => differs (List.cons_prefix_cons.mp leads).1.symm⟩

/-- The path an edit is made at. -/
def Edit.path : Edit → List String
  | .set path _ => path
  | .remove key => [key]

namespace Table

/-- What stands at a path of keys. -/
def value? : List String → Table → Option Value
  | [], table => some (.table table)
  | [key], table => table.lookup key
  | key :: next :: rest, table =>
      match table.lookup key with
      | some (.table inner) => value? (next :: rest) inner
      | _ => none

/-- Below a table the path goes on inside it. -/
theorem value?_cons {table inner : Table} {key : String}
    (there : table.lookup key = some (.table inner)) (rest : List String) :
    value? (key :: rest) table = value? rest inner := by
  cases rest with
  | nil => rw [value?, value?, there]
  | cons next later =>
      rw [value?, there]

/-- What stands at a path depends on the entry of its first key. -/
theorem value?_congr {left right : Table} {key : String}
    (same : left.lookup key = right.lookup key) (rest : List String) :
    value? (key :: rest) left = value? (key :: rest) right := by
  cases rest with
  | nil => rw [value?, value?, same]
  | cons next later => rw [value?, value?, same]

/-- An assignment leaves alone what stands apart from its path. -/
theorem value?_setPath {path other : List String} (apart : Apart path other) (value : Value)
    (table : Table) : value? other (setPath path value table) = value? other table := by
  induction path generalizing other table with
  | nil => exact absurd rfl apart.ne_nil.1
  | cons key rest inductionHypothesis =>
      cases other with
      | nil => exact absurd rfl apart.ne_nil.2
      | cons wanted later =>
          by_cases same : wanted = key
          · subst same
            cases rest with
            | nil => exact absurd ((List.prefix_cons_inj wanted).mpr List.nil_prefix) apart.1
            | cons next deeper =>
                simp only [setPath]
                split
                · next inner there =>
                    rw [value?_cons (lookup_assign_self ..), value?_cons there]
                    exact inductionHypothesis apart.tail inner
                · rfl
          · refine value?_congr ?_ later
            cases rest with
            | nil => exact lookup_assign_of_ne same value table
            | cons next deeper =>
                simp only [setPath]
                split
                · exact lookup_assign_of_ne same _ table
                · rfl

/-- An edit leaves alone what stands apart from its path. -/
theorem value?_edit {change : Edit} {other : List String} (apart : Apart change.path other)
    (table : Table) : value? other (table.edit change) = value? other table := by
  cases change with
  | set path value => exact value?_setPath apart value table
  | remove key =>
      cases other with
      | nil => exact absurd rfl apart.ne_nil.2
      | cons wanted later =>
          refine value?_congr ?_ later
          have differs : wanted ≠ key := by
            rintro rfl
            exact apart.1 ((List.prefix_cons_inj wanted).mpr List.nil_prefix)
          rw [edit, lookup_discard, if_neg differs]

/-- One table is another after edits of an allowed kind. -/
def Journaled (allowed : Edit → Prop) (before after : Table) : Prop :=
  ∃ edits : List Edit, (∀ change ∈ edits, allowed change) ∧ after = edits.foldl Table.edit before

namespace Journaled

variable {allowed : Edit → Prop} {before middle after : Table}

theorem refl (table : Table) : Journaled allowed table table :=
  ⟨[], fun _ member => absurd member List.not_mem_nil, rfl⟩

theorem trans (first : Journaled allowed before middle) (second : Journaled allowed middle after) :
    Journaled allowed before after := by
  obtain ⟨edits, good, rfl⟩ := first
  obtain ⟨later, good', rfl⟩ := second
  refine ⟨edits ++ later, fun change member => ?_, (List.foldl_append ..).symm⟩
  exact (List.mem_append.mp member).elim (good change) (good' change)

theorem edits {changes : List Edit} (good : ∀ change ∈ changes, allowed change) :
    Journaled allowed before (changes.foldl Table.edit before) :=
  ⟨changes, good, rfl⟩

theorem edit {change : Edit} (good : allowed change) : Journaled allowed before (before.edit change) :=
  ⟨[change], fun _ member => List.mem_singleton.mp member ▸ good, rfl⟩

theorem mono {wider : Edit → Prop} (journaled : Journaled allowed before after)
    (wide : ∀ change, allowed change → wider change) : Journaled wider before after := by
  obtain ⟨edits, good, same⟩ := journaled
  exact ⟨edits, fun change member => wide change (good change member), same⟩

/-- What every allowed edit keeps, all of them keep. -/
theorem keeps {inv : Table → Prop} (journaled : Journaled allowed before after)
    (step : ∀ change table, allowed change → inv table → inv (table.edit change))
    (holds : inv before) : inv after := by
  obtain ⟨edits, good, rfl⟩ := journaled
  induction edits generalizing before with
  | nil => exact holds
  | cons change rest inductionHypothesis =>
      exact inductionHypothesis (step change before (good change List.mem_cons_self) holds)
        fun later member => good later (List.mem_cons_of_mem _ member)

/-- What stands apart from the paths of all allowed edits is kept. -/
theorem value? {path : List String} (journaled : Journaled allowed before after)
    (apart : ∀ change, allowed change → Apart change.path path) :
    Table.value? path after = Table.value? path before :=
  journaled.keeps (fun change table good kept => (value?_edit (apart change good) table).trans kept)
    rfl

end Journaled

end Table

end NovelRalph
