import Mathlib.Data.List.Basic
import Mathlib.Data.List.Nodup
import Mathlib.Data.List.Perm.Basic
import Mathlib.Algebra.BigOperators.Group.Finset.Basic
import Mathlib.Algebra.BigOperators.Group.List.Basic

/-!
# Insertion-ordered dictionaries

An association list is read with `List.lookup` and written with `assign`, which
keeps the place of a present key and appends a new one. `Dict κ α` adds the
distinctness of its keys as a field, so lookups, key sets and sums of values
need no side condition. Two dictionaries with the same lookups hold the same
entries up to order (`perm_of_get?`) and so have the same sum of values.
-/

namespace NovelRalph

section Association

variable {κ α : Type} [DecidableEq κ]

/-- Assign a key in an association list: a present key keeps its place. -/
def assign (key : κ) (value : α) : List (κ × α) → List (κ × α)
  | [] => [(key, value)]
  | entry :: rest =>
      if entry.1 = key then (key, value) :: rest else entry :: assign key value rest

/-- Drop every entry of a key. -/
def discard (key : κ) (entries : List (κ × α)) : List (κ × α) :=
  entries.filter fun entry => entry.1 ≠ key

/-- A lookup decides on the first entry. -/
theorem lookup_entry (wanted : κ) (entry : κ × α) (rest : List (κ × α)) :
    (entry :: rest).lookup wanted =
      if wanted = entry.1 then some entry.2 else rest.lookup wanted := by
  obtain ⟨key, value⟩ := entry
  by_cases here : wanted = key
  · simp [here]
  · simp [List.lookup_cons, beq_false_of_ne here, here]

/-- What a lookup finds after an assignment. -/
theorem lookup_assign (key wanted : κ) (value : α) (entries : List (κ × α)) :
    (assign key value entries).lookup wanted =
      if wanted = key then some value else entries.lookup wanted := by
  induction entries with
  | nil => simp [assign, lookup_entry]
  | cons entry rest inductionHypothesis =>
      by_cases here : entry.1 = key
      · by_cases same : wanted = key <;> simp [assign, lookup_entry, here, same]
      · by_cases first : wanted = entry.1
        · simp [assign, lookup_entry, here, first]
        · simp [assign, lookup_entry, here, first, inductionHypothesis]

@[simp]
theorem lookup_assign_self (key : κ) (value : α) (entries : List (κ × α)) :
    (assign key value entries).lookup key = some value := by
  simp [lookup_assign]

theorem lookup_assign_of_ne {key wanted : κ} (differs : wanted ≠ key) (value : α)
    (entries : List (κ × α)) :
    (assign key value entries).lookup wanted = entries.lookup wanted := by
  simp [lookup_assign, differs]

/-- What a lookup finds after an entry was dropped. -/
theorem lookup_discard (key wanted : κ) (entries : List (κ × α)) :
    (discard key entries).lookup wanted =
      if wanted = key then none else entries.lookup wanted := by
  induction entries with
  | nil => simp [discard]
  | cons entry rest inductionHypothesis =>
      unfold discard at inductionHypothesis ⊢
      by_cases here : entry.1 = key
      · rw [List.filter_cons_of_neg (by simpa using here), inductionHypothesis, lookup_entry]
        by_cases same : wanted = key <;> simp [same, here]
      · rw [List.filter_cons_of_pos (by simpa using here), lookup_entry, inductionHypothesis,
          lookup_entry]
        by_cases first : wanted = entry.1 <;> simp [first, here]

/-- Assigning a present key keeps the key list. -/
theorem keys_assign_of_mem {key : κ} {value : α} {entries : List (κ × α)}
    (present : key ∈ entries.map Prod.fst) :
    (assign key value entries).map Prod.fst = entries.map Prod.fst := by
  induction entries with
  | nil => simp at present
  | cons entry rest inductionHypothesis =>
      by_cases here : entry.1 = key
      · simp [assign, here]
      · have later : key ∈ rest.map Prod.fst := by
          simpa [Ne.symm here] using present
        simp only [assign, here, if_false, List.map_cons, inductionHypothesis later]

/-- Assigning a new key appends it. -/
theorem assign_of_not_mem {key : κ} {value : α} {entries : List (κ × α)}
    (absent : key ∉ entries.map Prod.fst) :
    assign key value entries = entries ++ [(key, value)] := by
  induction entries with
  | nil => rfl
  | cons entry rest inductionHypothesis =>
      rw [List.map_cons, List.mem_cons, not_or] at absent
      simp [assign, Ne.symm absent.1, inductionHypothesis absent.2]

/-- Assignment keeps the keys distinct. -/
theorem nodup_assign {key : κ} {value : α} {entries : List (κ × α)}
    (distinct : (entries.map Prod.fst).Nodup) :
    ((assign key value entries).map Prod.fst).Nodup := by
  by_cases present : key ∈ entries.map Prod.fst
  · rw [keys_assign_of_mem present]
    exact distinct
  · rw [assign_of_not_mem present, List.map_append]
    exact List.nodup_append.mpr ⟨distinct, List.nodup_singleton _, fun a member b single => by
      rw [List.mem_singleton.mp single]
      rintro rfl
      exact present member⟩

end Association

/-- A finite map whose entries are kept in insertion order. -/
structure Dict (κ α : Type) where
  entries : List (κ × α)
  nodup : (entries.map Prod.fst).Nodup
  deriving Repr

namespace Dict

variable {κ α β : Type}

@[ext]
theorem ext {left right : Dict κ α} (entries : left.entries = right.entries) : left = right := by
  cases left
  cases right
  cases entries
  rfl

instance [DecidableEq κ] [DecidableEq α] : DecidableEq (Dict κ α) := fun left right =>
  decidable_of_iff (left.entries = right.entries) ⟨ext, congrArg entries⟩

/-- The dictionary without entries. -/
def empty : Dict κ α := ⟨[], List.nodup_nil⟩

/-- The keys in insertion order. -/
def keys (dict : Dict κ α) : List κ := dict.entries.map Prod.fst

/-- The values in insertion order. -/
def values (dict : Dict κ α) : List α := dict.entries.map Prod.snd

theorem keys_nodup (dict : Dict κ α) : dict.keys.Nodup := dict.nodup

variable [DecidableEq κ]

/-- The value stored under a key. -/
def get? (dict : Dict κ α) (key : κ) : Option α := dict.entries.lookup key

/-- Assign a key: a present key keeps its place, a new one goes to the end. -/
def set (dict : Dict κ α) (key : κ) (value : α) : Dict κ α :=
  ⟨assign key value dict.entries, nodup_assign dict.nodup⟩

/-- Assign a list of pairs in order, as a dict comprehension does. -/
def ofPairs (pairs : List (κ × α)) : Dict κ α :=
  pairs.foldl (fun dict pair => dict.set pair.1 pair.2) empty

theorem get?_set (dict : Dict κ α) (key wanted : κ) (value : α) :
    (dict.set key value).get? wanted = if wanted = key then some value else dict.get? wanted :=
  lookup_assign ..

/-- A key is listed exactly when a lookup finds a value for it. -/
theorem mem_keys_iff {dict : Dict κ α} {key : κ} : key ∈ dict.keys ↔ (dict.get? key).isSome := by
  unfold keys get?
  rw [List.lookup_isSome_iff, List.mem_map]
  constructor
  · rintro ⟨entry, member, rfl⟩
    exact ⟨entry, member, by simp⟩
  · rintro ⟨entry, member, same⟩
    exact ⟨entry, member, (by simpa using same : key = entry.1).symm⟩

theorem not_mem_keys_iff {dict : Dict κ α} {key : κ} : key ∉ dict.keys ↔ dict.get? key = none := by
  rw [mem_keys_iff, Option.not_isSome_iff_eq_none]

/-- A lookup finds exactly the listed entry of its key. -/
theorem get?_eq_some_iff {dict : Dict κ α} {key : κ} {value : α} :
    dict.get? key = some value ↔ (key, value) ∈ dict.entries := by
  obtain ⟨entries, nodup⟩ := dict
  show entries.lookup key = some value ↔ (key, value) ∈ entries
  induction entries with
  | nil => simp
  | cons entry rest inductionHypothesis =>
      rw [List.map_cons, List.nodup_cons] at nodup
      obtain ⟨name, stored⟩ := entry
      by_cases here : key = name
      · subst here
        have later : (key, value) ∉ rest := fun member =>
          nodup.1 (List.mem_map.mpr ⟨_, member, rfl⟩)
        simp [later, eq_comm]
      · simp [lookup_entry, here, inductionHypothesis nodup.2]

/-- Dictionaries with the same lookups hold the same entries up to order. -/
theorem perm_of_get? {left right : Dict κ α} (same : ∀ key, left.get? key = right.get? key) :
    left.entries.Perm right.entries := by
  refine (List.perm_ext_iff_of_nodup (List.Nodup.of_map _ left.nodup)
    (List.Nodup.of_map _ right.nodup)).mpr fun (key, value) => ?_
  rw [← get?_eq_some_iff, ← get?_eq_some_iff, same]

/-- Dictionaries with the same lookups have the same sum of values. -/
theorem sum_values_eq [AddCommMonoid α] {left right : Dict κ α}
    (same : ∀ key, left.get? key = right.get? key) : left.values.sum = right.values.sum :=
  ((perm_of_get? same).map Prod.snd).sum_eq

/-- The sum of the values, key by key. -/
theorem sum_values [AddCommMonoid α] (dict : Dict κ α) :
    dict.values.sum = ∑ key ∈ dict.keys.toFinset, (dict.get? key).getD 0 := by
  rw [List.sum_toFinset _ dict.keys_nodup, keys, List.map_map, values]
  refine congrArg List.sum (List.map_congr_left fun (key, value) stored => ?_)
  simp [get?_eq_some_iff.mpr stored]

section Comprehension

variable {ι : Type} {name : ι → κ} {value : ι → α} {items : List ι}

/-- Assigning other keys leaves a lookup as it was. -/
theorem get?_foldl_of_not_mem {wanted : κ} (absent : wanted ∉ items.map name)
    (start : Dict κ α) :
    ((items.map fun item => (name item, value item)).foldl
        (fun dict pair => dict.set pair.1 pair.2) start).get? wanted = start.get? wanted := by
  induction items generalizing start with
  | nil => rfl
  | cons item rest inductionHypothesis =>
      rw [List.map_cons, List.mem_cons, not_or] at absent
      rw [List.map_cons, List.foldl_cons, inductionHypothesis absent.2, get?_set, if_neg absent.1]

/-- When equal names carry equal values, every assigned name finds its value. -/
theorem get?_foldl_of_mem
    (determined : ∀ left ∈ items, ∀ right ∈ items, name left = name right →
      value left = value right)
    {item : ι} (member : item ∈ items) (start : Dict κ α) :
    ((items.map fun item => (name item, value item)).foldl
        (fun dict pair => dict.set pair.1 pair.2) start).get? (name item) =
      some (value item) := by
  induction items generalizing start item with
  | nil => cases member
  | cons first rest inductionHypothesis =>
      rw [List.map_cons, List.foldl_cons]
      by_cases later : name item ∈ rest.map name
      · obtain ⟨other, otherMember, same⟩ := List.mem_map.mp later
        rw [← same, inductionHypothesis
          (fun left l right r => determined left (List.mem_cons_of_mem _ l) right
            (List.mem_cons_of_mem _ r)) otherMember,
          determined other (List.mem_cons_of_mem _ otherMember) item member same]
      · rw [get?_foldl_of_not_mem later, get?_set]
        rcases List.mem_cons.mp member with rfl | inRest
        · rw [if_pos rfl]
        · exact absurd (List.mem_map_of_mem inRest) later

/-- A name of the comprehension finds its value. -/
theorem get?_ofPairs_of_mem
    (determined : ∀ left ∈ items, ∀ right ∈ items, name left = name right →
      value left = value right)
    {item : ι} (member : item ∈ items) :
    (ofPairs (items.map fun item => (name item, value item))).get? (name item) =
      some (value item) :=
  get?_foldl_of_mem determined member empty

/-- Another key finds nothing. -/
theorem get?_ofPairs_of_not_mem {wanted : κ} (absent : wanted ∉ items.map name) :
    (ofPairs (items.map fun item => (name item, value item))).get? wanted = none :=
  get?_foldl_of_not_mem absent empty

/-- The keys of a comprehension are its names. -/
theorem mem_keys_ofPairs {wanted : κ} :
    wanted ∈ (ofPairs (items.map fun item => (name item, value item))).keys ↔
      wanted ∈ items.map name := by
  constructor
  · intro present
    by_contra absent
    rw [mem_keys_iff, get?_ofPairs_of_not_mem absent] at present
    cases present
  · intro member
    have grown : ∀ (rest : List ι) (start : Dict κ α),
        wanted ∈ rest.map name ∨ wanted ∈ start.keys →
        wanted ∈ ((rest.map fun item => (name item, value item)).foldl
          (fun dict pair => dict.set pair.1 pair.2) start).keys := by
      intro rest
      induction rest with
      | nil => simp
      | cons item rest inductionHypothesis =>
          intro start reason
          rw [List.map_cons, List.foldl_cons]
          refine inductionHypothesis _ ?_
          by_cases here : wanted = name item
          · exact Or.inr (by simp [mem_keys_iff, get?_set, here])
          · rw [List.map_cons, List.mem_cons] at reason
            rcases reason with (first | later) | stored
            · exact absurd first here
            · exact Or.inl later
            · exact Or.inr (by rw [mem_keys_iff, get?_set, if_neg here]; exact mem_keys_iff.mp stored)
    exact grown items empty (Or.inl member)

end Comprehension

/-- Assigning the entries of a dictionary in order gives the dictionary back. -/
theorem ofPairs_of_nodup {pairs : List (κ × α)} (distinct : (pairs.map Prod.fst).Nodup) :
    (ofPairs pairs).entries = pairs := by
  have grown : ∀ (rest : List (κ × α)) (start : Dict κ α),
      ((start.entries ++ rest).map Prod.fst).Nodup →
      (rest.foldl (fun dict pair => dict.set pair.1 pair.2) start).entries =
        start.entries ++ rest := by
    intro rest
    induction rest with
    | nil => exact fun start _ => (List.append_nil _).symm
    | cons pair rest inductionHypothesis =>
        intro start distinct
        have fresh : pair.1 ∉ start.entries.map Prod.fst := by
          rw [List.map_append, List.nodup_append] at distinct
          intro member
          exact distinct.2.2 _ member _ (by simp) rfl
        have appended : (start.set pair.1 pair.2).entries = start.entries ++ [pair] :=
          assign_of_not_mem fresh
        have step := inductionHypothesis (start.set pair.1 pair.2)
          (by simpa [appended] using distinct)
        rw [List.foldl_cons, step, appended]
        simp
  simpa [ofPairs, empty] using grown pairs empty (by simpa [empty] using distinct)

end Dict

end NovelRalph
