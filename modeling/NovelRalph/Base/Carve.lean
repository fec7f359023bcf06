import Mathlib.Data.List.Induction
import Mathlib.Data.List.TakeWhile
import NovelRalph.Base.Path

/-!
# Making a path, place by place

`mkdir(parents=True, exist_ok=True)` tries the whole path first and turns back to
the parents only when that fails. Its effects are those of a plain loop: follow
the path, make a directory at every free place, and stop where a file stands or a
name is too long.

`Layout.places` are the places a path leads through and `Layout.cleared` those
before the first blocked one. `DirStore.layout_mkdirsAll` says what making a list of
paths leaves behind, and `DirStore.mkdirsAll_returns` when all can be made.
-/

namespace NovelRalph

namespace Layout

/-- The places the parts of a path lead to, one after the other. -/
def places (loc : Loc) : List String → List Loc
  | [] => []
  | name :: rest => stepInto loc name :: places (stepInto loc name) rest

/-- The place at the end of a path. -/
def ending (loc : Loc) (parts : List String) : Loc :=
  parts.foldl stepInto loc

/-- The places before the first one that is blocked. -/
def cleared (layout : Layout) (places : List Loc) : List Loc :=
  places.takeWhile fun place => !layout.blocked place

/-- Follow a path to a directory, as the parent of a new directory has to be one. -/
def enter (layout : Layout) (loc : Loc) (parts : List String) : Except OsError Loc := do
  let here ← layout.walk loc parts
  match layout here with
  | none => .error (absence here)
  | some .file => .error .notADirectory
  | some .dir => .ok here

/-- The layout with directories at some places. -/
def filled (layout : Layout) (places : List Loc) : Layout := fun loc =>
  if loc ∈ places then some .dir else layout loc

theorem places_append (loc : Loc) (first rest : List String) :
    places loc (first ++ rest) = places loc first ++ places (ending loc first) rest := by
  induction first generalizing loc with
  | nil => rfl
  | cons name names inductionHypothesis =>
      rw [List.cons_append, places, inductionHypothesis, places, List.cons_append]
      rfl

variable {layout : Layout}

theorem blocked_dir {place : Loc} (there : layout place = some .dir) :
    layout.blocked place = false := by
  unfold blocked
  rw [there]

theorem blocked_file {place : Loc} (file : layout place = some .file) :
    layout.blocked place = true := by
  unfold blocked
  rw [file]

theorem blocked_none {place : Loc} (free : layout place = none) :
    layout.blocked place = overlong (place.headD "") := by
  unfold blocked
  rw [free]

/-- A path that leaves a directory goes on from the place its first part leads to. -/
theorem enter_cons {loc : Loc} (here : layout loc = some .dir) (name : String)
    (rest : List String) :
    layout.enter loc (name :: rest) = layout.enter (stepInto loc name) rest := by
  unfold enter
  rw [walk, here]

theorem enter_eq_ok {loc here : Loc} {parts : List String} :
    layout.enter loc parts = .ok here ↔
      layout.walk loc parts = .ok here ∧ layout here = some .dir := by
  unfold enter
  cases layout.walk loc parts with
  | error fault => simp [bind, Except.bind]
  | ok place =>
      simp only [bind, Except.bind, Except.ok.injEq]
      cases kind : layout place with
      | none =>
          simp only [reduceCtorEq, false_iff, not_and]
          rintro rfl
          rw [kind]
          simp
      | some kind' =>
          cases kind' with
          | file =>
              simp only [reduceCtorEq, false_iff, not_and]
              rintro rfl
              rw [kind]
              simp
          | dir =>
              simp only [Except.ok.injEq]
              constructor
              · rintro rfl
                exact ⟨rfl, kind⟩
              · exact fun same => same.1

theorem enter_of_none {loc : Loc} (free : layout loc = none) (parts : List String) :
    layout.enter loc parts = .error (absence loc) := by
  unfold enter
  cases parts with
  | nil =>
      rw [walk]
      simp only [bind, Except.bind, free]
  | cons name rest =>
      rw [walk, free]
      rfl

theorem enter_of_file {loc : Loc} (file : layout loc = some .file) (parts : List String) :
    layout.enter loc parts = .error .notADirectory := by
  unfold enter
  cases parts with
  | nil =>
      rw [walk]
      simp only [bind, Except.bind, file]
  | cons name rest =>
      rw [walk, file]
      rfl

/-- Walking a path is entering its parent and going one step on. -/
theorem walk_concat (loc : Loc) (parts : List String) (name : String) :
    layout.walk loc (parts ++ [name]) =
      (layout.enter loc parts).map fun here => stepInto here name := by
  induction parts generalizing loc with
  | nil =>
      unfold enter
      rw [List.nil_append, walk, walk]
      simp only [bind, Except.bind]
      cases layout loc with
      | none => rfl
      | some kind => cases kind <;> rfl
  | cons first rest inductionHypothesis =>
      cases kind : layout loc with
      | none => rw [enter_of_none kind, List.cons_append, walk, kind]; rfl
      | some kind' =>
          cases kind' with
          | file => rw [enter_of_file kind, List.cons_append, walk, kind]; rfl
          | dir =>
              rw [enter_cons kind, ← inductionHypothesis, List.cons_append, walk, kind]

/-- Through directories alone, a path arrives at its end. -/
theorem enter_of_dirs {loc : Loc} {parts : List String} (here : layout loc = some .dir)
    (dirs : ∀ place ∈ places loc parts, layout place = some .dir) :
    layout.enter loc parts = .ok (ending loc parts) := by
  induction parts generalizing loc with
  | nil => exact enter_eq_ok.mpr ⟨rfl, here⟩
  | cons name rest inductionHypothesis =>
      rw [enter_cons here]
      have next := dirs _ List.mem_cons_self
      exact inductionHypothesis next fun place later => dirs place (List.mem_cons_of_mem _ later)

/-- Every place is cleared exactly when none of them is blocked. -/
theorem cleared_eq_self {places : List Loc} :
    layout.cleared places = places ↔ ∀ place ∈ places, layout.blocked place = false := by
  rw [cleared, List.takeWhile_eq_self_iff]
  simp

theorem cleared_cons_of_clear {place : Loc} (clear : layout.blocked place = false)
    (rest : List Loc) : layout.cleared (place :: rest) = place :: layout.cleared rest := by
  unfold cleared
  rw [List.takeWhile_cons_of_pos (by simp [clear])]

theorem cleared_cons_of_blocked {place : Loc} (blocks : layout.blocked place = true)
    (rest : List Loc) : layout.cleared (place :: rest) = [] := by
  unfold cleared
  rw [List.takeWhile_cons_of_neg (by simp [blocks])]

/-- Behind a list without a blocked place, the rest is cleared on its own. -/
theorem cleared_append {early : List Loc} (clear : ∀ place ∈ early, layout.blocked place = false)
    (later : List Loc) : layout.cleared (early ++ later) = early ++ layout.cleared later := by
  induction early with
  | nil => rfl
  | cons place rest inductionHypothesis =>
      rw [List.cons_append, cleared_cons_of_clear (clear place List.mem_cons_self),
        inductionHypothesis fun other member => clear other (List.mem_cons_of_mem _ member),
        List.cons_append]

/-- Behind a blocked place nothing is cleared. -/
theorem cleared_append_of_blocked {early : List Loc}
    (blocks : ¬∀ place ∈ early, layout.blocked place = false) (later : List Loc) :
    layout.cleared (early ++ later) = layout.cleared early := by
  induction early with
  | nil => exact absurd (fun _ member => (List.not_mem_nil member).elim) blocks
  | cons place rest inductionHypothesis =>
      cases first : layout.blocked place with
      | true => rw [List.cons_append, cleared_cons_of_blocked first, cleared_cons_of_blocked first]
      | false =>
          rw [List.cons_append, cleared_cons_of_clear first, cleared_cons_of_clear first,
            inductionHypothesis]
          exact fun clear => blocks (List.forall_mem_cons.mpr ⟨first, clear⟩)

/-- Layouts that block the same places clear the same. -/
theorem cleared_congr {other : Layout} (same : ∀ loc, other.blocked loc = layout.blocked loc)
    (places : List Loc) : other.cleared places = layout.cleared places := by
  unfold cleared
  exact congrArg (fun clear => places.takeWhile clear) (funext fun place => by rw [same])

/-- Filling places that are not blocked blocks no other, and frees none. -/
theorem blocked_filled {places : List Loc} (clear : ∀ place ∈ places, layout.blocked place = false)
    (loc : Loc) : (layout.filled places).blocked loc = layout.blocked loc := by
  by_cases member : loc ∈ places
  · rw [clear loc member, blocked_dir]
    rw [filled, if_pos member]
  · unfold blocked
    rw [filled, if_neg member]

end Layout

namespace DirStore

variable {σ : Type} (store : DirStore σ)

/-- What adding a directory does to the layout. -/
structure Lawful : Prop where
  /-- Where a step from a directory leads to a free place, there will be a directory. -/
  makes : ∀ state loc name, store.layout state loc = some .dir →
    store.layout state (Layout.stepInto loc name) = none →
    ∀ other, store.layout (store.addDir state (Layout.stepInto loc name)) other =
      if other = Layout.stepInto loc name then some .dir else store.layout state other
  /-- At a free place nothing else is touched, even where no directory can be added. -/
  spares : ∀ state loc, store.layout state loc = none → ∀ other,
    store.layout (store.addDir state loc) other = store.layout state other ∨
      other = loc ∧ store.layout (store.addDir state loc) other = some .dir

/-- Make a place a directory, unless it is one; a file or its name may be in the way. -/
def clear (place : Loc) : Prog σ OsError Unit := fun state =>
  match store.layout state place with
  | some .dir => ⟨[], .ok ()⟩
  | some .file => ⟨[], .error .fileExists⟩
  | none =>
      if overlong (place.headD "") then ⟨[], .error .nameTooLong⟩
      else ⟨[store.addDir state place], .ok ()⟩

/-- Make places directories, one after the other. -/
def carve (places : List Loc) : Prog σ OsError Unit := Prog.forEach places store.clear

variable {store} {base : Loc} {state : σ}

/-- A place is a directory, or one can be made there, or it is blocked. -/
theorem place_cases (state : σ) (place : Loc) :
    store.layout state place = some .dir ∨
      (store.layout state place = none ∧ overlong (place.headD "") = false) ∨
      (store.layout state).blocked place = true := by
  cases kind : store.layout state place with
  | none =>
      rw [Layout.blocked_none kind]
      cases overlong (place.headD "") with
      | true => exact Or.inr (Or.inr rfl)
      | false => exact Or.inr (Or.inl ⟨rfl, rfl⟩)
  | some kind' =>
      cases kind' with
      | file => exact Or.inr (Or.inr (Layout.blocked_file kind))
      | dir => exact Or.inl rfl

theorem clear_dir {place : Loc} (there : store.layout state place = some .dir) :
    store.clear place state = ⟨[], .ok ()⟩ := by
  rw [clear, there]

theorem clear_free {place : Loc} (free : store.layout state place = none)
    (short : overlong (place.headD "") = false) :
    store.clear place state = ⟨[store.addDir state place], .ok ()⟩ := by
  rw [clear, free]
  simp only [short, Bool.false_eq_true, if_false]

theorem clear_blocked {place : Loc} (blocks : (store.layout state).blocked place = true) :
    ∃ fault, (fault = .fileExists ∨ fault = .nameTooLong) ∧
      store.clear place state = ⟨[], .error fault⟩ := by
  rw [clear]
  cases kind : store.layout state place with
  | none =>
      rw [Layout.blocked_none kind] at blocks
      exact ⟨_, Or.inr rfl, if_pos blocks⟩
  | some kind' =>
      cases kind' with
      | file => exact ⟨_, Or.inl rfl, rfl⟩
      | dir =>
          rw [Layout.blocked_dir kind] at blocks
          cases blocks

/-- A directory that was added at a place that is not blocked blocks no place, and frees none. -/
theorem Lawful.blocked_addDir (lawful : store.Lawful) {place : Loc}
    (free : store.layout state place = none) (short : overlong (place.headD "") = false)
    (other : Loc) :
    (store.layout (store.addDir state place)).blocked other = (store.layout state).blocked other := by
  rcases lawful.spares state place free other with same | ⟨rfl, made⟩
  · unfold Layout.blocked
    rw [same]
  · rw [Layout.blocked_dir made, Layout.blocked_none free, short]

/-- `os.mkdir` enters the parent and finds the place there taken or free. -/
theorem osMkdir_run (parent : List String) (name : String) :
    store.osMkdir base (name :: parent.reverse) state =
      match (store.layout state).enter base parent with
      | .error fault => ⟨[], .error fault⟩
      | .ok loc =>
          match store.layout state (Layout.stepInto loc name) with
          | some _ => ⟨[], .error .fileExists⟩
          | none =>
              if overlong ((Layout.stepInto loc name).headD "") then ⟨[], .error .nameTooLong⟩
              else ⟨[store.addDir state (Layout.stepInto loc name)], .ok ()⟩ := by
  unfold osMkdir Prog.perform withDir Layout.enter
  dsimp only
  rw [List.reverse_reverse]
  cases (store.layout state).walk base parent with
  | error fault => rfl
  | ok loc =>
      simp only [bind, Except.bind]
      cases kind : store.layout state loc with
      | none => rfl
      | some kind' =>
          cases kind' with
          | file => rfl
          | dir =>
              dsimp only
              cases store.layout state (Layout.stepInto loc name) with
              | some _ => rfl
              | none => cases overlong ((Layout.stepInto loc name).headD "") <;> rfl

/-- From an entered parent, the last place is a directory when the path is. -/
theorem isDir_of_enter {parent : List String} {loc : Loc}
    (enters : (store.layout state).enter base parent = .ok loc) (name : String) :
    store.isDir base state (name :: parent.reverse) =
      decide (store.layout state (Layout.stepInto loc name) = some .dir) := by
  unfold isDir
  rw [List.reverse_cons, List.reverse_reverse, Layout.walk_concat, enters]
  rfl

/-- From an entered parent, `os.mkdir` makes what clearing makes, or fails beside a directory, or
fails as clearing does. -/
theorem osMkdir_entered {parent : List String} {loc : Loc}
    (enters : (store.layout state).enter base parent = .ok loc) (name : String) :
    (store.osMkdir base (name :: parent.reverse) state =
        ⟨[store.addDir state (Layout.stepInto loc name)], .ok ()⟩ ∧
      store.clear (Layout.stepInto loc name) state =
        ⟨[store.addDir state (Layout.stepInto loc name)], .ok ()⟩) ∨
    ∃ fault, (fault = .fileExists ∨ fault = .nameTooLong) ∧
      store.osMkdir base (name :: parent.reverse) state = ⟨[], .error fault⟩ ∧
      store.clear (Layout.stepInto loc name) state =
        if store.isDir base state (name :: parent.reverse) then ⟨[], .ok ()⟩
        else ⟨[], .error fault⟩ := by
  have tries := @osMkdir_run σ store base state parent name
  rw [enters] at tries
  dsimp only at tries
  rw [tries, isDir_of_enter enters, clear]
  cases kind : store.layout state (Layout.stepInto loc name) with
  | none =>
      cases overlong ((Layout.stepInto loc name).headD "") with
      | false => exact Or.inl ⟨rfl, rfl⟩
      | true => exact Or.inr ⟨_, Or.inr rfl, rfl, rfl⟩
  | some kind' => cases kind' <;> exact Or.inr ⟨_, Or.inl rfl, rfl, rfl⟩

/-- A fault is forgiven beside a directory. -/
theorem unlessDir_run (parts : List String) (fault : OsError) :
    ((do if ← Prog.observe fun state => .ok (store.isDir base state parts) then pure ()
          else Prog.raise fault : Prog σ OsError Unit) state) =
      if store.isDir base state parts then ⟨[], .ok ()⟩ else ⟨[], .error fault⟩ := by
  refine (Prog.bind_quiet state (by rw [Prog.observe_apply])).trans ?_
  cases store.isDir base state parts <;> rfl

/-- From an entered parent, `mkdir(exist_ok=True)` clears the last place. -/
theorem mkdirExistOk_clears {parent : List String} {name : String} {loc : Loc}
    (enters : (store.layout state).enter base parent = .ok loc) :
    store.mkdirExistOk base (name :: parent.reverse) state =
      store.clear (Layout.stepInto loc name) state := by
  unfold mkdirExistOk
  rcases osMkdir_entered enters name with ⟨made, clears⟩ | ⟨fault, raised, failed, clears⟩
  · have attempted : Prog.attempt (store.osMkdir base (name :: parent.reverse)) state =
        ⟨[store.addDir state (Layout.stepInto loc name)], .ok (.ok ())⟩ := by
      unfold Prog.attempt
      rw [made]
    rw [Prog.bind_ok state attempted, clears]
    rfl
  · have attempted : Prog.attempt (store.osMkdir base (name :: parent.reverse)) state =
        ⟨[], .ok (.error fault)⟩ := by
      unfold Prog.attempt
      rw [failed]
    rw [Prog.bind_quiet state attempted, clears, ← unlessDir_run]
    rcases raised with rfl | rfl <;> rfl

/-- From an entered parent, `mkdir(parents=True, exist_ok=True)` clears the last place. -/
theorem mkdirs_clears {parent : List String} {name : String} {loc : Loc}
    (enters : (store.layout state).enter base parent = .ok loc) :
    store.mkdirs base (name :: parent.reverse) state =
      store.clear (Layout.stepInto loc name) state := by
  rw [mkdirs]
  rcases osMkdir_entered enters name with ⟨made, clears⟩ | ⟨fault, raised, failed, clears⟩
  · have attempted : Prog.attempt (store.osMkdir base (name :: parent.reverse)) state =
        ⟨[store.addDir state (Layout.stepInto loc name)], .ok (.ok ())⟩ := by
      unfold Prog.attempt
      rw [made]
    rw [Prog.bind_ok state attempted, clears]
    rfl
  · have attempted : Prog.attempt (store.osMkdir base (name :: parent.reverse)) state =
        ⟨[], .ok (.error fault)⟩ := by
      unfold Prog.attempt
      rw [failed]
    rw [Prog.bind_quiet state attempted, clears, ← unlessDir_run]
    rcases raised with rfl | rfl <;> rfl

/-- A parent with nothing in a place on the way is made first, and then entered. -/
theorem mkdirs_missing {parent : List String} {name : String}
    (missing : (store.layout state).enter base parent = .error .fileNotFound) :
    store.mkdirs base (name :: parent.reverse) state =
      (store.mkdirs base parent.reverse >>= fun _ =>
        store.mkdirExistOk base (name :: parent.reverse)) state := by
  have tries := @osMkdir_run σ store base state parent name
  rw [missing] at tries
  have attempted : Prog.attempt (store.osMkdir base (name :: parent.reverse)) state =
      ⟨[], .ok (.error .fileNotFound)⟩ := by
    unfold Prog.attempt
    rw [tries]
  rw [mkdirs, Prog.bind_quiet state attempted]

/-- A parent with a file or a name that is too long on the way fails at once. -/
theorem mkdirs_blocked {parent : List String} {name : String} {fault : OsError}
    (raised : fault = .notADirectory ∨ fault = .nameTooLong)
    (blocks : (store.layout state).enter base parent = .error fault) :
    store.mkdirs base (name :: parent.reverse) state = ⟨[], .error fault⟩ := by
  have tries := @osMkdir_run σ store base state parent name
  rw [blocks] at tries
  have attempted : Prog.attempt (store.osMkdir base (name :: parent.reverse)) state =
      ⟨[], .ok (.error fault)⟩ := by
    unfold Prog.attempt
    rw [tries]
  have nowhere : store.isDir base state (name :: parent.reverse) = false := by
    unfold isDir
    rw [List.reverse_cons, List.reverse_reverse, Layout.walk_concat, blocks]
    rfl
  have forgiven := @unlessDir_run σ store base state (name :: parent.reverse) fault
  rw [nowhere] at forgiven
  rw [mkdirs, Prog.bind_quiet state attempted]
  rcases raised with rfl | rfl <;> exact forgiven

/-- Along a path the parent is entered, or lacks a directory, or runs into what blocks it. -/
theorem carve_cases (here : store.layout state base = some .dir) (parts : List String) :
    ((store.layout state).enter base parts = .ok (Layout.ending base parts) ∧
        store.carve (Layout.places base parts) state = ⟨[], .ok ()⟩) ∨
      (store.layout state).enter base parts = .error .fileNotFound ∨
      ∃ fault raised, (fault = .notADirectory ∨ fault = .nameTooLong) ∧
        (store.layout state).enter base parts = .error fault ∧
        store.carve (Layout.places base parts) state = ⟨[], .error raised⟩ := by
  induction parts generalizing base with
  | nil => exact Or.inl ⟨Layout.enter_eq_ok.mpr ⟨rfl, here⟩, rfl⟩
  | cons name rest inductionHypothesis =>
      rw [Layout.enter_cons here, Layout.places]
      cases kind : store.layout state (Layout.stepInto base name) with
      | none =>
          rw [Layout.enter_of_none kind]
          unfold Layout.absence
          cases long : overlong ((Layout.stepInto base name).headD "") with
          | false => exact Or.inr (Or.inl rfl)
          | true =>
              obtain ⟨raised, -, stops⟩ := clear_blocked ((Layout.blocked_none kind).trans long)
              exact Or.inr (Or.inr ⟨_, raised, Or.inr rfl, rfl, Prog.bind_error state stops⟩)
      | some kind' =>
          cases kind' with
          | file =>
              obtain ⟨raised, -, stops⟩ := clear_blocked (Layout.blocked_file kind)
              exact Or.inr (Or.inr ⟨_, raised, Or.inl rfl, Layout.enter_of_file kind rest,
                Prog.bind_error state stops⟩)
          | dir =>
              have goesOn : store.carve (Layout.stepInto base name ::
                  Layout.places (Layout.stepInto base name) rest) state =
                  store.carve (Layout.places (Layout.stepInto base name) rest) state :=
                Prog.bind_quiet state (clear_dir kind)
              rw [goesOn]
              exact inductionHypothesis kind

/-- Behind a blocked place nothing is made. -/
theorem trail_carve (lawful : store.Lawful) (places : List Loc) :
    (store.carve places state).trail =
      (store.carve ((store.layout state).cleared places) state).trail := by
  induction places generalizing state with
  | nil => rfl
  | cons place rest inductionHypothesis =>
      unfold carve at inductionHypothesis ⊢
      rcases store.place_cases state place with there | ⟨free, short⟩ | blocks
      · rw [Layout.cleared_cons_of_clear (Layout.blocked_dir there), Prog.forEach_cons,
          Prog.forEach_cons, Prog.bind_quiet state (clear_dir there),
          Prog.bind_quiet state (clear_dir there)]
        exact inductionHypothesis
      · have clears := (Layout.blocked_none free).trans short
        rw [Layout.cleared_cons_of_clear clears, Prog.forEach_cons, Prog.forEach_cons,
          Prog.bind_ok state (clear_free free short), Prog.bind_ok state (clear_free free short)]
        have same := @inductionHypothesis (store.addDir state place)
        rw [Layout.cleared_congr (lawful.blocked_addDir free short)] at same
        exact congrArg (store.addDir state place :: ·) same
      · obtain ⟨fault, -, stops⟩ := clear_blocked blocks
        rw [Layout.cleared_cons_of_blocked blocks, Prog.forEach_cons, Prog.bind_error state stops]
        rfl

/-- An invariant which adding the cleared places keeps survives the loop along all of them. -/
theorem always_carve (lawful : store.Lawful) {inv : σ → Prop} {places : List Loc}
    (adds : ∀ later, inv later → ∀ place ∈ (store.layout state).cleared places,
      inv (store.addDir later place)) (holds : inv state) :
    ∀ cut ∈ (store.carve places state).trail, inv cut := by
  rw [trail_carve lawful]
  refine Prog.Always.forEach (fun place member later kept cut left => ?_) state holds
  rcases store.place_cases later place with there | ⟨free, short⟩ | blocks
  · rw [clear_dir there] at left
    cases left
  · rw [clear_free free short] at left
    rw [List.mem_singleton.mp left]
    exact adds later kept place member
  · obtain ⟨fault, -, stops⟩ := clear_blocked blocks
    rw [stops] at left
    cases left

/-- Carving a path fills its places up to the first blocked one, and returns when there is none. -/
theorem carve_path (lawful : store.Lawful) (here : store.layout state base = some .dir)
    (parts : List String) :
    store.layout ((store.carve (Layout.places base parts) state).final state) =
        (store.layout state).filled ((store.layout state).cleared (Layout.places base parts)) ∧
      ((store.carve (Layout.places base parts) state).result = .ok () ↔
        ∀ place ∈ Layout.places base parts, (store.layout state).blocked place = false) := by
  induction parts generalizing base state with
  | nil =>
      refine ⟨funext fun loc => ?_, ?_⟩
      · simp [Layout.places, carve, Prog.forEach, Prog.done, Run.final, Layout.filled,
          Layout.cleared]
      · simp [Layout.places, carve, Prog.forEach, Prog.done]
  | cons name rest inductionHypothesis =>
      rw [Layout.places]
      rcases store.place_cases state (Layout.stepInto base name) with kind | ⟨free, short⟩ | blocks
      · have goesOn : store.carve (Layout.stepInto base name ::
            Layout.places (Layout.stepInto base name) rest) state =
            store.carve (Layout.places (Layout.stepInto base name) rest) state :=
          Prog.bind_quiet state (clear_dir kind)
        obtain ⟨layout, returns⟩ := inductionHypothesis kind
        have clears := Layout.blocked_dir kind
        rw [goesOn, layout, returns, Layout.cleared_cons_of_clear clears, List.forall_mem_cons,
          and_iff_right clears]
        refine ⟨funext fun loc => ?_, Iff.rfl⟩
        unfold Layout.filled
        by_cases same : loc = Layout.stepInto base name
        · subst same
          simp [kind]
        · simp [same]
      · have clears := (Layout.blocked_none free).trans short
        have makes := lawful.makes state base name here free
        have made := clear_free free short
        have blocks := lawful.blocked_addDir free short
        generalize store.addDir state (Layout.stepInto base name) = next at makes made blocks
        have goesOn : store.carve (Layout.stepInto base name ::
            Layout.places (Layout.stepInto base name) rest) state =
            ⟨next :: (store.carve (Layout.places (Layout.stepInto base name) rest) next).trail,
              (store.carve (Layout.places (Layout.stepInto base name) rest) next).result⟩ :=
          Prog.bind_ok state made
        have there : store.layout next (Layout.stepInto base name) = some .dir := by
          rw [makes, if_pos rfl]
        obtain ⟨layout, returns⟩ := inductionHypothesis there
        rw [Layout.cleared_congr blocks] at layout
        rw [goesOn]
        refine ⟨?_, ?_⟩
        · have ends : Run.final state ⟨next :: (store.carve
              (Layout.places (Layout.stepInto base name) rest) next).trail,
              (store.carve (Layout.places (Layout.stepInto base name) rest) next).result⟩ =
              (store.carve (Layout.places (Layout.stepInto base name) rest) next).final next :=
            List.getLastD_cons
          rw [ends, layout, Layout.cleared_cons_of_clear clears]
          funext loc
          unfold Layout.filled
          rw [makes]
          by_cases same : loc = Layout.stepInto base name <;> simp [same]
        · show (store.carve _ next).result = .ok () ↔ _
          rw [returns, List.forall_mem_cons, and_iff_right clears]
          simp only [blocks]
      · obtain ⟨fault, -, fails⟩ := clear_blocked blocks
        have stops : store.carve (Layout.stepInto base name ::
            Layout.places (Layout.stepInto base name) rest) state = ⟨[], .error fault⟩ :=
          Prog.bind_error state fails
        rw [stops, Layout.cleared_cons_of_blocked blocks]
        refine ⟨funext fun loc => ?_, ?_⟩
        · simp [Run.final, Layout.filled]
        · simp [blocks]

/-- `mkdir(parents=True, exist_ok=True)` has the effects of the loop along the path. -/
theorem mkdirs_carves (lawful : store.Lawful) (here : store.layout state base = some .dir)
    (parts : List String) :
    Run.Alike (store.mkdirs base parts.reverse state)
      (store.carve (Layout.places base parts) state) := by
  induction parts using List.reverseRecOn with
  | nil =>
      have there : store.isDir base state [] = true :=
        (store.isDir_iff base).mpr ⟨base, rfl, here⟩
      have stays : store.mkdirs base [] state = ⟨[], .ok ()⟩ := by
        rw [mkdirs, mkdirExistOk]
        refine (Prog.bind_quiet state rfl).trans ?_
        refine (Prog.bind_quiet state (by rw [Prog.observe_apply])).trans ?_
        rw [there]
        rfl
      rw [List.reverse_nil, stays]
      exact Run.Alike.refl _
  | append_singleton parent name inductionHypothesis =>
      have spelled : (parent ++ [name]).reverse = name :: parent.reverse := by simp
      have along : store.carve (Layout.places base (parent ++ [name])) state =
          (store.carve (Layout.places base parent) >>= fun _ =>
            store.carve [Layout.stepInto (Layout.ending base parent) name]) state := by
        rw [Layout.places_append]
        exact Prog.forEach_append state _ _ _
      rw [spelled, along]
      rcases store.carve_cases here parent with
        ⟨enters, quiet⟩ | missing | ⟨fault, other, raised, blocks, stops⟩
      · rw [mkdirs_clears enters, Prog.bind_quiet state quiet]
        unfold carve
        rw [Prog.forEach_singleton]
        exact Run.Alike.refl _
      · rw [mkdirs_missing missing]
        refine Prog.alike_bind state inductionHypothesis fun returned => ?_
        obtain ⟨layout, returns⟩ := carve_path lawful here parent
        have open' := returns.mp returned
        rw [Layout.cleared_eq_self.mpr open'] at layout
        generalize (store.carve (Layout.places base parent) state).final state = next at layout
        have dirs : ∀ place ∈ Layout.places base parent, store.layout next place = some .dir := by
          intro place member
          rw [layout, Layout.filled, if_pos member]
        have start : store.layout next base = some .dir := by
          rw [layout, Layout.filled, here, ite_self]
        rw [mkdirExistOk_clears (Layout.enter_of_dirs start dirs)]
        unfold carve
        rw [Prog.forEach_singleton]
        exact Run.Alike.refl _
      · rw [mkdirs_blocked raised blocks, Prog.bind_error state stops]
        exact ⟨rfl, by simp⟩

/-- The places that a list of paths, each from its start, leads through. -/
def route (paths : List (Loc × List String)) : List Loc :=
  paths.flatMap fun path => Layout.places path.1 path.2

/-- Carving a list of paths fills their places up to the first blocked one. -/
theorem carve_route (lawful : store.Lawful) {paths : List (Loc × List String)}
    (starts : ∀ path ∈ paths, store.layout state path.1 = some .dir) :
    store.layout ((store.carve (route paths) state).final state) =
        (store.layout state).filled ((store.layout state).cleared (route paths)) ∧
      ((store.carve (route paths) state).result = .ok () ↔
        ∀ place ∈ route paths, (store.layout state).blocked place = false) := by
  induction paths generalizing state with
  | nil =>
      refine ⟨funext fun loc => ?_, ?_⟩
      · simp [route, carve, Prog.forEach, Prog.done, Run.final, Layout.filled, Layout.cleared]
      · simp [route, carve, Prog.forEach, Prog.done]
  | cons path rest inductionHypothesis =>
      obtain ⟨first, remaining⟩ := List.forall_mem_cons.mp starts
      obtain ⟨layout, returns⟩ := carve_path lawful first path.2
      have split : route (path :: rest) = Layout.places path.1 path.2 ++ route rest := rfl
      have along : store.carve (route (path :: rest)) state =
          (store.carve (Layout.places path.1 path.2) >>= fun _ => store.carve (route rest)) state := by
        rw [split]
        exact Prog.forEach_append state _ _ _
      rw [along, split]
      cases run : store.carve (Layout.places path.1 path.2) state with
      | mk trail result =>
          rw [run] at layout returns
          cases result with
          | error fault =>
              have blocks : ¬∀ place ∈ Layout.places path.1 path.2,
                  (store.layout state).blocked place = false := by
                intro clear
                cases returns.mpr clear
              rw [Prog.bind_error state run, Layout.cleared_append_of_blocked blocks]
              refine ⟨layout, ?_⟩
              simp only [reduceCtorEq, false_iff]
              intro clear
              exact blocks fun place member => clear place (List.mem_append_left _ member)
          | ok value =>
              have clear := returns.mp rfl
              rw [Layout.cleared_eq_self.mpr clear] at layout
              rw [Prog.bind_ok state run, Run.final_append]
              change store.layout (trail.getLastD state) = _ at layout
              generalize trail.getLastD state = next at layout
              have blocks : ∀ loc, (store.layout next).blocked loc =
                  (store.layout state).blocked loc := by
                rw [layout]
                exact Layout.blocked_filled clear
              have starts' : ∀ later ∈ rest, store.layout next later.1 = some .dir := by
                intro later member
                rw [layout, Layout.filled, remaining later member, ite_self]
              obtain ⟨layout', returns'⟩ := inductionHypothesis starts'
              refine ⟨?_, ?_⟩
              · rw [layout', Layout.cleared_congr blocks, Layout.cleared_append clear, layout]
                funext loc
                unfold Layout.filled
                by_cases early : loc ∈ Layout.places path.1 path.2 <;>
                  by_cases late : loc ∈ (store.layout state).cleared (route rest) <;>
                    simp [early, late]
              · show (store.carve (route rest) next).result = .ok () ↔ _
                rw [returns', List.forall_mem_append, and_iff_right clear]
                simp only [blocks]

/-- Making a list of paths has the effects of the loop along all their places. -/
theorem mkdirsAll_carves (lawful : store.Lawful) {paths : List (Loc × List String)}
    (starts : ∀ path ∈ paths, store.layout state path.1 = some .dir) :
    Run.Alike
      (Prog.forEach paths (fun path => store.mkdirs path.1 path.2.reverse) state)
      (store.carve (route paths) state) := by
  induction paths generalizing state with
  | nil => exact Run.Alike.refl _
  | cons path rest inductionHypothesis =>
      obtain ⟨first, remaining⟩ := List.forall_mem_cons.mp starts
      have along : store.carve (route (path :: rest)) state =
          (store.carve (Layout.places path.1 path.2) >>= fun _ => store.carve (route rest)) state :=
        Prog.forEach_append state _ _ _
      rw [along]
      refine Prog.alike_bind state (mkdirs_carves lawful first path.2) fun returned => ?_
      obtain ⟨layout, returns⟩ := carve_path lawful first path.2
      rw [Layout.cleared_eq_self.mpr (returns.mp returned)] at layout
      refine inductionHypothesis fun later member => ?_
      rw [layout, Layout.filled, remaining later member, ite_self]

/-- What making a list of paths leaves behind: directories up to the first blocked place. -/
theorem layout_mkdirsAll (lawful : store.Lawful) {paths : List (Loc × List String)}
    (starts : ∀ path ∈ paths, store.layout state path.1 = some .dir) :
    store.layout ((Prog.forEach paths (fun path => store.mkdirs path.1 path.2.reverse) state).final
        state) =
      (store.layout state).filled ((store.layout state).cleared (route paths)) := by
  rw [(mkdirsAll_carves lawful starts).final]
  exact (carve_route lawful starts).1

/-- A list of paths can be made exactly when none of their places is blocked. -/
theorem mkdirsAll_returns (lawful : store.Lawful) {paths : List (Loc × List String)}
    (starts : ∀ path ∈ paths, store.layout state path.1 = some .dir) :
    (Prog.forEach paths (fun path => store.mkdirs path.1 path.2.reverse) state).result = .ok () ↔
      ∀ place ∈ route paths, (store.layout state).blocked place = false := by
  rw [(mkdirsAll_carves lawful starts).returns]
  exact (carve_route lawful starts).2

end DirStore

end NovelRalph
