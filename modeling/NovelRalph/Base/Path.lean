import NovelRalph.Base.Program

/-!
# Paths and directory trees

A place in the tree is the list of names leading to it, innermost first, and a
`Layout` says which places are files and which are directories. `walk` resolves
a path the way the kernel does: every step must start from an existing
directory, and `..` leads to the parent. A name has at most 255 bytes. `PosixPath.parse`
reads a path the way `pathlib` does, and `PosixPath.refused` says which texts no system
call takes.

`mkdirs` is `Path.mkdir(parents=True, exist_ok=True)`, one `os.mkdir` effect at a
time, over any store whose layout can be observed and extended.
-/

namespace NovelRalph

/-- A place in the tree: the names leading to it from the root, innermost first. -/
abbrev Loc := List String

/-- What stands at an occupied place. -/
inductive Kind where
  | file
  | dir
  deriving DecidableEq, Repr

/-- The kernel's refusals which the standard library tells apart. -/
inductive OsError where
  | fileNotFound
  | notADirectory
  | isADirectory
  | fileExists
  | permission
  | nameTooLong
  deriving DecidableEq, Repr

/-- A name of more than 255 bytes, which no directory holds. -/
def overlong (name : String) : Bool := 255 < name.utf8ByteSize

/-- Which places are occupied, and by what. -/
abbrev Layout := Loc → Option Kind

namespace Layout

variable (layout : Layout)

/-- Every occupied place lies in a directory, up to the root. -/
def Closed : Prop := ∀ loc, (layout loc).isSome → layout loc.tail = some .dir

/-- The place one path component leads to. -/
def stepInto (loc : Loc) (name : String) : Loc :=
  if name = ".." then loc.tail else name :: loc

/-- The fault of looking for a place in a directory that does not hold it. -/
def absence (loc : Loc) : OsError :=
  if overlong (loc.headD "") then .nameTooLong else .fileNotFound

/-- Follow path components, outermost first; each must leave from a directory. -/
def walk (loc : Loc) : List String → Except OsError Loc
  | [] => .ok loc
  | name :: rest =>
      match layout loc with
      | none => .error (absence loc)
      | some .file => .error .notADirectory
      | some .dir => walk (stepInto loc name) rest

/-- The fault of opening an unoccupied place: a file on the way, or nothing there. -/
def missingFault : Loc → OsError
  | [] => .fileNotFound
  | name :: parent =>
      match layout parent with
      | some .file => .notADirectory
      | some .dir => absence (name :: parent)
      | none => missingFault parent

/-- No directory can be made here: a file is in the way, or the name is too long. -/
def blocked (place : Loc) : Bool :=
  match layout place with
  | some .dir => false
  | some .file => true
  | none => overlong (place.headD "")

variable {layout}

/-- In a closed layout every place on the way to an occupied one is occupied. -/
theorem Closed.outward (closed : layout.Closed) {names : List String} {base : Loc}
    (there : (layout (names ++ base)).isSome) : (layout base).isSome := by
  induction names with
  | nil => exact there
  | cons name names inductionHypothesis =>
      have parent : layout (names ++ base) = some .dir := closed _ there
      exact inductionHypothesis (by rw [parent]; rfl)

/-- In a closed layout an occupied place is reached by walking its names. -/
theorem walk_of_isSome (closed : layout.Closed) {base : Loc} {parts : List String}
    (plain : ".." ∉ parts) (there : (layout (parts.reverse ++ base)).isSome) :
    layout.walk base parts = .ok (parts.reverse ++ base) := by
  induction parts generalizing base with
  | nil => rfl
  | cons name rest inductionHypothesis =>
      have split : (name :: rest).reverse ++ base = rest.reverse ++ (name :: base) := by simp
      rw [split] at there ⊢
      rw [List.mem_cons, not_or] at plain
      have below : layout base = some .dir := closed _ (closed.outward there)
      rw [walk, below]
      show layout.walk (stepInto base name) rest = _
      rw [stepInto, if_neg (Ne.symm plain.1)]
      exact inductionHypothesis plain.2 there

/-- Walking names without `..` can only arrive at the place they spell. -/
theorem walk_eq_of_ok {base loc : Loc} {parts : List String} (plain : ".." ∉ parts)
    (arrives : layout.walk base parts = .ok loc) : loc = parts.reverse ++ base := by
  induction parts generalizing base with
  | nil => simpa [walk, eq_comm] using arrives
  | cons name rest inductionHypothesis =>
      rw [List.mem_cons, not_or] at plain
      unfold walk at arrives
      split at arrives
      · cases arrives
      · cases arrives
      · rw [stepInto, if_neg (Ne.symm plain.1)] at arrives
        rw [inductionHypothesis plain.2 arrives]
        simp

/-- Names are followed one after the other. -/
theorem walk_append {start middle : Loc} {first rest : List String}
    (arrives : layout.walk start first = .ok middle) :
    layout.walk start (first ++ rest) = layout.walk middle rest := by
  induction first generalizing start with
  | nil =>
      cases arrives
      rfl
  | cons name names inductionHypothesis =>
      unfold walk at arrives
      split at arrives
      · cases arrives
      · cases arrives
      · next here =>
          rw [List.cons_append, walk, here]
          exact inductionHypothesis arrives

/-- Where every directory is still one, the same names lead to the same place. -/
theorem walk_mono {grown : Layout} (keeps : ∀ loc, layout loc = some .dir → grown loc = some .dir)
    {start loc : Loc} {names : List String} (arrives : layout.walk start names = .ok loc) :
    grown.walk start names = .ok loc := by
  induction names generalizing start with
  | nil => exact arrives
  | cons name rest inductionHypothesis =>
      unfold walk at arrives ⊢
      split at arrives
      · cases arrives
      · cases arrives
      · next here =>
          rw [keeps start here]
          exact inductionHypothesis arrives

end Layout

/-- A path as `pathlib` sees it: its root, empty when it is relative, and its parts, outermost
first. -/
structure PosixPath where
  root : String
  parts : List String
  deriving DecidableEq, Repr

namespace PosixPath

/-- The root of a path: two slashes at its beginning are kept, three are one. -/
def rootOf : List Char → String
  | '/' :: '/' :: '/' :: _ => "/"
  | '/' :: '/' :: _ => "//"
  | '/' :: _ => "/"
  | _ => ""

/-- A path that does not begin with a slash is relative. -/
theorem rootOf_relative {char : Char} (plain : char ≠ '/') (rest : List Char) :
    rootOf (char :: rest) = "" := by
  unfold rootOf
  split <;> simp_all

/-- Split a text at slashes, dropping empty components and single dots. -/
def parse (text : String) : PosixPath where
  root := rootOf text.toList
  parts := ((text.toList.splitOn '/').map String.ofList).filter fun part =>
    part ≠ "" ∧ part ≠ "."

/-- A path whose first component is spelled out before a slash. -/
theorem parse_slash {first : String} (rest : String) (plain : '/' ∉ first.toList)
    (named : first ≠ "" ∧ first ≠ ".") :
    parse (first ++ "/" ++ rest) = ⟨"", first :: (parse rest).parts⟩ := by
  have split : (first ++ "/" ++ rest).toList.splitOn '/' =
      first.toList :: rest.toList.splitOn '/' := by
    have spelled : (first ++ "/" ++ rest).toList = first.toList ++ '/' :: rest.toList := by simp
    rw [spelled, List.splitOn, List.splitOnP_append_cons_of_forall_mem]
    · rfl
    · intro char member
      rw [beq_eq_false_iff_ne]
      rintro rfl
      exact plain member
    · rfl
  have relative : rootOf (first ++ "/" ++ rest).toList = "" := by
    cases chars : first.toList with
    | nil => exact absurd (String.toList_inj.mp chars) named.1
    | cons char others =>
        rw [chars, List.mem_cons, not_or] at plain
        rw [String.toList_append, String.toList_append, chars]
        exact rootOf_relative (Ne.symm plain.1) _
  unfold parse
  rw [split, relative, List.map_cons, List.filter_cons, String.ofList_toList]
  simp [named]

/-- A path of one component. -/
theorem parse_single {name : String} (plain : '/' ∉ name.toList)
    (named : name ≠ "" ∧ name ≠ ".") : parse name = ⟨"", [name]⟩ := by
  have split : name.toList.splitOn '/' = [name.toList] := by
    rw [List.splitOn, List.splitOnP_eq_singleton]
    intro char member
    rw [beq_eq_false_iff_ne]
    rintro rfl
    exact plain member
  have relative : rootOf name.toList = "" := by
    cases chars : name.toList with
    | nil => exact absurd (String.toList_inj.mp chars) named.1
    | cons char others =>
        rw [chars, List.mem_cons, not_or] at plain
        exact rootOf_relative (Ne.symm plain.1) _
  unfold parse
  rw [split, relative, List.map_singleton, String.ofList_toList]
  simp [named]

/-- `path.name`: the last part, or the empty text. -/
def name (path : PosixPath) : String := path.parts.getLastD ""

/-- `path.parent.name`. -/
def parentName (path : PosixPath) : String := path.parts.dropLast.getLastD ""

/-- The place from which the parts of `base / path` are followed. -/
def start (path : PosixPath) (base : Loc) : Loc :=
  if path.root = "" then base else []

/-- `str(base / path)`, for a base of one name. -/
def text (path : PosixPath) (base : String) : String :=
  if path.root = "" then "/".intercalate (base :: path.parts)
  else path.root ++ "/".intercalate path.parts

/-- A null character, which no system call takes. -/
def embedsNull (path : PosixPath) : Bool := path.parts.any fun part => part.toList.contains '\x00'

/-- A text of 4096 bytes or more, which no system call takes. -/
def tooDeep (path : PosixPath) (base : String) : Bool := 4096 ≤ (path.text base).utf8ByteSize

/-- The text of `base / path` is refused before the tree is looked at. -/
def refused (path : PosixPath) (base : String) : Bool := path.embedsNull || path.tooDeep base

/-- `(base / path).exists()`, where the base is a place and its text. -/
def occupies (path : PosixPath) (layout : Layout) (base : Loc) (text : String) : Bool :=
  match path.refused text, layout.walk (path.start base) path.parts with
  | false, .ok loc => (layout loc).isSome
  | _, _ => false

/-- A relative path without `..` exists when it is taken and the place it spells is occupied. -/
theorem occupies_plain {layout : Layout} (closed : layout.Closed) (base : Loc) (text : String)
    {parts : List String} (plain : ".." ∉ parts) :
    (PosixPath.mk "" parts).occupies layout base text =
      (!(PosixPath.mk "" parts).refused text && (layout (parts.reverse ++ base)).isSome) := by
  unfold occupies start
  dsimp only
  cases (PosixPath.mk "" parts).refused text with
  | true => rfl
  | false =>
      rw [Bool.not_false, Bool.true_and, if_pos rfl, Bool.eq_iff_iff]
      constructor
      · intro found
        split at found
        · next loc _ arrives => rwa [Layout.walk_eq_of_ok plain arrives] at found
        · cases found
      · intro there
        simp [Layout.walk_of_isSome closed plain there, there]

end PosixPath

/-- A store whose directory tree can be observed and extended by one directory. -/
structure DirStore (σ : Type) where
  layout : σ → Layout
  /-- Add a directory at a free place inside an existing directory. -/
  addDir : σ → Loc → σ

namespace DirStore

variable {σ : Type} (store : DirStore σ) (base : Loc)

/-- The tree with one more directory, at a path given by its parts, innermost first. -/
def withDir (state : σ) : List String → Except OsError σ
  | [] => .error .fileExists
  | name :: parent => do
      let loc ← (store.layout state).walk base parent.reverse
      match store.layout state loc with
      | none => .error (Layout.absence loc)
      | some .file => .error .notADirectory
      | some .dir =>
          let target := Layout.stepInto loc name
          match store.layout state target with
          | some _ => .error .fileExists
          | none =>
              if overlong (target.headD "") then .error .nameTooLong
              else .ok (store.addDir state target)

/-- `os.mkdir` of a path given by its parts, innermost first. -/
def osMkdir (parts : List String) : Prog σ OsError Unit :=
  Prog.perform fun state => store.withDir base state parts

/-- `path.is_dir()` for a path given by its parts, innermost first. -/
def isDir (state : σ) (parts : List String) : Bool :=
  match (store.layout state).walk base parts.reverse with
  | .ok loc => store.layout state loc = some .dir
  | .error _ => false

/-- `path.mkdir(parents=False, exist_ok=True)`. -/
def mkdirExistOk (parts : List String) : Prog σ OsError Unit := do
  match ← Prog.attempt (store.osMkdir base parts) with
  | .ok () => pure ()
  | .error .fileNotFound => Prog.raise .fileNotFound
  | .error fault =>
      if ← Prog.observe fun state => .ok (store.isDir base state parts) then pure ()
      else Prog.raise fault

/-- `path.mkdir(parents=True, exist_ok=True)`. -/
def mkdirs : List String → Prog σ OsError Unit
  | [] => mkdirExistOk store base []
  | name :: parent => do
      match ← Prog.attempt (store.osMkdir base (name :: parent)) with
      | .ok () => pure ()
      | .error .fileNotFound => do
          mkdirs parent
          mkdirExistOk store base (name :: parent)
      | .error fault =>
          if ← Prog.observe fun state => .ok (store.isDir base state (name :: parent)) then pure ()
          else Prog.raise fault

/-- A directory is added at a free place with a short name, inside a directory. -/
theorem withDir_eq_ok {state next : σ} {parts : List String} :
    store.withDir base state parts = .ok next ↔ ∃ name parent loc, parts = name :: parent ∧
      (store.layout state).walk base parent.reverse = .ok loc ∧
      store.layout state loc = some .dir ∧ store.layout state (Layout.stepInto loc name) = none ∧
      overlong ((Layout.stepInto loc name).headD "") = false ∧
      next = store.addDir state (Layout.stepInto loc name) := by
  constructor
  · intro applies
    unfold withDir at applies
    split at applies
    · cases applies
    · next name parent =>
        cases arrives : (store.layout state).walk base parent.reverse with
        | error fault => simp [arrives, bind, Except.bind] at applies
        | ok loc =>
            simp only [arrives, bind, Except.bind] at applies
            split at applies
            · cases applies
            · cases applies
            · next inside =>
                split at applies
                · cases applies
                · next free =>
                    split at applies
                    · cases applies
                    · next short =>
                        cases applies
                        exact ⟨name, parent, loc, rfl, arrives, inside, free,
                          Bool.eq_false_iff.mpr short, rfl⟩
  · rintro ⟨name, parent, loc, rfl, arrives, inside, free, short, rfl⟩
    simp only [withDir, arrives, inside, free, short, bind, Except.bind]
    rfl

/-- `os.mkdir` at a free place with a short name, inside a directory. -/
theorem osMkdir_free {state : σ} {name : String} {parent : List String} {loc : Loc}
    (arrives : (store.layout state).walk base parent.reverse = .ok loc)
    (inside : store.layout state loc = some .dir)
    (free : store.layout state (Layout.stepInto loc name) = none)
    (short : overlong ((Layout.stepInto loc name).headD "") = false) :
    store.osMkdir base (name :: parent) state =
      ⟨[store.addDir state (Layout.stepInto loc name)], .ok ()⟩ :=
  Prog.perform_ok state ((store.withDir_eq_ok base).mpr
    ⟨name, parent, loc, rfl, arrives, inside, free, short, rfl⟩)

/-- `mkdir(parents=True, exist_ok=True)` at such a place is one effect. -/
theorem mkdirs_free {state : σ} {name : String} {parent : List String} {loc : Loc}
    (arrives : (store.layout state).walk base parent.reverse = .ok loc)
    (inside : store.layout state loc = some .dir)
    (free : store.layout state (Layout.stepInto loc name) = none)
    (short : overlong ((Layout.stepInto loc name).headD "") = false) :
    store.mkdirs base (name :: parent) state =
      ⟨[store.addDir state (Layout.stepInto loc name)], .ok ()⟩ := by
  have made := store.osMkdir_free base arrives inside free short
  have attempted : Prog.attempt (store.osMkdir base (name :: parent)) state =
      ⟨[store.addDir state (Layout.stepInto loc name)], .ok (.ok ())⟩ := by
    unfold Prog.attempt
    rw [made]
  rw [mkdirs, Prog.bind_ok state attempted]
  rfl

/-- An invariant which adding directories keeps survives creating a path. -/
theorem always_osMkdir {inv : σ → Prop}
    (keeps : ∀ state loc, overlong (loc.headD "") = false → inv state → inv (store.addDir state loc))
    (parts : List String) :
    Prog.Always inv (store.osMkdir base parts) := by
  refine Prog.Always.perform fun state next holds applies => ?_
  obtain ⟨name, parent, loc, -, -, -, -, short, rfl⟩ := (store.withDir_eq_ok base).mp applies
  exact keeps _ _ short holds

/-- An invariant which adding directories keeps survives `mkdir(exist_ok=True)`. -/
theorem always_mkdirExistOk {inv : σ → Prop}
    (keeps : ∀ state loc, overlong (loc.headD "") = false → inv state → inv (store.addDir state loc))
    (parts : List String) :
    Prog.Always inv (store.mkdirExistOk base parts) := by
  refine Prog.Always.bind (Prog.Always.attempt (store.always_osMkdir base keeps parts)) ?_
  intro outcome
  split
  · exact Prog.Always.pure _
  · exact Prog.Always.raise _
  · refine Prog.Always.bind (Prog.Always.observe _) fun there => ?_
    cases there
    · exact Prog.Always.raise _
    · exact Prog.Always.pure _

/-- An invariant which adding directories keeps survives `mkdir(parents=True)`. -/
theorem always_mkdirs {inv : σ → Prop}
    (keeps : ∀ state loc, overlong (loc.headD "") = false → inv state → inv (store.addDir state loc))
    (parts : List String) :
    Prog.Always inv (store.mkdirs base parts) := by
  induction parts with
  | nil => exact store.always_mkdirExistOk base keeps []
  | cons name parent inductionHypothesis =>
      refine Prog.Always.bind (Prog.Always.attempt (store.always_osMkdir base keeps _)) ?_
      intro outcome
      split
      · exact Prog.Always.pure _
      · exact Prog.Always.bind inductionHypothesis fun _ =>
          store.always_mkdirExistOk base keeps _
      · refine Prog.Always.bind (Prog.Always.observe _) fun there => ?_
        cases there
        · exact Prog.Always.raise _
        · exact Prog.Always.pure _

/-- Without `..` an `os.mkdir` adds the place its path spells. -/
theorem always_osMkdir_plain {inv : σ → Prop} {parts : List String} (plain : ".." ∉ parts)
    (adds : ∀ state, inv state → inv (store.addDir state (parts ++ base))) :
    Prog.Always inv (store.osMkdir base parts) := by
  refine Prog.Always.perform fun state next holds applies => ?_
  obtain ⟨name, parent, loc, rfl, arrives, -, -, -, rfl⟩ := (store.withDir_eq_ok base).mp applies
  rw [List.mem_cons, not_or] at plain
  have here : loc = parent ++ base := by
    have spelled := Layout.walk_eq_of_ok (by simpa using plain.2) arrives
    rwa [List.reverse_reverse] at spelled
  have target : Layout.stepInto loc name = name :: parent ++ base := by
    rw [Layout.stepInto, if_neg (Ne.symm plain.1), here]
    rfl
  rw [target]
  exact adds state holds

/-- Without `..` a `mkdir(parents=True)` adds places along its path. -/
theorem always_mkdirs_plain {inv : σ → Prop} {parts : List String} (plain : ".." ∉ parts)
    (adds : ∀ state names, names ≠ [] → names <:+ parts → inv state →
      inv (store.addDir state (names ++ base))) :
    Prog.Always inv (store.mkdirs base parts) := by
  have existOk : ∀ names, names <:+ parts → Prog.Always inv (store.mkdirExistOk base names) := by
    intro names within
    have made : Prog.Always inv (store.osMkdir base names) := by
      cases names with
      | nil => exact Prog.Always.perform fun state next _ applies => nomatch applies
      | cons name parent =>
          exact store.always_osMkdir_plain base (fun member => plain (within.subset member))
            fun state holds => adds state _ (List.cons_ne_nil _ _) within holds
    refine Prog.Always.bind (Prog.Always.attempt made) fun outcome => ?_
    split
    · exact Prog.Always.pure _
    · exact Prog.Always.raise _
    · refine Prog.Always.bind (Prog.Always.observe _) fun there => ?_
      cases there
      · exact Prog.Always.raise _
      · exact Prog.Always.pure _
  induction parts with
  | nil => exact existOk [] (List.suffix_refl _)
  | cons name parent inductionHypothesis =>
      have made := store.always_osMkdir_plain base plain fun state holds =>
        adds state _ (List.cons_ne_nil name parent) (List.suffix_refl _) holds
      have parents := inductionHypothesis (fun member => plain (List.mem_cons_of_mem _ member))
        (fun state names named within => adds state names named (within.trans (List.suffix_cons _ _)))
        fun names within => existOk names (within.trans (List.suffix_cons _ _))
      refine Prog.Always.bind (Prog.Always.attempt made) fun outcome => ?_
      split
      · exact Prog.Always.pure _
      · exact Prog.Always.bind parents fun _ => existOk _ (List.suffix_refl _)
      · refine Prog.Always.bind (Prog.Always.observe _) fun there => ?_
        cases there
        · exact Prog.Always.raise _
        · exact Prog.Always.pure _

theorem isDir_iff {state : σ} {parts : List String} : store.isDir base state parts = true ↔
    ∃ loc, (store.layout state).walk base parts.reverse = .ok loc ∧
      store.layout state loc = some .dir := by
  unfold isDir
  cases (store.layout state).walk base parts.reverse <;> simp

/-- A path leads to a directory still where every directory is still one. -/
theorem isDir_mono {left right : σ} (keeps : ∀ loc, store.layout left loc = some .dir →
    store.layout right loc = some .dir) {parts : List String}
    (there : store.isDir base left parts = true) : store.isDir base right parts = true := by
  obtain ⟨loc, arrives, here⟩ := (store.isDir_iff base).mp there
  exact (store.isDir_iff base).mpr ⟨loc, Layout.walk_mono keeps arrives, keeps loc here⟩

section Made

variable {store} {base}
  (grows : ∀ state loc name, store.layout state loc = some .dir →
    store.layout state (Layout.stepInto loc name) = none →
    store.layout (store.addDir state (Layout.stepInto loc name)) (Layout.stepInto loc name) =
      some .dir)
  (keeps : ∀ state loc other, store.layout state other = some .dir →
    store.layout (store.addDir state loc) other = some .dir)

include grows keeps

/-- An `os.mkdir` that returns has made its directory. -/
theorem ensures_osMkdir (parts : List String) :
    Prog.Ensures (fun _ => True) (store.osMkdir base parts) (fun _ => True)
      (fun _ state => store.isDir base state parts = true) := by
  refine Prog.Ensures.perform fun state next _ applies => ⟨trivial, ?_⟩
  obtain ⟨name, parent, loc, rfl, arrives, here, free, -, rfl⟩ :=
    (store.withDir_eq_ok base).mp applies
  have arrives' := Layout.walk_mono (keeps state (Layout.stepInto loc name)) arrives
  refine (store.isDir_iff base).mpr ⟨_, ?_, grows state loc name here free⟩
  rw [List.reverse_cons, Layout.walk_append arrives', Layout.walk,
    keeps state (Layout.stepInto loc name) loc here]
  rfl

omit grows keeps in
/-- A fault that is forgiven beside a directory. -/
theorem ensures_unlessDir {pre : σ → Prop} (parts : List String) (fault : OsError) :
    Prog.Ensures pre
      (do if ← Prog.observe fun state => .ok (store.isDir base state parts) then pure ()
          else Prog.raise fault)
      (fun _ => True) (fun _ state => store.isDir base state parts = true) := by
  have looks : Prog.Ensures pre
      (Prog.observe fun state => .ok (store.isDir base state parts) : Prog σ OsError Bool)
      (fun _ => True) (fun there state => there = store.isDir base state parts) := by
    refine Prog.Ensures.observe fun state there _ looked => ?_
    cases looked
    rfl
  refine Prog.Ensures.bind looks fun there => ?_
  cases there with
  | false => exact Prog.Ensures.raise
  | true => exact Prog.Ensures.pure fun state made => made.symm

/-- `mkdir(exist_ok=True)` returns only beside a directory. -/
theorem ensures_mkdirExistOk (pre : σ → Prop) (parts : List String) :
    Prog.Ensures pre (store.mkdirExistOk base parts) (fun _ => True)
      (fun _ state => store.isDir base state parts = true) := by
  refine Prog.Ensures.bind ((ensures_osMkdir grows keeps parts).attempt.weaken
    (fun _ _ => trivial) (fun _ left => left) (fun _ _ made => made)) fun outcome => ?_
  split
  · exact Prog.Ensures.pure fun state made => made () rfl
  · exact Prog.Ensures.raise
  · exact ensures_unlessDir parts _

/-- `mkdir(parents=True, exist_ok=True)` returns only beside a directory. -/
theorem ensures_mkdirs (parts : List String) :
    Prog.Ensures (fun _ => True) (store.mkdirs base parts) (fun _ => True)
      (fun _ state => store.isDir base state parts = true) := by
  cases parts with
  | nil => exact ensures_mkdirExistOk grows keeps _ []
  | cons name parent =>
      refine Prog.Ensures.bind (ensures_osMkdir grows keeps _).attempt fun outcome => ?_
      split
      · exact Prog.Ensures.pure fun state made => made () rfl
      · have parents : Prog.Ensures (fun _ => True) (store.mkdirs base parent) (fun _ => True)
            (fun _ _ => True) := fun state _ => ⟨fun _ _ => trivial, fun _ _ => trivial⟩
        exact Prog.Ensures.bind (parents.weaken (fun _ _ => trivial) (fun _ left => left)
          (fun _ _ finish => finish)) fun _ => ensures_mkdirExistOk grows keeps _ _
      · exact ensures_unlessDir _ _

end Made

end DirStore

end NovelRalph
