import NovelRalph.Base.Program
import Mathlib.Data.String.Basic
import Mathlib.Logic.Function.Basic

/-!
# One atomic write, step by step

The tree of the other modules replaces a file in one step. Here that step is what
the code makes of it: a temporary file beside the target is created, written,
closed and renamed, and any of these can fail. The write is as good as one step
when nothing fails, when the creation fails, or when the rename fails with an
`OSError` and the temporary file can be removed; any other failure leaves the
temporary file behind.
-/

namespace NovelRalph

/-- The files of one directory, by name. -/
abbrev Folder := String → Option (List UInt8)

/-- A text as the interpreter has it: code points, lone surrogates included. -/
abbrev CodePoints := List (Fin 0x110000)

/-- What a step of a write can raise. -/
inductive StepFault where
  | osError
  | unicodeEncodeError
  /-- Neither of these: an interrupt, or a null byte in a name. -/
  | unexpected
  deriving DecidableEq, Repr

/-- `text.encode("utf-8")`. -/
def encodeUtf8 : CodePoints → Except StepFault (List UInt8)
  | [] => .ok []
  | code :: rest =>
      if valid : code.val.isValidChar then do
        let later ← encodeUtf8 rest
        return String.utf8EncodeChar (Char.ofNatAux code.val valid) ++ later
      else .error .unicodeEncodeError

/-- What the system answers to the steps of one write; `none` is success. -/
structure Answers where
  create : Option StepFault
  write : Option StepFault
  close : Option StepFault
  replace : Option StepFault
  unlink : Option StepFault
  /-- The bytes that reach the file before a write that fails. -/
  written : Nat
  /-- The bytes that reach the file before a close that fails. -/
  flushed : Nat

section Write

variable (answers : Answers) (temp : String)

/-- A step that changes the folder, or fails and does not. -/
def systemStep (answer : Option StepFault) (change : Folder → Folder) : Prog Folder StepFault Unit :=
  .perform fun folder =>
    match answer with
    | none => .ok (change folder)
    | some fault => .error fault

/-- Bytes reach the end of the temporary file. -/
def appendTemp (bytes : List UInt8) : Prog Folder StepFault Unit :=
  systemStep none fun folder =>
    Function.update folder temp ((folder temp).map fun content => content ++ bytes)

/-- `tempfile.NamedTemporaryFile(…)`; a creation that fails leaves nothing. -/
def namedTemporaryFile : Prog Folder StepFault Unit :=
  systemStep answers.create fun folder => Function.update folder temp (some [])

/-- `handle.write(text)`; what is written stays in the buffer of the handle. -/
def handleWrite (text : CodePoints) : Prog Folder StepFault Unit :=
  match encodeUtf8 text with
  | .error fault => .raise fault
  | .ok bytes =>
      match answers.write with
      | none => pure ()
      | some fault => do
          appendTemp temp (bytes.take answers.written)
          .raise fault

/-- What the buffer of the handle still holds at the end of the block. -/
def buffered (text : CodePoints) : List UInt8 :=
  match encodeUtf8 text with
  | .error _ => []
  | .ok bytes => if answers.write.isSome then bytes.drop answers.written else bytes

/-- The end of the block flushes the buffer and closes the handle. -/
def handleClose (bytes : List UInt8) : Prog Folder StepFault Unit :=
  match answers.close with
  | none => appendTemp temp bytes
  | some fault => do
      appendTemp temp (bytes.take answers.flushed)
      .raise fault

/-- The `with` block: a fault of its body is raised again once the handle is closed. -/
def fillTemp (text : CodePoints) : Prog Folder StepFault Unit := do
  let body ← Prog.attempt (handleWrite answers temp text)
  handleClose answers temp (buffered answers text)
  match body with
  | .ok () => return ()
  | .error fault => .raise fault

/-- `temp_path.replace(path)`. -/
def replaceTarget (target : String) : Prog Folder StepFault Unit :=
  systemStep answers.replace fun folder =>
    Function.update (Function.update folder temp none) target (folder temp)

/-- `temp_path.unlink(missing_ok=True)`. -/
def unlinkTemp : Prog Folder StepFault Unit :=
  systemStep answers.unlink fun folder => Function.update folder temp none

/-- The rename: after an `OSError`, and only then, the temporary file is unlinked. -/
def renameTemp (target : String) : Prog Folder StepFault Unit := do
  match ← Prog.attempt (replaceTarget answers temp target) with
  | .ok () => return ()
  | .error .osError => do
      unlinkTemp answers temp
      .raise .osError
  | .error fault => .raise fault

/-- `write_text_atomically`. -/
def writeTextAtomically (text : CodePoints) (target : String) : Prog Folder StepFault Unit := do
  namedTemporaryFile answers temp
  fillTemp answers temp text
  renameTemp answers temp target

end Write

/-! ## What a write should be -/

/-- The fault of the first step that fails. -/
def Answers.firstFault (answers : Answers) (text : CodePoints) : Option StepFault :=
  match answers.create with
  | some fault => some fault
  | none =>
      match encodeUtf8 text with
      | .error fault => some fault
      | .ok _ => answers.write.or (answers.close.or answers.replace)

/-- The write is as good as one step: it replaces the target, or raises and changes nothing. -/
structure OneStep (answers : Answers) (temp : String) (text : CodePoints) (target : String)
    (before : Folder) : Prop where
  fails : ∀ fault, answers.firstFault text = some fault →
    (writeTextAtomically answers temp text target before).result = .error fault ∧
    (writeTextAtomically answers temp text target before).final before = before
  succeeds : answers.firstFault text = none → ∃ bytes, encodeUtf8 text = .ok bytes ∧
    (writeTextAtomically answers temp text target before).result = .ok () ∧
    (writeTextAtomically answers temp text target before).final before =
      Function.update before target (some bytes)

/-- The text is encoded, written and closed without a fault. -/
structure Answers.Filled (answers : Answers) (text : CodePoints) : Prop where
  encodes : ∃ bytes, encodeUtf8 text = .ok bytes
  write : answers.write = none
  close : answers.close = none

/-- No step fails but the creation, or a rename whose `OSError` can be cleaned up after. -/
def Answers.Spared (answers : Answers) (text : CodePoints) : Prop :=
  answers.create ≠ none ∨ (answers.Filled text ∧
    (answers.replace = none ∨ (answers.replace = some .osError ∧ answers.unlink = none)))

section Runs

variable {answers : Answers} {temp target : String} {text : CodePoints} {before folder : Folder}
  {fault : StepFault}

/-- Creating, when it succeeds, makes an empty file. -/
theorem namedTemporaryFile_ok (created : answers.create = none) :
    namedTemporaryFile answers temp before = ⟨[Function.update before temp (some [])], .ok ()⟩ := by
  unfold namedTemporaryFile systemStep
  rw [created]
  rfl

/-- The temporary file is there. -/
def Strewn (temp : String) (folder : Folder) : Prop := ∃ content, folder temp = some content

theorem Strewn.append (strewn : Strewn temp folder) (bytes : List UInt8) :
    Strewn temp (Function.update folder temp ((folder temp).map fun content => content ++ bytes)) := by
  obtain ⟨content, there⟩ := strewn
  exact ⟨content ++ bytes, by rw [Function.update_self, there]; rfl⟩

/-- Writing and closing append to the temporary file, and never remove it. -/
theorem always_strewn_append (bytes : List UInt8) : Prog.Always (Strewn temp) (appendTemp temp bytes) :=
  Prog.Always.perform fun folder next strewn appended => by
    cases appended
    exact strewn.append bytes

theorem always_strewn_handleWrite : Prog.Always (Strewn temp) (handleWrite answers temp text) := by
  unfold handleWrite
  split
  · exact Prog.Always.raise _
  · split
    · exact Prog.Always.pure _
    · exact Prog.Always.bind (always_strewn_append _) fun _ => Prog.Always.raise _

theorem always_strewn_handleClose (bytes : List UInt8) :
    Prog.Always (Strewn temp) (handleClose answers temp bytes) := by
  unfold handleClose
  split
  · exact always_strewn_append _
  · exact Prog.Always.bind (always_strewn_append _) fun _ => Prog.Always.raise _

theorem always_strewn_fillTemp : Prog.Always (Strewn temp) (fillTemp answers temp text) := by
  unfold fillTemp
  refine Prog.Always.bind always_strewn_handleWrite.attempt fun body => ?_
  refine Prog.Always.bind (always_strewn_handleClose _) fun _ => ?_
  split
  · exact Prog.Always.pure _
  · exact Prog.Always.raise _

variable (temp folder) in
/-- A filled block leaves the text at the end of the temporary file. -/
theorem fillTemp_filled (filled : answers.Filled text) : ∃ bytes, encodeUtf8 text = .ok bytes ∧
    fillTemp answers temp text folder =
      ⟨[Function.update folder temp ((folder temp).map fun content => content ++ bytes)], .ok ()⟩ := by
  obtain ⟨bytes, encodes⟩ := filled.encodes
  have body : handleWrite answers temp text = pure () := by
    unfold handleWrite
    rw [encodes, filled.write]
  have rest : buffered answers text = bytes := by
    unfold buffered
    rw [encodes, filled.write]
    rfl
  have closing : handleClose answers temp bytes = appendTemp temp bytes := by
    unfold handleClose
    rw [filled.close]
  refine ⟨bytes, encodes, ?_⟩
  unfold fillTemp
  rw [body, rest, closing]
  rfl

/-- A write that returns has encoded the text and met no fault. -/
theorem handleWrite_returns (returned : (handleWrite answers temp text folder).result = .ok ()) :
    (∃ bytes, encodeUtf8 text = .ok bytes) ∧ answers.write = none := by
  unfold handleWrite at returned
  cases encoded : encodeUtf8 text with
  | error fault =>
      rw [encoded] at returned
      cases returned
  | ok bytes =>
      cases written : answers.write with
      | some fault =>
          rw [encoded, written] at returned
          cases returned
      | none => exact ⟨⟨bytes, rfl⟩, rfl⟩

theorem handleClose_returns {bytes : List UInt8}
    (returned : (handleClose answers temp bytes folder).result = .ok ()) : answers.close = none := by
  cases closed : answers.close with
  | none => rfl
  | some fault =>
      unfold handleClose at returned
      rw [closed] at returned
      cases returned

/-- A block that returns has filled the temporary file. -/
theorem fillTemp_returns (returned : (fillTemp answers temp text folder).result = .ok ()) :
    answers.Filled text := by
  obtain ⟨_, body, attempted, closing⟩ := Prog.bind_returns folder returned
  obtain ⟨_, _, closed, ending⟩ := Prog.bind_returns _ closing
  have wrote : (handleWrite answers temp text folder).result = body := by
    have results := congrArg Run.result attempted
    exact Except.ok.inj results
  cases body with
  | error fault => cases ending
  | ok done =>
      obtain ⟨encodes, write⟩ := handleWrite_returns wrote
      exact ⟨encodes, write, handleClose_returns (congrArg Run.result closed)⟩

/-- A block that does not fill the temporary file fails, and leaves it behind. -/
theorem fillTemp_unfilled (unfilled : ¬ answers.Filled text) (strewn : Strewn temp folder) :
    ∃ trail fault, fillTemp answers temp text folder = ⟨trail, .error fault⟩ ∧
      Strewn temp (trail.getLastD folder) := by
  have always : Prog.Always (Strewn temp) (fillTemp answers temp text) := always_strewn_fillTemp
  have kept := always.final strewn
  cases ran : fillTemp answers temp text folder with
  | mk trail result =>
      cases result with
      | ok done => exact absurd (fillTemp_returns (congrArg Run.result ran)) unfilled
      | error fault =>
          rw [ran] at kept
          exact ⟨trail, fault, rfl, kept⟩

/-- The rename moves the temporary file over the target. -/
theorem renameTemp_replaced (replaced : answers.replace = none) :
    renameTemp answers temp target folder =
      ⟨[Function.update (Function.update folder temp none) target (folder temp)], .ok ()⟩ := by
  unfold renameTemp replaceTarget systemStep
  rw [replaced]
  rfl

/-- A rename that fails with an `OSError` is cleaned up after. -/
theorem renameTemp_cleaned (kept : answers.replace = some .osError) (unlinked : answers.unlink = none) :
    renameTemp answers temp target folder =
      ⟨[Function.update folder temp none], .error .osError⟩ := by
  unfold renameTemp replaceTarget unlinkTemp systemStep
  rw [kept, unlinked]
  rfl

variable (temp target folder) in
/-- Any other failure of the rename, or of the cleaning, changes nothing. -/
theorem renameTemp_left (failed : answers.replace ≠ none)
    (uncleaned : ¬ (answers.replace = some .osError ∧ answers.unlink = none)) :
    ∃ fault, renameTemp answers temp target folder = ⟨[], .error fault⟩ := by
  unfold renameTemp replaceTarget unlinkTemp systemStep
  cases replaced : answers.replace with
  | none => exact absurd replaced failed
  | some fault =>
      cases fault with
      | osError =>
          cases unlinked : answers.unlink with
          | none => exact absurd ⟨replaced, unlinked⟩ uncleaned
          | some other => exact ⟨other, rfl⟩
      | unicodeEncodeError => exact ⟨_, rfl⟩
      | unexpected => exact ⟨_, rfl⟩

/-! ## The whole write -/

/-- A creation that fails is the only step. -/
theorem write_uncreated (creation : answers.create = some fault) :
    writeTextAtomically answers temp text target before = ⟨[], .error fault⟩ := by
  apply Prog.bind_error
  unfold namedTemporaryFile systemStep
  rw [creation]
  rfl

/-- After the creation the block is run, and then the rename. -/
theorem write_created (created : answers.create = none) :
    writeTextAtomically answers temp text target before =
      ⟨Function.update before temp (some []) ::
        ((fillTemp answers temp text >>= fun _ => renameTemp answers temp target)
          (Function.update before temp (some []))).trail,
      ((fillTemp answers temp text >>= fun _ => renameTemp answers temp target)
          (Function.update before temp (some []))).result⟩ :=
  Prog.bind_ok before (namedTemporaryFile_ok created)

/-- A block that fails leaves the temporary file behind. -/
theorem write_unfilled (created : answers.create = none) (unfilled : ¬ answers.Filled text) :
    Strewn temp ((writeTextAtomically answers temp text target before).final before) := by
  have empty : Strewn temp (Function.update before temp (some [])) :=
    ⟨[], Function.update_self ..⟩
  obtain ⟨trail, fault, ran, left⟩ := fillTemp_unfilled unfilled empty
  rw [write_created created, Prog.bind_error _ ran]
  unfold Run.final
  rw [List.getLastD_cons]
  exact left

variable (temp target before) in
/-- A filled block is followed by the rename. -/
theorem write_filled (created : answers.create = none) (filled : answers.Filled text) :
    ∃ bytes, encodeUtf8 text = .ok bytes ∧
      (writeTextAtomically answers temp text target before).result =
        (renameTemp answers temp target (Function.update before temp (some bytes))).result ∧
      (writeTextAtomically answers temp text target before).final before =
        (renameTemp answers temp target (Function.update before temp (some bytes))).final
          (Function.update before temp (some bytes)) := by
  obtain ⟨bytes, encodes, ran⟩ :=
    fillTemp_filled temp (Function.update before temp (some [])) filled
  rw [Function.update_self, Function.update_idem] at ran
  refine ⟨bytes, encodes, ?_, ?_⟩
  · rw [write_created created, Prog.bind_ok _ ran]
    rfl
  · rw [write_created created, Prog.bind_ok _ ran]
    unfold Run.final
    rw [List.getLastD_cons]
    exact Run.final_append _ _ _ (.ok () : Except StepFault Unit)

/-! ## The step that fails first -/

theorem firstFault_created (created : answers.create = none) {bytes : List UInt8}
    (encodes : encodeUtf8 text = .ok bytes) :
    answers.firstFault text = answers.write.or (answers.close.or answers.replace) := by
  unfold Answers.firstFault
  rw [created, encodes]

theorem firstFault_filled (created : answers.create = none) (filled : answers.Filled text) :
    answers.firstFault text = answers.replace := by
  obtain ⟨bytes, encodes⟩ := filled.encodes
  rw [firstFault_created created encodes, filled.write, filled.close]
  rfl

/-- A block that is not filled has met a fault. -/
theorem firstFault_unfilled (created : answers.create = none) (unfilled : ¬ answers.Filled text) :
    ∃ fault, answers.firstFault text = some fault := by
  cases encoded : encodeUtf8 text with
  | error fault =>
      unfold Answers.firstFault
      rw [created, encoded]
      exact ⟨fault, rfl⟩
  | ok bytes =>
      rw [firstFault_created created encoded]
      cases written : answers.write with
      | some fault => exact ⟨fault, rfl⟩
      | none =>
          cases closed : answers.close with
          | some fault => exact ⟨fault, rfl⟩
          | none => exact absurd ⟨⟨bytes, encoded⟩, written, closed⟩ unfilled

/-- A write that leaves its temporary file is not one step. -/
theorem OneStep.not_strewn (fresh : before temp = none)
    (oneStep : OneStep answers temp text target before)
    (faulty : answers.firstFault text = some fault) :
    ¬ Strewn temp ((writeTextAtomically answers temp text target before).final before) := by
  intro strewn
  obtain ⟨content, there⟩ := strewn
  rw [(oneStep.fails fault faulty).2, fresh] at there
  cases there

/-- A spared write is as good as one step. -/
theorem Answers.Spared.oneStep (fresh : before temp = none) (spared : answers.Spared text) :
    OneStep answers temp text target before := by
  cases created : answers.create with
  | some fault =>
      have first : answers.firstFault text = some fault := by
        unfold Answers.firstFault
        rw [created]
      constructor
      · intro other faulty
        cases first.symm.trans faulty
        rw [write_uncreated created]
        exact ⟨rfl, rfl⟩
      · intro faultless
        rw [first] at faultless
        cases faultless
  | none =>
      obtain absent | ⟨filled, ending⟩ := spared
      · exact absurd created absent
      · have first := firstFault_filled created filled
        obtain ⟨bytes, encodes, result, final⟩ :=
          write_filled temp target before created filled
        obtain replaced | ⟨kept, unlinked⟩ := ending
        · rw [renameTemp_replaced replaced] at result final
          constructor
          · intro fault faulty
            rw [first, replaced] at faulty
            cases faulty
          · intro faultless
            refine ⟨bytes, encodes, result, final.trans ?_⟩
            unfold Run.final
            rw [List.getLastD_cons, List.getLastD_nil, Function.update_self, Function.update_idem,
              ← fresh, Function.update_eq_self]
        · rw [renameTemp_cleaned kept unlinked] at result final
          constructor
          · intro fault faulty
            rw [first, kept] at faulty
            cases faulty
            refine ⟨result, final.trans ?_⟩
            unfold Run.final
            rw [List.getLastD_cons, List.getLastD_nil, Function.update_idem, ← fresh,
              Function.update_eq_self]
          · intro faultless
            rw [first, kept] at faultless
            cases faultless

/-- A write as good as one step is spared. -/
theorem OneStep.spared (fresh : before temp = none)
    (oneStep : OneStep answers temp text target before) : answers.Spared text := by
  cases created : answers.create with
  | some fault => exact Or.inl (by rw [created]; exact Option.some_ne_none fault)
  | none =>
      right
      by_cases filled : answers.Filled text
      · refine ⟨filled, ?_⟩
        have first := firstFault_filled created filled
        cases replaced : answers.replace with
        | none => exact Or.inl rfl
        | some fault =>
            right
            by_contra uncleaned
            rw [← replaced] at uncleaned
            obtain ⟨bytes, -, -, final⟩ :=
              write_filled temp target before created filled
            obtain ⟨raised, left⟩ := renameTemp_left temp target
              (Function.update before temp (some bytes))
              (by rw [replaced]; exact Option.some_ne_none fault) uncleaned
            apply oneStep.not_strewn fresh (first.trans replaced)
            rw [final, left]
            exact ⟨bytes, Function.update_self ..⟩
      · obtain ⟨fault, faulty⟩ := firstFault_unfilled created filled
        exact absurd (write_unfilled created filled) (oneStep.not_strewn fresh faulty)

end Runs

/-! ## The promise -/

/-- A write is as good as one step exactly when it is spared the failures after the creation
other than a rename whose `OSError` can be cleaned up after. -/
theorem one_step_iff_spared {answers : Answers} {temp target : String} {text : CodePoints}
    {before : Folder} (fresh : before temp = none) :
    OneStep answers temp text target before ↔ answers.Spared text :=
  ⟨OneStep.spared fresh, Answers.Spared.oneStep fresh⟩

/-- A write whose rename is refused: the target keeps its bytes and nothing else is there. -/
theorem one_step_iff_spared_refused :
    OneStep ⟨none, none, none, some .osError, none, 0, 0⟩ ".state.toml.x.tmp" [0xe9] "state.toml"
      (fun name => if name = "state.toml" then some [0x61] else none) :=
  (one_step_iff_spared rfl).mpr (Or.inr ⟨⟨⟨_, rfl⟩, rfl, rfl⟩, Or.inr ⟨rfl, rfl⟩⟩)

/-- A disk found full when the buffer is flushed: the temporary file is there for good. -/
theorem full_disk_leaves_temp :
    ¬ ∀ (answers : Answers) (temp target : String) (text : CodePoints) (before : Folder),
      before temp = none → OneStep answers temp text target before := by
  intro promise
  have oneStep := promise ⟨none, none, some .osError, none, none, 0, 0⟩ ".state.toml.x.tmp"
    "compiled.md" [0x62] (fun name => if name = "compiled.md" then some [0x61] else none) rfl
  have unchanged := congrFun (oneStep.fails .osError rfl).2 ".state.toml.x.tmp"
  have leftBehind : (writeTextAtomically ⟨none, none, some .osError, none, none, 0, 0⟩
      ".state.toml.x.tmp" [0x62] "compiled.md"
      (fun name => if name = "compiled.md" then some [0x61] else none)).final
        (fun name => if name = "compiled.md" then some [0x61] else none) ".state.toml.x.tmp" =
          some [] := rfl
  rw [leftBehind] at unchanged
  cases unchanged

end NovelRalph
