import NovelRalph.System.FreshCompile

/-!
# Freshness in bytes

`compile` promises bytes, and the comparison reads texts: universal newlines come
between them. What a compile renders has no carriage return, so the two part
exactly where `compiled.md` spells the rendered text with carriage returns.
-/

namespace NovelRalph

section Bytes

variable {toml : Tomlkit} {world : World toml.Text} {state : State} {content : String}

/-- `compiled.md` is a regular file with the encoding of a text. -/
structure CompiledHolds (world : World toml.Text) (content : String) : Prop where
  file : world.layout world.disk.compiledManuscript = some .file
  stored : world.files.lookup world.disk.compiledManuscript = some (.text content)

/-- The bytes `compile` writes: the encoding of the joined drafts, which a run over a populated
manifest leaves in `compiled.md`. -/
structure CompileWrites (world : World toml.Text) (state : State) (bytes : ByteArray) : Prop where
  rendered : ∃ bodies, world.disk.presentDraftBodies state.chapters = .ok bodies ∧
    (concatenateDrafts bodies).toUTF8 = bytes
  left : state.chapters ≠ [] → exitCodeOf (compileManuscript world).result = some 0 ∧
    ∃ text, ((compileManuscript world).final world).files.lookup world.disk.compiledManuscript =
      some (.text text) ∧ text.toUTF8 = bytes

/-- The verdict is that of a comparison of bytes. -/
def FreshnessByteExact (world : World toml.Text) (state : State) (content : String) : Prop :=
  ∃ bytes, CompileWrites world state bytes ∧
    (world.disk.compiledMatchesDrafts state.chapters = .ok .matches ↔ content.toUTF8 = bytes)

/-- The text is spelled with carriage returns that reading makes line feeds. -/
def Respelled (content text : String) : Prop :=
  '\r' ∈ content.toList ∧ translateNewlines content.toList = text.toList

/-- A text without carriage returns is compared in bytes as in what is read, but for a respelling. -/
theorem readsAs_iff_bytes {text : String} (plain : '\r' ∉ text.toList) :
    (String.ofList (translateNewlines content.toList) = text ↔ content.toUTF8 = text.toUTF8) ↔
      ¬ Respelled content text := by
  have bytes : content.toUTF8 = text.toUTF8 ↔ content = text := String.toByteArray_inj
  have reads : String.ofList (translateNewlines content.toList) = text ↔
      translateNewlines content.toList = text.toList := by
    rw [← String.toList_inj, String.toList_ofList]
  rw [bytes, reads, Respelled]
  constructor
  · rintro alike ⟨carriage, respelled⟩
    rw [alike.mp respelled] at carriage
    exact plain carriage
  · intro spelled
    constructor
    · intro same
      have none : '\r' ∉ content.toList := fun carriage => spelled ⟨carriage, same⟩
      rw [translateNewlines_eq_self none] at same
      exact String.toList_inj.mp same
    · rintro rfl
      exact translateNewlines_eq_self plain

/-- What a compile renders holds no carriage return. -/
theorem not_mem_compiledText {chapters : List ChapterEntry}
    (drafts : ∀ entry ∈ chapters, world.disk.DraftReadable entry.number) :
    '\r' ∉ (world.disk.compiledText chapters).toList := by
  have read := World.readBack_compiledText drafts
  rw [← read, String.toList_ofList]
  exact not_mem_translateNewlines _

/-- The comparison is one of the text `compiled.md` reads as with the text a compile renders. -/
theorem matches_iff_reads (drafts : ∀ entry ∈ state.chapters, world.disk.DraftReadable entry.number)
    (holds : CompiledHolds world content) :
    world.disk.compiledMatchesDrafts state.chapters = .ok .matches ↔
      String.ofList (translateNewlines content.toList) = world.disk.compiledText state.chapters := by
  have there : world.disk.exists? world.disk.compiledManuscript = true := by
    show (world.layout world.disk.compiledManuscript).isSome = true
    rw [holds.file]
    rfl
  have read : world.disk.read world.disk.compiledManuscript =
      .ok (String.ofList (translateNewlines content.toList)) := by
    show world.read world.disk.compiledManuscript = _
    unfold World.read
    rw [holds.file, holds.stored]
  unfold Disk.compiledMatchesDrafts
  rw [if_pos there, Disk.presentDraftBodies_of_readable drafts, read]
  simp only [bind, Except.bind, pure, Except.pure, Except.ok.injEq, ite_eq_left_iff, reduceCtorEq,
    imp_false, not_not]
  rfl

/-- The bytes of the rendered text are those a compile writes. -/
theorem compileWrites_of_readable (shows : Shows world state)
    (drafts : ∀ entry ∈ state.chapters, world.disk.DraftReadable entry.number)
    (holds : CompiledHolds world content) :
    CompileWrites world state (world.disk.compiledText state.chapters).toUTF8 where
  rendered := ⟨_, Disk.presentDraftBodies_of_readable drafts, rfl⟩
  left populated := by
    have free : world.disk.compiledManuscript ∉ world.dirs := by
      rw [← World.layout_eq_dir, holds.file]
      exact nofun
    have inside : world.disk.compiledManuscript.tail ∈ world.dirs := by
      have there : (world.layout world.disk.compiledManuscript).isSome := by
        rw [holds.file]
        rfl
      exact World.layout_eq_dir.mp (World.layout_closed _ there)
    obtain ⟨next, replaced⟩ := World.replaceFile_succeeds inside free
      (world.disk.compiledText state.chapters)
    obtain ⟨exits, final⟩ := compile_of_replaced shows populated drafts replaced
    refine ⟨exits, _, ?_, rfl⟩
    rw [final]
    exact (World.replaceFile_ok replaced).2.1

/-- The bytes a compile writes are determined. -/
theorem CompileWrites.unique {first second : ByteArray} (one : CompileWrites world state first)
    (other : CompileWrites world state second) : first = second := by
  obtain ⟨bodies, read, rfl⟩ := one.rendered
  obtain ⟨bodies', read', rfl⟩ := other.rendered
  rw [read, Except.ok.injEq] at read'
  rw [read']

/-- The freshness verdict is exact in bytes unless `compiled.md` respells the rendered drafts with
carriage returns. -/
theorem freshness_byte_exact_iff (shows : Shows world state)
    (drafts : ∀ entry ∈ state.chapters, world.disk.DraftReadable entry.number)
    (holds : CompiledHolds world content) :
    FreshnessByteExact world state content ↔
      ¬ Respelled content (world.disk.compiledText state.chapters) := by
  have writes := compileWrites_of_readable shows drafts holds
  rw [← readsAs_iff_bytes (not_mem_compiledText drafts), ← matches_iff_reads drafts holds]
  constructor
  · rintro ⟨bytes, written, exact⟩
    rwa [written.unique writes] at exact
  · exact fun exact => ⟨_, writes, exact⟩

end Bytes

/-- `reversedWorld` with a compiled manuscript. -/
def compiledWorld (content : String) : World Tomlkit.structural.Text :=
  reversedWorld.putFile ["compiled.md", "manuscript", "working"] (.text content)

theorem shows_compiled (content : String) : Shows (compiledWorld content) reversedState :=
  shows_reversed.of_eq (World.putFile_stateToml _ _ _)

theorem replaced_compiled (content : String) : reversedWorld.replaceFile
    reversedWorld.disk.compiledManuscript content = .ok (compiledWorld content) := by
  have place : reversedWorld.disk.compiledManuscript = ["compiled.md", "manuscript", "working"] := by
    decide +kernel
  rw [place]
  exact World.replaceFile_eq_putFile (by decide +kernel) (by decide +kernel) content

theorem drafts_compiled (content : String) : ∀ entry ∈ reversedState.chapters,
    (compiledWorld content).disk.DraftReadable entry.number := fun entry member =>
  World.SameBut.draftReadable (World.replaceFile_ok (replaced_compiled content)).1
    (drafts_reversed entry member)

theorem holds_compiled (content : String) : CompiledHolds (compiledWorld content) content := by
  obtain ⟨same, held, -, free⟩ := World.replaceFile_ok (replaced_compiled content)
  rw [← World.SameBut.compiledManuscript same] at held
  refine ⟨?_, held⟩
  have stored : (compiledWorld content).holdsFile (compiledWorld content).disk.compiledManuscript :=
    Or.inr (Or.inr (by rw [held]; rfl))
  unfold World.layout
  rw [if_neg (by rw [World.SameBut.compiledManuscript same, same.dirs]; exact free), if_pos stored]

/-- Rewriting the line feed of the rendered text changes the bytes and not the verdict. -/
theorem freshness_misses_crlf : Shows (compiledWorld "a\r\nb\n\n") reversedState ∧
    CompiledHolds (compiledWorld "a\r\nb\n\n") "a\r\nb\n\n" ∧
    ¬ FreshnessByteExact (compiledWorld "a\r\nb\n\n") reversedState "a\r\nb\n\n" := by
  refine ⟨shows_compiled _, holds_compiled _, ?_⟩
  rintro ⟨bytes, written, exact⟩
  have verdict : (compiledWorld "a\r\nb\n\n").disk.compiledMatchesDrafts reversedState.chapters =
      .ok .matches := by decide +kernel
  obtain ⟨bodies, read, rfl⟩ := written.rendered
  have bodies' : (compiledWorld "a\r\nb\n\n").disk.presentDraftBodies reversedState.chapters =
      .ok ["a\nb", ""] := by decide +kernel
  rw [bodies', Except.ok.injEq] at read
  subst read
  have same := String.toByteArray_inj.mp (exact.mp verdict)
  exact absurd same (by decide)

/-- As `compile` leaves it, the manuscript is found fresh by its bytes. -/
theorem freshness_byte_exact_fresh :
    FreshnessByteExact (compiledWorld "a\nb\n\n") reversedState "a\nb\n\n" :=
  (freshness_byte_exact_iff (shows_compiled _) (drafts_compiled _) (holds_compiled _)).mpr
    fun respelled => absurd respelled.1 (by decide)

end NovelRalph
