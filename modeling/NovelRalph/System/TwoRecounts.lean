import NovelRalph.State.Precedence
import NovelRalph.System.Disclosure

/-!
# The two recounts

`recount` rewrites the counts directly, `reconcile` inside its bracket. Both
propose the same state to the same validator, so where a recount is derived they
succeed together and show the same state; what `reconcile` needs besides is a log
it can open. The counts a recount leaves are those the detector would count, and
those a second recount would write.
-/

namespace NovelRalph

open InvariantName

/-! ## Assigning the same counts twice -/

/-- What a recount assigns. -/
def recountEdits (byChapter : Dict String Int) : List Edit :=
  [setCurrent byChapter.values.sum, setByChapter byChapter]

/-- Assigning a key what it holds changes nothing. -/
theorem assign_held {κ α : Type} [DecidableEq κ] {key : κ} {value : α} {entries : List (κ × α)}
    (held : entries.lookup key = some value) : assign key value entries = entries := by
  induction entries with
  | nil => cases held
  | cons entry rest inductionHypothesis =>
      rw [lookup_entry] at held
      unfold assign
      by_cases here : entry.1 = key
      · rw [if_pos here.symm, Option.some.injEq] at held
        rw [if_pos here, ← here, ← held]
      · rw [if_neg (fun same => here same.symm)] at held
        rw [if_neg here, inductionHypothesis held]

/-- A place below two keys that holds a value, or cannot be assigned. -/
theorem Table.setPath_held {table : Table} {outer key : String} {value : Value}
    (held : ∀ inner, table.lookup outer = some (.table inner) → inner.lookup key = some value) :
    setPath [outer, key] value table = table := by
  unfold setPath
  split
  · next inner there =>
      have same : setPath [key] value inner = inner := assign_held (held inner there)
      rw [same]
      exact assign_held there
  · rfl

/-- Below two keys, the value assigned last is found, and the others as they were. -/
theorem Table.lookup_inner {table inner : Table} {outer key : String} {value : Value}
    (there : (setPath [outer, key] value table).lookup outer = some (.table inner)) :
    ∃ before, table.lookup outer = some (.table before) ∧ inner = assign key value before := by
  cases found : table.lookup outer with
  | none =>
      simp [setPath, found] at there
  | some old =>
      cases old with
      | table before =>
          rw [lookup_setPath_two found, if_pos rfl] at there
          exact ⟨before, rfl, (by simpa using there.symm)⟩
      | _ => simp [setPath, found] at there

/-- Where `[word_counts]` is what a recount left, assigning the counts again changes nothing. -/
theorem recountEdits_held {byChapter : Dict String Int} {body later : Table}
    (kept : later.lookup "word_counts" =
      ((recountEdits byChapter).foldl Table.edit body).lookup "word_counts") :
    (recountEdits byChapter).foldl Table.edit later = later := by
  let total : Value := .int byChapter.values.sum
  let keys := buildInlineTable byChapter
  have counted : ∀ inner, later.lookup "word_counts" = some (.table inner) →
      inner.lookup "current" = some total ∧ inner.lookup "by_chapter" = some keys := by
    intro inner there
    rw [kept] at there
    obtain ⟨middle, below, rfl⟩ := Table.lookup_inner there
    obtain ⟨before, -, rfl⟩ := Table.lookup_inner below
    exact ⟨by rw [lookup_assign_of_ne (by decide), lookup_assign_self], lookup_assign_self _ _ _⟩
  show Table.setPath ["word_counts", "by_chapter"] keys
    (Table.setPath ["word_counts", "current"] total later) = later
  rw [Table.setPath_held fun inner there => (counted inner there).1,
    Table.setPath_held fun inner there => (counted inner there).2]

/-- What a command does to the document after the counts: nothing, or it clears its record. -/
def Closing (later : List Edit) : Prop := later = [] ∨ later = [clearPendingTurn]

/-- Neither touches the counts. -/
theorem Closing.recountEdits_twice {later : List Edit} (closing : Closing later)
    (byChapter : Dict String Int) (body : Table) :
    (recountEdits byChapter).foldl Table.edit
        (later.foldl Table.edit ((recountEdits byChapter).foldl Table.edit body)) =
      later.foldl Table.edit ((recountEdits byChapter).foldl Table.edit body) := by
  refine @recountEdits_held byChapter body _ ?_
  rcases closing with rfl | rfl
  · rfl
  · show (discard "pending_turn" _).lookup "word_counts" = _
    rw [lookup_discard, if_neg (by decide)]

/-- Into a text it wrote itself the editor assigns the same counts again without a trace. -/
def Tomlkit.RepeatsCounts (toml : Tomlkit) : Prop :=
  ∀ text body before later byChapter state, toml.parse text = .ok body →
    parseState (before.foldl Table.edit body) = .ok state → Closing later →
    let written := toml.dumps text (before ++ recountEdits byChapter ++ later)
    toml.dumps written (recountEdits byChapter) = written

theorem Tomlkit.structural_repeatsCounts : Tomlkit.structural.RepeatsCounts := by
  intro text body before later byChapter state parsed reads closing
  subst parsed
  show Except.ok ((recountEdits byChapter).foldl Table.edit
    ((before ++ recountEdits byChapter ++ later).foldl Table.edit body)) =
      Except.ok ((before ++ recountEdits byChapter ++ later).foldl Table.edit body)
  rw [List.foldl_append, List.foldl_append, closing.recountEdits_twice]

/-! ## A run of `recount` -/

section Recount

variable {toml : Tomlkit} {arith : RatioArithmetic} {now : String} {world next : World toml.Text}
  {state : State} {reconciliation : Reconciliation String} {text : toml.Text}

/-- The document that is opened is the text, without edits. -/
theorem openDocument_fresh {document : Document toml} (opens : openDocument world = .ok document) :
    world.stateToml = some document.origin ∧ document.edits = [] := by
  unfold openDocument at opens
  cases found : world.readState with
  | error fault => simp [found] at opens
  | ok text =>
      have stored : world.stateToml = some text := by
        unfold World.readState at found
        cases held : world.stateToml with
        | none =>
            rw [held] at found
            dsimp only at found
            split at found <;> cases found
        | some stored => simpa [held] using found
      rw [found] at opens
      cases loaded : Document.load text with
      | error fault => simp [loaded] at opens
      | ok other =>
          simp only [loaded, Except.ok.injEq] at opens
          subst opens
          unfold Document.load at loaded
          split at loaded
          · cases loaded
            exact ⟨stored, rfl⟩
          · cases loaded

/-- A mutation whose edits propose a state writes them when it is coherent, and fails otherwise. -/
theorem mutateState_run {plan : World toml.Text → State → Except Fault (MutationPlan State)}
    {planned : MutationPlan State} {proposed : State} (shows : Shows world state)
    (held : world.stateToml = some text) (plans : plan world state = .ok planned)
    (proposes : ∀ body, parseState body = .ok state →
      parseState (planned.edits.foldl Table.edit body) = .ok proposed) :
    (Coherent arith proposed → mutateState arith plan world =
      ⟨[World.withState shows.held (toml.dumps text planned.edits)], .ok planned.outcome⟩) ∧
    (¬ Coherent arith proposed → ∃ fault, mutateState arith plan world = ⟨[], .error fault⟩) := by
  obtain ⟨document, opens, viewed⟩ := shows.opens
  obtain ⟨origin, fresh⟩ := openDocument_fresh opens
  have review : documentToState (document.editAll planned.edits) = .ok proposed := by
    rw [documentToState, Document.body_editAll]
    exact proposes _ viewed
  have dumped : (document.editAll planned.edits).dump = toml.dumps text planned.edits := by
    rw [held, Option.some.injEq] at origin
    unfold Document.dump Document.editAll
    rw [fresh, origin, List.nil_append]
  have opening : mutateState arith plan world = (Prog.observe (fun _ =>
      refuseIfIncoherent (spelledVerdict arith) proposed planned.context planned.remedy) >>=
        fun _ => writeDocumentAtomically
        (document.editAll planned.edits) >>= fun _ => pure planned.outcome) world := by
    unfold mutateState mutateView loadDocumentOrStateError stateViewOrStateError
    rw [Prog.observe_bind_ok world (by rw [opens, guardStateInput_ok])]
    rw [Prog.observe_bind_ok world (by rw [viewed, guardStateInput_ok])]
    rw [Prog.observe_bind_ok world plans]
    rw [Prog.observe_bind_ok world (by rw [review, guardStateInput_ok])]
  rw [opening]
  constructor
  · intro coherent
    rw [Prog.observe_bind_ok world (refuseIfIncoherent_eq_ok.mpr coherent), ← dumped]
    exact Prog.bind_ok _ (Prog.perform_ok _ (World.replaceState_of_held shows.held _))
  · intro incoherent
    rcases Prog.observe_bind_cases world (fun _ => refuseIfIncoherent (spelledVerdict arith) proposed
      planned.context planned.remedy) _ with ⟨fault, -, faults⟩ | ⟨_, approved, -⟩
    · exact ⟨fault, faults⟩
    · exact absurd (refuseIfIncoherent_eq_ok.mp approved) incoherent

/-- With readable drafts `recount` writes their counts when these are coherent, and fails otherwise. -/
theorem recount_run (shows : Shows world state) (held : world.stateToml = some text)
    (drafts : ∀ entry ∈ state.chapters, world.disk.DraftReadable entry.number) :
    (Coherent arith (state.counted world.disk) → ∃ outcome, outcome.code = .success ∧
      recount arith world = ⟨[World.withState shows.held
        (toml.dumps text (recountEdits (world.disk.recountTable state.chapters)))], .ok outcome⟩) ∧
    (¬ Coherent arith (state.counted world.disk) → ∃ fault,
      recount arith world = ⟨[], .error fault⟩) := by
  have counted : guardStateInput draftReadError (world.disk.recountWords state.chapters) =
      .ok ((world.disk.recountTable state.chapters).values.sum,
        world.disk.recountTable state.chapters) := by
    rw [Disk.recountWords_of_readable drafts, guardStateInput_ok]
  let table := world.disk.recountTable state.chapters
  let planned : MutationPlan State := recountPlan (gateRatioRemedy arith) table.values.sum table
  obtain ⟨plan, same, plans⟩ : ∃ plan, (recount arith : Command toml CommandOutcome) =
      mutateState arith plan ∧ plan world state = .ok planned :=
    ⟨_, rfl, except_bind_eq_ok.mpr ⟨_, counted, rfl⟩⟩
  obtain ⟨writes, refuses⟩ := @mutateState_run toml arith world state text plan planned
    (state.counted world.disk) shows held plans (fun body parsed => parse_recounted parsed table)
  rw [same]
  exact ⟨fun coherent => ⟨planned.outcome, rfl, writes coherent⟩, refuses⟩

end Recount

/-! ## What the two commands leave -/

section Agree

variable {toml : Tomlkit} {arith : RatioArithmetic} {now : String} {world left : World toml.Text}
  {state after : State} {reconciliation : Reconciliation String} {logged : Bool}

/-- The counts are at rest: the detector has nothing to say, and counting again changes nothing. -/
structure CountsAtRest (arith : RatioArithmetic) (after : State) (left : World toml.Text) : Prop where
  shows : Shows left after
  silent : ∃ violations, checkDiskEvidence after left.disk false = .ok violations ∧
    ∀ violation ∈ violations, violation.invariant ≠ wordCountsMatchDrafts ∧
      violation.invariant ≠ wordCountsCoverDrafts
  exits : exitCodeOf (recount arith left).result = some 0
  /-- The decoded table is the same after another recount. -/
  decoded : ((recount arith left).final left).stateToml.map toml.parse = left.stateToml.map toml.parse
  unchanged : toml.RepeatsCounts → ((recount arith left).final left).stateToml = left.stateToml

/-- The strict detector accepts the counts of the drafts. -/
theorem silent_of_counted (readable : Readable state world.disk)
    (stands : Stands world logged (state.counted world.disk) left) :
    ∃ violations, checkDiskEvidence (state.counted world.disk) left.disk false = .ok violations ∧
      ∀ violation ∈ violations, violation.invariant ≠ wordCountsMatchDrafts ∧
        violation.invariant ≠ wordCountsCoverDrafts := by
  have readable' : Readable (state.counted world.disk) left.disk :=
    stands.sameManuscript.readable (readable.congr rfl)
  have current : drift (state.counted world.disk) left.disk = false :=
    stands.sameManuscript.drift.trans (drift_counted state world.disk)
  rw [← Bool.not_eq_true, ← drifted_iff, not_or] at current
  obtain ⟨violations, detected, names⟩ := checkDiskEvidence_of_readable readable' false
  refine ⟨violations, detected, fun violation member => ?_⟩
  have listed : violation.invariant ∈ evidence (state.counted world.disk) left.disk false := by
    rw [← names]
    exact List.mem_map_of_mem member
  exact ⟨fun same => current.1 (same ▸ listed), fun same => current.2 (same ▸ listed)⟩

/-- A tree that shows the counts of its drafts, in a text that ends with them, is at rest. -/
theorem countsAtRest_of_stands (readable : Readable state world.disk)
    (coherent : Coherent arith (state.counted world.disk))
    (stands : Stands world logged (state.counted world.disk) left) {origin : toml.Text} {base : Table}
    {before later : List Edit} {prior : State} (opened : toml.parse origin = .ok base)
    (reads : parseState (before.foldl Table.edit base) = .ok prior) (closing : Closing later)
    (text : left.stateToml = some (toml.dumps origin
      (before ++ recountEdits (world.disk.recountTable state.chapters) ++ later))) :
    CountsAtRest arith (state.counted world.disk) left := by
  have readable' : Readable (state.counted world.disk) left.disk :=
    stands.sameManuscript.readable (readable.congr rfl)
  have table : left.disk.recountTable (state.counted world.disk).chapters =
      world.disk.recountTable state.chapters := stands.sameManuscript.recountTable state.chapters
  have recounted : (state.counted world.disk).counted left.disk = state.counted world.disk := by
    unfold State.counted at table ⊢
    rw [table]
    rfl
  obtain ⟨outcome, success, run⟩ := (recount_run stands.shows text readable'.drafts).1
    (recounted.symm ▸ coherent)
  rw [table] at run
  have final : ((recount arith left).final left).stateToml = some (toml.dumps (toml.dumps origin
      (before ++ recountEdits (world.disk.recountTable state.chapters) ++ later))
      (recountEdits (world.disk.recountTable state.chapters))) := by
    rw [run]
    rfl
  refine ⟨stands.shows, silent_of_counted readable stands,
    exitCodeOf_eq_zero.mpr ⟨outcome, congrArg Run.result run, success⟩, ?_, fun repeats => ?_⟩
  · rw [final, text, Option.map_some, Option.map_some,
      toml.parse_dumps _ _ _ (toml.parse_dumps _ _ _ opened), toml.parse_dumps _ _ _ opened,
      List.foldl_append, List.foldl_append, closing.recountEdits_twice]
  · rw [final, text, repeats _ _ _ _ _ _ opened reads closing]

/-- The text a bracket leaves: its record opened, the changes of its edit, the record cleared. -/
theorem bracket_text (shows : Shows world state) {logLine : String} {changes : List Edit}
    {edit : Document toml → Command toml (Document toml)}
    (edits : ∀ opened next, documentToState opened = .ok state.recorded →
      edit opened next = ⟨[], .ok (opened.editAll changes)⟩)
    (returned : (runReconcileBracket now edit logLine world).result = .ok ()) :
    ∃ origin base before, toml.parse origin = .ok base ∧
      parseState (before.foldl Table.edit base) = .ok state.recorded ∧
      ((runReconcileBracket now edit logLine world).final world).stateToml =
        some (toml.dumps origin (before ++ changes ++ [clearPendingTurn])) := by
  obtain ⟨opened, next, trail, edited, viewed, rewrites, shows', edits', opens, ends⟩ :=
    bracket_returned shows returned
  rw [edits opened next viewed, Run.mk.injEq, Except.ok.injEq] at edits'
  obtain ⟨rfl, rfl⟩ := edits'
  refine ⟨opened.origin, opened.base, opened.edits, opened.opened, viewed, ?_⟩
  rw [ends]
  exact (bracketEnd_returns shows'.held opens logLine _).2

/-- A derived recount carries the counts of the readable drafts, and no turn is open. -/
theorem recountReconciliation_of_action (readable : Readable state world.disk)
    (derives : deriveReconciliation state world.disk = .ok reconciliation)
    (recounts : reconciliation.action = .recount) :
    state.pendingTurn = none ∧ ∃ names, reconciliation = recountReconciliation names
      (world.disk.recountTable state.chapters).values.sum (world.disk.recountTable state.chapters) := by
  have counts := Disk.recountWords_of_readable readable.drafts
  cases derived_of_derive derives with
  | recount names table settled counted =>
      rw [counts, Except.ok.injEq, Prod.mk.injEq] at counted
      exact ⟨settled, names, by rw [counted.2]⟩
  | pendingTurn pending recorded =>
      rcases action_classifyPendingTurn world.disk pending [pendingTurnCleared] with action | action
      · rw [action] at recounts
        cases recounts
      · rw [action] at recounts
        cases recounts
  | explained | refuse | recreateLog | none => cases recounts

/-- `recount` exits 0 exactly when the counts of the drafts are coherent. -/
theorem recount_exits_iff (shows : Shows world state) (readable : Readable state world.disk) :
    exitCodeOf (recount arith world).result = some 0 ↔ Coherent arith (state.counted world.disk) := by
  obtain ⟨text, body, held, -, -⟩ := id shows
  obtain ⟨writes, refuses⟩ := @recount_run toml arith world state text shows held readable.drafts
  rw [exitCodeOf_eq_zero]
  constructor
  · rintro ⟨outcome, returned, -⟩
    by_contra incoherent
    obtain ⟨fault, run⟩ := refuses incoherent
    rw [run] at returned
    cases returned
  · intro coherent
    obtain ⟨outcome, success, run⟩ := writes coherent
    exact ⟨outcome, congrArg Run.result run, success⟩

section Reconciled

variable {names : List InvariantName} (shows : Shows world state)
  (derives : deriveReconciliation state world.disk = .ok (recountReconciliation names
    (world.disk.recountTable state.chapters).values.sum (world.disk.recountTable state.chapters)))

include shows derives

/-- `reconcile` needs the log as well. -/
theorem reconcile_exits_iff : exitCodeOf (reconcile arith now world).result = some 0 ↔
    Coherent arith (state.counted world.disk) ∧ LogOpen world := by
  rw [exitCodeOf_eq_zero]
  constructor
  · rintro ⟨outcome, returned, -⟩
    refine ⟨?_, logOpen_of_returned shows derives (Or.inl rfl) returned⟩
    by_contra incoherent
    obtain ⟨⟨fault, stalled⟩, -⟩ := @stalls toml arith now world state _ shows derives rfl incoherent
    rw [returned] at stalled
    cases stalled
  · rintro ⟨coherent, opens⟩
    exact (Repairs.recount opens shows derives coherent).exits

/-- What `recount` leaves is at rest. -/
theorem countsAtRest_recount (coherent : Coherent arith (state.counted world.disk)) :
    CountsAtRest arith (state.counted world.disk) ((recount arith world).final world) := by
  obtain ⟨text, body, held, parsed, read⟩ := id shows
  have readable := readable_of_derive derives
  obtain ⟨outcome, -, run⟩ := (recount_run shows held readable.drafts).1 coherent
  have stands : Stands world world.log.isSome (state.counted world.disk)
      (World.withState shows.held
        (toml.dumps text (recountEdits (world.disk.recountTable state.chapters)))) :=
    Stands.of_rewrites ⟨shows.held, _, rfl⟩ (shows_withState shows.held
      (toml.parse_dumps _ _ _ parsed) (parse_recounted read _))
  rw [run]
  exact @countsAtRest_of_stands toml arith world _ state _ readable coherent stands text body [] []
    state parsed read (Or.inl rfl) (by rw [List.nil_append, List.append_nil]; rfl)

/-- What `reconcile` leaves is at rest. -/
theorem countsAtRest_reconcile (settled : state.pendingTurn = none)
    (coherent : Coherent arith (state.counted world.disk)) (opens : LogOpen world) :
    CountsAtRest arith (state.counted world.disk) ((reconcile arith now world).final world) := by
  let table := world.disk.recountTable state.chapters
  have repairs : Repairs arith now world state (state.counted world.disk) :=
    Repairs.recount opens shows derives coherent
  have stands := repairs.final
  rw [State.settled_of_none (show (state.counted world.disk).pendingTurn = none from settled)]
    at stands
  have run : reconcile arith now world = _ :=
    (reconcile_enacts shows derives).trans (enactReconciliation_recount names table)
  have approved : refuseIfIncoherent (spelledVerdict arith) { state.counted world.disk with
      pendingTurn := some reconcileRecord } "reconcile recount" noRemedy = .ok () :=
    refuseIfIncoherent_eq_ok.mpr (coherent_withPending.mpr coherent)
  obtain ⟨outcome, returned, -⟩ := repairs.exits
  rw [run] at returned
  obtain ⟨trail, middle, bracketed, -⟩ := Prog.bind_returns world returned
  obtain ⟨origin, base, before, opened, reads, text⟩ := @bracket_text toml now world state shows
    ("recount: " ++ (@recountReconciliation String names table.values.sum table).detail)
    (recountEdits table) _
    (fun opened next viewed => by
      rw [rewriteWordCounts_run viewed]
      exact congrArg (Run.mk []) (congrArg (Except.map _) approved))
    (congrArg Run.result bracketed)
  refine countsAtRest_of_stands (readable_of_derive derives) coherent stands opened reads
    (Or.inr rfl) ?_
  rw [run, Prog.final_bind_pure, text]

end Reconciled

/-- Both recounts succeed together, the log aside, and leave the same state, at rest. -/
theorem recounts_agree (now : String) (shows : Shows world state)
    (derives : deriveReconciliation state world.disk = .ok reconciliation)
    (recounts : reconciliation.action = .recount) :
    (exitCodeOf (reconcile arith now world).result = some 0 ↔
      exitCodeOf (recount arith world).result = some 0 ∧ LogOpen world) ∧
    (exitCodeOf (reconcile arith now world).result = some 0 → ∃ after,
      CountsAtRest arith after ((recount arith world).final world) ∧
      CountsAtRest arith after ((reconcile arith now world).final world)) := by
  have readable := readable_of_derive derives
  obtain ⟨settled, names, rfl⟩ := recountReconciliation_of_action readable derives recounts
  rw [recount_exits_iff shows readable, reconcile_exits_iff shows derives]
  refine ⟨Iff.rfl, fun ⟨coherent, opens⟩ => ⟨state.counted world.disk, ?_, ?_⟩⟩
  · exact countsAtRest_recount shows derives coherent
  · exact countsAtRest_reconcile shows derives settled coherent opens

end Agree

theorem recounts_agree_uncounted :
    exitCodeOf (reconcile .doubles "" uncountedWorld).result = some 0 ∧
      exitCodeOf (recount .doubles uncountedWorld).result = some 0 ∧ ∃ after,
        CountsAtRest .doubles after ((recount .doubles uncountedWorld).final uncountedWorld) ∧
        CountsAtRest .doubles after ((reconcile .doubles "" uncountedWorld).final uncountedWorld) ∧
        ((recount .doubles ((reconcile .doubles "" uncountedWorld).final uncountedWorld)).final
          ((reconcile .doubles "" uncountedWorld).final uncountedWorld)).stateToml =
            ((reconcile .doubles "" uncountedWorld).final uncountedWorld).stateToml := by
  have derives : deriveReconciliation crossedState uncountedWorld.disk =
      .ok (recountReconciliation [wordCountsMatchDrafts] 2 (Dict.ofPairs [("01", 2)])) := by
    decide +kernel
  have exits : exitCodeOf (reconcile .doubles "" uncountedWorld).result = some 0 := by
    decide +kernel
  have agree := @recounts_agree Tomlkit.structural .doubles uncountedWorld crossedState _ "" shows_uncounted
    derives rfl
  obtain ⟨after, direct, bracketed⟩ := agree.2 exits
  exact ⟨exits, (agree.1.mp exits).1, after, direct, bracketed,
    bracketed.unchanged Tomlkit.structural_repeatsCounts⟩

/-- `uncountedWorld` with a directory where the log should be. -/
def closedLogWorld : World Tomlkit.structural.Text :=
  uncountedWorld.dropLog.addDir ["log.md", "working"]

/-- Where the log cannot be opened only one of the recounts succeeds. -/
theorem closed_log_divides :
    Shows closedLogWorld crossedState ∧
      (deriveReconciliation crossedState closedLogWorld.disk).map Reconciliation.action =
        .ok .recount ∧
      exitCodeOf (recount .doubles closedLogWorld).result = some 0 ∧
      exitCodeOf (reconcile .doubles "" closedLogWorld).result ≠ some 0 :=
  ⟨shown?_eq_some.mp (by decide +kernel), by decide +kernel, by decide +kernel, by decide +kernel⟩

end NovelRalph
