import NovelRalph.Base.Dict

/-!
# TOML documents behind a round-trip editor

`Value` and `Table` are what a TOML decoder returns. An editor (`Tomlkit`) is
known here only by its contract: decoding the dump of an edited document gives
the decoded original with the edits applied. Nothing is assumed about the text
in between, so comments and layout may be kept or lost.

A `Document` is an opened text together with the edits made to it in memory. It
carries the proof that the text was decoded, so dumping it can be reasoned about
without a side condition.
-/

namespace NovelRalph

/-- A decoded TOML value. -/
inductive Value where
  | str (text : String)
  | int (number : Int)
  | bool (flag : Bool)
  | float (literal : String)
  | dateTime (literal : String)
  | array (items : List Value)
  | table (entries : List (String × Value))
  deriving Repr, Inhabited

/-- A decoded TOML table. -/
abbrev Table := List (String × Value)

/-- One in-memory change of a document. -/
inductive Edit where
  /-- `document[k₁][k₂]… = value`. -/
  | set (path : List String) (value : Value)
  /-- `del document[key]`. -/
  | remove (key : String)
  deriving Repr

namespace Table

/-- Assign below a path of keys; the tables on the way must exist already. -/
def setPath (path : List String) (value : Value) (table : Table) : Table :=
  match path with
  | [] => table
  | [key] => assign key value table
  | key :: rest =>
      match table.lookup key with
      | some (.table inner) => assign key (.table (setPath rest value inner)) table
      | _ => table

/-- The effect of one edit on the decoded table. -/
def edit (table : Table) : Edit → Table
  | .set path value => setPath path value table
  | .remove key => discard key table

/-- What a lookup finds after assigning below two keys. -/
theorem lookup_setPath_two {table inner : Table} {outer key : String} {value : Value}
    (there : table.lookup outer = some (.table inner)) (wanted : String) :
    (setPath [outer, key] value table).lookup wanted =
      if wanted = outer then some (.table (assign key value inner)) else table.lookup wanted := by
  simp only [setPath, there]
  exact lookup_assign ..

end Table

/-- Why a text is not a TOML document. -/
inductive TomlFault where
  | notUtf8
  | syntaxFault
  deriving DecidableEq, Repr

/-- The contract of a style-preserving TOML editor. -/
structure Tomlkit where
  Text : Type
  parse : Text → Except TomlFault Table
  /-- The text of a fresh, empty document. -/
  blank : Text
  /-- The text of the document parsed from a text and then edited. -/
  dumps : Text → List Edit → Text
  parse_blank : parse blank = .ok []
  parse_dumps : ∀ text body edits, parse text = .ok body →
    parse (dumps text edits) = .ok (edits.foldl Table.edit body)

/-- The editor whose texts are the decoded tables themselves. -/
def Tomlkit.structural : Tomlkit where
  Text := Except TomlFault Table
  parse := id
  blank := .ok []
  dumps text edits := text.map fun body => edits.foldl Table.edit body
  parse_blank := rfl
  parse_dumps := by
    intro text body edits parsed
    subst parsed
    rfl

/-- An opened text and the edits made to it so far. -/
structure Document (toml : Tomlkit) where
  origin : toml.Text
  base : Table
  opened : toml.parse origin = .ok base
  edits : List Edit

namespace Document

variable {toml : Tomlkit}

/-- Open a text. -/
def load (text : toml.Text) : Except TomlFault (Document toml) :=
  match parsed : toml.parse text with
  | .ok base => .ok ⟨text, base, parsed, []⟩
  | .error fault => .error fault

/-- A fresh, empty document. -/
def fresh : Document toml := ⟨toml.blank, [], toml.parse_blank, []⟩

/-- The values the document holds now. -/
def body (document : Document toml) : Table := document.edits.foldl Table.edit document.base

/-- Make one more edit. -/
def edit (document : Document toml) (change : Edit) : Document toml :=
  { document with edits := document.edits ++ [change] }

/-- Make several edits in order. -/
def editAll (document : Document toml) (changes : List Edit) : Document toml :=
  { document with edits := document.edits ++ changes }

/-- The text the editor writes for the document. -/
def dump (document : Document toml) : toml.Text := toml.dumps document.origin document.edits

@[simp]
theorem body_edit (document : Document toml) (change : Edit) :
    (document.edit change).body = document.body.edit change := by
  simp [edit, body]

@[simp]
theorem body_editAll (document : Document toml) (changes : List Edit) :
    (document.editAll changes).body = changes.foldl Table.edit document.body := by
  simp [editAll, body]

/-- Decoding the written text gives the values the document held. -/
@[simp]
theorem parse_dump (document : Document toml) : toml.parse document.dump = .ok document.body :=
  toml.parse_dumps _ _ _ document.opened

/-- A text opens exactly when it decodes, and then holds the decoded values. -/
theorem load_ok {text : toml.Text} {document : Document toml} (opens : load text = .ok document) :
    toml.parse text = .ok document.body := by
  unfold load at opens
  split at opens
  · next base parsed =>
      cases opens
      exact parsed
  · cases opens

/-- A text that decodes opens. -/
theorem load_of_parse {text : toml.Text} {body : Table} (parsed : toml.parse text = .ok body) :
    ∃ document, load text = .ok document ∧ document.body = body := by
  refine ⟨⟨text, body, parsed, []⟩, ?_, rfl⟩
  unfold load
  split
  · next parsed' => rw [parsed] at parsed'; cases parsed'; rfl
  · next parsed' => rw [parsed] at parsed'; cases parsed'

end Document

end NovelRalph
