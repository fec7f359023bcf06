import NovelRalph.Loader.Ledger
import NovelRalph.Loader.RulePack

/-!
# Whether the loaders keep to their channels

A loader fails only through its own two errors, except for four inputs: a file
whose bytes are not UTF-8, a decimal literal with too many digits, an unsupported
schema version too long for its message, and a well-shaped entry whose pattern
overflows the regular-expression compiler.
-/

namespace NovelRalph

/-- Each loader keeps to its own error channel exactly on the inputs that miss these four. -/
theorem channels_kept_iff (engine : RegexEngine) (toml : Tomllib) (path : Resource) :
    (Confined RulePackChannel (loadRulepack engine toml path) ↔
      ¬path.NotUtf8 ∧ ¬toml.Refuses path ∧
        ∀ raw, toml.Decodes path raw → ¬PackSlips engine raw) ∧
    (Confined LedgerChannel (loadLedger engine toml path) ↔
      ¬path.NotUtf8 ∧ ¬toml.Refuses path ∧
        ∀ raw, toml.Decodes path raw → ¬LedgerSlips engine raw) :=
  ⟨loadRulepack_confined, loadLedger_confined⟩

/-- A decoder of the empty document only. -/
def emptyTomllib : Tomllib where
  parse text := if text = "" then .ok [] else .error (.tomlDecodeError "Expected '=' after a key")

/-- An engine whose patterns are literal texts, matched at the start of a line. -/
def literalEngine : RegexEngine where
  Pattern := String
  compile pattern := .ok pattern
  hits pattern line := if pattern.toList.isPrefixOf line.toList then 1 else 0

/-- A file of the single byte `0xff`. -/
def latinFile : Resource where
  path := "pack.toml"
  bytes := .ok ⟨#[0xff]⟩

/-- A file saved in another encoding escapes both loaders with a raw decode fault. -/
theorem latin_file_escapes :
    ¬∀ (engine : RegexEngine) (toml : Tomllib) (path : Resource),
      Confined RulePackChannel (loadRulepack engine toml path) ∧
        Confined LedgerChannel (loadLedger engine toml path) := by
  intro kept
  have kept := (kept literalEngine emptyTomllib latinFile).1
  have decodes : String.fromUTF8? ⟨#[0xff]⟩ = none := by decide +kernel
  apply confined_iff.mp kept
  apply loadRulepack_escapes.mpr
  left
  exact ⟨_, rfl, decodes⟩

end NovelRalph
