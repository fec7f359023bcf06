import Mathlib.Algebra.Ring.Nat
import NovelRalph.Base.Lines

/-!
# Patterns and the line scan

The regular-expression engine is a parameter: compiling a source gives a pattern,
a syntax error with its text, or an overflow of a repetition count, and a
compiled pattern has a number of non-overlapping matches on a line. The scan
shared by both pack families counts those matches line by line.
-/

namespace NovelRalph

/-- Why a pattern does not compile. -/
inductive RegexFault where
  | invalid (message : String)
  | overflow
  deriving DecidableEq, Repr

/-- The `re` module, as far as the packs use it. -/
structure RegexEngine where
  Pattern : Type
  /-- `re.compile(source)`. -/
  compile : String → Except RegexFault Pattern
  /-- How many matches `pattern.finditer(line)` yields. -/
  hits : Pattern → String → Nat

/-- `ScannedChapter`. -/
structure ScannedChapter where
  number : Int
  text : String
  deriving DecidableEq, Repr

/-- `LineHit`. -/
structure LineHit where
  chapter : Int
  line : Nat
  deriving DecidableEq, Repr

section Scan

variable (engine : RegexEngine) (pattern : engine.Pattern)

/-- The hits of one chapter, in line order. -/
def chapterHits (chapter : ScannedChapter) : List LineHit :=
  ((splitLines chapter.text).zipIdx 1).flatMap fun line =>
    List.replicate (engine.hits pattern line.1) ⟨chapter.number, line.2⟩

/-- `scan_pattern`. -/
def scanPattern (chapters : List ScannedChapter) : Nat × List LineHit :=
  let hits := chapters.flatMap (chapterHits engine pattern)
  (hits.length, hits)

/-- The hits of several chapters are counted chapter by chapter. -/
theorem scanPattern_count (chapters : List ScannedChapter) :
    (scanPattern engine pattern chapters).1 =
      (chapters.map fun chapter => (scanPattern engine pattern [chapter]).1).sum := by
  have hits : (scanPattern engine pattern chapters).1 =
      (chapters.flatMap (chapterHits engine pattern)).length := rfl
  rw [hits, List.length_flatMap]
  simp only [scanPattern, List.flatMap_cons, List.flatMap_nil, List.append_nil]

end Scan

end NovelRalph
