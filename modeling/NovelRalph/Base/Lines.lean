import NovelRalph.Base.Text

/-!
# Lines and words

`str.splitlines` and `str.strip`, and the laws of reading text: what universal
newlines produce reads back as itself, and a text splits into words at every
whitespace character, so joining texts by whitespace joins their words.
-/

namespace NovelRalph

/-- The characters `str.splitlines()` ends a line at; CRLF counts as one. -/
def isLineBreak (char : Char) : Bool :=
  let code := char.toNat
  (10 ≤ code && code ≤ 13) || (28 ≤ code && code ≤ 30) || code == 0x85 || code == 0x2028 ||
    code == 0x2029

/-- The lines of a text, with the current line collected in reverse. -/
def splitLinesFrom (line : List Char) : List Char → List String
  | [] => if line = [] then [] else [String.ofList line.reverse]
  | '\r' :: '\n' :: rest => String.ofList line.reverse :: splitLinesFrom [] rest
  | char :: rest =>
      if isLineBreak char then String.ofList line.reverse :: splitLinesFrom [] rest
      else splitLinesFrom (char :: line) rest

/-- `text.splitlines()`. -/
def splitLines (text : String) : List String := splitLinesFrom [] text.toList

/-- `text.strip()`. -/
def strip (text : String) : String :=
  String.ofList ((text.toList.dropWhile isSpace).reverse.dropWhile isSpace).reverse

section Newlines

/-- Universal newlines leave no carriage return. -/
theorem not_mem_translateNewlines (text : List Char) : '\r' ∉ translateNewlines text := by
  fun_induction translateNewlines text with
  | case1 => exact List.not_mem_nil
  | case2 rest inductionHypothesis => simpa using inductionHypothesis
  | case3 rest _ inductionHypothesis => simpa using inductionHypothesis
  | case4 char rest _ plain inductionHypothesis =>
      rw [List.mem_cons, not_or]
      exact ⟨fun same => plain same.symm, inductionHypothesis⟩

/-- A text without carriage returns reads as itself. -/
theorem translateNewlines_eq_self {text : List Char} (plain : '\r' ∉ text) :
    translateNewlines text = text := by
  fun_induction translateNewlines text with
  | case1 => rfl
  | case2 rest => exact absurd List.mem_cons_self plain
  | case3 rest => exact absurd List.mem_cons_self plain
  | case4 char rest _ _ inductionHypothesis =>
      rw [inductionHypothesis fun member => plain (List.mem_cons_of_mem _ member)]

/-- Joining texts without a character by a text without it adds none. -/
theorem not_mem_intercalate {char : Char} {separator : List Char} {texts : List (List Char)}
    (outside : char ∉ separator) (inside : ∀ text ∈ texts, char ∉ text) :
    char ∉ separator.intercalate texts := by
  induction texts with
  | nil => simp
  | cons text rest inductionHypothesis =>
      have later := inductionHypothesis fun other member =>
        inside other (List.mem_cons_of_mem _ member)
      have here := inside text List.mem_cons_self
      cases rest with
      | nil => simpa using here
      | cons next others =>
          rw [List.intercalate_cons_cons, List.mem_append, List.mem_append]
          rintro ((early | between) | late)
          · exact here early
          · exact outside between
          · exact later late

end Newlines

section Words

@[simp]
theorem splitWords_empty : splitWords "" = [] := by decide

/-- A whitespace character separates the words before it from the words after it. -/
theorem splitWords_append_space {char : Char} (space : isSpace char = true)
    (before after : List Char) :
    splitWords (String.ofList (before ++ char :: after)) =
      splitWords (String.ofList before) ++ splitWords (String.ofList after) := by
  unfold splitWords
  simp only [String.toList_ofList]
  rw [List.splitOnP_append_cons before after space, List.filter_append, List.map_append]

/-- The words of a text continued after whitespace. -/
theorem splitWords_append_spaces {gap : List Char} (nonempty : gap ≠ [])
    (spaces : ∀ char ∈ gap, isSpace char = true) (before after : List Char) :
    splitWords (String.ofList (before ++ gap ++ after)) =
      splitWords (String.ofList before) ++ splitWords (String.ofList after) := by
  induction gap generalizing before with
  | nil => exact absurd rfl nonempty
  | cons char rest inductionHypothesis =>
      have here := spaces char List.mem_cons_self
      rw [List.append_assoc, List.cons_append, splitWords_append_space here]
      cases rest with
      | nil => rw [List.nil_append]
      | cons next others =>
          have later := inductionHypothesis (List.cons_ne_nil _ _)
            (fun other member => spaces other (List.mem_cons_of_mem _ member)) []
          rw [List.nil_append, String.ofList_nil, splitWords_empty, List.nil_append] at later
          rw [later]

/-- The words of texts joined by whitespace are the words of the texts, in order. -/
theorem splitWords_intercalate {gap : List Char} (nonempty : gap ≠ [])
    (spaces : ∀ char ∈ gap, isSpace char = true) (texts : List (List Char)) :
    splitWords (String.ofList (gap.intercalate texts)) =
      texts.flatMap fun text => splitWords (String.ofList text) := by
  induction texts with
  | nil => simp
  | cons text rest inductionHypothesis =>
      cases rest with
      | nil => simp
      | cons next others =>
          rw [List.intercalate_cons_cons, splitWords_append_spaces nonempty spaces,
            inductionHypothesis]
          rfl

end Words

end NovelRalph
