import Mathlib.Algebra.Group.Nat.Defs
import Mathlib.Data.List.Basic

/-!
# Python text

The string operations a program of the standard library leans on, written over
`String.toList` so that they evaluate: whitespace splitting, universal newlines,
`isdigit` and `int`, two-digit formatting, prefixes and suffixes, and `repr`.
Character classes follow Unicode 16.

The interpreter converts no integer of more than `digitLimit` decimal digits, to
a text or from one. `padTwo` and `intText` are what the conversions give below
the limit; a function of the program that spells an unbounded number checks
`tooLong` first. Counts of what is held in memory (the length of a list, the
words of the drafts) stay far below the limit and are spelled without a check.

`repr` leaves every character above U+00AD as it is, unprintable or not; the
texts it makes are only ever shown.
-/

namespace NovelRalph

/-- The characters `str.split()` splits at. -/
def isSpace (char : Char) : Bool :=
  let code := char.toNat
  (9 ≤ code && code ≤ 13) || (28 ≤ code && code ≤ 32) || code == 0x85 || code == 0xA0 ||
    code == 0x1680 || (0x2000 ≤ code && code ≤ 0x200A) || code == 0x2028 || code == 0x2029 ||
    code == 0x202F || code == 0x205F || code == 0x3000

/-- `text.split()`: the maximal runs of characters that are not whitespace. -/
def splitWords (text : String) : List String :=
  ((text.toList.splitOnP isSpace).filter fun word => word ≠ []).map String.ofList

/-- What text-mode reading makes of CRLF and CR. -/
def translateNewlines : List Char → List Char
  | [] => []
  | '\r' :: '\n' :: rest => '\n' :: translateNewlines rest
  | '\r' :: rest => '\n' :: translateNewlines rest
  | char :: rest => char :: translateNewlines rest

/-- `text.startswith(beginning)`. -/
def startsWith (text beginning : String) : Bool := beginning.toList.isPrefixOf text.toList

/-- `text.endswith(ending)`. -/
def endsWith (text ending : String) : Bool := ending.toList.isSuffixOf text.toList

/-- `text.removeprefix(beginning)`. -/
def removeBeginning (text beginning : String) : String :=
  if startsWith text beginning then
    String.ofList (text.toList.drop beginning.toList.length)
  else
    text

@[simp]
theorem startsWith_append (beginning rest : String) :
    startsWith (beginning ++ rest) beginning = true := by
  simp [startsWith]

/-- What remains of a text without its beginning. -/
@[simp]
theorem removeBeginning_append (beginning rest : String) :
    removeBeginning (beginning ++ rest) beginning = rest := by
  unfold removeBeginning
  rw [if_pos (startsWith_append beginning rest), String.toList_append, List.drop_left,
    String.ofList_toList]

section Digits

/-- The code points of the decimal zeros; the other nine digits follow each. -/
def decimalZeros : List Nat :=
  [0x30, 0x660, 0x6F0, 0x7C0, 0x966, 0x9E6, 0xA66, 0xAE6, 0xB66, 0xBE6, 0xC66, 0xCE6, 0xD66,
   0xDE6, 0xE50, 0xED0, 0xF20, 0x1040, 0x1090, 0x17E0, 0x1810, 0x1946, 0x19D0, 0x1A80, 0x1A90,
   0x1B50, 0x1BB0, 0x1C40, 0x1C50, 0xA620, 0xA8D0, 0xA900, 0xA9D0, 0xA9F0, 0xAA50, 0xABF0,
   0xFF10, 0x104A0, 0x10D30, 0x10D40, 0x11066, 0x110F0, 0x11136, 0x111D0, 0x112F0, 0x11450,
   0x114D0, 0x11650, 0x116C0, 0x116D0, 0x116DA, 0x11730, 0x118E0, 0x11950, 0x11BF0, 0x11C50,
   0x11D50, 0x11DA0, 0x11F50, 0x16130, 0x16A60, 0x16AC0, 0x16B50, 0x16D70, 0x1CCF0, 0x1D7CE,
   0x1D7D8, 0x1D7E2, 0x1D7EC, 0x1D7F6, 0x1E140, 0x1E2F0, 0x1E4F0, 0x1E5F1, 0x1E950, 0x1FBF0]

/-- The ranges of digits that are not decimal: superscripts, circled digits and the like. -/
def specialDigits : List (Nat × Nat) :=
  [(0xB2, 0xB3), (0xB9, 0xB9), (0x1369, 0x1371), (0x19DA, 0x19DA), (0x2070, 0x2070),
   (0x2074, 0x2079), (0x2080, 0x2089), (0x2460, 0x2468), (0x2474, 0x247C), (0x2488, 0x2490),
   (0x24EA, 0x24EA), (0x24F5, 0x24FD), (0x24FF, 0x24FF), (0x2776, 0x277E), (0x2780, 0x2788),
   (0x278A, 0x2792), (0x10A40, 0x10A43), (0x10E60, 0x10E68), (0x11052, 0x1105A),
   (0x1F100, 0x1F10A)]

/-- The value of a decimal digit. -/
def decimalValue? (char : Char) : Option Nat :=
  decimalZeros.findSome? fun first =>
    if first ≤ char.toNat ∧ char.toNat < first + 10 then some (char.toNat - first) else none

/-- `text.isdigit()`: decimal and special digits both count. -/
def isDigits (text : String) : Bool :=
  text.toList ≠ [] && text.toList.all fun char =>
    (decimalValue? char).isSome ||
      specialDigits.any fun range => range.1 ≤ char.toNat && char.toNat ≤ range.2

/-- The most decimal digits that are converted between an integer and a text. -/
@[irreducible] def digitLimit : Nat := 4300

/-- An integer with more digits is not spelled. -/
def tooLong (number : Int) : Bool := 10 ^ digitLimit ≤ number.natAbs

/-- `int(text)` for a text of digits; neither a special digit nor too many digits make a
numeral (`ValueError`). -/
def intOfDigits? (text : String) : Option Nat :=
  if digitLimit < text.toList.length then none
  else text.toList.foldlM (fun value char => (decimalValue? char).map (value * 10 + ·)) 0

/-- `f"{number:02d}"`. -/
def padTwo (number : Int) : String :=
  match number with
  | .ofNat value =>
      let digits := Nat.toDigits 10 value
      String.ofList (List.replicate (2 - digits.length) '0' ++ digits)
  | .negSucc value => String.ofList ('-' :: Nat.toDigits 10 (value + 1))

/-- `str(number)`. -/
def intText (number : Int) : String :=
  match number with
  | .ofNat value => String.ofList (Nat.toDigits 10 value)
  | .negSucc value => String.ofList ('-' :: Nat.toDigits 10 (value + 1))

/-- An ASCII digit has the value its code point says. -/
theorem decimalValue?_of_isDigit {char : Char} (digit : char.isDigit) :
    decimalValue? char = some (char.toNat - '0'.toNat) := by
  have bounds : 48 ≤ char.toNat ∧ char.toNat < 58 := by
    simpa [Nat.lt_succ_iff] using Char.isDigit_iff_toNat.mp digit
  unfold decimalValue? decimalZeros
  rw [List.findSome?_cons, if_pos bounds]
  rfl

/-- Reading a list of ASCII digits. -/
theorem foldlM_decimal {digits : List Char} (ascii : ∀ char ∈ digits, char.isDigit) (start : Nat) :
    digits.foldlM (fun value char => (decimalValue? char).map (value * 10 + ·)) start =
      some (Nat.ofDigitChars 10 digits start) := by
  induction digits generalizing start with
  | nil => simp
  | cons char rest inductionHypothesis =>
      rw [List.foldlM_cons, decimalValue?_of_isDigit (ascii char List.mem_cons_self),
        Option.map_some]
      show List.foldlM _ (start * 10 + (char.toNat - '0'.toNat)) rest = _
      rw [inductionHypothesis fun later member => ascii later (List.mem_cons_of_mem _ member),
        Nat.ofDigitChars_cons, Nat.mul_comm]

/-- The two-digit form of a natural number, as characters. -/
theorem padTwo_natCast (value : Nat) :
    (padTwo value).toList =
      List.replicate (2 - (Nat.toDigits 10 value).length) '0' ++ Nat.toDigits 10 value := by
  show (padTwo (Int.ofNat value)).toList = _
  simp [padTwo]

/-- The two-digit form of a natural number is made of ASCII digits. -/
theorem isDigit_of_mem_padTwo {value : Nat} {char : Char} (member : char ∈ (padTwo value).toList) :
    char.isDigit := by
  rw [padTwo_natCast, List.mem_append] at member
  rcases member with zero | digit
  · rw [List.eq_of_mem_replicate zero]
    rfl
  · exact Nat.isDigit_of_mem_toDigits (by decide) (by decide) digit

@[simp]
theorem isDigits_padTwo (value : Nat) : isDigits (padTwo value) = true := by
  have nonempty : (padTwo value).toList ≠ [] := by
    rw [padTwo_natCast]
    simp [Nat.toDigits_ne_nil]
  simp only [isDigits, nonempty, ne_eq, not_false_eq_true, decide_true, Bool.true_and,
    List.all_eq_true]
  intro char member
  simp [decimalValue?_of_isDigit (isDigit_of_mem_padTwo member)]

/-- A number of one digit is spelled. -/
theorem not_tooLong_of_small {number : Int} (small : number.natAbs ≤ 9) : tooLong number = false := by
  have limit : 10 ^ 1 ≤ 10 ^ digitLimit := Nat.pow_le_pow_right (by decide) (by decide +kernel)
  unfold tooLong
  rw [decide_eq_false_iff_not]
  omega

/-- The two-digit form of a number is within the limit exactly when the number is. -/
theorem length_padTwo {value : Nat} :
    (padTwo value).toList.length ≤ digitLimit ↔ tooLong value = false := by
  have limit : 2 ≤ digitLimit := by decide +kernel
  have digits : (Nat.toDigits 10 value).length ≤ digitLimit ↔ value < 10 ^ digitLimit :=
    Nat.length_toDigits_le_iff (by decide) (by omega)
  have below : tooLong value = false ↔ value < 10 ^ digitLimit := by simp [tooLong]
  rw [padTwo_natCast, List.length_append, List.length_replicate, below, ← digits]
  omega

/-- Reading a number back from its two-digit form. -/
theorem intOfDigits?_padTwo (value : Nat) :
    intOfDigits? (padTwo value) = if tooLong value then none else some value := by
  have read := foldlM_decimal (fun char => @isDigit_of_mem_padTwo value char) 0
  rw [padTwo_natCast, Nat.ofDigitChars_append, Nat.ofDigitChars_replicate_zero, Nat.mul_zero,
    Nat.ofDigitChars_ten_toDigits, ← padTwo_natCast] at read
  unfold intOfDigits?
  rw [read]
  cases long : tooLong value
  · rw [if_neg (Nat.not_lt.mpr (length_padTwo.mpr long))]
    rfl
  · rw [if_pos (Nat.lt_of_not_le fun short => by simp [length_padTwo.mp short] at long)]
    rfl

/-- The value of a digit is below ten. -/
theorem decimalValue?_lt {char : Char} {digit : Nat} (decimal : decimalValue? char = some digit) :
    digit < 10 := by
  obtain ⟨first, -, found⟩ := List.exists_of_findSome?_eq_some decimal
  split at found
  · next bounds =>
      rw [Option.some.injEq] at found
      omega
  · cases found

/-- A number read from digits has no more digits than were read. -/
theorem foldlM_decimal_lt {digits : List Char} {start value : Nat}
    (read : digits.foldlM (fun value char => (decimalValue? char).map (value * 10 + ·)) start =
      some value) : value < (start + 1) * 10 ^ digits.length := by
  induction digits generalizing start with
  | nil =>
      cases read
      simp
  | cons char rest inductionHypothesis =>
      rw [List.foldlM_cons] at read
      cases decimal : decimalValue? char with
      | none =>
          rw [decimal] at read
          cases read
      | some digit =>
          rw [decimal] at read
          have small := decimalValue?_lt decimal
          calc value < (start * 10 + digit + 1) * 10 ^ rest.length := inductionHypothesis read
            _ ≤ (start + 1) * 10 * 10 ^ rest.length := Nat.mul_le_mul_right _ (by omega)
            _ = (start + 1) * 10 ^ (rest.length + 1) := by rw [Nat.mul_assoc, Nat.pow_succ']

/-- What is read from digits can be spelled again. -/
theorem not_tooLong_of_numeral {text : String} {value : Nat}
    (read : intOfDigits? text = some value) : tooLong value = false := by
  unfold intOfDigits? at read
  split at read
  · cases read
  · next short =>
      have below : value < 10 ^ text.toList.length := by simpa using foldlM_decimal_lt read
      have within : 10 ^ text.toList.length ≤ 10 ^ digitLimit :=
        Nat.pow_le_pow_right (by decide) (Nat.le_of_not_lt short)
      simp only [tooLong, Int.natAbs_natCast, decide_eq_false_iff_not]
      omega

/-- Different numbers have different two-digit forms. -/
theorem padTwo_injective : Function.Injective padTwo := by
  have sign : ∀ value below : Nat, padTwo value ≠ padTwo (Int.negSucc below) := by
    intro value below same
    have dash : '-' ∈ (padTwo value).toList := by
      rw [same]
      simp [padTwo]
    exact absurd (isDigit_of_mem_padTwo dash) (by decide)
  have value : ∀ value : Nat, Nat.ofDigitChars 10 (padTwo value).toList 0 = value := by
    intro value
    rw [padTwo_natCast, Nat.ofDigitChars_append, Nat.ofDigitChars_replicate_zero, Nat.mul_zero,
      Nat.ofDigitChars_ten_toDigits]
  intro left right same
  match left, right with
  | .ofNat left, .ofNat right =>
      have read := congrArg (fun text => Nat.ofDigitChars 10 text.toList 0) same
      rw [show Int.ofNat left = (left : Int) from rfl,
        show Int.ofNat right = (right : Int) from rfl, value, value] at read
      rw [read]
  | .ofNat left, .negSucc right => exact absurd same (sign left right)
  | .negSucc left, .ofNat right => exact absurd same.symm (sign right left)
  | .negSucc left, .negSucc right =>
      have digits : Nat.toDigits 10 (left + 1) = Nat.toDigits 10 (right + 1) := by
        simpa [padTwo, String.ofList_inj] using same
      have read := congrArg (fun text => Nat.ofDigitChars 10 text 0) digits
      simp only [Nat.ofDigitChars_ten_toDigits] at read
      omega

end Digits

section Repr

/-- The two lowercase hexadecimal digits of a code point below 256. -/
def hexTwo (code : Nat) : List Char :=
  [Nat.digitChar (code / 16), Nat.digitChar (code % 16)]

/-- The characters which `repr` treats specially. -/
def doubleQuote : Char := Char.ofNat 34

@[inherit_doc doubleQuote]
def singleQuote : Char := Char.ofNat 39

@[inherit_doc doubleQuote]
def backslash : Char := Char.ofNat 92

/-- How `repr` spells one character inside quotes. -/
def reprChar (quote char : Char) : List Char :=
  if char = quote || char = backslash then [backslash, char]
  else if char.toNat = 10 then [backslash, 'n']
  else if char.toNat = 13 then [backslash, 'r']
  else if char.toNat = 9 then [backslash, 't']
  else if char.toNat < 0x20 || (0x7F ≤ char.toNat && char.toNat ≤ 0xA0) || char.toNat = 0xAD then
    backslash :: 'x' :: hexTwo char.toNat
  else [char]

/-- `repr(text)`: single quotes, unless only they occur inside. -/
def reprText (text : String) : String :=
  let quote :=
    if singleQuote ∈ text.toList ∧ doubleQuote ∉ text.toList then doubleQuote else singleQuote
  String.ofList (quote :: text.toList.flatMap (reprChar quote) ++ [quote])

/-- `repr` of a list whose items are spelled by `spell`. -/
def reprList {α : Type} (spell : α → String) (items : List α) : String :=
  "[" ++ String.intercalate ", " (items.map spell) ++ "]"

end Repr

end NovelRalph
