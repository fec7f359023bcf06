import Mathlib.Data.List.TakeWhile
import NovelRalph.Base.Text

/-!
# JSON text

What `json.dumps` writes with its defaults, and a reader of JSON. The writer keeps
to printable ASCII: every other character is escaped, those beyond the basic plane
as a surrogate pair. The reader follows the grammar of JSON, whitespace and every
escape included; it rejects a lone surrogate, which no `Char` is.

A float is kept as its numeral, since only its spelling reaches the text; an
infinity is spelled as the writer spells it, which is beyond the grammar. The
members of an object are kept in their order. `dumps` writes integers of any length;
`ints` are the ones that the interpreter has to spell for it.
-/

namespace NovelRalph

/-! ## Numerals -/

/-- The parts of a JSON numeral. -/
structure Numeral where
  negative : Bool
  whole : List Char
  /-- The fraction and the exponent, with the point and the mark. -/
  fine : List Char
  deriving DecidableEq, Repr

namespace Numeral

/-- The spelling of a numeral. -/
def text (numeral : Numeral) : List Char :=
  (if numeral.negative then ['-'] else []) ++ (numeral.whole ++ numeral.fine)

/-- The value of a numeral without a fraction and an exponent. -/
def toInt (numeral : Numeral) : Int :=
  let value : Int := Nat.ofDigitChars 10 numeral.whole 0
  if numeral.negative then -value else value

end Numeral

/-- A fraction at the start of a text, point included, and what follows it. -/
def readFraction : List Char → List Char × List Char
  | [] => ([], [])
  | point :: rest =>
      if point = '.' ∧ rest.takeWhile Char.isDigit ≠ [] then
        (point :: rest.takeWhile Char.isDigit, rest.dropWhile Char.isDigit)
      else ([], point :: rest)

/-- The sign at the start of an exponent, and what follows it. -/
def readSign : List Char → List Char × List Char
  | [] => ([], [])
  | sign :: rest => if sign = '+' ∨ sign = '-' then ([sign], rest) else ([], sign :: rest)

/-- An exponent at the start of a text, mark included, and what follows it. -/
def readExponent : List Char → List Char × List Char
  | [] => ([], [])
  | mark :: rest =>
      let signed := readSign rest
      if (mark = 'e' ∨ mark = 'E') ∧ signed.2.takeWhile Char.isDigit ≠ [] then
        (mark :: (signed.1 ++ signed.2.takeWhile Char.isDigit), signed.2.dropWhile Char.isDigit)
      else ([], mark :: rest)

/-- The digits before the point: none may stand behind a zero. -/
def readUnsigned (negative : Bool) (text : List Char) : Option (Numeral × List Char) :=
  let whole := text.takeWhile Char.isDigit
  if whole = [] ∨ (whole.head? = some '0' ∧ whole ≠ ['0']) then none
  else
    let fraction := readFraction (text.dropWhile Char.isDigit)
    let exponent := readExponent fraction.2
    some (⟨negative, whole, fraction.1 ++ exponent.1⟩, exponent.2)

/-- The numeral at the start of a text. -/
def readNumeral : List Char → Option (Numeral × List Char)
  | [] => none
  | sign :: rest => if sign = '-' then readUnsigned true rest else readUnsigned false (sign :: rest)

/-- A numeral with a fraction or an exponent, which reads as itself. -/
structure FloatNumeral where
  numeral : Numeral
  reads : readNumeral numeral.text = some (numeral, [])
  fractional : numeral.fine ≠ []
  deriving DecidableEq

/-! ### What stands behind a numeral -/

/-- Whether a character can go on with a numeral. -/
def continuesNumeral (char : Char) : Bool :=
  char.isDigit || char = '.' || char = 'e' || char = 'E' || char = '+' || char = '-'

/-- No numeral goes on in this text. -/
def ClosesNumeral (rest : List Char) : Prop :=
  ∀ char ∈ rest.head?, continuesNumeral char = false

section Append

variable {text rest : List Char} (closes : ClosesNumeral rest)

include closes

theorem takeDigits_append :
    (text ++ rest).takeWhile Char.isDigit = text.takeWhile Char.isDigit ∧
      (text ++ rest).dropWhile Char.isDigit = text.dropWhile Char.isDigit ++ rest := by
  induction text with
  | nil =>
      cases rest with
      | nil => exact ⟨rfl, rfl⟩
      | cons char rest =>
          have other : char.isDigit = false := by
            have closed := closes char rfl
            simp only [continuesNumeral, Bool.or_eq_false_iff] at closed
            exact closed.1.1.1.1.1
          simp [other]
  | cons char text inductionHypothesis =>
      by_cases digit : char.isDigit = true
      · simp [digit, inductionHypothesis.1, inductionHypothesis.2]
      · simp [digit]

theorem readFraction_append :
    readFraction (text ++ rest) = ((readFraction text).1, (readFraction text).2 ++ rest) := by
  cases text with
  | nil =>
      cases rest with
      | nil => rfl
      | cons char rest =>
          have other : char ≠ '.' := by
            rintro rfl
            exact absurd (closes '.' rfl) (by decide)
          simp [readFraction, other]
  | cons point text =>
      obtain ⟨taken, dropped⟩ := @takeDigits_append text rest closes
      rw [List.cons_append, readFraction, readFraction, taken, dropped]
      split <;> rfl

theorem readSign_append :
    readSign (text ++ rest) = ((readSign text).1, (readSign text).2 ++ rest) := by
  cases text with
  | nil =>
      cases rest with
      | nil => rfl
      | cons char rest =>
          have other : ¬(char = '+' ∨ char = '-') := by
            rintro (rfl | rfl)
            · exact absurd (closes '+' rfl) (by decide)
            · exact absurd (closes '-' rfl) (by decide)
          simp only [List.nil_append, readSign, if_neg other]
  | cons sign text =>
      rw [List.cons_append, readSign, readSign]
      split <;> rfl

theorem readExponent_append :
    readExponent (text ++ rest) = ((readExponent text).1, (readExponent text).2 ++ rest) := by
  cases text with
  | nil =>
      cases rest with
      | nil => rfl
      | cons char rest =>
          have other : ¬(char = 'e' ∨ char = 'E') := by
            rintro (rfl | rfl)
            · exact absurd (closes 'e' rfl) (by decide)
            · exact absurd (closes 'E' rfl) (by decide)
          simp [readExponent, other]
  | cons mark text =>
      obtain ⟨taken, dropped⟩ := @takeDigits_append (readSign text).2 rest closes
      rw [List.cons_append, readExponent, readExponent, readSign_append closes]
      dsimp only
      rw [taken, dropped]
      split <;> rfl

theorem readUnsigned_append {negative : Bool} {numeral : Numeral} {left : List Char}
    (reads : readUnsigned negative text = some (numeral, left)) :
    readUnsigned negative (text ++ rest) = some (numeral, left ++ rest) := by
  obtain ⟨taken, dropped⟩ := @takeDigits_append text rest closes
  unfold readUnsigned at reads ⊢
  dsimp only at reads ⊢
  rw [taken, dropped, readFraction_append closes, readExponent_append closes]
  split at reads
  · cases reads
  · next valid =>
      rw [if_neg valid]
      cases reads
      rfl

/-- A numeral reads the same in front of a text in which no numeral goes on. -/
theorem readNumeral_append {numeral : Numeral} {left : List Char}
    (reads : readNumeral text = some (numeral, left)) :
    readNumeral (text ++ rest) = some (numeral, left ++ rest) := by
  cases text with
  | nil => cases reads
  | cons sign text =>
      rw [List.cons_append]
      simp only [readNumeral] at reads ⊢
      split at reads
      · next minus =>
          rw [if_pos minus]
          exact readUnsigned_append closes reads
      · next plain =>
          rw [if_neg plain]
          exact readUnsigned_append closes reads

end Append

/-- A decimal numeral has no leading zero. -/
theorem toDigits_head (value : Nat) :
    (Nat.toDigits 10 value).head? = some '0' → Nat.toDigits 10 value = ['0'] := by
  induction value using Nat.strongRecOn with
  | _ value inductionHypothesis =>
    intro zero
    by_cases small : value < 10
    · rw [Nat.toDigits_of_lt_base small] at zero ⊢
      rw [List.head?_cons, Option.some.injEq] at zero
      rw [zero]
    · have large : 10 ≤ value := by omega
      rw [Nat.toDigits_of_base_le (by decide) large] at zero
      have front : (Nat.toDigits 10 (value / 10)).head? = some '0' := by
        rw [List.head?_append] at zero
        cases head : (Nat.toDigits 10 (value / 10)).head? with
        | none =>
            exact absurd (List.head?_eq_none_iff.mp head) Nat.toDigits_ne_nil
        | some digit => simpa [head] using zero
      have vanishes := inductionHypothesis (value / 10) (by omega) front
      have value_div : Nat.ofDigitChars 10 (Nat.toDigits 10 (value / 10)) 0 = 0 := by
        rw [vanishes]
        rfl
      rw [Nat.ofDigitChars_toDigits (by decide) (by decide)] at value_div
      omega

/-- The digits of a natural number read as that number. -/
theorem readUnsigned_toDigits (negative : Bool) (value : Nat) :
    readUnsigned negative (Nat.toDigits 10 value) =
      some (⟨negative, Nat.toDigits 10 value, []⟩, []) := by
  have digits : ∀ char ∈ Nat.toDigits 10 value, char.isDigit = true := fun char member =>
    Nat.isDigit_of_mem_toDigits (by decide) (by decide) member
  have taken : (Nat.toDigits 10 value).takeWhile Char.isDigit = Nat.toDigits 10 value :=
    List.takeWhile_eq_self_iff.mpr digits
  have dropped : (Nat.toDigits 10 value).dropWhile Char.isDigit = [] :=
    List.dropWhile_eq_nil_iff.mpr digits
  have valid : ¬(Nat.toDigits 10 value = [] ∨
      (Nat.toDigits 10 value).head? = some '0' ∧ Nat.toDigits 10 value ≠ ['0']) := by
    rintro (empty | ⟨zero, longer⟩)
    · exact Nat.toDigits_ne_nil empty
    · exact longer (toDigits_head value zero)
  unfold readUnsigned
  dsimp only
  rw [taken, dropped, if_neg valid]
  rfl

/-- The text of an integer reads as that integer. -/
theorem readNumeral_intText (number : Int) :
    ∃ numeral, readNumeral (intText number).toList = some (numeral, []) ∧ numeral.fine = [] ∧
      numeral.toInt = number := by
  cases number with
  | ofNat value =>
      refine ⟨⟨false, Nat.toDigits 10 value, []⟩, ?_, rfl, ?_⟩
      · have reads := readUnsigned_toDigits false value
        cases digits : Nat.toDigits 10 value with
        | nil => exact absurd digits Nat.toDigits_ne_nil
        | cons head tail =>
            have digit : head.isDigit = true :=
              Nat.isDigit_of_mem_toDigits (b := 10) (n := value) (by decide) (by decide)
                (by rw [digits]; exact List.mem_cons_self)
            have plain : head ≠ '-' := by
              rintro rfl
              exact absurd digit (by decide)
            rw [digits] at reads
            simp only [intText, digits, String.toList_ofList, readNumeral, if_neg plain, reads]
      · simp [Numeral.toInt, Nat.ofDigitChars_toDigits]
  | negSucc value =>
      refine ⟨⟨true, Nat.toDigits 10 (value + 1), []⟩, ?_, rfl, ?_⟩
      · simp only [intText, String.toList_ofList, readNumeral, if_pos,
          readUnsigned_toDigits true (value + 1)]
      · simp [Numeral.toInt, Nat.ofDigitChars_toDigits]
        omega

/-! ## Values -/

/-- A JSON value. -/
inductive Json where
  | null
  | bool (flag : Bool)
  | int (number : Int)
  | float (literal : FloatNumeral)
  | infinite (negative : Bool)
  | str (text : String)
  | array (items : List Json)
  | object (members : List (String × Json))

namespace Json

/-! ## Writing -/

/-- Four lowercase hexadecimal digits. -/
def hexFour (code : Nat) : List Char :=
  [Nat.digitChar (code / 4096 % 16), Nat.digitChar (code / 256 % 16),
    Nat.digitChar (code / 16 % 16), Nat.digitChar (code % 16)]

/-- One escaped code unit. -/
def escapeUnit (code : Nat) : List Char := '\\' :: 'u' :: hexFour code

/-- A character as it stands between quotes. -/
def escapeChar (char : Char) : List Char :=
  if char = '"' then ['\\', '"']
  else if char = '\\' then ['\\', '\\']
  else if char = '\n' then ['\\', 'n']
  else if char = '\r' then ['\\', 'r']
  else if char = '\t' then ['\\', 't']
  else if char = '\x08' then ['\\', 'b']
  else if char = '\x0c' then ['\\', 'f']
  else if 0x20 ≤ char.toNat ∧ char.toNat ≤ 0x7e then [char]
  else if char.toNat < 0x10000 then escapeUnit char.toNat
  else
    let offset := char.toNat - 0x10000
    escapeUnit (0xd800 + offset / 0x400) ++ escapeUnit (0xdc00 + offset % 0x400)

/-- A text between quotes. -/
def quoted (text : String) : List Char :=
  '"' :: (text.toList.flatMap escapeChar ++ ['"'])

mutual

/-- `json.dumps(value)`. -/
def dumps : Json → List Char
  | null => ['n', 'u', 'l', 'l']
  | bool true => ['t', 'r', 'u', 'e']
  | bool false => ['f', 'a', 'l', 's', 'e']
  | int number => (intText number).toList
  | float literal => literal.numeral.text
  | infinite negative => (if negative then "-Infinity" else "Infinity").toList
  | str text => quoted text
  | array [] => ['[', ']']
  | array (item :: rest) => '[' :: (dumps item ++ dumpsItems rest)
  | object [] => ['{', '}']
  | object ((key, value) :: rest) =>
      '{' :: (quoted key ++ (':' :: ' ' :: (dumps value ++ dumpsMembers rest)))

/-- The items behind the first, and the closing bracket. -/
def dumpsItems : List Json → List Char
  | [] => [']']
  | item :: rest => ',' :: ' ' :: (dumps item ++ dumpsItems rest)

/-- The members behind the first, and the closing brace. -/
def dumpsMembers : List (String × Json) → List Char
  | [] => ['}']
  | (key, value) :: rest =>
      ',' :: ' ' :: (quoted key ++ (':' :: ' ' :: (dumps value ++ dumpsMembers rest)))

end

mutual

/-- The integers that a value spells, in the order of its text. -/
def ints : Json → List Int
  | int number => [number]
  | array items => intsOfItems items
  | object members => intsOfMembers members
  | _ => []

def intsOfItems : List Json → List Int
  | [] => []
  | item :: rest => ints item ++ intsOfItems rest

def intsOfMembers : List (String × Json) → List Int
  | [] => []
  | (_, value) :: rest => ints value ++ intsOfMembers rest

end

/-! ## Reading -/

/-- The text from its first character that is not JSON whitespace on. -/
def skipSpace (text : List Char) : List Char :=
  text.dropWhile fun char => char = ' ' ∨ char = '\t' ∨ char = '\n' ∨ char = '\r'

/-- The value of a hexadecimal digit of either case. -/
def hexValue? (char : Char) : Option Nat :=
  if '0' ≤ char ∧ char ≤ '9' then some (char.toNat - '0'.toNat)
  else if 'a' ≤ char ∧ char ≤ 'f' then some (char.toNat - 'a'.toNat + 10)
  else if 'A' ≤ char ∧ char ≤ 'F' then some (char.toNat - 'A'.toNat + 10)
  else none

/-- Four hexadecimal digits at the start of a text. -/
def readHexFour : List Char → Option (Nat × List Char)
  | first :: second :: third :: fourth :: rest => do
      let high ← hexValue? first
      let upper ← hexValue? second
      let lower ← hexValue? third
      let low ← hexValue? fourth
      return (high * 4096 + upper * 256 + lower * 16 + low, rest)
  | _ => none

/-- The character of a short escape. -/
def shortEscape? (mark : Char) : Option Char :=
  if mark = '"' ∨ mark = '\\' ∨ mark = '/' then some mark
  else if mark = 'n' then some '\n'
  else if mark = 'r' then some '\r'
  else if mark = 't' then some '\t'
  else if mark = 'b' then some '\x08'
  else if mark = 'f' then some '\x0c'
  else none

/-- The low half of a surrogate pair, and what follows it. -/
def readLowSurrogate : List Char → Option (Nat × List Char)
  | slash :: mark :: rest => do
      if slash = '\\' ∧ mark = 'u' then
        let (low, rest) ← readHexFour rest
        if 0xdc00 ≤ low ∧ low ≤ 0xdfff then return (low - 0xdc00, rest) else none
      else none
  | _ => none

/-- The character of a code unit, or of the pair it opens. -/
def readUnit (text : List Char) : Option (Char × List Char) := do
  let (code, rest) ← readHexFour text
  if 0xd800 ≤ code ∧ code ≤ 0xdbff then
    let (low, rest) ← readLowSurrogate rest
    return (Char.ofNat (0x10000 + (code - 0xd800) * 0x400 + low), rest)
  else if 0xdc00 ≤ code ∧ code ≤ 0xdfff then none
  else return (Char.ofNat code, rest)

/-- What follows a backslash. -/
def readEscape : List Char → Option (Char × List Char)
  | [] => none
  | mark :: rest =>
      if mark = 'u' then readUnit rest else (shortEscape? mark).map fun char => (char, rest)

/-- One character between quotes, escaped or not; control characters must be escaped. -/
def readChar (char : Char) (rest : List Char) : Option (Char × List Char) :=
  if char = '\\' then readEscape rest
  else if char.toNat < 0x20 then none
  else some (char, rest)

/-- The characters up to the closing quote. -/
def readChars : Nat → List Char → Option (List Char × List Char)
  | 0, _ => none
  | _ + 1, [] => none
  | fuel + 1, char :: rest =>
      if char = '"' then some ([], rest)
      else do
        let (read, rest) ← readChar char rest
        let (chars, rest) ← readChars fuel rest
        return (read :: chars, rest)

/-- A quoted text at the start of a text. -/
def readQuoted (fuel : Nat) : List Char → Option (String × List Char)
  | [] => none
  | quote :: rest =>
      if quote = '"' then
        (readChars fuel rest).map fun read => (String.ofList read.1, read.2)
      else none

/-- A keyword at the start of a text. -/
def readWord (word : String) (value : Json) (text : List Char) : Option (Json × List Char) :=
  if word.toList <+: text then some (value, text.drop word.toList.length) else none

/-- A number at the start of a text. -/
def readNumber (text : List Char) : Option (Json × List Char) :=
  match readNumeral text with
  | none => readWord "-Infinity" (infinite true) text
  | some (numeral, rest) =>
      if whole : numeral.fine = [] then some (int numeral.toInt, rest)
      else if reads : readNumeral numeral.text = some (numeral, []) then
        some (float ⟨numeral, reads, whole⟩, rest)
      else none

/-- The character expected next, behind any whitespace. -/
def expect (wanted : Char) (text : List Char) : Option (List Char) :=
  match skipSpace text with
  | [] => none
  | char :: rest => if char = wanted then some rest else none

mutual

/-- The value at the start of a text, and what follows it. -/
def readValue : Nat → List Char → Option (Json × List Char)
  | 0, _ => none
  | fuel + 1, text =>
      match skipSpace text with
      | [] => none
      | char :: rest =>
          if char = '"' then (readQuoted fuel (char :: rest)).map fun read => (str read.1, read.2)
          else if char = '[' then
            match expect ']' rest with
            | some rest => some (array [], rest)
            | none => do
                let (item, rest) ← readValue fuel rest
                let (items, rest) ← readItems fuel rest
                return (array (item :: items), rest)
          else if char = '{' then
            match expect '}' rest with
            | some rest => some (object [], rest)
            | none => do
                let (member, rest) ← readMember fuel rest
                let (members, rest) ← readMembers fuel rest
                return (object (member :: members), rest)
          else if char = 'n' then readWord "null" null (char :: rest)
          else if char = 't' then readWord "true" (bool true) (char :: rest)
          else if char = 'f' then readWord "false" (bool false) (char :: rest)
          else if char = 'I' then readWord "Infinity" (infinite false) (char :: rest)
          else readNumber (char :: rest)

/-- The items behind the first, and the closing bracket. -/
def readItems : Nat → List Char → Option (List Json × List Char)
  | 0, _ => none
  | fuel + 1, text =>
      match expect ',' text with
      | some rest => do
          let (item, rest) ← readValue fuel rest
          let (items, rest) ← readItems fuel rest
          return (item :: items, rest)
      | none => (expect ']' text).map fun rest => ([], rest)

/-- A key and its value. -/
def readMember : Nat → List Char → Option ((String × Json) × List Char)
  | 0, _ => none
  | fuel + 1, text => do
      let (key, rest) ← readQuoted fuel (skipSpace text)
      let rest ← expect ':' rest
      let (value, rest) ← readValue fuel rest
      return ((key, value), rest)

/-- The members behind the first, and the closing brace. -/
def readMembers : Nat → List Char → Option (List (String × Json) × List Char)
  | 0, _ => none
  | fuel + 1, text =>
      match expect ',' text with
      | some rest => do
          let (member, rest) ← readMember fuel rest
          let (members, rest) ← readMembers fuel rest
          return (member :: members, rest)
      | none => (expect '}' text).map fun rest => ([], rest)

end

/-- `json.loads(text)`. -/
def loads (text : List Char) : Option Json :=
  match readValue (text.length + 1) text with
  | some (value, rest) => if skipSpace rest = [] then some value else none
  | none => none

/-! ## What was written is read back -/

/-- A hexadecimal digit has the value it spells. -/
theorem hexValue?_digitChar : ∀ digit < 16, hexValue? (Nat.digitChar digit) = some digit := by
  decide

/-- A code unit is read back from its four digits. -/
theorem readHexFour_hexFour {code : Nat} (small : code < 0x10000) (rest : List Char) :
    readHexFour (hexFour code ++ rest) = some (code, rest) := by
  have value : code / 4096 % 16 * 4096 + code / 256 % 16 * 256 + code / 16 % 16 * 16 + code % 16 =
      code := by omega
  simp only [hexFour, List.cons_append, List.nil_append, readHexFour,
    hexValue?_digitChar _ (Nat.mod_lt _ (by decide : 0 < 16)), Option.bind_eq_bind,
    Option.bind_some, value]
  rfl

/-- A character is no surrogate and lies below the end of Unicode. -/
theorem char_bounds (char : Char) :
    char.toNat < 0xd800 ∨ (0xdfff < char.toNat ∧ char.toNat < 0x110000) :=
  char.valid

/-- A character of the basic plane is read back from its code unit. -/
theorem readUnit_basic {char : Char} (basic : char.toNat < 0x10000) (rest : List Char) :
    readUnit (hexFour char.toNat ++ rest) = some (char, rest) := by
  have high : ¬(0xd800 ≤ char.toNat ∧ char.toNat ≤ 0xdbff) := by
    have bounds := char_bounds char
    omega
  have low : ¬(0xdc00 ≤ char.toNat ∧ char.toNat ≤ 0xdfff) := by
    have bounds := char_bounds char
    omega
  simp only [readUnit, readHexFour_hexFour basic, Option.bind_eq_bind, Option.bind_some,
    if_neg high, if_neg low, Char.ofNat_toNat]
  rfl

/-- A surrogate pair is read as the one character it stands for. -/
theorem readUnit_surrogates {high low : Nat} (upper : high < 0x400) (lower : low < 0x400)
    (rest : List Char) :
    readUnit (hexFour (0xd800 + high) ++ (escapeUnit (0xdc00 + low) ++ rest)) =
      some (Char.ofNat (0x10000 + high * 0x400 + low), rest) := by
  have highRange : 0xd800 ≤ 0xd800 + high ∧ 0xd800 + high ≤ 0xdbff := by omega
  have lowRange : 0xdc00 ≤ 0xdc00 + low ∧ 0xdc00 + low ≤ 0xdfff := by omega
  have second : readLowSurrogate (escapeUnit (0xdc00 + low) ++ rest) = some (low, rest) := by
    simp only [escapeUnit, List.cons_append, readLowSurrogate, and_self, if_true,
      readHexFour_hexFour (by omega : 0xdc00 + low < 0x10000), Option.bind_eq_bind,
      Option.bind_some, if_pos lowRange, Nat.add_sub_cancel_left, Option.pure_def]
  simp only [readUnit, readHexFour_hexFour (by omega : 0xd800 + high < 0x10000),
    Option.bind_eq_bind, Option.bind_some, if_pos highRange, second, Nat.add_sub_cancel_left,
    Option.pure_def]

/-- A character beyond the basic plane is read back from its surrogate pair. -/
theorem readUnit_pair {char : Char} (beyond : 0x10000 ≤ char.toNat) (rest : List Char) :
    readUnit (hexFour (0xd800 + (char.toNat - 0x10000) / 0x400) ++
      (escapeUnit (0xdc00 + (char.toNat - 0x10000) % 0x400) ++ rest)) = some (char, rest) := by
  have bounds := char_bounds char
  have value : 0x10000 + (char.toNat - 0x10000) / 0x400 * 0x400 +
      (char.toNat - 0x10000) % 0x400 = char.toNat := by omega
  rw [readUnit_surrogates (by omega) (by omega), value, Char.ofNat_toNat]

/-- An escaped character is read back, and reading goes on behind it. -/
theorem readChars_escapeChar (fuel : Nat) (char : Char) (rest : List Char) :
    readChars (fuel + 1) (escapeChar char ++ rest) =
      (readChars fuel rest).map fun read => (char :: read.1, read.2) := by
  have continues : ∀ (first : Char) (text : List Char), first ≠ '"' →
      readChar first text = some (char, rest) →
      readChars (fuel + 1) (first :: text) =
        (readChars fuel rest).map fun read => (char :: read.1, read.2) := by
    intro first text inside reads
    simp only [readChars, if_neg inside, reads, Option.bind_eq_bind, Option.bind_some]
    cases readChars fuel rest <;> rfl
  unfold escapeChar
  split_ifs with quote slash newline carriage tab backspace feed printable basic
  · exact continues _ _ (by decide) (by rw [quote]; rfl)
  · exact continues _ _ (by decide) (by rw [slash]; rfl)
  · exact continues _ _ (by decide) (by rw [newline]; rfl)
  · exact continues _ _ (by decide) (by rw [carriage]; rfl)
  · exact continues _ _ (by decide) (by rw [tab]; rfl)
  · exact continues _ _ (by decide) (by rw [backspace]; rfl)
  · exact continues _ _ (by decide) (by rw [feed]; rfl)
  · refine continues _ _ quote ?_
    rw [readChar, if_neg slash, if_neg (by omega)]
    rfl
  · exact continues _ _ (by decide) (readUnit_basic basic rest)
  · rw [List.append_assoc]
    exact continues _ _ (by decide) (readUnit_pair (by omega) rest)

/-- A quoted text is read back. -/
theorem readQuoted_quoted {fuel : Nat} (text : String) (enough : text.toList.length < fuel)
    (rest : List Char) : readQuoted fuel (quoted text ++ rest) = some (text, rest) := by
  have inner : ∀ (chars : List Char) (fuel : Nat), chars.length < fuel →
      readChars fuel (chars.flatMap escapeChar ++ '"' :: rest) = some (chars, rest) := by
    intro chars
    induction chars with
    | nil =>
        intro fuel enough
        obtain ⟨fuel, rfl⟩ := Nat.exists_eq_succ_of_ne_zero (by omega : fuel ≠ 0)
        rfl
    | cons char chars inductionHypothesis =>
        intro fuel enough
        obtain ⟨fuel, rfl⟩ := Nat.exists_eq_succ_of_ne_zero (by omega : fuel ≠ 0)
        rw [List.flatMap_cons, List.append_assoc, Nat.succ_eq_add_one, readChars_escapeChar,
          inductionHypothesis fuel (by simpa using enough)]
        rfl
  rw [quoted, List.cons_append, List.append_assoc, readQuoted, if_pos rfl]
  simp only [List.cons_append, List.nil_append, inner _ _ enough, Option.map_some,
    String.ofList_toList]

/-- What a numeral starts with. -/
theorem head_of_readNumeral {text rest : List Char} {numeral : Numeral}
    (reads : readNumeral text = some (numeral, rest)) :
    ∃ head tail, text = head :: tail ∧ (head = '-' ∨ head.isDigit = true) := by
  cases text with
  | nil => cases reads
  | cons head tail =>
      refine ⟨head, tail, rfl, ?_⟩
      by_cases minus : head = '-'
      · exact Or.inl minus
      · refine Or.inr ?_
        by_contra other
        simp [readNumeral, if_neg minus, readUnsigned, other] at reads

/-- A text that starts with no whitespace is left as it is. -/
theorem skipSpace_cons {char : Char} (solid : isSpace char = false) (rest : List Char) :
    skipSpace (char :: rest) = char :: rest := by
  have plain : ¬(char = ' ' ∨ char = '\t' ∨ char = '\n' ∨ char = '\r') := by
    rintro (rfl | rfl | rfl | rfl) <;> exact absurd solid (by decide)
  simp [skipSpace, plain]

/-- The expected character is taken. -/
theorem expect_cons {char : Char} (solid : isSpace char = false) (rest : List Char) :
    expect char (char :: rest) = some rest := by
  simp [expect, skipSpace_cons solid]

/-- Another character is not taken. -/
theorem expect_other {wanted char : Char} (solid : isSpace char = false) (differs : char ≠ wanted)
    (rest : List Char) : expect wanted (char :: rest) = none := by
  simp [expect, skipSpace_cons solid, differs]

/-- The first character of a value: no whitespace, and no bracket that closes. -/
theorem head_dumps (value : Json) : ∃ head tail, dumps value = head :: tail ∧
    isSpace head = false ∧ head ≠ ']' ∧ head ≠ '}' := by
  have numeral : ∀ {text rest : List Char} {numeral : Numeral},
      readNumeral text = some (numeral, rest) →
      ∃ head tail, text = head :: tail ∧ isSpace head = false ∧ head ≠ ']' ∧ head ≠ '}' := by
    intro text rest numeral reads
    obtain ⟨head, tail, rfl, minus | digit⟩ := head_of_readNumeral reads
    · subst minus
      exact ⟨_, _, rfl, by decide, by decide, by decide⟩
    · have bounds := Char.isDigit_iff_toNat.mp digit
      refine ⟨_, _, rfl, ?_, ?_, ?_⟩
      · have below : 48 ≤ head.toNat := bounds.1
        have above : head.toNat ≤ 57 := bounds.2
        simp only [isSpace, Bool.or_eq_false_iff, Bool.and_eq_false_iff, decide_eq_false_iff_not,
          beq_eq_false_iff_ne]
        omega
      · rintro rfl
        exact absurd digit (by decide)
      · rintro rfl
        exact absurd digit (by decide)
  cases value with
  | null => exact ⟨_, _, by rw [dumps], by decide, by decide, by decide⟩
  | bool flag => cases flag <;> exact ⟨_, _, by rw [dumps], by decide, by decide, by decide⟩
  | infinite negative => cases negative <;> exact ⟨_, _, rfl, by decide, by decide, by decide⟩
  | int number =>
      obtain ⟨numeral', reads, -, -⟩ := readNumeral_intText number
      rw [dumps]
      exact numeral reads
  | float literal =>
      rw [dumps]
      exact numeral literal.reads
  | str text => exact ⟨_, _, by rw [dumps, quoted], by decide, by decide, by decide⟩
  | array items => cases items <;> exact ⟨_, _, by rw [dumps], by decide, by decide, by decide⟩
  | object members =>
      rcases members with _ | ⟨⟨key, value⟩, rest⟩ <;>
        exact ⟨_, _, by rw [dumps], by decide, by decide, by decide⟩

/-- Reading skips the space which the writer puts behind a separator. -/
theorem readValue_space (fuel : Nat) (text : List Char) :
    readValue fuel (' ' :: text) = readValue fuel text := by
  cases fuel <;> rfl

theorem readMember_space (fuel : Nat) (text : List Char) :
    readMember fuel (' ' :: text) = readMember fuel text := by
  cases fuel <;> rfl

/-- A quoted text is longer than the text. -/
theorem length_quoted (text : String) : text.toList.length + 2 ≤ (quoted text).length := by
  have escaped : ∀ char, 1 ≤ (escapeChar char).length := by
    intro char
    unfold escapeChar
    split_ifs <;> simp [escapeUnit]
  have chars : ∀ chars : List Char, chars.length ≤ (chars.flatMap escapeChar).length := by
    intro chars
    induction chars with
    | nil => exact Nat.le_refl _
    | cons char chars inductionHypothesis =>
        rw [List.flatMap_cons, List.length_append, List.length_cons]
        have one := escaped char
        omega
  have inner := chars text.toList
  simp only [quoted, List.length_cons, List.length_append, List.length_nil]
  omega

/-- A text whose numeral reads to its end reads as a number. -/
theorem readValue_numeral {text rest : List Char} {numeral : Numeral} (fuel : Nat)
    (reads : readNumeral text = some (numeral, [])) :
    readValue (fuel + 1) (text ++ rest) = readNumber (text ++ rest) := by
  obtain ⟨head, tail, rfl, shape⟩ := head_of_readNumeral reads
  have plain : isSpace head = false ∧ head ≠ '"' ∧ head ≠ '[' ∧ head ≠ '{' ∧ head ≠ 'n' ∧
      head ≠ 't' ∧ head ≠ 'f' ∧ head ≠ 'I' := by
    rcases shape with rfl | digit
    · decide
    · have bounds := Char.isDigit_iff_toNat.mp digit
      have below : 48 ≤ head.toNat := bounds.1
      have above : head.toNat ≤ 57 := bounds.2
      refine ⟨?_, ?_, ?_, ?_, ?_, ?_, ?_, ?_⟩
      · simp only [isSpace, Bool.or_eq_false_iff, Bool.and_eq_false_iff, decide_eq_false_iff_not,
          beq_eq_false_iff_ne]
        omega
      all_goals
        rintro rfl
        exact absurd digit (by decide)
  obtain ⟨solid, quote, bracket, brace, n, t, f, i⟩ := plain
  rw [List.cons_append, readValue, skipSpace_cons solid]
  simp only [if_neg quote, if_neg bracket, if_neg brace, if_neg n, if_neg t, if_neg f, if_neg i]

/-- Reading an array that is not empty. -/
theorem readValue_array {fuel : Nat} {text middle rest : List Char} {item : Json}
    {items : List Json} (nonempty : expect ']' text = none)
    (first : readValue fuel text = some (item, middle))
    (others : readItems fuel middle = some (items, rest)) :
    readValue (fuel + 1) ('[' :: text) = some (array (item :: items), rest) := by
  rw [readValue, skipSpace_cons (by decide)]
  simp only [Char.reduceEq, if_false, if_true, nonempty, first, others, Option.bind_eq_bind,
    Option.bind_some, Option.pure_def]

/-- Reading an object that is not empty. -/
theorem readValue_object {fuel : Nat} {text middle rest : List Char} {member : String × Json}
    {members : List (String × Json)} (nonempty : expect '}' text = none)
    (first : readMember fuel text = some (member, middle))
    (others : readMembers fuel middle = some (members, rest)) :
    readValue (fuel + 1) ('{' :: text) = some (object (member :: members), rest) := by
  rw [readValue, skipSpace_cons (by decide)]
  simp only [Char.reduceEq, if_false, if_true, nonempty, first, others, Option.bind_eq_bind,
    Option.bind_some, Option.pure_def]

/-- Reading a member whose value is read. -/
theorem readMember_value {fuel : Nat} {key : String} {value : Json} {text rest : List Char}
    (enough : key.toList.length < fuel) (reads : readValue fuel text = some (value, rest)) :
    readMember (fuel + 1) (quoted key ++ (':' :: ' ' :: text)) = some ((key, value), rest) := by
  have start : skipSpace (quoted key ++ (':' :: ' ' :: text)) =
      quoted key ++ (':' :: ' ' :: text) :=
    skipSpace_cons (by decide) _
  rw [readMember, start, readQuoted_quoted key enough]
  simp only [Option.bind_eq_bind, Option.bind_some, expect_cons (by decide : isSpace ':' = false),
    readValue_space, reads, Option.pure_def]

/-- A writer's separator or closing character ends any numeral. -/
theorem closesNumeral_cons {char : Char} (closes : continuesNumeral char = false)
    (rest : List Char) : ClosesNumeral (char :: rest) := by
  intro other head
  cases head
  exact closes

theorem closesNumeral_items (items : List Json) (rest : List Char) :
    ClosesNumeral (dumpsItems items ++ rest) := by
  cases items <;>
    · rw [dumpsItems, List.cons_append]
      exact closesNumeral_cons (by decide) _

theorem closesNumeral_members (members : List (String × Json)) (rest : List Char) :
    ClosesNumeral (dumpsMembers members ++ rest) := by
  rcases members with _ | ⟨⟨key, value⟩, members⟩ <;>
    · rw [dumpsMembers, List.cons_append]
      exact closesNumeral_cons (by decide) _

mutual

/-- A written value is read back, in front of any text that no numeral goes on into. -/
theorem readValue_dumps : ∀ (value : Json) (fuel : Nat) (rest : List Char),
    (dumps value).length ≤ fuel → ClosesNumeral rest →
      readValue fuel (dumps value ++ rest) = some (value, rest)
  | null, fuel + 1, rest, _, _ => rfl
  | bool true, fuel + 1, rest, _, _ => rfl
  | bool false, fuel + 1, rest, _, _ => rfl
  | int number, fuel + 1, rest, _, closes => by
      obtain ⟨numeral, reads, whole, value⟩ := readNumeral_intText number
      rw [dumps, readValue_numeral fuel reads, readNumber, readNumeral_append closes reads]
      simp only [dif_pos whole, value, List.nil_append]
  | float literal, fuel + 1, rest, _, closes => by
      rw [dumps, readValue_numeral fuel literal.reads, readNumber,
        readNumeral_append closes literal.reads]
      simp only [dif_neg literal.fractional, dif_pos literal.reads, List.nil_append]
  | infinite true, fuel + 1, rest, _, _ => rfl
  | infinite false, fuel + 1, rest, _, _ => rfl
  | str text, fuel + 1, rest, enough, _ => by
      have longer := length_quoted text
      rw [dumps] at enough ⊢
      have reads := @readQuoted_quoted fuel text (by omega) rest
      rw [quoted, List.cons_append] at reads ⊢
      rw [readValue, skipSpace_cons (by decide)]
      simp only [if_true, reads, Option.map_some]
  | array [], fuel + 1, rest, _, _ => rfl
  | array (item :: items), fuel + 1, rest, enough, _ => by
      rw [dumps] at enough ⊢
      simp only [List.length_cons, List.length_append] at enough
      obtain ⟨head, tail, start, solid, open', -⟩ := head_dumps item
      have nonempty : expect ']' (dumps item ++ (dumpsItems items ++ rest)) = none := by
        rw [start]
        exact expect_other solid open' _
      rw [List.cons_append, List.append_assoc]
      exact readValue_array nonempty
        (readValue_dumps item fuel _ (by omega) (closesNumeral_items items rest))
        (readItems_dumps items fuel rest (by omega))
  | object [], fuel + 1, rest, _, _ => rfl
  | object ((key, value) :: members), fuel + 1, rest, enough, _ => by
      rw [dumps] at enough ⊢
      simp only [List.length_cons, List.length_append] at enough
      have longer := length_quoted key
      obtain ⟨fuel, rfl⟩ := Nat.exists_eq_succ_of_ne_zero (by omega : fuel ≠ 0)
      have value := readValue_dumps value fuel (dumpsMembers members ++ rest) (by omega)
        (closesNumeral_members members rest)
      rw [List.cons_append, List.append_assoc, List.cons_append, List.cons_append,
        List.append_assoc]
      exact readValue_object (expect_other (by decide) (by decide) _)
        (readMember_value (by omega) value) (readMembers_dumps members _ rest (by omega))
  | value, 0, rest, enough, _ => by
      obtain ⟨head, tail, start, -⟩ := head_dumps value
      rw [start] at enough
      exact absurd enough (Nat.not_succ_le_zero _)

/-- The items behind the first are read back. -/
theorem readItems_dumps : ∀ (items : List Json) (fuel : Nat) (rest : List Char),
    (dumpsItems items).length ≤ fuel →
      readItems fuel (dumpsItems items ++ rest) = some (items, rest)
  | [], fuel + 1, rest, _ => rfl
  | item :: items, fuel + 1, rest, enough => by
      rw [dumpsItems] at enough ⊢
      simp only [List.length_cons, List.length_append] at enough
      have first := readValue_dumps item fuel (dumpsItems items ++ rest) (by omega)
        (closesNumeral_items items rest)
      have others := readItems_dumps items fuel rest (by omega)
      rw [List.cons_append, List.cons_append, List.append_assoc, readItems,
        expect_cons (by decide)]
      simp only [readValue_space, first, others, Option.bind_eq_bind, Option.bind_some,
        Option.pure_def]
  | [], 0, rest, enough => by
      rw [dumpsItems] at enough
      exact absurd enough (Nat.not_succ_le_zero _)
  | item :: items, 0, rest, enough => by
      rw [dumpsItems] at enough
      exact absurd enough (Nat.not_succ_le_zero _)

/-- The members behind the first are read back. -/
theorem readMembers_dumps : ∀ (members : List (String × Json)) (fuel : Nat) (rest : List Char),
    (dumpsMembers members).length ≤ fuel →
      readMembers fuel (dumpsMembers members ++ rest) = some (members, rest)
  | [], fuel + 1, rest, _ => rfl
  | (key, value) :: members, fuel + 1, rest, enough => by
      rw [dumpsMembers] at enough ⊢
      simp only [List.length_cons, List.length_append] at enough
      have longer := length_quoted key
      obtain ⟨fuel, rfl⟩ := Nat.exists_eq_succ_of_ne_zero (by omega : fuel ≠ 0)
      have reads := readValue_dumps value fuel (dumpsMembers members ++ rest) (by omega)
        (closesNumeral_members members rest)
      have first := @readMember_value fuel key value _ _ (by omega) reads
      have others := readMembers_dumps members (fuel + 1) rest (by omega)
      rw [List.cons_append, List.cons_append, List.append_assoc, List.cons_append,
        List.cons_append, List.append_assoc, readMembers, expect_cons (by decide)]
      simp only [readMember_space, first, others, Option.bind_eq_bind, Option.bind_some,
        Option.pure_def]
  | [], 0, rest, enough => by
      rw [dumpsMembers] at enough
      exact absurd enough (Nat.not_succ_le_zero _)
  | (key, value) :: members, 0, rest, enough => by
      rw [dumpsMembers] at enough
      exact absurd enough (Nat.not_succ_le_zero _)

end

/-- `json.loads(json.dumps(value))` is the value. -/
theorem loads_dumps (value : Json) : loads (dumps value) = some value := by
  have reads := readValue_dumps value ((dumps value).length + 1) [] (Nat.le_succ _)
    (fun char head => by cases head)
  rw [List.append_nil] at reads
  simp only [loads, reads]
  rfl

/-! ## One line of ASCII -/

/-- A printable character of ASCII. -/
def Printable (char : Char) : Prop := 0x20 ≤ char.toNat ∧ char.toNat ≤ 0x7e

instance (char : Char) : Decidable (Printable char) :=
  inferInstanceAs (Decidable (_ ∧ _))

theorem printable_of_all {text : List Char} (all : text.all (fun char => decide (Printable char))) :
    ∀ char ∈ text, Printable char :=
  fun char member => of_decide_eq_true (List.all_eq_true.mp all char member)

/-- Every character of a numeral can go on with one, and is printable. -/
theorem printable_of_continues {char : Char} (continues : continuesNumeral char = true) :
    Printable char := by
  simp only [continuesNumeral, Bool.or_eq_true, decide_eq_true_eq] at continues
  rcases continues with ((((digit | rfl) | rfl) | rfl) | rfl) | rfl
  · have bounds := Char.isDigit_iff_toNat.mp digit
    have below : 48 ≤ char.toNat := bounds.1
    have above : char.toNat ≤ 57 := bounds.2
    exact ⟨by omega, by omega⟩
  all_goals decide

/-- Digits can go on with a numeral. -/
theorem continues_of_digits {text : List Char} {char : Char}
    (member : char ∈ text.takeWhile Char.isDigit) : continuesNumeral char = true := by
  have digit := List.mem_takeWhile_imp member
  simp [continuesNumeral, digit]

/-- A fraction is taken from the start of the text. -/
theorem readFraction_parts (text : List Char) :
    text = (readFraction text).1 ++ (readFraction text).2 ∧
      ∀ char ∈ (readFraction text).1, continuesNumeral char = true := by
  cases text with
  | nil => exact ⟨rfl, fun char member => by cases member⟩
  | cons point rest =>
      rw [readFraction]
      split
      · next taken =>
          refine ⟨by simp, fun char member => ?_⟩
          rcases List.mem_cons.mp member with rfl | digit
          · simp [continuesNumeral, taken.1]
          · exact continues_of_digits digit
      · exact ⟨rfl, fun char member => by cases member⟩

/-- A sign is taken from the start of the text. -/
theorem readSign_parts (text : List Char) :
    text = (readSign text).1 ++ (readSign text).2 ∧
      ∀ char ∈ (readSign text).1, continuesNumeral char = true := by
  cases text with
  | nil => exact ⟨rfl, fun char member => by cases member⟩
  | cons sign rest =>
      rw [readSign]
      split
      · next taken =>
          refine ⟨rfl, fun char member => ?_⟩
          rw [List.mem_singleton.mp member]
          rcases taken with rfl | rfl <;> rfl
      · exact ⟨rfl, fun char member => by cases member⟩

/-- An exponent is taken from the start of the text. -/
theorem readExponent_parts (text : List Char) :
    text = (readExponent text).1 ++ (readExponent text).2 ∧
      ∀ char ∈ (readExponent text).1, continuesNumeral char = true := by
  cases text with
  | nil => exact ⟨rfl, fun char member => by cases member⟩
  | cons mark rest =>
      obtain ⟨whole, signs⟩ := readSign_parts rest
      rw [readExponent]
      split
      · next taken =>
          refine ⟨?_, fun char member => ?_⟩
          · rw [List.cons_append, List.append_assoc, List.takeWhile_append_dropWhile, ← whole]
          · rcases List.mem_cons.mp member with rfl | later
            · rcases taken.1 with rfl | rfl <;> rfl
            · rcases List.mem_append.mp later with sign | digit
              · exact signs char sign
              · exact continues_of_digits digit
      · exact ⟨rfl, fun char member => by cases member⟩

/-- The characters of a text that is one numeral. -/
theorem continues_of_readNumeral {text : List Char} {numeral : Numeral}
    (reads : readNumeral text = some (numeral, [])) :
    ∀ char ∈ text, continuesNumeral char = true := by
  have unsigned : ∀ (negative : Bool) (text : List Char),
      readUnsigned negative text = some (numeral, []) →
        ∀ char ∈ text, continuesNumeral char = true := by
    intro negative text reads char member
    unfold readUnsigned at reads
    dsimp only at reads
    split at reads
    · cases reads
    · rw [Option.some.injEq, Prod.mk.injEq] at reads
      obtain ⟨point, fraction⟩ := readFraction_parts (text.dropWhile Char.isDigit)
      obtain ⟨mark, exponent⟩ :=
        readExponent_parts (readFraction (text.dropWhile Char.isDigit)).2
      rw [reads.2, List.append_nil] at mark
      rw [← @List.takeWhile_append_dropWhile _ Char.isDigit text, point, mark] at member
      rcases List.mem_append.mp member with digit | later
      · exact continues_of_digits digit
      · rcases List.mem_append.mp later with inside | behind
        · exact fraction char inside
        · exact exponent char behind
  cases text with
  | nil => cases reads
  | cons sign rest =>
      simp only [readNumeral] at reads
      split at reads
      · next minus =>
          intro char member
          rcases List.mem_cons.mp member with rfl | later
          · rw [minus]
            rfl
          · exact unsigned true rest reads char later
      · exact unsigned false (sign :: rest) reads

/-- An escaped character is printable ASCII. -/
theorem printable_escapeChar (char : Char) : ∀ written ∈ escapeChar char, Printable written := by
  have digits : ∀ digit < 16, Printable (Nat.digitChar digit) := by decide
  have unit : ∀ code, ∀ written ∈ escapeUnit code, Printable written := by
    intro code written member
    simp only [escapeUnit, hexFour, List.mem_cons, List.not_mem_nil, or_false] at member
    rcases member with rfl | rfl | rfl | rfl | rfl | rfl
    · decide
    · decide
    all_goals exact digits _ (Nat.mod_lt _ (by decide))
  unfold escapeChar
  split_ifs with quote slash newline carriage tab backspace feed printable basic
  case pos => exact printable_of_all (by decide)
  case pos => exact printable_of_all (by decide)
  case pos => exact printable_of_all (by decide)
  case pos => exact printable_of_all (by decide)
  case pos => exact printable_of_all (by decide)
  case pos => exact printable_of_all (by decide)
  case pos => exact printable_of_all (by decide)
  · intro written member
    rw [List.mem_singleton.mp member]
    exact printable
  · exact unit _
  · intro written member
    rcases List.mem_append.mp member with high | low
    · exact unit _ written high
    · exact unit _ written low

/-- A quoted text is printable ASCII. -/
theorem printable_quoted (text : String) : ∀ written ∈ quoted text, Printable written := by
  intro written member
  simp only [quoted, List.mem_cons, List.mem_append, List.mem_flatMap, List.not_mem_nil,
    or_false] at member
  rcases member with rfl | ⟨char, -, inside⟩ | rfl
  · decide
  · exact printable_escapeChar char written inside
  · decide

/-- A text of printable pieces. -/
theorem printable_append {left right : List Char} (first : ∀ char ∈ left, Printable char)
    (second : ∀ char ∈ right, Printable char) : ∀ char ∈ left ++ right, Printable char := by
  intro char member
  rcases List.mem_append.mp member with early | late
  · exact first char early
  · exact second char late

theorem printable_cons {char : Char} {text : List Char} (first : Printable char)
    (second : ∀ char ∈ text, Printable char) : ∀ other ∈ char :: text, Printable other := by
  intro other member
  rcases List.mem_cons.mp member with rfl | later
  · exact first
  · exact second other later

mutual

/-- Every value is written in printable ASCII, and so on one line. -/
theorem printable_dumps : ∀ value : Json, ∀ char ∈ dumps value, Printable char
  | null => printable_of_all (by decide)
  | bool true => printable_of_all (by decide)
  | bool false => printable_of_all (by decide)
  | int number => by
      obtain ⟨numeral, reads, -, -⟩ := readNumeral_intText number
      rw [dumps]
      exact fun char member => printable_of_continues (continues_of_readNumeral reads char member)
  | float literal => by
      rw [dumps]
      exact fun char member =>
        printable_of_continues (continues_of_readNumeral literal.reads char member)
  | infinite true => printable_of_all (by decide)
  | infinite false => printable_of_all (by decide)
  | str text => by
      rw [dumps]
      exact printable_quoted text
  | array [] => printable_of_all (by decide)
  | array (item :: items) => by
      rw [dumps]
      exact printable_cons (by decide)
        (printable_append (printable_dumps item) (printable_dumpsItems items))
  | object [] => printable_of_all (by decide)
  | object ((key, value) :: members) => by
      rw [dumps]
      exact printable_cons (by decide) (printable_append (printable_quoted key)
        (printable_cons (by decide) (printable_cons (by decide)
          (printable_append (printable_dumps value) (printable_dumpsMembers members)))))

theorem printable_dumpsItems : ∀ items : List Json, ∀ char ∈ dumpsItems items, Printable char
  | [] => printable_of_all (by decide)
  | item :: items => by
      rw [dumpsItems]
      exact printable_cons (by decide) (printable_cons (by decide)
        (printable_append (printable_dumps item) (printable_dumpsItems items)))

theorem printable_dumpsMembers : ∀ members : List (String × Json),
    ∀ char ∈ dumpsMembers members, Printable char
  | [] => printable_of_all (by decide)
  | (key, value) :: members => by
      rw [dumpsMembers]
      exact printable_cons (by decide) (printable_cons (by decide)
        (printable_append (printable_quoted key) (printable_cons (by decide)
          (printable_cons (by decide)
            (printable_append (printable_dumps value) (printable_dumpsMembers members))))))

end

end Json

end NovelRalph
