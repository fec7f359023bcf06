import Mathlib.Algebra.Order.Field.Rat
import Mathlib.Algebra.Ring.Int.Defs
import Mathlib.Data.List.Sort
import Mathlib.Order.WithBot
import NovelRalph.Base.Binary64
import NovelRalph.Base.Text
import NovelRalph.Contract.Outcome

/-!
# The interpreter's operators on decoded values

What `==`, the order comparisons, `sum`, `sorted`, `dict`, `str` and the format
`02d` do with a decoded value of any type. How floats, dates and times are read,
added and spelled is left to an `Interpreter`; what is fixed here is which types
an operator accepts, and what it raises on the others.
-/

namespace NovelRalph

/-- The kinds of dates and times; each is ordered with its own kind only. -/
inductive MomentKind where
  | aware
  | naive
  | date
  | time
  deriving DecidableEq, Repr

/-- A date or a time: its kind, and its place among the moments of that kind. -/
structure Moment where
  kind : MomentKind
  place : Int
  deriving DecidableEq, Repr

/-- A number of the interpreter. -/
inductive Number (Double : Type) where
  | int (value : Int)
  | float (value : Double)

/-- How the interpreter reads, adds, divides and spells what is no integer. -/
structure Interpreter where
  Double : Type
  /-- The float of a literal. -/
  double : String → Double
  /-- Where a float lies among the numbers; a NaN lies nowhere. -/
  place : Double → Option (WithBot (WithTop ℚ))
  spell : Double → String
  /-- The text of a float with a fixed count of decimals. -/
  fixed : Nat → Double → String
  /-- `sum` of numbers; `none` is an `OverflowError`. -/
  total : List (Number Double) → Option (Number Double)
  /-- True division by a number that is not zero; `none` is an `OverflowError`. -/
  quotient : Number Double → Number Double → Option Double
  /-- Multiplication of a float by 100. -/
  hundredfold : Double → Double
  /-- `int` of a float that is finite. -/
  truncate : Double → Int
  /-- The date or time of a literal. -/
  moment : String → Moment
  momentText : String → String
  momentRepr : String → String
  /-- Integers are added exactly. -/
  total_ints : ∀ numbers : List Int, total (numbers.map .int) = some (.int numbers.sum)

/-- The value is an integer, a flag or a float. -/
def Value.isNumber : Value → Bool
  | .int _ | .bool _ | .float _ => true
  | _ => false

/-! ## Numbers and comparisons -/

namespace Interpreter

variable (interp : Interpreter)

/-- The number a value is. -/
def number? : Value → Option (Number interp.Double)
  | .int number => some (.int number)
  | .bool flag => some (.int (if flag then 1 else 0))
  | .float literal => some (.float (interp.double literal))
  | _ => none

/-- Where a number lies. -/
def locate : Number interp.Double → Option (WithBot (WithTop ℚ))
  | .int value => some (((value : ℚ) : WithTop ℚ) : WithBot (WithTop ℚ))
  | .float value => interp.place value

/-- `left <= right` of numbers. -/
def atMost (left right : Number interp.Double) : Bool :=
  match interp.locate left, interp.locate right with
  | some low, some high => decide (low ≤ high)
  | _, _ => false

/-- `left < right` of numbers. -/
def below (left right : Number interp.Double) : Bool :=
  match interp.locate left, interp.locate right with
  | some low, some high => decide (low < high)
  | _, _ => false

/-- `left == right` of numbers. -/
def same (left right : Number interp.Double) : Bool :=
  match interp.locate left, interp.locate right with
  | some one, some other => decide (one = other)
  | _, _ => false

/-- `left <= right`, where one side is a number. -/
def lessEqual (left right : Value) : Except Fault Bool :=
  match interp.number? left, interp.number? right with
  | some left, some right => .ok (interp.atMost left right)
  | _, _ => .error .typeError

/-- `left < right`, where one side is a number. -/
def less (left right : Value) : Except Fault Bool :=
  match interp.number? left, interp.number? right with
  | some left, some right => .ok (interp.below left right)
  | _, _ => .error .typeError

/-- `left == right`, where one side is neither an array nor a table. -/
def equals (left right : Value) : Bool :=
  match left, right with
  | .str left, .str right => left == right
  | .dateTime left, .dateTime right => interp.moment left == interp.moment right
  | left, right =>
      match interp.number? left, interp.number? right with
      | some left, some right => interp.same left right
      | _, _ => false

/-- `number == value`. -/
def equalsNumber (number : Number interp.Double) (value : Value) : Bool :=
  match interp.number? value with
  | some other => interp.same number other
  | none => false

/-- The numbers a list of values begins with. -/
def leadingNumbers : List Value → List (Number interp.Double)
  | [] => []
  | value :: rest =>
      match interp.number? value with
      | some number => number :: leadingNumbers rest
      | none => []

/-- `sum(values)`: the numbers are added until one value is no number. -/
def sum (values : List Value) : Except Fault (Number interp.Double) :=
  match interp.total (interp.leadingNumbers values) with
  | none => .error .overflowError
  | some total =>
      if (interp.leadingNumbers values).length = values.length then .ok total else .error .typeError

end Interpreter

/-! ## Texts -/

namespace Interpreter

variable (interp : Interpreter)

mutual

/-- `repr` of a value. -/
def repr : Value → Except Fault String
  | .str text => .ok (reprText text)
  | .int number => spellInt number
  | .bool flag => .ok (if flag then "True" else "False")
  | .float literal => .ok (interp.spell (interp.double literal))
  | .dateTime literal => .ok (interp.momentRepr literal)
  | .array items => do
      let spelled ← reprItems items
      return "[" ++ String.intercalate ", " spelled ++ "]"
  | .table entries => do
      let spelled ← reprEntries entries
      return "\x7b" ++ String.intercalate ", " spelled ++ "\x7d"

/-- The items of an array, spelled. -/
def reprItems : List Value → Except Fault (List String)
  | [] => .ok []
  | item :: rest => do
      let first ← repr item
      let later ← reprItems rest
      return first :: later

/-- The entries of a table, spelled. -/
def reprEntries : List (String × Value) → Except Fault (List String)
  | [] => .ok []
  | (key, value) :: rest => do
      let first ← repr value
      let later ← reprEntries rest
      return (reprText key ++ ": " ++ first) :: later

end

/-- `str` of a value. -/
def str : Value → Except Fault String
  | .str text => .ok text
  | .dateTime literal => .ok (interp.momentText literal)
  | value => interp.repr value

/-- `str` of a number. -/
def strNumber : Number interp.Double → Except Fault String
  | .int number => spellInt number
  | .float value => .ok (interp.spell value)

end Interpreter

namespace Value

mutual

/-- The value is, or holds, an integer that is not spelled. -/
def holdsTooLong : Value → Bool
  | .int number => tooLong number
  | .array items => itemsTooLong items
  | .table entries => entriesTooLong entries
  | _ => false

/-- One of the items is, or holds, such an integer. -/
def itemsTooLong : List Value → Bool
  | [] => false
  | item :: rest => holdsTooLong item || itemsTooLong rest

/-- One of the entries holds such an integer. -/
def entriesTooLong : List (String × Value) → Bool
  | [] => false
  | (_, value) :: rest => holdsTooLong value || entriesTooLong rest

end

/-- `f"{value:02d}"`; a date or a time takes the format for a text of its own. -/
def padTwo : Value → Except Fault String
  | .int number => if tooLong number then .error .valueError else .ok (NovelRalph.padTwo number)
  | .bool flag => .ok (NovelRalph.padTwo (if flag then 1 else 0))
  | .dateTime _ => .ok "02d"
  | .float _ | .str _ => .error .valueError
  | .array _ | .table _ => .error .typeError

/-- `iter(value)`. -/
def iterate : Value → Except Fault (List Value)
  | .str text => .ok (text.toList.map fun char => .str char.toString)
  | .array items => .ok items
  | .table entries => .ok (entries.map fun entry => .str entry.1)
  | _ => .error .typeError

/-- `hash(value)`, for the value itself. -/
def hashed : Value → Except Fault Value
  | .array _ | .table _ => .error .typeError
  | value => .ok value

/-- The key and value that an element of `dict`'s argument stands for. -/
def asPair (element : Value) : Except Fault (Value × Value) := do
  match ← element.iterate with
  | [key, value] => return (key, value)
  | _ => .error .valueError

end Value

/-! ## Collections -/

namespace Interpreter

variable (interp : Interpreter)

/-- `entries[key] = value`; an equal key is kept as it was. -/
def setItem (key value : Value) : List (Value × Value) → List (Value × Value)
  | [] => [(key, value)]
  | entry :: rest =>
      if interp.equals entry.1 key then (entry.1, value) :: rest
      else entry :: setItem key value rest

/-- `dict(value)`. -/
def dict : Value → Except Fault (List (Value × Value))
  | .table entries => .ok (entries.map fun entry => (.str entry.1, entry.2))
  | value => do
      let elements ← value.iterate
      elements.foldlM (fun entries element => do
        let (key, value) ← element.asPair
        let key ← key.hashed
        return interp.setItem key value entries) []

/-- The set of the items, in the order they came. -/
def setOf (items : List Value) : Except Fault (List Value) :=
  items.foldlM (fun members item => do
    let item ← item.hashed
    return if members.any (interp.equals item) then members else members ++ [item]) []

/-- The types that are ordered with one another. -/
inductive OrderClass where
  | numbers
  | texts
  | moments (kind : MomentKind)
  deriving DecidableEq, Repr

/-- The order a value belongs to; arrays and tables never reach a sort. -/
def orderClass? : Value → Option OrderClass
  | .int _ | .bool _ | .float _ => some .numbers
  | .str _ => some .texts
  | .dateTime literal => some (.moments (interp.moment literal).kind)
  | .array _ | .table _ => none

/-- Two values can be ordered. -/
def comparable (left right : Value) : Bool :=
  (interp.orderClass? left).isSome && interp.orderClass? left == interp.orderClass? right

/-- `not right < left`, of values that can be ordered. -/
def precedes (left right : Value) : Bool :=
  match left, right with
  | .str left, .str right => left ≤ right
  | .dateTime left, .dateTime right => (interp.moment left).place ≤ (interp.moment right).place
  | left, right =>
      match interp.number? left, interp.number? right with
      | some left, some right => !interp.below right left
      | _, _ => true

/-- `sorted(items, key=key)`. -/
def sorted {α : Type} (key : α → Value) (items : List α) : Except Fault (List α) :=
  if items.Pairwise fun left right => interp.comparable (key left) (key right) then
    .ok (items.insertionSort fun left right => interp.precedes (key left) (key right))
  else .error .typeError

end Interpreter

/-! ## When the operators return -/

section Returns

variable {interp : Interpreter}

@[simp]
theorem spellInt_returns {number : Int} :
    (∃ text, spellInt number = .ok text) ↔ tooLong number = false := by
  unfold spellInt
  cases tooLong number <;> simp

@[simp]
theorem Interpreter.isSome_number? (value : Value) :
    (interp.number? value).isSome = value.isNumber := by
  cases value <;> rfl

theorem Interpreter.lessEqual_returns {left right : Value} :
    (∃ answer, interp.lessEqual left right = .ok answer) ↔
      left.isNumber = true ∧ right.isNumber = true := by
  unfold Interpreter.lessEqual
  rw [← interp.isSome_number? left, ← interp.isSome_number? right]
  cases interp.number? left <;> cases interp.number? right <;> simp

theorem Interpreter.less_returns {left right : Value} :
    (∃ answer, interp.less left right = .ok answer) ↔
      left.isNumber = true ∧ right.isNumber = true := by
  unfold Interpreter.less
  rw [← interp.isSome_number? left, ← interp.isSome_number? right]
  cases interp.number? left <;> cases interp.number? right <;> simp

/-- All values are numbers exactly when the numbers they begin with are all of them. -/
theorem Interpreter.length_leadingNumbers {values : List Value} :
    (interp.leadingNumbers values).length = values.length ↔
      ∀ value ∈ values, value.isNumber = true := by
  induction values with
  | nil => simp [Interpreter.leadingNumbers]
  | cons value rest inductionHypothesis =>
      rw [List.forall_mem_cons, ← inductionHypothesis, ← interp.isSome_number? value]
      rw [Interpreter.leadingNumbers]
      cases interp.number? value <;> simp

theorem Interpreter.sum_eq_ok {values : List Value} {total : Number interp.Double} :
    interp.sum values = .ok total ↔
      (∀ value ∈ values, value.isNumber = true) ∧
        interp.total (interp.leadingNumbers values) = some total := by
  rw [← interp.length_leadingNumbers]
  unfold Interpreter.sum
  cases interp.total (interp.leadingNumbers values) with
  | none => simp
  | some found =>
      by_cases numbers : (interp.leadingNumbers values).length = values.length <;> simp [numbers]

mutual

theorem Interpreter.repr_returns : ∀ value : Value,
    (∃ text, interp.repr value = .ok text) ↔ value.holdsTooLong = false
  | .str _ | .bool _ | .float _ | .dateTime _ => by
      simp [Interpreter.repr, Value.holdsTooLong]
  | .int number => by
      unfold Interpreter.repr Value.holdsTooLong
      exact spellInt_returns
  | .array items => by
      unfold Interpreter.repr Value.holdsTooLong
      rw [bind_returns, ← Interpreter.reprItems_returns items]
      exact exists_congr fun spelled => and_iff_left ⟨_, rfl⟩
  | .table entries => by
      unfold Interpreter.repr Value.holdsTooLong
      rw [bind_returns, ← Interpreter.reprEntries_returns entries]
      exact exists_congr fun spelled => and_iff_left ⟨_, rfl⟩

theorem Interpreter.reprItems_returns : ∀ items : List Value,
    (∃ texts, interp.reprItems items = .ok texts) ↔ Value.itemsTooLong items = false
  | [] => by simp [Interpreter.reprItems, Value.itemsTooLong]
  | item :: rest => by
      rw [Value.itemsTooLong, Bool.or_eq_false_iff, ← Interpreter.repr_returns item,
        ← Interpreter.reprItems_returns rest, Interpreter.reprItems]
      exact both_return

theorem Interpreter.reprEntries_returns : ∀ entries : List (String × Value),
    (∃ texts, interp.reprEntries entries = .ok texts) ↔ Value.entriesTooLong entries = false
  | [] => by simp [Interpreter.reprEntries, Value.entriesTooLong]
  | (key, value) :: rest => by
      rw [Value.entriesTooLong, Bool.or_eq_false_iff, ← Interpreter.repr_returns value,
        ← Interpreter.reprEntries_returns rest, Interpreter.reprEntries]
      exact both_return

end

/-- `str` returns exactly when no integer of the value is too long. -/
theorem Interpreter.str_returns {value : Value} :
    (∃ text, interp.str value = .ok text) ↔ value.holdsTooLong = false := by
  cases value with
  | str | dateTime => simp [Interpreter.str, Value.holdsTooLong]
  | _ => exact Interpreter.repr_returns _

theorem Value.itemsTooLong_eq_false {items : List Value} :
    Value.itemsTooLong items = false ↔ ∀ item ∈ items, item.holdsTooLong = false := by
  induction items with
  | nil => simp [Value.itemsTooLong]
  | cons item rest inductionHypothesis =>
      rw [Value.itemsTooLong, Bool.or_eq_false_iff, inductionHypothesis, List.forall_mem_cons]

/-- A value that takes the format `02d` can be spelled. -/
theorem Value.not_tooLong_of_padTwo {value : Value} {text : String}
    (padded : value.padTwo = .ok text) : value.holdsTooLong = false := by
  cases value with
  | int number =>
      cases long : tooLong number with
      | false => exact long
      | true => simp [Value.padTwo, long] at padded
  | array | table => cases padded
  | _ => rfl

end Returns

/-! ## What is in a collection -/

section Members

variable {interp : Interpreter}

/-- A set holds items only, and each of them has a hash. -/
theorem Interpreter.mem_of_setOf {items members : List Value}
    (collected : interp.setOf items = .ok members) {member : Value} (held : member ∈ members) :
    member ∈ items ∧ (interp.orderClass? member).isSome := by
  have collects : ∀ (rest known : List Value),
      rest.foldlM (fun members item => do
        let item ← item.hashed
        return if members.any (interp.equals item) then members else members ++ [item]) known =
          .ok members →
        member ∈ known ∨ (member ∈ rest ∧ (interp.orderClass? member).isSome) := by
    intro rest
    induction rest with
    | nil =>
        intro known runs
        cases runs
        exact .inl held
    | cons item rest inductionHypothesis =>
        intro known runs
        rw [List.foldlM_cons] at runs
        obtain ⟨next, stepped, runs⟩ := except_bind_eq_ok.mp runs
        obtain ⟨same, hashes, grown⟩ := except_bind_eq_ok.mp stepped
        have hashed : same = item ∧ (interp.orderClass? item).isSome := by
          cases item <;> cases hashes <;> exact ⟨rfl, rfl⟩
        rcases inductionHypothesis next runs with before | ⟨later, hash⟩
        · obtain ⟨rfl, hash⟩ := hashed
          cases Except.ok.inj grown
          split at before
          · exact .inl before
          · rcases List.mem_append.mp before with before | new
            · exact .inl before
            · rw [List.mem_singleton.mp new]
              exact .inr ⟨List.mem_cons_self, hash⟩
        · exact .inr ⟨List.mem_cons_of_mem _ later, hash⟩
  rcases collects items [] collected with none | found
  · exact absurd none List.not_mem_nil
  · exact found

theorem Interpreter.sorted_returns {α : Type} {key : α → Value} {items : List α} :
    (∃ ordered, interp.sorted key items = .ok ordered) ↔
      items.Pairwise fun left right => interp.comparable (key left) (key right) = true := by
  unfold Interpreter.sorted
  split
  · next ordered => exact iff_of_true ⟨_, rfl⟩ ordered
  · next mixed => exact iff_of_false (by simp) mixed

/-- Sorting loses and adds no item. -/
theorem Interpreter.mem_sorted {α : Type} {key : α → Value} {items ordered : List α}
    (sorts : interp.sorted key items = .ok ordered) {item : α} : item ∈ ordered ↔ item ∈ items := by
  unfold Interpreter.sorted at sorts
  split at sorts
  · cases sorts
    exact List.mem_insertionSort _
  · cases sorts

end Members

/-! ## An interpreter without rounding -/

section Exact

/-- The rational a number is; `none` is a NaN. -/
def Number.rational : Number (Option ℚ) → Option ℚ
  | .int value => some value
  | .float value => value

/-- Integers are added as integers, everything else as rationals. -/
def Number.addExact : Number (Option ℚ) → Number (Option ℚ) → Number (Option ℚ)
  | .int left, .int right => .int (left + right)
  | left, right => .float (do return (← left.rational) + (← right.rational))

theorem foldl_addExact (numbers : List Int) (start : Int) :
    (numbers.map Number.int).foldl Number.addExact (.int start) = .int (start + numbers.sum) := by
  induction numbers generalizing start with
  | nil => simp
  | cons number rest inductionHypothesis =>
      rw [List.map_cons, List.foldl_cons, List.sum_cons, ← add_assoc]
      exact inductionHypothesis (start + number)

/-- An interpreter whose floats are the rationals and a NaN, for any reading of literals. -/
def Interpreter.exact (double : String → Option ℚ) (moment : String → Moment) : Interpreter where
  Double := Option ℚ
  double
  place value := value.map fun number => ((number : WithTop ℚ) : WithBot (WithTop ℚ))
  spell value := (value.map (fixedText 6)).getD "nan"
  fixed decimals value := (value.map (fixedText decimals)).getD "nan"
  total numbers := some (numbers.foldl Number.addExact (.int 0))
  quotient left right := some (do
    let divisor ← right.rational
    if divisor = 0 then none else return (← left.rational) / divisor)
  hundredfold value := value.map fun number => number * 100
  truncate value := (value.getD 0).num.tdiv (value.getD 0).den
  moment
  momentText := id
  momentRepr := id
  total_ints numbers := by rw [foldl_addExact, zero_add]

end Exact

end NovelRalph
