import Mathlib.Data.Rat.Init

set_option autoImplicit false

-- Rules for the fields of a record, each with the message of its error.
namespace Validation

/-- What a field points to. -/
inductive Value where
  | nil
  | bool (b : Bool)
  | int (n : Int)
  | float (x : Rat)
  | string (s : String)
  -- such as a rule
  | struct
deriving DecidableEq

namespace Value

def kind : Value → String
  | nil => "ptr"
  | bool _ => "bool"
  | int _ => "int"
  | float _ => "float64"
  | string _ => "string"
  | struct => "struct"

def isEmpty : Value → Bool
  | nil => true
  | bool b => !b
  | int n => n = 0
  | float x => x = 0
  | string s => s = ""
  | struct => false

def ofBool (b : Option Bool) : Value := b.elim nil bool

def ofInt (n : Option Int) : Value := n.elim nil int

def ofFloat (x : Option Rat) : Value := x.elim nil float

def ofString (s : Option String) : Value := s.elim nil string

end Value

abbrev Rule := Value → Option String

def validate (value : Value) (rules : List Rule) : Option String := rules.findSome? fun rule => rule value

def notNil : Rule := fun value => if value = .nil then some "is required" else none

def required : Rule := fun value => if value.isEmpty then some "cannot be blank" else none

/-- An empty value is not looked at. -/
def newStringRule (validator : String → Bool) (message : String) : Rule := fun value =>
  if value.isEmpty then none
  else
    match value with
    | .string s => if validator s then none else some message
    | _ => some "must be either a string or byte slice"

def lengthMessage (min max : Nat) : String :=
  if min = 0 ∧ 0 < max then "the length must be no more than " ++ toString max
  else if 0 < min ∧ max = 0 then "the length must be no less than " ++ toString min
  else if 0 < min ∧ 0 < max then "the length must be between " ++ toString min ++ " and " ++ toString max
  else "the value must be empty"

def length (min max : Nat) : Rule := fun value =>
  if value.isEmpty then none
  else
    match value with
    | .string s =>
      if 0 < min ∧ s.utf8ByteSize < min ∨ 0 < max ∧ max < s.utf8ByteSize then some (lengthMessage min max) else none
    | _ => some ("cannot get the length of " ++ value.kind)

def min (threshold : Int) : Rule := fun value =>
  if value.isEmpty then none
  else
    match value with
    | .int n => if threshold ≤ n then none else some ("must be no less than " ++ toString threshold)
    | _ => some ("cannot convert " ++ value.kind ++ " to int64")

theorem validate_eq_none_iff {value : Value} {rules : List Rule} :
    validate value rules = none ↔ ∀ rule ∈ rules, rule value = none := List.findSome?_eq_none_iff

theorem notNil_eq_none_iff {value : Value} : notNil value = none ↔ value ≠ .nil := by
  unfold notNil
  split <;> simp_all

theorem required_eq_none_iff {value : Value} : required value = none ↔ value.isEmpty = false := by
  unfold required
  cases value.isEmpty <;> simp

/-- A rule for strings says nothing of a missing one. -/
theorem newStringRule_eq_none_iff {validator : String → Bool} {message : String} {s : Option String} :
    newStringRule validator message (.ofString s) = none ↔ ∀ text, s = some text → text ≠ "" → validator text = true := by
  cases s with
  | none => exact iff_of_true rfl nofun
  | some text =>
    by_cases empty : text = ""
    · simp [newStringRule, Value.ofString, Value.isEmpty, empty]
    · simp [newStringRule, Value.ofString, Value.isEmpty, empty]

theorem length_eq_none_iff {lo hi : Nat} (least : lo ≤ 1) (limited : 0 < hi) {s : Option String} :
    length lo hi (.ofString s) = none ↔ ∀ text, s = some text → text.utf8ByteSize ≤ hi := by
  cases s with
  | none => exact iff_of_true rfl nofun
  | some text =>
    by_cases empty : text = ""
    · simp [length, Value.ofString, Value.isEmpty, empty]
    · have filled : 0 < text.utf8ByteSize := Nat.pos_of_ne_zero fun zero => empty (String.utf8ByteSize_eq_zero_iff.mp zero)
      have long : ¬(0 < lo ∧ text.utf8ByteSize < lo) := by omega
      simp [length, Value.ofString, Value.isEmpty, empty, long, limited]

theorem min_eq_none_iff {threshold : Int} {n : Option Int} :
    min threshold (.ofInt n) = none ↔ ∀ m, n = some m → m ≠ 0 → threshold ≤ m := by
  cases n with
  | none => exact iff_of_true rfl nofun
  | some m =>
    by_cases zero : m = 0
    · simp [min, Value.ofInt, Value.isEmpty, zero]
    · simp [min, Value.ofInt, Value.isEmpty, zero]

end Validation
