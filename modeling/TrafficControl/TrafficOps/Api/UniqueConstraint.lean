import TrafficControl.Lib.DottedNames
import TrafficControl.Lib.Trim
import TrafficControl.TrafficOps.Api.SharedHandlers

set_option autoImplicit false

namespace UniqueConstraint

open DsRequest (ApiErrorType)

-- What a database error says of the constraint.
structure PqError where
  constraint : List Char
  detail : List Char
deriving DecidableEq

section Parse

def trimPrefix (s front : List Char) : List Char := if front.isPrefixOf s then s.drop front.length else s

def trimSuffix (s back : List Char) : List Char := if back.isSuffixOf s then s.take (s.length - back.length) else s

def parenthesis (c : Char) : Bool := c = '(' || c = ')'

def key : List Char := "Key ".toList

def alreadyExists : List Char := " already exists.".toList

def dbError : List Char × ApiErrorType := ("database access error".toList, .SystemError)

def parsePQUniqueConstraintError (err : PqError) : List Char × ApiErrorType :=
  if 0 < err.constraint.length ∧ 0 < err.detail.length then
    if key.isPrefixOf err.detail ∧ alreadyExists.isSuffixOf err.detail then
      let detail := trimSuffix (trimPrefix err.detail key) alreadyExists
      -- should look like "(column)=(dupe value)" at this point
      match detail.splitOn '=' with
      | [columns, values] =>
        (Trim.trim parenthesis columns ++ [' '] ++ Trim.trim parenthesis values ++ alreadyExists, .DataConflictError)
      | _ => dbError
    else dbError
  else dbError

/-- What the update of a CDN answers when the database refuses it. -/
def updateError (err : PqError) : List Char × ApiErrorType :=
  let (text, type) := parsePQUniqueConstraintError err
  if type = .DataConflictError then ("a cdn with ".toList ++ text, type) else (text, type)

end Parse

section Messages

variable (constraint : List Char) (columns values : List (List Char))

/-- A list as the database writes it between parentheses. -/
def listed (items : List (List Char)) : List Char := List.intercalate ", ".toList items

def violation : PqError :=
  ⟨constraint, key ++ ('(' :: listed columns ++ ")=(".toList ++ listed values ++ [')']) ++ alreadyExists⟩

def Reports : Prop :=
  parsePQUniqueConstraintError (violation constraint columns values) =
    (listed columns ++ [' '] ++ listed values ++ alreadyExists, .DataConflictError)

/-- Neither end is a parenthesis. -/
def Bare (s : List Char) : Prop := s.head?.any parenthesis = false ∧ s.getLast?.any parenthesis = false

variable {constraint columns values}

theorem trim_detail (inside : List Char) : trimSuffix (trimPrefix (key ++ inside ++ alreadyExists) key) alreadyExists = inside := by
  have front : trimPrefix (key ++ inside ++ alreadyExists) key = inside ++ alreadyExists := by
    rw [trimPrefix, if_pos (List.isPrefixOf_iff_prefix.mpr ⟨inside ++ alreadyExists, (List.append_assoc ..).symm⟩), List.append_assoc,
      List.drop_left]
  rw [front, trimSuffix, if_pos (List.isSuffixOf_iff_suffix.mpr (List.suffix_append _ _)), List.length_append, Nat.add_sub_cancel,
    List.take_left]

theorem trim_parentheses (s : List Char) : Trim.trim parenthesis ('(' :: s ++ [')']) = Trim.trim parenthesis s :=
  @Trim.trim_wrapped Char parenthesis ['('] [')'] (by simp [parenthesis]) (by simp [parenthesis]) s

/-- One equality sign splits the detail, and a column or a value may bring another. -/
theorem split_detail_iff {cols vals : List Char} {a b : List Char} :
    ('(' :: cols ++ ")=(".toList ++ vals ++ [')']).splitOn '=' = [a, b] ↔
      ('=' ∉ cols ∧ '=' ∉ vals) ∧ a = '(' :: cols ++ [')'] ∧ b = '(' :: vals ++ [')'] := by
  have detail : '(' :: cols ++ ")=(".toList ++ vals ++ [')'] = ('(' :: cols ++ [')']) ++ '=' :: ('(' :: vals ++ [')']) := by simp
  have parts : '=' ∉ cols ∧ '=' ∉ vals →
      ('(' :: cols ++ ")=(".toList ++ vals ++ [')']).splitOn '=' = ['(' :: cols ++ [')'], '(' :: vals ++ [')']] := by
    rintro ⟨col, val⟩
    exact DottedNames.split_eq_pair_iff.mpr ⟨detail, by simpa using col, by simpa using val⟩
  constructor
  · intro pair
    obtain ⟨split, first, second⟩ := DottedNames.split_eq_pair_iff.mp pair
    have once : ('(' :: cols ++ ")=(".toList ++ vals ++ [')']).count '=' = 1 := by
      rw [split, List.count_append, List.count_cons_self, List.count_eq_zero_of_not_mem first,
        List.count_eq_zero_of_not_mem second]
    have counted : ('(' :: cols ++ ")=(".toList ++ vals ++ [')']).count '=' = cols.count '=' + 1 + vals.count '=' := by
      simp
      omega
    have none : '=' ∉ cols ∧ '=' ∉ vals := by
      rw [← List.count_eq_zero, ← List.count_eq_zero]
      omega
    rw [parts none] at pair
    obtain ⟨left, rest⟩ := List.cons.inj pair
    exact ⟨none, left.symm, (List.cons.inj rest).1.symm⟩
  · rintro ⟨none, rfl, rfl⟩
    exact parts none

theorem key_isPrefixOf (inside : List Char) : key.isPrefixOf (key ++ inside ++ alreadyExists) = true :=
  List.isPrefixOf_iff_prefix.mpr ⟨inside ++ alreadyExists, (List.append_assoc ..).symm⟩

theorem alreadyExists_isSuffixOf (inside : List Char) : alreadyExists.isSuffixOf (key ++ inside ++ alreadyExists) = true :=
  List.isSuffixOf_iff_suffix.mpr (List.suffix_append _ _)

section Named

variable (named : constraint ≠ [])
include named

theorem parse_other (other : ¬ ('=' ∉ listed columns ∧ '=' ∉ listed values)) :
    parsePQUniqueConstraintError (violation constraint columns values) = dbError := by
  have texts : 0 < (violation constraint columns values).constraint.length ∧ 0 < (violation constraint columns values).detail.length :=
    ⟨List.length_pos_of_ne_nil named, Nat.zero_lt_succ _⟩
  unfold parsePQUniqueConstraintError
  rw [if_pos texts, violation, if_pos ⟨key_isPrefixOf _, alreadyExists_isSuffixOf _⟩, trim_detail]
  dsimp only
  split
  · next a b pair => exact absurd (split_detail_iff.mp pair).1 other
  · rfl

theorem parse_pair (once : '=' ∉ listed columns ∧ '=' ∉ listed values) :
    parsePQUniqueConstraintError (violation constraint columns values) =
      (Trim.trim parenthesis (listed columns) ++ [' '] ++ Trim.trim parenthesis (listed values) ++ alreadyExists,
        .DataConflictError) := by
  have texts : 0 < (violation constraint columns values).constraint.length ∧ 0 < (violation constraint columns values).detail.length :=
    ⟨List.length_pos_of_ne_nil named, Nat.zero_lt_succ _⟩
  unfold parsePQUniqueConstraintError
  rw [if_pos texts, violation, if_pos ⟨key_isPrefixOf _, alreadyExists_isSuffixOf _⟩, trim_detail]
  dsimp only
  rw [split_detail_iff.mpr ⟨once, rfl, rfl⟩]
  dsimp only
  rw [trim_parentheses, trim_parentheses]

end Named

/-- Two texts that were cut make up the same message only if neither was cut. -/
theorem trims_eq_iff (cols vals : List Char) :
    Trim.trim parenthesis cols ++ [' '] ++ Trim.trim parenthesis vals ++ alreadyExists = cols ++ [' '] ++ vals ++ alreadyExists ↔
      Bare cols ∧ Bare vals := by
  unfold Bare
  rw [← Trim.trim_eq_self_iff, ← Trim.trim_eq_self_iff]
  constructor
  · intro same
    have first := Trim.trim_length_le parenthesis cols
    have second := Trim.trim_length_le parenthesis vals
    have lengths := congrArg List.length same
    simp only [List.length_append] at lengths
    obtain ⟨left, right⟩ := List.append_inj (List.append_cancel_right same) (by simp only [List.length_append]; omega)
    exact ⟨List.append_cancel_right left, right⟩
  · rintro ⟨first, second⟩
    rw [first, second]

/-- The message is that of the conflict if no text has an equality sign and neither list has a parenthesis at an end. -/
theorem reports_iff (constraint : List Char) (columns values : List (List Char)) :
    Reports constraint columns values ↔ constraint ≠ [] ∧ ('=' ∉ listed columns ∧ '=' ∉ listed values) ∧
      Bare (listed columns) ∧ Bare (listed values) := by
  unfold Reports
  by_cases named : constraint = []
  · subst named
    refine iff_of_false (fun reports => ?_) (fun condition => condition.1 rfl)
    cases (Prod.mk.inj reports).2
  by_cases once : '=' ∉ listed columns ∧ '=' ∉ listed values
  · rw [parse_pair named once, Prod.mk.injEq, trims_eq_iff]
    exact ⟨fun reports => ⟨named, once, reports.1⟩, fun condition => ⟨condition.2.2, rfl⟩⟩
  · rw [parse_other named once]
    refine iff_of_false (fun reports => ?_) (fun condition => once condition.2.1)
    cases (Prod.mk.inj reports).2

/-- A CDN with the name `a=b` is there already, which the client is not told. -/
theorem not_reports_equals : ¬ Reports "cdn_name_unique".toList ["name".toList] ["a=b".toList] := by
  rw [Reports]
  decide

/-- The client of an update sees a conflict unless an equality sign hides it. -/
theorem status_updateError (named : constraint ≠ []) :
    Api.statusOf (updateError (violation constraint columns values)).2 =
      if '=' ∉ listed columns ∧ '=' ∉ listed values then 400 else 500 := by
  by_cases once : '=' ∉ listed columns ∧ '=' ∉ listed values
  · rw [updateError, parse_pair named once, if_pos once]
    rfl
  · rw [updateError, parse_other named once, if_neg once]
    rfl

end Messages

end UniqueConstraint
