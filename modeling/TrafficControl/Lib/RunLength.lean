import Mathlib.Data.List.Chain
import Mathlib.Data.List.Induction
import TrafficControl.Lib.PrunedHistory

set_option autoImplicit false

universe u

-- Run-length encodings that are kept newest first.
namespace RunLength

variable {α : Type u} [DecidableEq α]

def push : List (α × Nat) → α → List (α × Nat)
  | [], value => [(value, 1)]
  | (newest, span) :: rest, value =>
    if value = newest then (newest, span + 1) :: rest else (value, 1) :: (newest, span) :: rest

def encode (values : List α) : List (α × Nat) := values.foldl push []

def expand (history : List (α × Nat)) : List α := history.flatMap fun run => List.replicate run.2 run.1

-- The number of runs of equal values.
def runs : List α → Nat
  | [] => 0
  | [_] => 1
  | first :: second :: rest => (if first = second then 0 else 1) + runs (second :: rest)

theorem runs_concat (values : List α) (last value : α) :
    runs (values ++ [last, value]) = runs (values ++ [last]) + if last = value then 0 else 1 := by
  induction values with
  | nil =>
    simp only [List.nil_append, runs]
    exact Nat.add_comm _ _
  | cons first values ih =>
    cases values with
    | nil =>
      simp only [List.nil_append, List.cons_append, runs] at ih ⊢
      omega
    | cons second rest =>
      simp only [List.cons_append, runs] at ih ⊢
      omega

theorem encode_concat (values : List α) (value : α) : encode (values ++ [value]) = push (encode values) value := by
  rw [encode, List.foldl_append]
  rfl

theorem head_push (history : List (α × Nat)) (value : α) :
    (push history value).head?.map Prod.fst = some value := by
  cases history with
  | nil => rfl
  | cons newest rest =>
    rw [push]
    split_ifs with same
    · exact congrArg some same.symm
    · rfl

theorem head_encode (values : List α) : (encode values).head?.map Prod.fst = values.getLast? := by
  induction values using List.reverseRecOn with
  | nil => rfl
  | append_singleton values value => rw [encode_concat, head_push, List.getLast?_concat]

theorem expand_push (history : List (α × Nat)) (value : α) : expand (push history value) = value :: expand history := by
  cases history with
  | nil => rfl
  | cons newest rest =>
    rw [push]
    split_ifs with same
    · subst same
      rfl
    · rfl

theorem expand_encode (values : List α) : expand (encode values) = values.reverse := by
  induction values using List.reverseRecOn with
  | nil => rfl
  | append_singleton values value ih => rw [encode_concat, expand_push, ih, List.reverse_concat]

theorem apart_push {history : List (α × Nat)} (apart : history.IsChain fun newer older => newer.1 ≠ older.1) (value : α) :
    (push history value).IsChain fun newer older => newer.1 ≠ older.1 := by
  cases history with
  | nil => exact List.isChain_singleton _
  | cons newest rest =>
    rw [push]
    split_ifs with same
    · cases rest with
      | nil => exact List.isChain_singleton _
      | cons older rest => exact List.isChain_cons_cons.mpr (List.isChain_cons_cons.mp apart)
    · exact List.isChain_cons_cons.mpr ⟨same, apart⟩

theorem apart_encode (values : List α) : (encode values).IsChain fun newer older => newer.1 ≠ older.1 := by
  induction values using List.reverseRecOn with
  | nil => exact List.isChain_nil
  | append_singleton values value ih =>
    rw [encode_concat]
    exact apart_push ih value

theorem length_encode (values : List α) : (encode values).length = runs values := by
  induction values using List.reverseRecOn with
  | nil => rfl
  | append_singleton values value ih =>
    cases values using List.reverseRecOn with
    | nil => rfl
    | append_singleton values last =>
      have newest := head_encode (values ++ [last])
      rw [List.getLast?_concat] at newest
      rw [encode_concat, List.append_assoc, List.singleton_append, runs_concat, ← ih]
      cases encoded : encode (values ++ [last]) with
      | nil => simp [encoded] at newest
      | cons run rest =>
        obtain rfl : run.1 = last := by simpa [encoded] using newest
        by_cases same : run.1 = value
        · rw [push, if_pos same.symm, if_pos same]
          rfl
        · rw [push, if_neg (Ne.symm same), if_neg same]
          rfl

section Bounded

open PrunedHistory

-- A new run is put before the history, and the history pruned.
def record (limit : Nat) : List (α × Nat) → α → List (α × Nat)
  | [], value => prune limit [(value, 1)]
  | (newest, span) :: rest, value =>
    if value = newest then (newest, span + 1) :: rest else prune limit ((value, 1) :: (newest, span) :: rest)

/-- The history holds the newest runs, and as many of them as the limit allows. -/
structure Encodes (limit : Nat) (values : List α) (history : List (α × Nat)) : Prop where
  apart : history.IsChain fun newer older => newer.1 ≠ older.1
  newest : history.head?.map Prod.fst = values.getLast?
  expands : expand history <+: values.reverse
  length : history.length = min limit (runs values)

-- For values that are newest first.
def leadingChanges : List α → Nat
  | newer :: older :: rest => if newer = older then 0 else leadingChanges (older :: rest) + 1
  | _ => 0

/-- How many of the last values each differ from the one before. -/
def changesAtEnd (values : List α) : Nat := leadingChanges values.reverse

-- With a limit of one the history is emptied by a change and filled again by the value after it.
def Keeps (limit : Nat) (values : List α) : Prop :=
  if limit = 1 then changesAtEnd values % 2 = 0
  else Whole limit (runs values)

instance (limit : Nat) (values : List α) : Decidable (Keeps limit values) := inferInstanceAs (Decidable (ite _ _ _))

theorem kept_pos {limit n : Nat} (two : 2 ≤ limit) (nonempty : 0 < n) : 0 < kept limit n := by
  unfold kept
  split_ifs <;> omega

theorem foldl_record {limit : Nat} (two : 2 ≤ limit) (values : List α) :
    values.foldl (record limit) [] = (encode values).take (kept limit (runs values)) := by
  induction values using List.reverseRecOn with
  | nil => rfl
  | append_singleton values value ih =>
    rw [List.foldl_append, ih, ← length_encode, ← length_encode, encode_concat]
    cases encoded : encode values with
    | nil =>
      have one : kept limit 1 = 1 := if_pos (by omega)
      simp only [List.take_nil, List.foldl_cons, List.foldl_nil, record, push, List.length_singleton, one]
      exact if_neg (by rw [List.length_singleton]; omega)
    | cons run rest =>
      obtain ⟨left, remain⟩ : ∃ left, kept limit (run :: rest).length = left + 1 :=
        ⟨_, (Nat.succ_pred_eq_of_pos (kept_pos two (Nat.succ_pos _))).symm⟩
      have cut := prune_take (by omega : 0 < limit) (value, 1) (rfl : (run :: rest).length = (run :: rest).length)
      rw [remain, List.take_succ_cons] at cut ⊢
      simp only [List.foldl_cons, List.foldl_nil]
      by_cases same : value = run.1
      · rw [record, if_pos same, push, if_pos same]
        have length : ((run.1, run.2 + 1) :: rest).length = (run :: rest).length := rfl
        rw [length, remain, List.take_succ_cons]
      · rw [record, if_neg same, push, if_neg same]
        exact cut

theorem encodes_take {limit : Nat} (two : 2 ≤ limit) (values : List α) :
    Encodes limit values ((encode values).take (kept limit (runs values))) ↔ Whole limit (runs values) := by
  have length : ((encode values).take (kept limit (runs values))).length = kept limit (runs values) := by
    rw [List.length_take, length_encode, Nat.min_eq_left (kept_le limit _)]
  rw [← kept_eq_min (by omega : 0 < limit)]
  constructor
  · intro encodes
    rw [← length, encodes.length, Nat.min_comm]
  · intro same
    refine ⟨(apart_encode values).take _, ?_, ?_, by rw [length, same, Nat.min_comm]⟩
    · rw [← head_encode]
      cases encoded : encode values with
      | nil => rw [List.take_nil]
      | cons run rest =>
        have nonempty : 0 < runs values := by rw [← length_encode, encoded]; exact Nat.succ_pos _
        obtain ⟨left, remain⟩ : ∃ left, kept limit (runs values) = left + 1 :=
          ⟨_, (Nat.succ_pred_eq_of_pos (kept_pos two nonempty)).symm⟩
        rw [remain, List.take_succ_cons]
        rfl
    · have whole := expand_encode values
      rw [← List.take_append_drop (kept limit (runs values)) (encode values), expand, List.flatMap_append] at whole
      exact ⟨_, whole⟩

-- The values are newest first.
theorem foldr_record_one (values : List α) :
    if leadingChanges values % 2 = 0 then
      ∃ span, values.foldr (fun value history => record 1 history value) [] =
          (values.head?.map fun newest => (newest, span)).toList ∧
        values.head?.toList.flatMap (List.replicate span) <+: values
    else values.foldr (fun value history => record 1 history value) [] = [] := by
  induction values with
  | nil => exact ⟨0, rfl, List.prefix_refl _⟩
  | cons value values ih =>
    cases values with
    | nil => exact ⟨1, rfl, List.prefix_refl _⟩
    | cons older rest =>
      rw [leadingChanges]
      split_ifs at ih with even
      · obtain ⟨span, holds, expands⟩ := ih
        simp only [List.head?_cons, Option.map_some, Option.toList_some] at holds
        simp only [List.head?_cons, Option.toList_some, List.flatMap_singleton] at expands
        rw [List.foldr_cons, holds, record]
        by_cases same : value = older
        · rw [if_pos same, if_pos (rfl : 0 % 2 = 0)]
          refine ⟨span + 1, by rw [if_pos same, same]; rfl, ?_⟩
          rw [List.head?_cons, Option.toList_some, List.flatMap_singleton, List.replicate_succ, same]
          exact List.cons_prefix_cons.mpr ⟨rfl, expands⟩
        · rw [if_neg same, if_neg (by omega), if_neg same]
          rfl
      · rw [List.foldr_cons, ih]
        have filled : ((if value = older then 0 else leadingChanges (older :: rest) + 1) % 2 = 0) := by
          split_ifs <;> omega
        rw [if_pos filled]
        exact ⟨1, rfl, List.cons_prefix_cons.mpr ⟨rfl, List.nil_prefix⟩⟩

theorem encodes_one (values : List α) :
    Encodes 1 values (values.foldl (record 1) []) ↔ changesAtEnd values % 2 = 0 := by
  have steps := foldr_record_one values.reverse
  rw [List.foldr_reverse] at steps
  rw [changesAtEnd]
  cases values using List.reverseRecOn with
  | nil => exact iff_of_true ⟨List.isChain_nil, rfl, List.prefix_refl _, rfl⟩ rfl
  | append_singleton values value =>
    have nonempty : 0 < runs (values ++ [value]) := by
      rw [← length_encode, encode_concat]
      cases encode values with
      | nil => exact Nat.succ_pos _
      | cons run rest =>
        rw [push]
        split_ifs <;> exact Nat.succ_pos _
    rw [List.reverse_concat] at steps ⊢
    split_ifs at steps with even
    · obtain ⟨span, holds, expands⟩ := steps
      rw [holds]
      refine iff_of_true ⟨List.isChain_singleton _, ?_, ?_, ?_⟩ even
      · rw [List.getLast?_concat]
        rfl
      · simpa [expand] using expands
      · rw [Nat.min_eq_left nonempty]
        rfl
    · rw [steps]
      refine iff_of_false (fun encodes => ?_) even
      have length := encodes.length
      rw [Nat.min_eq_left nonempty] at length
      cases length

/-- The pruned history encodes the newest runs just when none that the limit allows has been lost. -/
theorem encodes_iff {limit : Nat} (positive : 0 < limit) (values : List α) :
    Encodes limit values (values.foldl (record limit) []) ↔ Keeps limit values := by
  unfold Keeps
  split_ifs with one
  · subst one
    exact encodes_one values
  · have two : 2 ≤ limit := by omega
    rw [foldl_record two]
    exact encodes_take two values

end Bounded

end RunLength
