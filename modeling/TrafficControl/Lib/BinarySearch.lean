import Mathlib.Order.Lattice
import Mathlib.Data.List.Basic

set_option autoImplicit false

universe u

namespace BinarySearch

variable {α : Type u} [LinearOrder α]

-- The half-open window `[low, high)`. The counter only has to reach the window's length.
def searchFrom (numbers : List α) (key : α) : Nat → Nat → Nat → Except Nat Nat
  | 0, low, _ => .error low
  | steps + 1, low, high =>
    if low < high then
      let mid := (low + (high - 1)) / 2
      match numbers[mid]? with
      | none => .error low
      | some value =>
        if value < key then searchFrom numbers key steps (mid + 1) high
        else if key < value then searchFrom numbers key steps low mid
        else .ok mid
    else .error low

/-- The position of a found key, or else the position where it would have to be inserted. -/
def search (numbers : List α) (key : α) : Except Nat Nat :=
  searchFrom numbers key numbers.length 0 numbers.length

def Answers (numbers : List α) (key : α) : Except Nat Nat → Prop
  | .ok index => numbers[index]? = some key
  | .error insertion => insertion ≤ numbers.length ∧
      ∀ (i : Nat) (bound : i < numbers.length),
        (i < insertion → numbers[i] < key) ∧ (insertion ≤ i → key < numbers[i])

theorem getElem_le {numbers : List α} (sorted : numbers.Pairwise (· ≤ ·)) {i j : Nat}
    (order : i ≤ j) (bound : j < numbers.length) : numbers[i] ≤ numbers[j] := by
  rcases Nat.lt_or_eq_of_le order with before | rfl
  · exact List.pairwise_iff_getElem.mp sorted i j (by omega) bound before
  · exact le_refl _

theorem searchFrom_answers {numbers : List α} (sorted : numbers.Pairwise (· ≤ ·)) (key : α)
    (steps low high : Nat) (enough : high - low ≤ steps) (inside : low ≤ high ∧ high ≤ numbers.length)
    (outside : ∀ (i : Nat) (bound : i < numbers.length),
      (i < low → numbers[i] < key) ∧ (high ≤ i → key < numbers[i])) :
    Answers numbers key (searchFrom numbers key steps low high) := by
  induction steps generalizing low high with
  | zero =>
    obtain rfl : low = high := by omega
    exact ⟨inside.2, outside⟩
  | succ steps ih =>
    rw [searchFrom]
    split_ifs with window
    · have bound : (low + (high - 1)) / 2 < numbers.length := by omega
      simp only [List.getElem?_eq_getElem bound]
      split_ifs with before after
      · refine ih _ _ (by omega) (by omega) fun i inList => ⟨fun low => ?_, (outside i inList).2⟩
        exact lt_of_le_of_lt (getElem_le sorted (by omega) bound) before
      · refine ih _ _ (by omega) (by omega) fun i inList => ⟨(outside i inList).1, fun high => ?_⟩
        exact lt_of_lt_of_le after (getElem_le sorted high inList)
      · rw [Answers, List.getElem?_eq_getElem bound]
        exact congrArg some (le_antisymm (not_lt.mp after) (not_lt.mp before))
    · obtain rfl : low = high := by omega
      exact ⟨inside.2, outside⟩

/-- On a sorted list a hit is an occurrence of the key, and a miss separates the smaller numbers
from the larger ones. -/
theorem search_answers {numbers : List α} (sorted : numbers.Pairwise (· ≤ ·)) (key : α) :
    Answers numbers key (search numbers key) :=
  searchFrom_answers sorted key _ _ _ (by omega) (by omega)
    fun i bound => ⟨fun low => absurd low (by omega), fun high => absurd high (by omega)⟩

section First

-- The counter only has to reach the window's length.
def firstFrom (f : Nat → Bool) : Nat → Nat → Nat → Nat
  | 0, i, _ => i
  | steps + 1, i, j =>
    if i < j then
      let h := (i + j) / 2
      if !f h then firstFrom f steps (h + 1) j else firstFrom f steps i h
    else i

/-- The first index below `n` at which `f` holds, or else `n`. -/
def first (n : Nat) (f : Nat → Bool) : Nat := firstFrom f n 0 n

structure IsFirst (n : Nat) (f : Nat → Bool) (i : Nat) : Prop where
  within : i ≤ n
  before : ∀ k < i, f k = false
  holds : i < n → f i = true

theorem firstFrom_isFirst {n : Nat} {f : Nat → Bool} (monotone : ∀ k l, k ≤ l → l < n → f k = true → f l = true)
    (steps i j : Nat) (enough : j - i ≤ steps) (inside : i ≤ j ∧ j ≤ n) (before : ∀ k < i, f k = false)
    (holds : j < n → f j = true) : IsFirst n f (firstFrom f steps i j) := by
  induction steps generalizing i j with
  | zero =>
    obtain rfl : i = j := by omega
    exact ⟨inside.2, before, holds⟩
  | succ steps ih =>
    rw [firstFrom]
    by_cases window : i < j
    · rw [if_pos window]
      dsimp only
      cases middle : f ((i + j) / 2) with
      | true =>
        rw [if_neg (by simp)]
        exact ih _ _ (by omega) (by omega) before fun _ => middle
      | false =>
        rw [if_pos (by simp)]
        refine ih _ _ (by omega) (by omega) (fun k low => ?_) holds
        rw [Bool.eq_false_iff]
        intro early
        rw [monotone k ((i + j) / 2) (by omega) (by omega) early] at middle
        cases middle
    · rw [if_neg window]
      obtain rfl : i = j := by omega
      exact ⟨inside.2, before, holds⟩

theorem first_isFirst {n : Nat} {f : Nat → Bool} (monotone : ∀ k l, k ≤ l → l < n → f k = true → f l = true) :
    IsFirst n f (first n f) :=
  firstFrom_isFirst monotone n 0 n (by omega) (by omega) (fun _ low => absurd low (Nat.not_lt_zero _))
    fun impossible => absurd impossible (Nat.lt_irrefl n)

variable {numbers : List α} (sorted : numbers.Pairwise (· ≤ ·)) (key : α)

-- Whether the number at an index is not smaller than the key.
def reaches (numbers : List α) (key : α) (i : Nat) : Bool := (numbers[i]?).any fun value => decide (key ≤ value)

include sorted in
theorem first_reaches : IsFirst numbers.length (reaches numbers key) (first numbers.length (reaches numbers key)) := by
  apply first_isFirst
  intro k l order bound holds
  unfold reaches at holds ⊢
  rw [List.getElem?_eq_getElem (by omega)] at holds
  rw [List.getElem?_eq_getElem bound]
  simp only [Option.any_some, decide_eq_true_eq] at holds ⊢
  exact le_trans holds (getElem_le sorted order bound)

include sorted in
/-- From the first index on stand the numbers that are not smaller than the key. -/
theorem drop_first :
    numbers.drop (first numbers.length (reaches numbers key)) = numbers.filter fun value => decide (key ≤ value) := by
  have spec := first_reaches sorted key
  generalize first numbers.length (reaches numbers key) = i at spec ⊢
  have before : (numbers.take i).filter (fun value => decide (key ≤ value)) = [] := by
    rw [List.filter_eq_nil_iff]
    intro value member
    obtain ⟨k, bound, rfl⟩ := List.getElem_of_mem member
    rw [List.length_take] at bound
    have low := spec.before k (by omega)
    rw [reaches, List.getElem?_eq_getElem (by omega)] at low
    rw [List.getElem_take]
    simpa using low
  have after : (numbers.drop i).filter (fun value => decide (key ≤ value)) = numbers.drop i := by
    rw [List.filter_eq_self]
    intro value member
    obtain ⟨k, bound, rfl⟩ := List.getElem_of_mem member
    rw [List.length_drop] at bound
    have high := spec.holds (by omega)
    rw [reaches, List.getElem?_eq_getElem (by omega)] at high
    simp only [Option.any_some, decide_eq_true_eq] at high
    rw [List.getElem_drop]
    exact decide_eq_true (le_trans high (getElem_le sorted (by omega) _))
  calc numbers.drop i = (numbers.take i ++ numbers.drop i).filter fun value => decide (key ≤ value) := by
        rw [List.filter_append, before, after, List.nil_append]
    _ = _ := by rw [List.take_append_drop]

theorem takeWhile_below {numbers : List α} (sorted : numbers.Pairwise (· ≤ ·)) (limit : α) :
    (numbers.takeWhile fun value => decide (value < limit)) = numbers.filter fun value => decide (value < limit) := by
  induction sorted with
  | nil => rfl
  | @cons value numbers least _ ih =>
    by_cases below : value < limit
    · simp only [List.takeWhile_cons, List.filter_cons, below, decide_true, if_true, ih]
    · have none : (value :: numbers).filter (fun value => decide (value < limit)) = [] := by
        rw [List.filter_eq_nil_iff]
        intro other member low
        rcases List.mem_cons.mp member with rfl | later
        · exact below (of_decide_eq_true low)
        · exact below (lt_of_le_of_lt (least other later) (of_decide_eq_true low))
      rw [List.takeWhile_cons_of_neg (by simpa using below), none]

include sorted in
/-- On a sorted list a member is found where it would have to be. -/
theorem getElem?_first :
    numbers[first numbers.length fun i => (numbers[i]?).any fun value => decide (key ≤ value)]? = some key ↔
      key ∈ numbers := by
  refine ⟨fun found => List.mem_of_getElem? found, fun member => ?_⟩
  have spec : IsFirst numbers.length (fun i => (numbers[i]?).any fun value => decide (key ≤ value))
      (first numbers.length fun i => (numbers[i]?).any fun value => decide (key ≤ value)) := first_reaches sorted key
  generalize first numbers.length _ = i at spec ⊢
  obtain ⟨k, bound, rfl⟩ := List.getElem_of_mem member
  have early : i ≤ k := by
    by_contra later
    have wrong := spec.before k (by omega)
    rw [List.getElem?_eq_getElem bound] at wrong
    simp at wrong
  have reached := spec.holds (by omega)
  have inside : i < numbers.length := by omega
  rw [List.getElem?_eq_getElem inside] at reached ⊢
  simp only [Option.any_some, decide_eq_true_eq] at reached
  exact congrArg some (le_antisymm (getElem_le sorted early bound) reached)

end First

end BinarySearch
