import Mathlib.Data.List.Induction

set_option autoImplicit false

universe u v w

-- Histories that are kept newest first, and cut once they are longer than their limit.
namespace PrunedHistory

variable {α : Type u}

-- A history over its limit loses two entries, not one.
def prune (limit : Nat) (history : List α) : List α :=
  if limit < history.length then history.take (limit - 1) else history

def add (limit : Nat) (history : List α) (item : α) : List α := prune limit (item :: history)

-- How many of `n` items are left.
def kept (limit n : Nat) : Nat := if n ≤ limit then n else limit - (n - limit) % 2

/-- The limit is kept, or was last exceeded an even number of items ago. -/
def Whole (limit n : Nat) : Prop := n ≤ limit ∨ (n - limit) % 2 = 0

instance (limit n : Nat) : Decidable (Whole limit n) := inferInstanceAs (Decidable (_ ∨ _))

variable {limit n : Nat}

theorem kept_le (limit n : Nat) : kept limit n ≤ n := by
  unfold kept
  split_ifs <;> omega

theorem kept_eq_min (positive : 0 < limit) : kept limit n = min n limit ↔ Whole limit n := by
  unfold kept Whole
  split_ifs with within <;> omega

theorem prune_take (positive : 0 < limit) (item : α) {items : List α} (length : items.length = n) :
    prune limit (item :: items.take (kept limit n)) = (item :: items).take (kept limit (n + 1)) := by
  have bound := kept_le limit n
  have count : (items.take (kept limit n)).length = kept limit n := by
    rw [List.length_take, length, Nat.min_eq_left bound]
  unfold prune
  rw [List.length_cons, count, ← List.take_succ_cons]
  split_ifs with full
  · rw [List.take_take]
    congr 1
    unfold kept at full ⊢
    split_ifs at full ⊢ <;> omega
  · congr 1
    unfold kept at full ⊢
    split_ifs at full ⊢ <;> omega

theorem foldl_add (positive : 0 < limit) (items : List α) :
    items.foldl (add limit) [] = items.reverse.take (kept limit items.length) := by
  induction items using List.reverseRecOn with
  | nil => rfl
  | append_singleton items item ih =>
    rw [List.foldl_append, ih, List.reverse_append, List.length_append]
    exact prune_take positive item List.length_reverse

theorem take_kept_iff (positive : 0 < limit) (items : List α) :
    items.take (kept limit items.length) = items.take limit ↔ Whole limit items.length := by
  rw [← kept_eq_min positive]
  constructor
  · intro same
    have lengths := congrArg List.length same
    rw [List.length_take, List.length_take, Nat.min_eq_left (kept_le limit _)] at lengths
    rw [lengths, Nat.min_comm]
  · intro same
    rw [same, Nat.min_comm, ← List.take_take, List.take_length]

theorem foldl_add_newest (positive : 0 < limit) (items : List α) :
    items.foldl (add limit) [] = items.reverse.take limit ↔ Whole limit items.length := by
  rw [foldl_add positive, ← List.length_reverse]
  exact take_kept_iff positive items.reverse

section Keyed

variable {β : Type v} {κ : Type w} [DecidableEq κ] (key : β → κ) (item : β → α) (limits : κ → Nat)

def addKeyed (histories : κ → List α) (b : β) : κ → List α :=
  Function.update histories (key b) (add (limits (key b)) (histories (key b)) (item b))

theorem foldl_addKeyed (histories : κ → List α) (bs : List β) (k : κ) :
    bs.foldl (addKeyed key item limits) histories k =
      ((bs.filter fun b => key b = k).map item).foldl (add (limits k)) (histories k) := by
  induction bs generalizing histories with
  | nil => rfl
  | cons b bs ih =>
    rw [List.foldl_cons, ih, addKeyed]
    by_cases same : key b = k
    · subst same
      rw [Function.update_self, List.filter_cons_of_pos (by simp)]
      rfl
    · rw [Function.update_of_ne (Ne.symm same), List.filter_cons_of_neg (by simpa using same)]

end Keyed

end PrunedHistory
