import Mathlib.Order.Lattice
import TrafficControl.Lib.SearchTree

set_option autoImplicit false

universe u v

namespace SortedMap

variable {κ : Type u} {υ : Type v} [LinearOrder κ]

def probe (key : κ) (entry : κ × υ) : Int :=
  if key < entry.1 then -1 else if entry.1 < key then 1 else 0

@[simp] theorem probe_neg (key : κ) (entry : κ × υ) : probe key entry < 0 ↔ key < entry.1 := by
  unfold probe
  split_ifs <;> simp [*]

@[simp] theorem probe_pos (key : κ) (entry : κ × υ) : 0 < probe key entry ↔ entry.1 < key := by
  unfold probe
  split_ifs with before after
  · simpa using le_of_lt before
  · simpa using after
  · simpa using not_lt.mp after

@[simp] theorem probe_zero (key : κ) (entry : κ × υ) : probe key entry = 0 ↔ key = entry.1 := by
  rw [Int.eq_iff_le_and_ge, ← Int.not_lt, ← Int.not_lt, probe_pos, probe_neg, not_lt, not_lt,
    le_antisymm_iff]

theorem splits {entries : List (κ × υ)} (ascending : entries.Pairwise fun a b => a.1 < b.1) (key : κ) :
    SearchTree.Splits (probe key) entries :=
  SearchTree.splits_of_ordered (fun a b => a.1 < b.1) _ _ ascending
    (fun _ _ order => by simpa using fun before => lt_trans before order)
    (fun _ _ order => by simpa using fun after => lt_trans order after)

/-- How `put` changes the entries: the new pair stands between the smaller and the larger keys, and
takes the place of an old pair with its key. -/
def Placed (before after : List (κ × υ)) (key : κ) (old : List (κ × υ)) : Prop :=
  (∀ entry ∈ before, entry.1 < key) ∧ (∀ entry ∈ after, key < entry.1) ∧
    (old = before ++ after ∨ ∃ value, old = before ++ (key, value) :: after)

theorem toList_put (rebalance : SearchTree.Rebalance (κ × υ)) (key : κ) (value : υ)
    (tree : SearchTree (κ × υ)) (ascending : tree.toList.Pairwise fun a b => a.1 < b.1) :
    ∃ before after, Placed before after key tree.toList ∧
      (rebalance.put (probe key) (key, value) (fun old => (old.1, value)) tree).toList =
        before ++ (key, value) :: after := by
  rw [SearchTree.Rebalance.toList_put]
  by_cases present : ∃ entry ∈ tree.toList, probe key entry = 0
  next =>
    obtain ⟨before, ⟨old, oldValue⟩, after, split, zero, result⟩ :=
      SearchTree.toList_put_present _ (key, value) (fun old => (old.1, value)) tree
        (splits ascending key) present
    obtain rfl : key = old := by simpa using zero
    rw [split] at ascending
    have ⟨_, rest, across⟩ := List.pairwise_append.mp ascending
    exact ⟨before, after, ⟨fun entry member => across entry member (key, oldValue) (by simp),
      (List.pairwise_cons.mp rest).1, Or.inr ⟨oldValue, split⟩⟩, result⟩
  next =>
    obtain ⟨before, after, split, result, low, high⟩ :=
      SearchTree.toList_put_absent _ (key, value) (fun old => (old.1, value)) tree
        (splits ascending key) fun entry member zero => present ⟨entry, member, zero⟩
    exact ⟨before, after, ⟨by simpa using low, by simpa using high, Or.inl split⟩, result⟩

theorem Placed.ascending {before after old : List (κ × υ)} {key : κ} (placed : Placed before after key old)
    (ascending : old.Pairwise fun a b => a.1 < b.1) (value : υ) :
    (before ++ (key, value) :: after).Pairwise fun a b => a.1 < b.1 := by
  obtain ⟨low, high, split⟩ := placed
  have parts : (before ++ after).Pairwise fun a b => a.1 < b.1 := by
    rcases split with rfl | ⟨_, rfl⟩
    · exact ascending
    · exact ascending.sublist ((List.sublist_cons_self _ after).append_left before)
  have ⟨left, right, _⟩ := List.pairwise_append.mp parts
  refine List.pairwise_append.mpr ⟨left, List.pairwise_cons.mpr ⟨high, right⟩, ?_⟩
  intro a inBefore b inRest
  rcases List.mem_cons.mp inRest with rfl | inAfter
  · exact low a inBefore
  · exact lt_trans (low a inBefore) (high b inAfter)

end SortedMap

/-- A search tree of key-value pairs with strictly ascending keys. -/
structure SortedMap (κ : Type u) (υ : Type v) [LinearOrder κ] where
  tree : SearchTree (κ × υ)
  ascending : tree.toList.Pairwise fun a b => a.1 < b.1

namespace SortedMap

variable {κ : Type u} {υ : Type v} [LinearOrder κ]

def empty : SortedMap κ υ := ⟨.leaf, .nil⟩

def entries (map : SortedMap κ υ) : List (κ × υ) := map.tree.toList

def values (map : SortedMap κ υ) : List υ := map.entries.map Prod.snd

def size (map : SortedMap κ υ) : Nat := map.entries.length

def containsKey (map : SortedMap κ υ) (key : κ) : Bool := (map.tree.get (probe key)).isSome

def put (rebalance : SearchTree.Rebalance (κ × υ)) (map : SortedMap κ υ) (key : κ) (value : υ) :
    SortedMap κ υ where
  tree := rebalance.put (probe key) (key, value) (fun old => (old.1, value)) map.tree
  ascending := by
    obtain ⟨before, after, placed, result⟩ := toList_put rebalance key value map.tree map.ascending
    rw [result]
    exact placed.ascending map.ascending value

@[simp] theorem entries_empty : (empty : SortedMap κ υ).entries = [] := rfl

@[simp] theorem containsKey_iff (map : SortedMap κ υ) (key : κ) :
    map.containsKey key ↔ ∃ entry ∈ map.entries, entry.1 = key := by
  have miss := SearchTree.get_eq_none (splits map.ascending key)
  rw [containsKey, Option.isSome_iff_ne_none, Ne, miss]
  simp only [entries, Ne, probe_zero, not_forall, not_not, exists_prop]
  exact exists_congr fun entry => and_congr_right fun _ => eq_comm

theorem entries_put (rebalance : SearchTree.Rebalance (κ × υ)) (map : SortedMap κ υ) (key : κ) (value : υ) :
    ∃ before after, Placed before after key map.entries ∧
      (map.put rebalance key value).entries = before ++ (key, value) :: after :=
  toList_put rebalance key value map.tree map.ascending

theorem head?_le {map : SortedMap κ υ} {first entry : κ × υ} (head : map.entries.head? = some first)
    (member : entry ∈ map.entries) : first.1 ≤ entry.1 := by
  have ascending := map.ascending
  change map.entries.Pairwise _ at ascending
  obtain ⟨rest, list⟩ := List.head?_eq_some_iff.mp head
  rw [list] at ascending member
  rcases List.mem_cons.mp member with rfl | later
  · exact le_refl _
  · exact le_of_lt ((List.pairwise_cons.mp ascending).1 entry later)

theorem mem_values_put (rebalance : SearchTree.Rebalance (κ × υ)) {map : SortedMap κ υ} {key : κ}
    {value other : υ} (member : other ∈ (map.put rebalance key value).values) :
    other = value ∨ other ∈ map.values := by
  obtain ⟨before, after, ⟨_, _, split⟩, result⟩ := entries_put rebalance map key value
  rw [values, result] at member
  rcases split with split | ⟨old, split⟩ <;> rw [values, split] <;> grind

theorem perm_put (rebalance : SearchTree.Rebalance (κ × υ)) {map : SortedMap κ υ} {key : κ}
    (fresh : ¬map.containsKey key) (value : υ) :
    ((map.put rebalance key value).entries).Perm ((key, value) :: map.entries) := by
  obtain ⟨before, after, ⟨_, _, split⟩, result⟩ := entries_put rebalance map key value
  rcases split with split | ⟨old, split⟩
  · rw [split, result]
    exact List.perm_middle
  · exact absurd ((containsKey_iff map key).mpr ⟨(key, old), by simp [split], rfl⟩) fresh

/-- Between smaller and larger keys nothing is replaced. -/
theorem entries_put_between (rebalance : SearchTree.Rebalance (κ × υ)) {map : SortedMap κ υ} {key : κ}
    {before after : List (κ × υ)} (split : map.entries = before ++ after) (low : ∀ entry ∈ before, entry.1 < key)
    (high : ∀ entry ∈ after, key < entry.1) (value : υ) :
    (map.put rebalance key value).entries = before ++ (key, value) :: after := by
  obtain ⟨before', after', ⟨low', high', split'⟩, result⟩ := entries_put rebalance map key value
  rcases split' with split' | ⟨old, split'⟩
  · rw [split] at split'
    have parts : ∀ first second : List (κ × υ), (∀ entry ∈ first, entry.1 < key) → (∀ entry ∈ second, key < entry.1) →
        (first ++ second).filter (fun entry => decide (entry.1 < key)) = first ∧
          (first ++ second).filter (fun entry => decide (key < entry.1)) = second := by
      intro first second smaller larger
      rw [List.filter_append, List.filter_append]
      rw [List.filter_eq_self.mpr fun entry member => decide_eq_true (smaller entry member)]
      rw [List.filter_eq_self.mpr fun entry member => decide_eq_true (larger entry member)]
      rw [List.filter_eq_nil_iff.mpr fun entry member => by simpa using le_of_lt (larger entry member)]
      rw [List.filter_eq_nil_iff.mpr fun entry member => by simpa using le_of_lt (smaller entry member)]
      exact ⟨List.append_nil first, List.nil_append second⟩
    have same := parts before after low high
    rw [split'] at same
    have same' := parts before' after' low' high'
    rw [result, ← same.1, ← same.2, same'.1, same'.2]
  · have member : (key, old) ∈ before ++ after := by
      rw [← split, split']
      exact List.mem_append_right _ List.mem_cons_self
    rcases List.mem_append.mp member with first | second
    · exact absurd (low _ first) (lt_irrefl key)
    · exact absurd (high _ second) (lt_irrefl key)

theorem head?_put (rebalance : SearchTree.Rebalance (κ × υ)) (map : SortedMap κ υ) (key : κ) (value : υ) :
    (map.put rebalance key value).entries.head? = some (match map.entries.head? with
      | none => (key, value)
      | some first => if first.1 < key then first else (key, value)) := by
  obtain ⟨before, after, ⟨low, high, split⟩, result⟩ := entries_put rebalance map key value
  rw [result]
  cases before with
  | nil =>
    rcases split with split | ⟨old, split⟩
    · cases after with
      | nil => simp [split]
      | cons first rest =>
        have notLow : ¬first.1 < key := not_lt.mpr (le_of_lt (high first (by simp)))
        simp [split, notLow]
    · simp [split]
  | cons first rest =>
    have firstLow : first.1 < key := low first (by simp)
    rcases split with split | ⟨old, split⟩ <;> simp [split, firstLow]

end SortedMap
