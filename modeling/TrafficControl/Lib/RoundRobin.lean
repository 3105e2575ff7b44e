import Mathlib.Data.Int.CardIntervalMod
import Mathlib.Data.List.Nodup

set_option autoImplicit false

universe u

-- Taking turns by the numbers of one counter.
namespace RoundRobin

variable {α : Type u} {items : List α} {a b : α}

def pick (items : List α) (ticket : Nat) : Option α := items[ticket % items.length]?

theorem pick_mem {ticket : Nat} (picked : pick items ticket = some a) : a ∈ items := List.mem_of_getElem? picked

theorem pick_isSome (some_ : items ≠ []) (ticket : Nat) : (pick items ticket).isSome = true := by
  rw [pick, isSome_getElem?]
  exact Nat.mod_lt _ (List.length_pos_iff.mpr some_)

/-- What the tickets after `start` pick, so many of them. -/
def turns (items : List α) (start n : Nat) : List α := (List.range n).filterMap fun i => pick items (start + 1 + i)

/-- With distinct items, the tickets of an item are those of one residue. -/
theorem exists_residue (distinct : items.Nodup) (member : a ∈ items) (start : Nat) :
    ∃ v, ∀ i, pick items (start + 1 + i) = some a ↔ i ≡ v [MOD items.length] := by
  obtain ⟨j, less, own⟩ := List.mem_iff_getElem.mp member
  have positive : 0 < items.length := Nat.lt_of_le_of_lt (Nat.zero_le j) less
  refine ⟨j + (items.length - (start + 1) % items.length), fun i => ?_⟩
  have index : pick items (start + 1 + i) = some a ↔ (start + 1 + i) % items.length = j := by
    rw [pick, List.getElem?_eq_getElem (Nat.mod_lt _ positive), Option.some_inj, ← own]
    exact distinct.getElem_inj_iff
  have shifted : (start + 1) % items.length + (items.length - (start + 1) % items.length) = items.length :=
    Nat.add_sub_cancel' (Nat.mod_lt _ positive).le
  have whole : start + 1 + (items.length - (start + 1) % items.length) ≡ 0 [MOD items.length] := by
    have next := (Nat.mod_modEq (start + 1) items.length).symm.add_right (items.length - (start + 1) % items.length)
    rw [shifted] at next
    exact next.trans (Nat.modEq_zero_iff_dvd.mpr (dvd_refl _))
  rw [index]
  constructor
  · intro same
    have cong : j ≡ start + 1 + i [MOD items.length] := by
      unfold Nat.ModEq
      rw [same, Nat.mod_eq_of_lt less]
    have next := cong.add_right (items.length - (start + 1) % items.length)
    have regroup : start + 1 + i + (items.length - (start + 1) % items.length) = i + (start + 1 + (items.length - (start + 1) % items.length)) := by omega
    rw [regroup] at next
    exact (next.trans (whole.add_left i)).symm
  · intro cong
    have next := cong.add_left (start + 1)
    have regroup : start + 1 + (j + (items.length - (start + 1) % items.length)) = j + (start + 1 + (items.length - (start + 1) % items.length)) := by omega
    rw [regroup] at next
    exact (Nat.mod_eq_of_modEq (next.trans (whole.add_left j)) less)

section Counts

variable [DecidableEq α]

theorem count_filterMap_range (f : Nat → Option α) (n : Nat) : ((List.range n).filterMap f).count a = n.count fun i => f i = some a := by
  induction n with
  | zero => rfl
  | succ n ih =>
    rw [List.range_succ, List.filterMap_append, List.count_append, ih, Nat.count_succ]
    cases turn : f n with
    | none => simp [turn]
    | some b => by_cases same : b = a <;> simp [turn, same]

theorem exists_count_turns (distinct : items.Nodup) (member : a ∈ items) (start n : Nat) :
    ∃ v, (turns items start n).count a = n / items.length + if v % items.length < n % items.length then 1 else 0 := by
  have positive : 0 < items.length := List.length_pos_iff.mpr (List.ne_nil_of_mem member)
  obtain ⟨v, residue⟩ := exists_residue distinct member start
  refine ⟨v, ?_⟩
  rw [turns, count_filterMap_range, ← Nat.count_modEq_card n positive v]
  simp only [residue]

/-- No item has more than one turn more than another. -/
theorem count_turns_le (distinct : items.Nodup) (own : a ∈ items) (other : b ∈ items) (start n : Nat) :
    (turns items start n).count a ≤ (turns items start n).count b + 1 := by
  obtain ⟨v, first⟩ := exists_count_turns distinct own start n
  obtain ⟨w, second⟩ := exists_count_turns distinct other start n
  rw [first, second]
  split_ifs <;> omega

/-- In as many turns as there are items, each has one. -/
theorem count_turns_length (distinct : items.Nodup) (own : a ∈ items) (start : Nat) : (turns items start items.length).count a = 1 := by
  have positive : 0 < items.length := List.length_pos_iff.mpr (List.ne_nil_of_mem own)
  obtain ⟨v, count⟩ := exists_count_turns distinct own start items.length
  rw [count, Nat.div_self positive, Nat.mod_self, if_neg (Nat.not_lt_zero _)]

end Counts

section Counter

variable {w : Nat} {tickets : List (BitVec w)}

-- The numbers that a counter of so many bits gives, one after the other.
def numbers (w n : Nat) : List (BitVec w) := (List.range n).map fun i => BitVec.ofNat w (i + 1)

/-- All numbers of the counter up to now have been given out, each to one. -/
def Dispensed (tickets : List (BitVec w)) : Prop := tickets.Perm (numbers w tickets.length)

theorem dispensed_nil : Dispensed ([] : List (BitVec w)) := List.Perm.refl []

theorem Dispensed.next (dispensed : Dispensed tickets) : Dispensed ((BitVec.ofNat w tickets.length + 1) :: tickets) := by
  have last : numbers w (tickets.length + 1) = numbers w tickets.length ++ [BitVec.ofNat w tickets.length + 1] := by
    rw [numbers, List.range_succ, List.map_append, List.map_singleton, BitVec.ofNat_add]
    rfl
  unfold Dispensed
  rw [List.length_cons, last]
  exact (dispensed.cons _).trans (List.perm_append_singleton _ _).symm

theorem Dispensed.perm {others : List (BitVec w)} (dispensed : Dispensed tickets) (same : others.Perm tickets) : Dispensed others := by
  unfold Dispensed
  rw [same.length_eq]
  exact same.trans dispensed

/-- As long as the counter does not wrap, those who hold the tickets take turns. -/
theorem Dispensed.turns (dispensed : Dispensed tickets) (few : tickets.length < 2 ^ w) (items : List α) :
    (tickets.filterMap fun ticket => pick items ticket.toNat).Perm (turns items 0 tickets.length) := by
  have same : (numbers w tickets.length).filterMap (fun ticket => pick items ticket.toNat) = RoundRobin.turns items 0 tickets.length := by
    rw [numbers, List.filterMap_map]
    refine List.filterMap_congr fun i member => ?_
    have small : i + 1 < 2 ^ w := Nat.lt_of_le_of_lt (List.mem_range.mp member) few
    rw [Function.comp_apply, BitVec.toNat_ofNat, Nat.mod_eq_of_lt small, Nat.zero_add, Nat.add_comm]
  rw [← same]
  exact List.Perm.filterMap _ dispensed

theorem Dispensed.balanced [DecidableEq α] (dispensed : Dispensed tickets) (few : tickets.length < 2 ^ w) (distinct : items.Nodup) (own : a ∈ items)
    (other : b ∈ items) : (tickets.filterMap fun ticket => pick items ticket.toNat).count a ≤
      (tickets.filterMap fun ticket => pick items ticket.toNat).count b + 1 := by
  rw [(dispensed.turns few items).count_eq, (dispensed.turns few items).count_eq]
  exact count_turns_le distinct own other 0 _

end Counter

end RoundRobin
