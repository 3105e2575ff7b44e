import Mathlib.Data.List.DropRight

set_option autoImplicit false

universe u

/-- A circular buffer. Until it is full its slots are written from the first one on. -/
structure RingBuffer (α : Type u) (limit : Nat) where
  slots : List α
  len : Nat
  pos : Nat
  sized : slots.length = limit
  pos_lt : pos < limit
  len_le : len ≤ limit
  filling : len < limit → pos = len

namespace RingBuffer

variable {α : Type u} {limit : Nat}

def empty (zero : α) (positive : 0 < limit) : RingBuffer α limit where
  slots := List.replicate limit zero
  len := 0
  pos := 0
  sized := List.length_replicate
  pos_lt := positive
  len_le := Nat.zero_le _
  filling _ := rfl

def slot (r : RingBuffer α limit) (k : Nat) : α :=
  r.slots.get ⟨k % limit, Nat.lt_of_lt_of_eq (Nat.mod_lt _ (Nat.zero_lt_of_lt r.pos_lt)) r.sized.symm⟩

def push (r : RingBuffer α limit) (x : α) : RingBuffer α limit where
  slots := r.slots.set r.pos x
  len := if r.len < limit then r.len + 1 else r.len
  pos := (r.pos + 1) % limit
  sized := List.length_set.trans r.sized
  pos_lt := Nat.mod_lt _ (Nat.zero_lt_of_lt r.pos_lt)
  len_le := by
    have bound := r.len_le
    split_ifs <;> omega
  filling room := by
    split_ifs at room ⊢ with fill
    · rw [r.filling fill, Nat.mod_eq_of_lt room]
    · exact absurd room fill

/-- Oldest first. -/
def contents (r : RingBuffer α limit) : List α :=
  if r.len < limit then r.slots.take r.len else r.slots.drop r.pos ++ r.slots.take r.pos

-- The slot that was written last.
def newest (r : RingBuffer α limit) : α := r.slot (r.pos + limit - 1)

theorem contents_empty (zero : α) (positive : 0 < limit) : (empty zero positive).contents = [] := by
  simp [contents, empty, positive]

theorem length_contents (r : RingBuffer α limit) : r.contents.length = r.len := by
  have length := r.sized
  have written := r.pos_lt
  have bound := r.len_le
  unfold contents
  split_ifs
  · rw [List.length_take]
    omega
  · rw [List.length_append, List.length_drop, List.length_take]
    omega

theorem rtake_length_le {items : List α} {n : Nat} (short : items.length ≤ n) : items.rtake n = items := by
  rw [List.rtake, Nat.sub_eq_zero_of_le short, List.drop_zero]

/-- The oldest item makes room for the new one. -/
theorem contents_push (r : RingBuffer α limit) (x : α) : (r.push x).contents = (r.contents ++ [x]).rtake limit := by
  have length := r.sized
  have written := r.pos_lt
  have before : (r.slots.take r.pos).length = r.pos := by
    rw [List.length_take]
    omega
  have after : (r.slots.drop (r.pos + 1)).length = limit - (r.pos + 1) := by
    rw [List.length_drop, length]
  have set : r.slots.set r.pos x = r.slots.take r.pos ++ x :: r.slots.drop (r.pos + 1) := by
    rw [List.set_eq_take_append_cons_drop, if_pos (by omega)]
  have first : (r.slots.set r.pos x).take (r.pos + 1) = r.slots.take r.pos ++ [x] := by
    rw [set, List.take_append, List.take_of_length_le (by omega), before]
    simp
  have last : r.pos + 1 = limit → r.slots.set r.pos x = r.slots.take r.pos ++ [x] := by
    intro full
    rw [set, List.eq_nil_of_length_eq_zero (after.trans (by omega))]
  by_cases room : r.len < limit
  · have next := r.filling room
    have held : (r.contents ++ [x]).rtake limit = r.slots.take r.pos ++ [x] := by
      rw [contents, if_pos room, ← next]
      exact rtake_length_le (by rw [List.length_append, before, List.length_singleton]; omega)
    rw [held, contents]
    simp only [push, if_pos room]
    split_ifs with more
    · rw [← next]
      exact first
    · have wrapped : (r.pos + 1) % limit = 0 := by rw [show r.pos + 1 = limit by omega, Nat.mod_self]
      rw [wrapped, List.drop_zero, List.take_zero, List.append_nil]
      exact last (by omega)
  · have held : (r.contents ++ [x]).rtake limit = r.slots.drop (r.pos + 1) ++ (r.slots.take r.pos ++ [x]) := by
      have oldest := List.drop_eq_getElem_cons (show r.pos < r.slots.length by omega)
      rw [contents, if_neg room, oldest, List.rtake]
      simp only [List.cons_append, List.length_cons, List.length_append, after, before, List.length_nil,
        List.append_assoc]
      rw [show limit - (r.pos + 1) + (r.pos + (0 + 1)) + 1 - limit = 1 by omega]
      rfl
    rw [held, contents]
    simp only [push, if_neg room]
    by_cases inside : r.pos + 1 < limit
    · rw [Nat.mod_eq_of_lt inside, first, set, List.drop_append, List.drop_of_length_le (by omega), before]
      simp
    · have wrapped : (r.pos + 1) % limit = 0 := by rw [show r.pos + 1 = limit by omega, Nat.mod_self]
      rw [wrapped, List.drop_zero, List.take_zero, List.append_nil, last (by omega),
        List.eq_nil_of_length_eq_zero (after.trans (by omega))]
      rfl

theorem newest_eq (r : RingBuffer α limit) : some r.newest = r.slots[if r.pos = 0 then limit - 1 else r.pos - 1]? := by
  have length := r.sized
  have written := r.pos_lt
  have index : (r.pos + limit - 1) % limit = if r.pos = 0 then limit - 1 else r.pos - 1 := by
    split_ifs with first
    · rw [first, Nat.zero_add, Nat.mod_eq_of_lt (by omega)]
    · rw [show r.pos + limit - 1 = r.pos - 1 + limit by omega, Nat.add_mod_right, Nat.mod_eq_of_lt (by omega)]
  rw [← index, List.getElem?_eq_getElem (by rw [length]; exact Nat.mod_lt _ (by omega))]
  rfl

theorem getLast?_contents (r : RingBuffer α limit) : r.contents.getLast? = if r.len = 0 then none else some r.newest := by
  have length := r.sized
  have written := r.pos_lt
  rw [List.getLast?_eq_getElem?, r.length_contents, newest_eq]
  unfold contents
  by_cases room : r.len < limit
  · have next := r.filling room
    rw [if_pos room, ← next]
    by_cases none : r.pos = 0
    · rw [if_pos none, none, List.take_zero, List.getElem?_nil]
    · rw [if_neg none, if_neg none, List.getElem?_take_of_lt (by omega)]
  · have full : r.len = limit := Nat.le_antisymm r.len_le (Nat.le_of_not_lt room)
    rw [if_neg room, full, if_neg (by omega)]
    by_cases first : r.pos = 0
    · rw [if_pos first, first, List.drop_zero, List.take_zero, List.append_nil]
    · rw [if_neg first, List.getElem?_append_right (by rw [List.length_drop]; omega), List.length_drop, length,
        List.getElem?_take_of_lt (by omega)]
      congr 1
      omega

/-- Only the newest items of the past matter to what is held after another one. -/
theorem rtake_rtake_append (past : List α) (x : α) : (past.rtake limit ++ [x]).rtake limit = (past ++ [x]).rtake limit := by
  unfold List.rtake
  rw [List.length_append, List.length_append, List.length_drop, List.length_singleton]
  by_cases short : past.length ≤ limit
  · rw [Nat.sub_eq_zero_of_le short, List.drop_zero, Nat.sub_zero]
  · rw [← List.drop_append_of_le_length (show past.length - limit ≤ past.length by omega), List.drop_drop]
    congr 1
    omega

end RingBuffer
