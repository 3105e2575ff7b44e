import Mathlib.Data.List.DropRight

set_option autoImplicit false

universe u

-- Texts without the letters of a set at their ends.
namespace Trim

variable {α : Type u} (cut : α → Bool)

def trim (s : List α) : List α := (s.dropWhile cut).rdropWhile cut

/-- What stands at an end and belongs to the set does not matter. -/
theorem trim_wrapped {front back : List α} (before : ∀ c ∈ front, cut c = true) (after : ∀ c ∈ back, cut c = true) (s : List α) :
    trim cut (front ++ (s ++ back)) = trim cut s := by
  have right : ∀ s : List α, (s ++ back).rdropWhile cut = s.rdropWhile cut := by
    intro s
    unfold List.rdropWhile
    rw [List.reverse_append, List.dropWhile_append_of_pos (by simpa using after)]
  unfold trim
  rw [List.dropWhile_append_of_pos before, List.dropWhile_append]
  split
  · next inside =>
    rw [List.dropWhile_eq_nil_iff.mpr after, List.isEmpty_iff.mp inside]
  · exact right _

theorem trim_length_le (s : List α) : (trim cut s).length ≤ s.length :=
  (List.rdropWhile_prefix cut _).length_le.trans (List.dropWhile_suffix cut).length_le

/-- A text stays as it is if neither of its ends is of the set. -/
theorem trim_eq_self_iff (s : List α) : trim cut s = s ↔ s.head?.any cut = false ∧ s.getLast?.any cut = false := by
  have left : s.dropWhile cut = s ↔ s.head?.any cut = false := by
    cases s with
    | nil => simp
    | cons c s => simp [List.dropWhile_eq_self_iff]
  have right : s.rdropWhile cut = s ↔ s.getLast?.any cut = false := by
    rw [List.rdropWhile_eq_self_iff]
    cases s with
    | nil => simp
    | cons c s => simp [List.getLast?_eq_some_getLast (List.cons_ne_nil c s)]
  rw [← left, ← right]
  constructor
  · intro whole
    have longest : s.length ≤ (s.dropWhile cut).length := by
      calc s.length = (trim cut s).length := by rw [whole]
        _ ≤ (s.dropWhile cut).length := (List.rdropWhile_prefix cut _).length_le
    have first : s.dropWhile cut = s := (List.dropWhile_suffix cut).eq_of_length_le longest
    rw [trim, first] at whole
    exact ⟨first, whole⟩
  · rintro ⟨first, last⟩
    rw [trim, first, last]

end Trim
