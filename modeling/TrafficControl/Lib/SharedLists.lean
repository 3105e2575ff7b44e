import Mathlib.Data.List.Perm.Basic
import Mathlib.Logic.Function.Basic

set_option autoImplicit false

universe u v

-- Lists that are reached through references, some of them through several.
namespace SharedLists

variable {ι : Type u} {α : Type v} [DecidableEq ι] [DecidableEq α]

/-- What all references together reach. -/
def held (heap : ι → List α) (refs : List ι) : List α := refs.flatMap heap

variable {heap : ι → List α} {refs : List ι}

omit [DecidableEq ι] [DecidableEq α] in
theorem held_perm {refs' : List ι} (same : refs.Perm refs') : (held heap refs).Perm (held heap refs') :=
  same.flatMap_right heap

omit [DecidableEq ι] in
theorem count_held (refs refs' : List ι) (x : α) :
    (held heap (refs ++ refs')).count x = (held heap refs).count x + (held heap refs').count x := by
  rw [held, List.flatMap_append, List.count_append, held, held]

omit [DecidableEq α] in
theorem held_update {i : ι} (unreached : i ∉ refs) (list : List α) : held (Function.update heap i list) refs = held heap refs := by
  unfold held
  induction refs with
  | nil => rfl
  | cons j refs ih =>
    obtain ⟨other, unreached⟩ := not_or.mp (mt List.mem_cons.mpr unreached)
    rw [List.flatMap_cons, List.flatMap_cons, ih unreached, Function.update_of_ne (Ne.symm other)]

/-- What is appended to a list counts once for each reference to it. -/
theorem count_held_append (i : ι) (added : List α) (x : α) :
    (held (Function.update heap i (heap i ++ added)) refs).count x =
      (held heap refs).count x + refs.count i * added.count x := by
  unfold held
  induction refs with
  | nil => simp
  | cons j refs ih =>
    rw [List.flatMap_cons, List.flatMap_cons, List.count_append, List.count_append, ih, List.count_cons]
    by_cases same : j = i
    · subst same
      rw [Function.update_self, List.count_append, beq_self_eq_true, if_pos rfl, Nat.add_mul, Nat.one_mul]
      omega
    · rw [Function.update_of_ne same, if_neg (by simpa using same), Nat.add_zero]
      omega

theorem count_mul_le_held (i : ι) (x : α) : refs.count i * (heap i).count x ≤ (held heap refs).count x := by
  unfold held
  induction refs with
  | nil => simp
  | cons j refs ih =>
    rw [List.flatMap_cons, List.count_append, List.count_cons]
    by_cases same : j = i
    · subst same
      rw [beq_self_eq_true, if_pos rfl, Nat.add_mul, Nat.one_mul]
      omega
    · rw [if_neg (by simpa using same), Nat.add_zero]
      omega

end SharedLists
