import Mathlib.Data.List.Infix
import Mathlib.Order.Defs.Unbundled

set_option autoImplicit false

universe u

-- Comparisons that tell the order of two values by the sign of an integer.
namespace Lexicographic

variable {α : Type u} {compare : α → α → Int}

structure Comparator (compare : α → α → Int) : Prop where
  zero : ∀ a b, compare a b = 0 ↔ a = b
  swap : ∀ a b, compare a b < 0 ↔ 0 < compare b a
  trans : ∀ a b c, compare a b < 0 → compare b c < 0 → compare a c < 0

namespace Comparator

variable (comparator : Comparator compare) {a b c : α}

include comparator

theorem refl (a : α) : compare a a = 0 := (comparator.zero a a).mpr rfl

theorem le_iff : compare a b ≤ 0 ↔ a = b ∨ compare a b < 0 := by
  rw [← comparator.zero a b]
  omega

theorem total (a b : α) : compare a b ≤ 0 ∨ compare b a ≤ 0 := by
  have swap := comparator.swap b a
  omega

theorem le_trans (first : compare a b ≤ 0) (second : compare b c ≤ 0) : compare a c ≤ 0 := by
  rcases comparator.le_iff.mp first with rfl | before
  · exact second
  · rcases comparator.le_iff.mp second with rfl | before'
    · exact first
    · exact Int.le_of_lt (comparator.trans a b c before before')

theorem lt_of_lt_of_le (first : compare a b < 0) (second : compare b c ≤ 0) : compare a c < 0 := by
  rcases comparator.le_iff.mp second with rfl | before
  · exact first
  · exact comparator.trans a b c first before

theorem lt_of_le_of_lt (first : compare a b ≤ 0) (second : compare b c < 0) : compare a c < 0 := by
  rcases comparator.le_iff.mp first with rfl | before
  · exact second
  · exact comparator.trans a b c before second

theorem not_lt : ¬compare a b < 0 ↔ compare b a ≤ 0 := by
  have swap := comparator.swap a b
  omega

end Comparator

section Lists

variable [DecidableEq α]

/-- The first difference decides, and a list comes before the longer ones that it begins. -/
def compareLists (compare : α → α → Int) : List α → List α → Int
  | [], [] => 0
  | [], _ :: _ => -1
  | _ :: _, [] => 1
  | a :: left, b :: right => if a = b then compareLists compare left right else compare a b

theorem compareLists_append (left : List α) {rest : List α} (more : rest ≠ []) :
    compareLists compare left (left ++ rest) < 0 := by
  induction left with
  | nil =>
    obtain ⟨a, rest, rfl⟩ := List.exists_cons_of_ne_nil more
    exact Int.negSucc_lt_zero 0
  | cons a left ih =>
    rw [List.cons_append, compareLists, if_pos rfl]
    exact ih

theorem Comparator.compareLists (comparator : Comparator compare) : Comparator (compareLists compare) where
  zero left right := by
    induction left generalizing right with
    | nil => cases right <;> simp [Lexicographic.compareLists]
    | cons a left ih =>
      cases right with
      | nil => simp [Lexicographic.compareLists]
      | cons b right =>
        rw [Lexicographic.compareLists]
        split_ifs with same
        · rw [ih, same]
          simp
        · rw [comparator.zero]
          simp [same]
  swap left right := by
    induction left generalizing right with
    | nil => cases right <;> simp [Lexicographic.compareLists]
    | cons a left ih =>
      cases right with
      | nil => simp [Lexicographic.compareLists]
      | cons b right =>
        rw [Lexicographic.compareLists, Lexicographic.compareLists]
        by_cases same : a = b
        · rw [if_pos same, if_pos same.symm]
          exact ih right
        · rw [if_neg same, if_neg (Ne.symm same)]
          exact comparator.swap a b
  trans first second third before after := by
    induction first generalizing second third with
    | nil =>
      cases third with
      | nil => cases second <;> simp [Lexicographic.compareLists] at before after
      | cons c third => exact Int.negSucc_lt_zero 0
    | cons a first ih =>
      rcases second with _ | ⟨b, second⟩
      · simp [Lexicographic.compareLists] at before
      rcases third with _ | ⟨c, third⟩
      · simp [Lexicographic.compareLists] at after
      rw [Lexicographic.compareLists] at before after ⊢
      by_cases ab : a = b
      · subst ab
        rw [if_pos rfl] at before
        by_cases ac : a = c
        · rw [if_pos ac] at after ⊢
          exact ih second third before after
        · rw [if_neg ac] at after ⊢
          exact after
      · rw [if_neg ab] at before
        by_cases bc : b = c
        · subst bc
          rw [if_neg ab]
          exact before
        · rw [if_neg bc] at after
          have between := comparator.trans a b c before after
          have apart : a ≠ c := fun same => by
            rw [(comparator.zero a c).mpr same] at between
            exact absurd between (Int.lt_irrefl 0)
          rw [if_neg apart]
          exact between

end Lists

/-- Numbers are compared by their difference. -/
theorem comparator_sub {number : α → Int} (injective : Function.Injective number) :
    Comparator fun a b => number a - number b where
  zero a b := ⟨fun zero => injective (by omega), fun same => by rw [same]; omega⟩
  swap a b := by omega
  trans a b c before after := by omega

end Lexicographic
