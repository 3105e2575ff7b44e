import Mathlib.Data.List.Basic

set_option autoImplicit false

namespace PrefixCode

variable {α β : Type} {code : α → List β}

/-- No word of the code starts another one. -/
def PrefixFree (code : α → List β) : Prop :=
  ∀ {a b s t}, code a ++ s = code b ++ t → a = b

theorem PrefixFree.flatMap_injective (free : PrefixFree code) (filled : ∀ a, code a ≠ []) {l l' : List α}
    (same : l.flatMap code = l'.flatMap code) : l = l' := by
  induction l generalizing l' with
  | nil =>
    cases l' with
    | nil => rfl
    | cons b l' => exact absurd (List.append_eq_nil_iff.mp (List.flatMap_cons ▸ same.symm)).1 (filled b)
  | cons a l ih =>
    cases l' with
    | nil => exact absurd (List.append_eq_nil_iff.mp (List.flatMap_cons ▸ same)).1 (filled a)
    | cons b l' =>
      rw [List.flatMap_cons, List.flatMap_cons] at same
      have first := free same
      rw [first] at same ⊢
      rw [ih (List.append_cancel_left same)]

-- A list with an end mark.
def terminated (l : List α) : List (Option α) := l.map some ++ [none]

theorem terminated_ne_nil (l : List α) : terminated l ≠ [] := List.append_ne_nil_of_right_ne_nil _ (List.cons_ne_nil _ _)

theorem terminated_prefixFree : PrefixFree (@terminated α) := by
  intro a b s t same
  unfold terminated at same
  induction a generalizing b with
  | nil =>
    cases b with
    | nil => rfl
    | cons y b => cases (List.cons_eq_cons.mp same).1
  | cons x a ih =>
    cases b with
    | nil => cases (List.cons_eq_cons.mp same).1
    | cons y b =>
      obtain ⟨first, others⟩ := List.cons_eq_cons.mp same
      rw [Option.some.inj first, ih others]

end PrefixCode
