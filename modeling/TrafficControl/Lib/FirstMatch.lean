import Mathlib.Data.List.Basic

set_option autoImplicit false

universe u

namespace FirstMatch

variable {α : Type u} {P Q : α → Prop} {l : List α} {a b : α}

/-- The first element of a list with a property. -/
def IsFirst (P : α → Prop) (l : List α) (a : α) : Prop :=
  ∃ before after, l = before ++ a :: after ∧ P a ∧ ∀ b ∈ before, ¬ P b

theorem IsFirst.holds (first : IsFirst P l a) : P a := by
  obtain ⟨_, _, _, holds, _⟩ := first
  exact holds

theorem IsFirst.mem (first : IsFirst P l a) : a ∈ l := by
  obtain ⟨before, after, rfl, _, _⟩ := first
  exact List.mem_append_right _ List.mem_cons_self

theorem isFirst_cons : IsFirst P (b :: l) a ↔ P b ∧ a = b ∨ ¬ P b ∧ IsFirst P l a := by
  constructor
  · rintro ⟨before, after, split, holds, none⟩
    cases before with
    | nil =>
      obtain ⟨rfl, rfl⟩ := List.cons.inj split
      exact Or.inl ⟨holds, rfl⟩
    | cons c before =>
      obtain ⟨rfl, rfl⟩ := List.cons.inj split
      obtain ⟨not, others⟩ := List.forall_mem_cons.mp none
      exact Or.inr ⟨not, before, after, rfl, holds, others⟩
  · rintro (⟨holds, rfl⟩ | ⟨not, before, after, rfl, holds, none⟩)
    · exact ⟨[], l, rfl, holds, fun _ member => absurd member List.not_mem_nil⟩
    · exact ⟨b :: before, after, rfl, holds, List.forall_mem_cons.mpr ⟨not, none⟩⟩

theorem exists_isFirst (exist : ∃ a ∈ l, P a) : ∃ a, IsFirst P l a := by
  induction l with
  | nil =>
    obtain ⟨a, member, _⟩ := exist
    cases member
  | cons b l ih =>
    by_cases holds : P b
    · exact ⟨b, isFirst_cons.mpr (Or.inl ⟨holds, rfl⟩)⟩
    · obtain ⟨a, member, own⟩ := exist
      have later : a ∈ l := (List.mem_cons.mp member).resolve_left fun same => holds (same ▸ own)
      obtain ⟨c, first⟩ := ih ⟨a, later, own⟩
      exact ⟨c, isFirst_cons.mpr (Or.inr ⟨holds, first⟩)⟩

theorem IsFirst.unique (first : IsFirst P l a) (other : IsFirst P l b) : a = b := by
  induction l with
  | nil => cases first.mem
  | cons c l ih =>
    rcases isFirst_cons.mp first with ⟨holds, rfl⟩ | ⟨not, first⟩
    · rcases isFirst_cons.mp other with ⟨_, rfl⟩ | ⟨not, _⟩
      · rfl
      · exact absurd holds not
    · rcases isFirst_cons.mp other with ⟨holds, _⟩ | ⟨_, other⟩
      · exact absurd holds not
      · exact ih first other

/-- What is first for a wider property is first for the narrower one if it has that. -/
theorem IsFirst.narrow (first : IsFirst Q l a) (wider : ∀ b ∈ l, P b → Q b) (holds : P a) : IsFirst P l a := by
  obtain ⟨before, after, rfl, _, none⟩ := first
  exact ⟨before, after, rfl, holds, fun b member own =>
    none b member (wider b (List.mem_append_left _ member) own)⟩

theorem isFirst_filter {q : α → Bool} : IsFirst P (l.filter q) a ↔ IsFirst (fun b => q b = true ∧ P b) l a := by
  induction l with
  | nil =>
    constructor <;>
    · intro first
      cases first.mem
  | cons b l ih =>
    by_cases kept : q b = true
    · rw [List.filter_cons_of_pos kept, isFirst_cons, isFirst_cons, ih]
      simp [kept]
    · rw [List.filter_cons_of_neg kept, isFirst_cons, ih]
      simp [kept]

end FirstMatch
