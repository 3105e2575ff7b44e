import Mathlib.Data.List.Induction

set_option autoImplicit false

universe u

-- Collections that take an element only if it clashes with none taken before.
namespace FirstCome

variable {α : Type u} (clashes : α → α → Prop) [DecidableRel clashes]

def take (kept : List α) (a : α) : List α := if ∃ k ∈ kept, clashes k a then kept else kept ++ [a]

def keep (list : List α) : List α := list.foldl (take clashes) []

theorem keep_concat (list : List α) (a : α) : keep clashes (list ++ [a]) = take clashes (keep clashes list) a := by
  simp [keep]

variable {clashes}

theorem mem_take {kept : List α} {a b : α} :
    b ∈ take clashes kept a ↔ b ∈ kept ∨ b = a ∧ ∀ k ∈ kept, ¬clashes k a := by
  unfold take
  split_ifs with met
  · obtain ⟨k, member, clash⟩ := met
    exact ⟨Or.inl, fun held => held.resolve_right fun fresh => fresh.2 k member clash⟩
  · have free : ∀ k ∈ kept, ¬clashes k a := fun k member clash => met ⟨k, member, clash⟩
    rw [List.mem_append, List.mem_singleton, and_iff_left free]

theorem mem_keep_append {before : List α} {k : α} (kept : k ∈ keep clashes before) (after : List α) :
    k ∈ keep clashes (before ++ after) := by
  induction after using List.reverseRecOn with
  | nil => simpa using kept
  | append_singleton after a ih =>
    rw [← List.append_assoc, keep_concat, mem_take]
    exact Or.inl ih

theorem mem_of_mem_keep {list : List α} {k : α} (kept : k ∈ keep clashes list) : k ∈ list := by
  induction list using List.reverseRecOn with
  | nil => exact kept
  | append_singleton list a ih =>
    rcases mem_take.mp (keep_concat clashes list a ▸ kept) with earlier | ⟨rfl, _⟩
    · exact List.mem_append_left _ (ih earlier)
    · exact List.mem_append_right _ List.mem_cons_self

variable (clashes) in
-- An element either was kept or met one that was.
theorem kept_or_clashes (before after : List α) (a : α) :
    a ∈ keep clashes (before ++ a :: after) ∨ ∃ k ∈ keep clashes before, clashes k a := by
  by_cases met : ∃ k ∈ keep clashes before, clashes k a
  · exact Or.inr met
  · have kept : a ∈ keep clashes (before ++ [a]) := by
      rw [keep_concat, mem_take]
      exact Or.inr ⟨rfl, fun k member clash => met ⟨k, member, clash⟩⟩
    left
    simpa using mem_keep_append kept after

theorem kept_split {list : List α} {a : α} (kept : a ∈ keep clashes list) :
    ∃ before after, list = before ++ a :: after ∧ ∀ k ∈ keep clashes before, ¬clashes k a := by
  induction list using List.reverseRecOn with
  | nil => exact absurd kept List.not_mem_nil
  | append_singleton list b ih =>
    rcases mem_take.mp (keep_concat clashes list b ▸ kept) with earlier | ⟨rfl, free⟩
    · obtain ⟨before, after, rfl, free⟩ := ih earlier
      exact ⟨before, after ++ [b], by simp, free⟩
    · exact ⟨list, [], rfl, free⟩

section Before

variable [DecidableEq α]

theorem mem_before {before after : List α} {a b : α} (earlier : b ∈ (before ++ a :: after).takeWhile (· ≠ a)) :
    b ∈ before := by
  induction before with
  | nil => simp at earlier
  | cons c before ih =>
    rw [List.cons_append, List.takeWhile_cons] at earlier
    split_ifs at earlier
    · rcases List.mem_cons.mp earlier with rfl | later
      · exact List.mem_cons_self
      · exact List.mem_cons_of_mem _ (ih later)
    · exact absurd earlier List.not_mem_nil

theorem split_at_first {list : List α} {a : α} (member : a ∈ list) :
    ∃ after, list = list.takeWhile (· ≠ a) ++ a :: after := by
  induction list with
  | nil => exact absurd member List.not_mem_nil
  | cons c list ih =>
    by_cases here : c = a
    · exact ⟨list, by simp [here]⟩
    · obtain ⟨after, split⟩ := ih ((List.mem_cons.mp member).resolve_left (Ne.symm here))
      exact ⟨after, by simpa [here] using split⟩

/-- Some kept element satisfies a property just when some element does and all that stand before
it and clash with it satisfy it as well. -/
theorem exists_kept_iff {holds : α → Prop}
    (inward : ∀ a b k, holds a → ¬holds b → clashes b a → clashes k b → clashes k a) (list : List α) :
    (∃ a ∈ keep clashes list, holds a) ↔
      ∃ a ∈ list, holds a ∧ ∀ b ∈ list.takeWhile (· ≠ a), clashes b a → holds b := by
  constructor
  · rintro ⟨a, kept, holdsA⟩
    obtain ⟨before, after, rfl, free⟩ := kept_split kept
    refine ⟨a, mem_of_mem_keep kept, holdsA, fun b earlier clash => ?_⟩
    by_contra fails
    obtain ⟨first, rest, rfl⟩ := List.append_of_mem (mem_before earlier)
    rcases kept_or_clashes clashes first rest b with keptB | ⟨k, keptK, met⟩
    · exact free b keptB clash
    · exact free k (mem_keep_append keptK _) (inward a b k holdsA fails clash met)
  · rintro ⟨a, member, holdsA, earlier⟩
    obtain ⟨after, split⟩ := split_at_first member
    rw [split]
    rcases kept_or_clashes clashes (list.takeWhile (· ≠ a)) after a with kept | ⟨k, keptK, met⟩
    · exact ⟨a, kept, holdsA⟩
    · exact ⟨k, mem_keep_append keptK _, earlier k (mem_of_mem_keep keptK) met⟩

end Before

end FirstCome
