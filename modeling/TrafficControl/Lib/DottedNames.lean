import Mathlib.Data.List.Infix

set_option autoImplicit false

universe u

-- Names whose parts are joined by a separator.
namespace DottedNames

variable {α : Type u} [DecidableEq α] {sep : α}

theorem dropLast_split_append (xs ys : List α) :
    ((xs ++ sep :: ys).splitOn sep).dropLast = xs.splitOn sep ++ (ys.splitOn sep).dropLast := by
  rw [List.splitOn_append_cons_self, List.dropLast_append_of_ne_nil (List.splitOn_ne_nil sep ys)]

theorem split_append_last {xs last : List α} (whole : sep ∉ last) :
    (xs ++ sep :: last).splitOn sep = xs.splitOn sep ++ [last] := by
  rw [List.splitOn_append_cons_self, List.splitOn_eq_singleton whole]

theorem split_cons_part {part : List α} (whole : sep ∉ part) (rest : List α) :
    (part ++ sep :: rest).splitOn sep = part :: rest.splitOn sep := by
  rw [List.splitOn_append_cons_self, List.splitOn_eq_singleton whole, List.singleton_append]

theorem split_eq_pair_iff {s a b : List α} : s.splitOn sep = [a, b] ↔ s = a ++ sep :: b ∧ sep ∉ a ∧ sep ∉ b := by
  constructor
  · intro parts
    by_cases separated : sep ∈ s
    · obtain ⟨first, rest, split, whole⟩ := List.eq_append_cons_of_mem separated
      rw [split, split_cons_part whole] at parts
      obtain ⟨rfl, last⟩ := List.cons.inj parts
      by_cases again : sep ∈ rest
      · obtain ⟨second, others, split', whole'⟩ := List.eq_append_cons_of_mem again
        rw [split', split_cons_part whole'] at last
        exact absurd (List.cons.inj last).2 (List.splitOn_ne_nil sep others)
      · rw [List.splitOn_eq_singleton again] at last
        obtain ⟨rfl, _⟩ := List.cons.inj last
        exact ⟨split, whole, again⟩
    · rw [List.splitOn_eq_singleton separated] at parts
      cases parts
  · rintro ⟨rfl, first, second⟩
    rw [split_cons_part first, List.splitOn_eq_singleton second]

/-- The text behind the last separator ends the last part. -/
theorem exists_part_suffix (xs : List α) {word : List α} (whole : sep ∉ word) :
    ∃ part ∈ (xs ++ word).splitOn sep, word <:+ part := by
  induction xs with
  | nil => exact ⟨word, by simp [List.splitOn_eq_singleton whole], List.suffix_rfl⟩
  | cons x xs ih =>
    obtain ⟨part, member, suffix⟩ := ih
    rw [List.cons_append, List.splitOn_cons_eq_if_modifyHead]
    by_cases same : x = sep
    · exact ⟨part, by simp [same, member], suffix⟩
    · cases parts : (xs ++ word).splitOn sep with
      | nil => exact absurd parts (List.splitOn_ne_nil sep _)
      | cons first others =>
        rw [parts] at member
        rcases List.mem_cons.mp member with rfl | later
        · exact ⟨x :: part, by simp [same], suffix.trans (List.suffix_cons x part)⟩
        · exact ⟨part, by simp [same, later], suffix⟩

theorem part_infix (s : List α) {part : List α} (member : part ∈ (s.splitOn sep).dropLast) : part ++ [sep] <:+: s := by
  by_cases separated : sep ∈ s
  · obtain ⟨first, rest, split, whole⟩ := List.eq_append_cons_of_mem separated
    have shorter : rest.length < s.length := by
      rw [split, List.length_append, List.length_cons]
      omega
    rw [split] at member ⊢
    rw [dropLast_split_append, List.splitOn_eq_singleton whole] at member
    rcases List.mem_cons.mp member with rfl | later
    · exact ⟨[], rest, by simp⟩
    · have inner := part_infix rest later
      exact inner.trans ⟨first ++ [sep], [], by simp⟩
  · rw [List.splitOn_eq_singleton separated] at member
    cases member
termination_by s.length

/-- A word in front of a separator ends one of the parts but the last. -/
theorem infix_iff {s word : List α} (whole : sep ∉ word) :
    word ++ [sep] <:+: s ↔ ∃ part ∈ (s.splitOn sep).dropLast, word <:+ part := by
  constructor
  · rintro ⟨front, rest, rfl⟩
    obtain ⟨part, member, suffix⟩ := exists_part_suffix front whole
    have split : front ++ (word ++ [sep]) ++ rest = front ++ word ++ sep :: rest := by simp
    rw [split, dropLast_split_append]
    exact ⟨part, List.mem_append_left _ member, suffix⟩
  · rintro ⟨part, member, front, rfl⟩
    have inner := part_infix s member
    exact List.IsInfix.trans ⟨front, [], by simp⟩ inner

end DottedNames
