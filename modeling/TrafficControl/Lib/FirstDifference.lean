import TrafficControl.Lib.Lexicographic

set_option autoImplicit false

universe u v

-- Lists ordered by the least key at which they do not have the same elements.
namespace FirstDifference

open Lexicographic

variable {α : Type u} {κ : Type v} {compare : κ → κ → Int} (key : α → κ)

/-- Some element of the first list only has a smaller key than every element of the second list only. -/
def Precedes (compare : κ → κ → Int) (s t : List α) : Prop :=
  ∃ x ∈ s, x ∉ t ∧ ∀ y ∈ t, y ∉ s → compare (key x) (key y) < 0

/-- The least key of the elements in one list only belongs to elements of both kinds. -/
def Tie (compare : κ → κ → Int) (s t : List α) : Prop :=
  ∃ x ∈ s, x ∉ t ∧ ∃ y ∈ t, y ∉ s ∧ key x = key y ∧
    (∀ z ∈ s, z ∉ t → compare (key x) (key z) ≤ 0) ∧ ∀ z ∈ t, z ∉ s → compare (key x) (key z) ≤ 0

variable {key} {s t u : List α}

theorem Precedes.irrefl : ¬Precedes key compare s s := fun ⟨_, member, absent, _⟩ => absent member

theorem Precedes.trans (comparator : Comparator compare) (first : Precedes key compare s t) (second : Precedes key compare t u) :
    Precedes key compare s u := by
  obtain ⟨x, inS, notInT, aboveX⟩ := first
  obtain ⟨y, inT, notInU, aboveY⟩ := second
  -- The smaller of the two keys decides.
  rcases comparator.total (key x) (key y) with order | order
  · refine ⟨x, inS, fun inU => ?_, fun z inU notInS => ?_⟩
    · have before := comparator.lt_of_le_of_lt order (aboveY x inU notInT)
      rw [comparator.refl] at before
      exact absurd before (Int.lt_irrefl 0)
    · by_cases shared : z ∈ t
      · exact aboveX z shared notInS
      · exact comparator.lt_of_le_of_lt order (aboveY z inU shared)
  · refine ⟨y, ?_, notInU, fun z inU notInS => ?_⟩
    · by_contra notInS
      have before := comparator.lt_of_le_of_lt order (aboveX y inT notInS)
      rw [comparator.refl] at before
      exact absurd before (Int.lt_irrefl 0)
    · by_cases shared : z ∈ t
      · exact comparator.lt_of_le_of_lt order (aboveX z shared notInS)
      · exact aboveY z inU shared

theorem Precedes.asymm (comparator : Comparator compare) (first : Precedes key compare s t) : ¬Precedes key compare t s :=
  fun second => Precedes.irrefl (first.trans comparator second)

theorem exists_least (key : α → κ) (comparator : Comparator compare) {l : List α} (some_ : l ≠ []) :
    ∃ x ∈ l, ∀ y ∈ l, compare (key x) (key y) ≤ 0 := by
  induction l with
  | nil => exact absurd rfl some_
  | cons x l ih =>
    rcases List.eq_nil_or_concat l with rfl | ⟨_, _, more⟩
    · refine ⟨x, List.mem_cons_self, fun y member => ?_⟩
      obtain rfl := List.mem_singleton.mp member
      exact Int.le_of_eq (comparator.refl _)
    · obtain ⟨least, member, below⟩ := ih (more ▸ by simp)
      rcases comparator.total (key x) (key least) with order | order
      · refine ⟨x, List.mem_cons_self, fun y inList => ?_⟩
        rcases List.mem_cons.mp inList with rfl | inRest
        · exact Int.le_of_eq (comparator.refl _)
        · exact comparator.le_trans order (below y inRest)
      · refine ⟨least, List.mem_cons_of_mem _ member, fun y inList => ?_⟩
        rcases List.mem_cons.mp inList with rfl | inRest
        · exact order
        · exact below y inRest

/-- Lists with different elements are ordered one way or the other, or tie. -/
theorem cases_of_different [DecidableEq α] (comparator : Comparator compare) (different : ¬∀ x, x ∈ s ↔ x ∈ t) :
    Precedes key compare s t ∨ Precedes key compare t s ∨ Tie key compare s t := by
  have mine (z : α) : z ∈ s.filter (fun z => z ∉ t) ↔ z ∈ s ∧ z ∉ t := by simp
  have theirs (z : α) : z ∈ t.filter (fun z => z ∉ s) ↔ z ∈ t ∧ z ∉ s := by simp
  by_cases none : s.filter (fun z => z ∉ t) = []
  · have more : t.filter (fun z => z ∉ s) ≠ [] := fun none' => different fun z => by
      have left := mine z
      have right := theirs z
      rw [none] at left
      rw [none'] at right
      grind
    obtain ⟨y, member⟩ := List.exists_mem_of_ne_nil _ more
    obtain ⟨inT, notInS⟩ := (theirs y).mp member
    refine Or.inr (Or.inl ⟨y, inT, notInS, fun z inS notInT => ?_⟩)
    exact absurd ((mine z).mpr ⟨inS, notInT⟩) (none ▸ List.not_mem_nil)
  obtain ⟨x, inMine, leastX⟩ := exists_least key comparator none
  obtain ⟨inS, notInT⟩ := (mine x).mp inMine
  by_cases none' : t.filter (fun z => z ∉ s) = []
  · refine Or.inl ⟨x, inS, notInT, fun z inT notInS => ?_⟩
    exact absurd ((theirs z).mpr ⟨inT, notInS⟩) (none' ▸ List.not_mem_nil)
  obtain ⟨y, inTheirs, leastY⟩ := exists_least key comparator none'
  obtain ⟨inT, notInS⟩ := (theirs y).mp inTheirs
  rcases Int.lt_trichotomy (compare (key x) (key y)) 0 with before | same | after
  · refine Or.inl ⟨x, inS, notInT, fun z inT notInS => ?_⟩
    exact comparator.lt_of_lt_of_le before (leastY z ((theirs z).mpr ⟨inT, notInS⟩))
  · refine Or.inr (Or.inr ⟨x, inS, notInT, y, inT, notInS, (comparator.zero _ _).mp same, ?_, ?_⟩)
    · exact fun z inS notInT => leastX z ((mine z).mpr ⟨inS, notInT⟩)
    · exact fun z inT notInS => comparator.le_trans (Int.le_of_eq same) (leastY z ((theirs z).mpr ⟨inT, notInS⟩))
  · refine Or.inr (Or.inl ⟨y, inT, notInS, fun z inS notInT => ?_⟩)
    exact comparator.lt_of_lt_of_le ((comparator.swap _ _).mpr after) (leastX z ((mine z).mpr ⟨inS, notInT⟩))

theorem Tie.not_precedes (comparator : Comparator compare) (tie : Tie key compare s t) :
    ¬Precedes key compare s t ∧ ¬Precedes key compare t s := by
  obtain ⟨x, inS, notInT, y, inT, notInS, same, leastMine, leastTheirs⟩ := tie
  constructor
  · rintro ⟨z, inS', notInT', above⟩
    have before := comparator.lt_of_le_of_lt (leastMine z inS' notInT') (above y inT notInS)
    rw [same, comparator.refl] at before
    exact absurd before (Int.lt_irrefl 0)
  · rintro ⟨z, inT', notInS', above⟩
    have before := comparator.lt_of_le_of_lt (leastTheirs z inT' notInS') (above x inS notInT)
    rw [comparator.refl] at before
    exact absurd before (Int.lt_irrefl 0)

end FirstDifference
