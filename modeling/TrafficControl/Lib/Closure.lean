import Mathlib.Data.Finset.Card
import Mathlib.Logic.Relation

set_option autoImplicit false

universe u

-- What can be reached over finitely many nodes, found in rounds as a recursive query finds it.
namespace Closure

variable {α : Type u} [DecidableEq α] (nodes : Finset α) (related : α → α → Prop) [DecidableRel related]

def grow (found : Finset α) : Finset α := found ∪ nodes.filter fun node => ∃ near ∈ found, related near node

def rounds (start : Finset α) : Nat → Finset α
  | 0 => start
  | count + 1 => grow nodes related (rounds start count)

/-- After as many rounds as there are nodes, no round finds more. -/
def closure (start : Finset α) : Finset α := rounds nodes related start nodes.card

variable {nodes related} {start : Finset α}

theorem mem_grow {found : Finset α} {node : α} :
    node ∈ grow nodes related found ↔ node ∈ found ∨ node ∈ nodes ∧ ∃ near ∈ found, related near node := by
  simp [grow]

theorem subset_grow (found : Finset α) : found ⊆ grow nodes related found := Finset.subset_union_left

theorem rounds_sdiff_subset (count : Nat) : rounds nodes related start count \ start ⊆ nodes := by
  induction count with
  | zero => simp [rounds]
  | succ count ih =>
    intro node member
    obtain ⟨grown, new⟩ := Finset.mem_sdiff.mp member
    rcases mem_grow.mp grown with before | ⟨inNodes, -⟩
    · exact ih (Finset.mem_sdiff.mpr ⟨before, new⟩)
    · exact inNodes

/-- Every round finds a new node until one finds nothing. -/
theorem rounds_fixed_or (count : Nat) :
    grow nodes related (rounds nodes related start count) = rounds nodes related start count ∨
      start ⊆ rounds nodes related start count ∧ count ≤ (rounds nodes related start count \ start).card := by
  induction count with
  | zero => exact .inr ⟨subset_rfl, Nat.zero_le _⟩
  | succ count ih =>
    rcases ih with fixed | ⟨kept, found⟩
    · exact .inl (congrArg (grow nodes related) fixed)
    · by_cases fixed : grow nodes related (rounds nodes related start count) = rounds nodes related start count
      · exact .inl (congrArg (grow nodes related) fixed)
      · have more : rounds nodes related start count ⊂ rounds nodes related start (count + 1) :=
          (subset_grow _).ssubset_of_ne (Ne.symm fixed)
        refine .inr ⟨kept.trans more.subset, ?_⟩
        have larger := Finset.card_lt_card (sdiff_lt_sdiff_right more kept)
        omega

theorem grow_closure (start : Finset α) :
    grow nodes related (closure nodes related start) = closure nodes related start := by
  have ended : grow nodes related (closure nodes related start) = closure nodes related start ∨
      start ⊆ closure nodes related start ∧ nodes.card ≤ (closure nodes related start \ start).card :=
    rounds_fixed_or nodes.card
  rcases ended with fixed | ⟨-, all⟩
  · exact fixed
  · have whole := Finset.eq_of_subset_of_card_le (rounds_sdiff_subset nodes.card) all
    refine Finset.Subset.antisymm (fun node member => ?_) (subset_grow _)
    rcases mem_grow.mp member with before | ⟨inNodes, -⟩
    · exact before
    · rw [← whole] at inNodes
      exact (Finset.mem_sdiff.mp inNodes).1

theorem subset_rounds (count : Nat) : start ⊆ rounds nodes related start count := by
  induction count with
  | zero => exact subset_rfl
  | succ count ih => exact ih.trans (subset_grow _)

theorem mem_closure_iff {node : α} : node ∈ closure nodes related start ↔
    ∃ root ∈ start, Relation.ReflTransGen (fun near next => next ∈ nodes ∧ related near next) root node := by
  constructor
  · unfold closure
    generalize nodes.card = count
    induction count generalizing node with
    | zero => exact fun member => ⟨node, member, .refl⟩
    | succ count ih =>
      intro member
      rcases mem_grow.mp member with before | ⟨inNodes, near, found, edge⟩
      · exact ih before
      · obtain ⟨root, inStart, path⟩ := ih found
        exact ⟨root, inStart, path.tail ⟨inNodes, edge⟩⟩
  · rintro ⟨root, inStart, path⟩
    induction path with
    | refl => exact subset_rounds _ inStart
    | tail _ edge found =>
      rw [← grow_closure]
      exact mem_grow.mpr (.inr ⟨edge.1, _, found, edge.2⟩)

end Closure
