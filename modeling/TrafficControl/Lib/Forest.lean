import Mathlib.Data.Finset.Card
import Mathlib.Data.Set.Insert
import Mathlib.Logic.Function.Basic
import Mathlib.Order.Bounds.Basic
import TrafficControl.Lib.Orbit

set_option autoImplicit false

universe u

-- Trees that only know the parent of each node.
namespace Forest

open Orbit

variable {α : Type u} (parent : α → Option α)

/-- How far below a root a node is, unless there are as many nodes on the way as the limit. -/
def depth : Nat → α → Option Nat
  | 0, _ => none
  | left + 1, node => (parent node).elim (some 0) fun up => (depth left up).map (· + 1)

/-- The nodes below a stack of nodes, each before its children. -/
def preorder (children : α → List α) : Nat → List α → Option (List α)
  | _, [] => some []
  | 0, _ :: _ => none
  | fuel + 1, node :: stack => (preorder children fuel (children node ++ stack)).map (node :: ·)

variable {parent}

theorem depth_eq_some_iff {limit : Nat} {node : α} {d : Nat} : depth parent limit node = some d ↔
    d < limit ∧ ∃ top, visit parent d node = some top ∧ parent top = none := by
  induction limit generalizing node d with
  | zero => simp [depth]
  | succ limit ih =>
    cases up : parent node with
    | none =>
      simp only [depth, up, Option.elim_none, Option.some.injEq]
      constructor
      · rintro rfl
        exact ⟨Nat.succ_pos _, node, rfl, up⟩
      · rintro ⟨-, top, reached, -⟩
        cases d with
        | zero => rfl
        | succ d => simp [visit_succ, up] at reached
    | some above =>
      simp only [depth, up, Option.elim_some, Option.map_eq_some_iff, ih]
      constructor
      · rintro ⟨k, ⟨less, top, reached, root⟩, rfl⟩
        exact ⟨by omega, top, by simpa [visit_succ, up] using reached, root⟩
      · rintro ⟨less, top, reached, root⟩
        cases d with
        | zero =>
          obtain rfl := Option.some.inj reached
          simp [up] at root
        | succ d => exact ⟨d, ⟨by omega, top, by simpa [visit_succ, up] using reached, root⟩, rfl⟩

section Preorder

variable {children : α → List α} {fuel : Nat} {nodes : List α}

theorem stack_subset_preorder {stack : List α} (found : preorder children fuel stack = some nodes) : stack ⊆ nodes := by
  induction fuel generalizing stack nodes with
  | zero =>
    cases stack with
    | nil => exact List.nil_subset _
    | cons => cases found
  | succ fuel ih =>
    cases stack with
    | nil => exact List.nil_subset _
    | cons node stack =>
      obtain ⟨rest, later, rfl⟩ := Option.map_eq_some_iff.mp found
      have kept := (List.append_subset.mp (ih later)).2
      exact List.cons_subset.mpr ⟨List.mem_cons_self, List.subset_cons_of_subset _ kept⟩

theorem children_after {stack : List α} (found : preorder children fuel stack = some nodes) {before after : List α} {node : α}
    (split : nodes = before ++ node :: after) : children node ⊆ after := by
  induction fuel generalizing stack nodes before with
  | zero =>
    cases stack with
    | nil =>
      obtain rfl := Option.some.inj found
      simp at split
    | cons => cases found
  | succ fuel ih =>
    cases stack with
    | nil =>
      obtain rfl := Option.some.inj found
      simp at split
    | cons first stack =>
      obtain ⟨rest, later, rfl⟩ := Option.map_eq_some_iff.mp found
      cases before with
      | nil =>
        obtain ⟨rfl, rfl⟩ := List.cons.inj split
        exact (List.append_subset.mp (stack_subset_preorder later)).1
      | cons _ before => exact ih later (List.cons.inj split).2

/-- The search passes no node twice, so it ends when there is fuel for each. -/
theorem preorder_isSome {all : Finset α} {top : α} (nodup : ∀ node, (children node).Nodup)
    (child : ∀ {node low}, low ∈ children node ↔ parent low = some node) (inAll : ∀ {node low}, parent low = some node → low ∈ all)
    (acyclic : ∀ k, visit parent (k + 1) top ≠ some top) {visited stack : List α} (apart : (visited ++ stack).Nodup)
    (member : ∀ node ∈ visited ++ stack, node ∈ all) (below : ∀ node ∈ visited ++ stack, ∃ k, visit parent k node = some top)
    (reached : ∀ node ∈ visited ++ stack, node = top ∨ ∃ up ∈ visited, parent node = some up)
    (enough : all.card ≤ fuel + visited.length) : (preorder children fuel stack).isSome = true := by
  induction fuel generalizing visited stack with
  | zero =>
    cases stack with
    | nil => rfl
    | cons node stack =>
      classical
      have within := List.toFinset_card_of_nodup apart ▸ Finset.card_le_card (fun x inList => member x (List.mem_toFinset.mp inList))
      simp only [List.length_append, List.length_cons] at within
      omega
  | succ fuel ih =>
    cases stack with
    | nil => rfl
    | cons node stack =>
      have moved : visited ++ node :: stack = (visited ++ [node]) ++ stack := by simp
      have fresh : ∀ low ∈ children node, low ∉ visited ++ node :: stack := by
        intro low inChildren inside
        have up := child.mp inChildren
        obtain ⟨k, steps⟩ := below node (by simp)
        rcases reached low inside with rfl | ⟨above, inVisited, up'⟩
        · exact acyclic k (by rw [visit_succ, up]; exact steps)
        · obtain rfl := Option.some.inj (up.symm.trans up')
          exact (List.nodup_append.mp apart).2.2 _ inVisited _ List.mem_cons_self rfl
      have split : ∀ low, low ∈ (visited ++ [node]) ++ (children node ++ stack) ↔
          low ∈ children node ∨ low ∈ visited ++ node :: stack := by
        intro low
        simp only [List.mem_append, List.mem_cons, List.not_mem_nil]
        tauto
      rw [preorder, Option.isSome_map]
      refine ih ?_ ?_ ?_ ?_ (?_ : all.card ≤ fuel + (visited ++ [node]).length)
      · have perm : ((visited ++ [node]) ++ (children node ++ stack)).Perm (children node ++ (visited ++ node :: stack)) := by
          rw [moved, ← List.append_assoc, ← List.append_assoc]
          exact List.Perm.append_right _ List.perm_append_comm
        refine perm.nodup_iff.mpr (List.nodup_append.mpr ⟨nodup node, apart, ?_⟩)
        rintro low inChildren _ inside rfl
        exact fresh low inChildren inside
      · intro low inside
        rcases (split low).mp inside with inChildren | old
        · exact inAll (child.mp inChildren)
        · exact member low old
      · intro low inside
        rcases (split low).mp inside with inChildren | old
        · obtain ⟨k, steps⟩ := below node (by simp)
          exact ⟨k + 1, by rw [visit_succ, child.mp inChildren]; exact steps⟩
        · exact below low old
      · intro low inside
        rcases (split low).mp inside with inChildren | old
        · exact .inr ⟨node, by simp, child.mp inChildren⟩
        · rcases reached low old with rfl | ⟨up, inVisited, isUp⟩
          · exact .inl rfl
          · exact .inr ⟨up, by simp [inVisited], isUp⟩
      · rw [List.length_append, List.length_singleton]
        omega

theorem preorder_top_isSome {all : Finset α} {top : α} (member : top ∈ all) (nodup : ∀ node, (children node).Nodup)
    (child : ∀ {node low}, low ∈ children node ↔ parent low = some node) (inAll : ∀ {node low}, parent low = some node → low ∈ all)
    (acyclic : ∀ k, visit parent (k + 1) top ≠ some top) (enough : all.card ≤ fuel) :
    (preorder children fuel [top]).isSome = true := by
  have only : ∀ node ∈ [] ++ [top], node = top := fun node inStack => List.mem_singleton.mp inStack
  have apart : ([] ++ [top]).Nodup := List.nodup_singleton top
  refine preorder_isSome nodup child inAll acyclic apart ?_ ?_ ?_ (by simpa using enough)
  · exact fun node inStack => only node inStack ▸ member
  · exact fun node inStack => ⟨0, congrArg some (only node inStack)⟩
  · exact fun node inStack => .inl (only node inStack)

end Preorder

section Rooted

/-- The members form one tree: every way up ends at the root, in fewer steps than the limit. -/
structure Rooted (parent : α → Option α) (members : Set α) (root : α) (limit : Nat) : Prop where
  closed : ∀ node ∈ members, ∀ up, parent node = some up → up ∈ members
  top : parent root = none
  reaches : ∀ node ∈ members, ∃ k < limit, visit parent k node = some root

variable {parent' : α → Option α} {members : Set α} {root node up : α} {limit : Nat}

theorem visit_congr {k : Nat} (same : ∀ m < k, ∀ b, visit parent m node = some b → parent' b = parent b) :
    visit parent' k node = visit parent k node := by
  induction k with
  | zero => rfl
  | succ k ih =>
    rw [visit, visit, ih fun m less => same m (by omega)]
    cases reached : visit parent k node with
    | none => rfl
    | some b => exact same k (by omega) b reached

theorem end_unique {d k : Nat} {top other : α} (first : visit parent d node = some top) (ends : parent top = none)
    (second : visit parent k node = some other) (ends' : parent other = none) : d = k ∧ top = other := by
  rcases Nat.lt_trichotomy d k with less | rfl | less
  · obtain ⟨j, rfl⟩ := Nat.exists_eq_add_of_lt less
    rw [Nat.add_assoc, visit_add first, visit_succ, ends] at second
    cases second
  · exact ⟨rfl, Option.some.inj (first.symm.trans second)⟩
  · obtain ⟨j, rfl⟩ := Nat.exists_eq_add_of_lt less
    rw [Nat.add_assoc, visit_add second, visit_succ, ends'] at first
    cases first

namespace Rooted

variable (rooted : Rooted parent members root limit)

include rooted

theorem visit_mem (member : node ∈ members) {k : Nat} {b : α} (reached : visit parent k node = some b) : b ∈ members := by
  induction k generalizing b with
  | zero => exact Option.some.inj reached ▸ member
  | succ k ih =>
    obtain ⟨low, before, edge⟩ := Option.bind_eq_some_iff.mp reached
    exact rooted.closed low (ih before) b edge

theorem acyclic (member : node ∈ members) (k : Nat) : visit parent (k + 1) node ≠ some node := by
  intro cycle
  obtain ⟨d, -, reached⟩ := rooted.reaches node member
  have again : ∀ rounds, visit parent ((k + 1) * rounds) node = some node := by
    intro rounds
    induction rounds with
    | zero => rfl
    | succ rounds ih => rw [Nat.mul_succ, visit_add ih, cycle]
  have ends : visit parent (d + 1) node = none := by rw [visit, reached, Option.bind_some, rooted.top]
  have late := visit_none_of_le ends (Nat.le_mul_of_pos_left (d + 1) (Nat.succ_pos k))
  exact Option.some_ne_none _ ((again (d + 1)).symm.trans late)

theorem depth_lt (member : node ∈ members) {d : Nat} {top : α} (reached : visit parent d node = some top)
    (ends : parent top = none) : d < limit ∧ top = root := by
  obtain ⟨k, less, toRoot⟩ := rooted.reaches node member
  obtain ⟨rfl, rfl⟩ := end_unique reached ends toRoot rooted.top
  exact ⟨less, rfl⟩

theorem graft (fresh : node ∉ members) (here : parent' node = some up) (elsewhere : ∀ a, a ≠ node → parent' a = parent a)
    (under : up ∈ members) {d : Nat} (deep : visit parent d up = some root) (room : d + 1 < limit) :
    Rooted parent' (insert node members) root limit := by
  have ne : ∀ a ∈ members, a ≠ node := fun a member same => fresh (same ▸ member)
  have kept : ∀ {a}, a ∈ members → ∀ k, visit parent' k a = visit parent k a := fun member k =>
    visit_congr fun _ _ b reached => elsewhere b (ne b (rooted.visit_mem member reached))
  refine ⟨?_, ?_, ?_⟩
  · rintro a (rfl | member) b edge
    · exact .inr (Option.some.inj (here.symm.trans edge) ▸ under)
    · exact .inr (rooted.closed a member b (elsewhere a (ne a member) ▸ edge))
  · exact (elsewhere root (ne root (rooted.visit_mem under deep))).trans rooted.top
  · rintro a (rfl | member)
    · exact ⟨d + 1, room, by rw [visit_succ, here, Option.bind_some, kept under, deep]⟩
    · obtain ⟨k, less, reached⟩ := rooted.reaches a member
      exact ⟨k, less, (kept member k).trans reached⟩

theorem prune (childless : ∀ a, parent a ≠ some node) (elsewhere : ∀ a, a ≠ node → parent' a = parent a)
    (notRoot : node ≠ root) : Rooted parent' (members \ {node}) root limit := by
  have kept : ∀ {a}, a ≠ node → ∀ k, visit parent' k a = visit parent k a := by
    intro a ne k
    refine visit_congr fun m _ b reached => elsewhere b ?_
    rintro rfl
    cases m with
    | zero => exact ne (Option.some.inj reached)
    | succ m =>
      obtain ⟨low, -, edge⟩ := Option.bind_eq_some_iff.mp reached
      exact childless low edge
  refine ⟨?_, (elsewhere root notRoot.symm).trans rooted.top, ?_⟩
  · rintro a ⟨member, ne⟩ b edge
    rw [elsewhere a ne] at edge
    exact ⟨rooted.closed a member b edge, fun same => childless a (same ▸ edge)⟩
  · rintro a ⟨member, ne⟩
    obtain ⟨k, less, reached⟩ := rooted.reaches a member
    exact ⟨k, less, (kept ne k).trans reached⟩

/-- Where a tree has moved, the way up from below goes on from its new place. -/
theorem move_visit (here : parent' node = some up) (elsewhere : ∀ a, a ≠ node → parent' a = parent a)
    (apart : ∀ k, visit parent k up ≠ some node) (member : node ∈ members) {d k : Nat} {low : α}
    (deep : visit parent d up = some root) (below : visit parent k low = some node) :
    visit parent' (d + k + 1) low = some root := by
  have above : visit parent' d up = some root :=
    (visit_congr fun m _ b reached => elsewhere b fun same => apart m (same ▸ reached)).trans deep
  have first : visit parent' k low = some node := by
    refine (visit_congr fun m early b reached => elsewhere b ?_).trans below
    rintro rfl
    obtain ⟨j, rfl⟩ := Nat.exists_eq_add_of_lt early
    rw [Nat.add_assoc, visit_add reached] at below
    exact rooted.acyclic member j below
  rw [Nat.add_comm d k, Nat.add_assoc, visit_add first, visit_succ, here, Option.bind_some, above]

/-- A tree of some height may move to where it leaves room. -/
theorem move (here : parent' node = some up) (elsewhere : ∀ a, a ≠ node → parent' a = parent a) (under : up ∈ members)
    (member : node ∈ members) (apart : ∀ k, visit parent k up ≠ some node) {d height : Nat}
    (deep : visit parent d up = some root) (high : ∀ k low, visit parent k low = some node → k ≤ height) (room : d + height + 1 < limit) :
    Rooted parent' members root limit := by
  refine ⟨?_, ?_, ?_⟩
  · intro a isMember b edge
    by_cases same : a = node
    · subst same
      exact Option.some.inj (here.symm.trans edge) ▸ under
    · exact rooted.closed a isMember b (elsewhere a same ▸ edge)
  · exact (elsewhere root fun same => apart d (same ▸ deep)).trans rooted.top
  · intro a isMember
    by_cases meets : ∃ m, visit parent m a = some node
    · obtain ⟨m, below⟩ := meets
      have within := high m a below
      exact ⟨d + m + 1, by omega, rooted.move_visit here elsewhere apart member deep below⟩
    · obtain ⟨k, less, reached⟩ := rooted.reaches a isMember
      refine ⟨k, less, (visit_congr fun m _ b reached => elsewhere b fun same => ?_).trans reached⟩
      exact meets ⟨m, same ▸ reached⟩

end Rooted

end Rooted

variable [DecidableEq α]

section Climb

variable (parent)

/-- A walk up from a node in search of another, that gives up after so many steps. -/
def climb (sought : α) : Nat → α → Option Bool
  | 0, node => if sought = node then some true else none
  | left + 1, node => if sought = node then some true else (parent node).elim (some false) (climb sought left)

variable {parent}

variable {node sought : α} {limit : Nat}

theorem climb_eq_true_iff : climb parent sought limit node = some true ↔ ∃ k ≤ limit, visit parent k node = some sought := by
  induction limit generalizing node with
  | zero => simp [climb, visit, eq_comm]
  | succ limit ih =>
    by_cases same : sought = node
    · simp only [climb, same, if_true, true_iff]
      exact ⟨0, Nat.zero_le _, rfl⟩
    · cases up : parent node with
      | none =>
        simp only [climb, same, if_false, up, Option.elim_none, Option.some.injEq, Bool.false_eq_true, false_iff]
        rintro ⟨k, -, reached⟩
        cases k with
        | zero => exact same (Option.some.inj reached).symm
        | succ k => simp [visit_succ, up] at reached
      | some above =>
        simp only [climb, same, if_false, up, Option.elim_some, ih]
        constructor
        · rintro ⟨k, le, reached⟩
          exact ⟨k + 1, by omega, by simpa [visit_succ, up] using reached⟩
        · rintro ⟨k, le, reached⟩
          cases k with
          | zero => exact absurd (Option.some.inj reached).symm same
          | succ k => exact ⟨k, by omega, by simpa [visit_succ, up] using reached⟩

theorem climb_isSome (ends : visit parent limit node = none) : (climb parent sought limit node).isSome = true := by
  induction limit generalizing node with
  | zero => cases ends
  | succ limit ih =>
    by_cases same : sought = node
    · simp [climb, same]
    · cases up : parent node with
      | none => simp [climb, same, up]
      | some above =>
        rw [visit_succ, up] at ends
        simpa [climb, same, up] using ih ends

end Climb

section Heights

variable (parent)

def raise (node : α) (heights : α → Nat) : α → Nat :=
  (parent node).elim heights fun up =>
    if heights up < heights node + 1 then Function.update heights up (heights node + 1) else heights

/-- Heights counted from the last node of a list to its first. -/
def heights (nodes : List α) : α → Nat := nodes.foldr (raise parent) fun _ => 0

variable {parent}

theorem raise_ge (node : α) (heights : α → Nat) (other : α) : heights other ≤ raise parent node heights other := by
  unfold raise
  cases parent node with
  | none => exact Nat.le_refl _
  | some up =>
    simp only [Option.elim_some]
    split
    next less =>
      by_cases same : other = up
      · subst same
        simp only [Function.update_self]
        omega
      · rw [Function.update_of_ne same]
    next => exact Nat.le_refl _

theorem raise_parent {node up : α} (above : parent node = some up) (heights : α → Nat) :
    heights node + 1 ≤ raise parent node heights up := by
  simp only [raise, above, Option.elim_some]
  split
  next => simp
  next notLess => omega

theorem heights_append_ge (first second : List α) (node : α) :
    heights parent second node ≤ heights parent (first ++ second) node := by
  induction first with
  | nil => exact Nat.le_refl _
  | cons head first ih => exact Nat.le_trans ih (raise_ge head _ node)

theorem visit_heights (nodes : List α) (node : α) : ∃ low, visit parent (heights parent nodes node) low = some node := by
  induction nodes generalizing node with
  | nil => exact ⟨node, rfl⟩
  | cons head nodes ih =>
    change ∃ low, visit parent (raise parent head (heights parent nodes) node) low = some node
    unfold raise
    cases above : parent head with
    | none => exact ih node
    | some up =>
      simp only [Option.elim_some]
      split
      next =>
        by_cases same : node = up
        · subst same
          obtain ⟨low, reached⟩ := ih head
          exact ⟨low, by rw [Function.update_self, visit, reached]; exact above⟩
        · rw [Function.update_of_ne same]
          exact ih node
      next => exact ih node

theorem le_heights {nodes : List α}
    (ordered : ∀ {before after : List α} {node low : α}, nodes = before ++ node :: after → parent low = some node → low ∈ after)
    {k : Nat} {low node : α} (below : visit parent k low = some node) {before after : List α}
    (split : nodes = before ++ node :: after) : k ≤ heights parent after node := by
  induction k generalizing node before after with
  | zero => exact Nat.zero_le _
  | succ k ih =>
    obtain ⟨child, reached, up⟩ := Option.bind_eq_some_iff.mp below
    obtain ⟨between, later, rfl⟩ := List.append_of_mem (ordered split up)
    have deeper : nodes = (before ++ node :: between) ++ child :: later := by rw [split, List.append_assoc, List.cons_append]
    have deep := ih reached deeper
    have raised : heights parent later child + 1 ≤ heights parent (child :: later) node := raise_parent up _
    have kept : heights parent (child :: later) node ≤ heights parent (between ++ child :: later) node :=
      heights_append_ge _ _ _
    omega

/-- The height that the loop finds for the top of a tree is that of the tree. -/
theorem heights_isGreatest {children : α → List α} {fuel : Nat} {top : α} {nodes : List α}
    (child : ∀ {node low}, parent low = some node → low ∈ children node)
    (found : preorder children fuel [top] = some nodes) :
    IsGreatest {k | ∃ low, visit parent k low = some top} (heights parent nodes top) := by
  refine ⟨visit_heights nodes top, ?_⟩
  rintro k ⟨low, below⟩
  obtain ⟨before, after, split⟩ := List.append_of_mem (stack_subset_preorder found List.mem_cons_self)
  have deep := le_heights (fun split up => children_after found split (child up)) below split
  have raised : heights parent after top ≤ heights parent nodes top := by
    rw [split, ← List.singleton_append, ← List.append_assoc]
    exact heights_append_ge _ _ _
  omega

end Heights

end Forest
