import Mathlib.Data.List.Basic

set_option autoImplicit false

universe u

-- `mark` is whatever the balancing scheme keeps at a node, such as a colour.
inductive SearchTree (α : Type u) where
  | leaf
  | node (mark : Nat) (left : SearchTree α) (entry : α) (right : SearchTree α)

namespace SearchTree

variable {α : Type u}

def toList : SearchTree α → List α
  | leaf => []
  | node _ left entry right => left.toList ++ entry :: right.toList

-- A probe is negative when the searched key comes before the entry, zero at it, positive after it.
def get (probe : α → Int) : SearchTree α → Option α
  | leaf => none
  | node _ left entry right =>
    if probe entry < 0 then left.get probe
    else if 0 < probe entry then right.get probe
    else some entry

def put (probe : α → Int) (fresh : α) (merge : α → α) : SearchTree α → SearchTree α
  | leaf => node 0 leaf fresh leaf
  | node mark left entry right =>
    if probe entry < 0 then node mark (left.put probe fresh merge) entry right
    else if 0 < probe entry then node mark left entry (right.put probe fresh merge)
    else node mark left (merge entry) right

def popMin : SearchTree α → Option (α × SearchTree α)
  | leaf => none
  | node mark left entry right =>
    match left.popMin with
    | none => some (entry, right)
    | some (least, rest) => some (least, node mark rest entry right)

def remove (probe : α → Int) : SearchTree α → SearchTree α
  | leaf => leaf
  | node mark left entry right =>
    if probe entry < 0 then node mark (left.remove probe) entry right
    else if 0 < probe entry then node mark left entry (right.remove probe)
    else
      match right.popMin with
      | none => left
      | some (least, rest) => node mark left least rest

-- Changes the first entry, in order, that satisfies `chosen`.
def updateFirst (chosen : α → Bool) (change : α → α) : SearchTree α → SearchTree α
  | leaf => leaf
  | node mark left entry right =>
    if left.toList.any chosen then node mark (left.updateFirst chosen change) entry right
    else if chosen entry then node mark left (change entry) right
    else node mark left entry (right.updateFirst chosen change)

theorem toList_updateFirst (chosen : α → Bool) (change : α → α) (tree : SearchTree α)
    (before after : List α) (hit : α) (split : tree.toList = before ++ hit :: after)
    (others : ∀ a ∈ before, chosen a = false) (found : chosen hit = true) :
    (tree.updateFirst chosen change).toList = before ++ change hit :: after := by
  induction tree generalizing before after with
  | leaf => simp [toList] at split
  | node mark left entry right leftIh rightIh =>
    simp only [toList] at split
    rcases List.append_eq_append_iff.mp split with ⟨rest, prefixed, suffix⟩ | ⟨rest, prefixed, suffix⟩
    · -- The hit is the entry or lies in the right subtree.
      have noneLeft : left.toList.any chosen = false := by
        simp only [List.any_eq_false, Bool.not_eq_true]
        exact fun a member => others a (by simp [prefixed, member])
      cases rest with
      | nil =>
        obtain ⟨rfl, rfl⟩ := List.cons.inj suffix
        rw [updateFirst, noneLeft]
        simp [found, toList, prefixed]
      | cons first rest =>
        obtain ⟨rfl, rightSplit⟩ := List.cons.inj suffix
        have notEntry := others entry (by simp [prefixed])
        have result := rightIh rest after rightSplit fun a member => others a (by simp [prefixed, member])
        rw [updateFirst, noneLeft]
        simp [notEntry, toList, result, prefixed]
    · cases rest with
      | nil =>
        obtain ⟨rfl, rfl⟩ := List.cons.inj suffix
        have noneLeft : left.toList.any chosen = false := by
          simp only [List.any_eq_false, Bool.not_eq_true]
          exact fun a member => others a (by simpa [prefixed] using member)
        rw [updateFirst, noneLeft]
        simp [found, toList, prefixed]
      | cons first rest =>
        obtain ⟨rfl, afterSplit⟩ := List.cons.inj suffix
        have someLeft : left.toList.any chosen = true := by
          simp only [List.any_eq_true]
          exact ⟨hit, by simp [prefixed], found⟩
        have result := leftIh before rest prefixed others
        rw [updateFirst, someLeft]
        simp [toList, result, afterSplit]

-- Along an ordered list a probe changes sign at most once from positive to zero to negative.
def Splits (probe : α → Int) (entries : List α) : Prop :=
  entries.Pairwise fun earlier later =>
    (probe earlier < 0 → probe later < 0) ∧ (0 < probe later → 0 < probe earlier)

theorem splits_of_ordered (order : α → α → Prop) (probe : α → Int) (entries : List α)
    (ordered : entries.Pairwise order)
    (below : ∀ a b, order a b → probe a < 0 → probe b < 0)
    (above : ∀ a b, order a b → 0 < probe b → 0 < probe a) :
    Splits probe entries :=
  ordered.imp fun {a b} before => ⟨below a b before, above a b before⟩

theorem splits_node {probe : α → Int} {left right : List α} {entry : α}
    (splits : Splits probe (left ++ entry :: right)) :
    Splits probe left ∧ Splits probe right ∧
      (probe entry < 0 → ∀ a ∈ right, probe a < 0) ∧ (0 < probe entry → ∀ a ∈ left, 0 < probe a) := by
  obtain ⟨leftSplits, rest, across⟩ := List.pairwise_append.mp splits
  obtain ⟨after, rightSplits⟩ := List.pairwise_cons.mp rest
  exact ⟨leftSplits, rightSplits, fun negative a member => (after a member).1 negative,
    fun positive a member => (across a member entry (by simp)).2 positive⟩

theorem zero_in_left {probe : α → Int} {left right : List α} {entry a : α}
    (splits : Splits probe (left ++ entry :: right)) (lower : probe entry < 0)
    (member : a ∈ left ++ entry :: right) (zero : probe a = 0) : a ∈ left := by
  obtain ⟨_, _, negative, _⟩ := splits_node splits
  rcases List.mem_append.mp member with member | member
  · exact member
  · rcases List.mem_cons.mp member with rfl | member
    · omega
    · have := negative lower a member
      omega

theorem zero_in_right {probe : α → Int} {left right : List α} {entry a : α}
    (splits : Splits probe (left ++ entry :: right)) (upper : 0 < probe entry)
    (member : a ∈ left ++ entry :: right) (zero : probe a = 0) : a ∈ right := by
  obtain ⟨_, _, _, positive⟩ := splits_node splits
  rcases List.mem_append.mp member with member | member
  · have := positive upper a member
    omega
  · rcases List.mem_cons.mp member with rfl | member
    · omega
    · exact member

theorem get_mem {probe : α → Int} {tree : SearchTree α} {found : α}
    (hit : tree.get probe = some found) : found ∈ tree.toList ∧ probe found = 0 := by
  induction tree with
  | leaf => simp [get] at hit
  | node mark left entry right leftHit rightHit =>
    simp only [get] at hit
    split_ifs at hit with before after
    · have ⟨member, zero⟩ := leftHit hit
      exact ⟨by simp [toList, member], zero⟩
    · have ⟨member, zero⟩ := rightHit hit
      exact ⟨by simp [toList, member], zero⟩
    · obtain rfl := Option.some.inj hit
      exact ⟨by simp [toList], by omega⟩

theorem get_eq_none {probe : α → Int} {tree : SearchTree α} (splits : Splits probe tree.toList) :
    tree.get probe = none ↔ ∀ a ∈ tree.toList, probe a ≠ 0 := by
  induction tree with
  | leaf => simp [get, toList]
  | node mark left entry right leftNone rightNone =>
    obtain ⟨leftSplits, rightSplits, negative, positive⟩ := splits_node splits
    simp only [get, toList, List.mem_append, List.mem_cons]
    split_ifs with before after
    · rw [leftNone leftSplits]
      constructor
      · rintro absent a (member | rfl | member)
        · exact absent a member
        · omega
        · have := negative before a member
          omega
      · exact fun absent a member => absent a (Or.inl member)
    · rw [rightNone rightSplits]
      constructor
      · rintro absent a (member | rfl | member)
        · have := positive after a member
          omega
        · omega
        · exact absent a member
      · exact fun absent a member => absent a (Or.inr (Or.inr member))
    · simp only [false_iff, not_forall]
      exact ⟨entry, Or.inr (Or.inl rfl), by omega⟩

theorem toList_put_absent (probe : α → Int) (fresh : α) (merge : α → α) (tree : SearchTree α)
    (splits : Splits probe tree.toList) (absent : ∀ a ∈ tree.toList, probe a ≠ 0) :
    ∃ before after, tree.toList = before ++ after ∧
      (tree.put probe fresh merge).toList = before ++ fresh :: after ∧
      (∀ a ∈ before, 0 < probe a) ∧ (∀ a ∈ after, probe a < 0) := by
  induction tree with
  | leaf => exact ⟨[], [], by simp [put, toList]⟩
  | node mark left entry right leftPut rightPut =>
    obtain ⟨leftSplits, rightSplits, negative, positive⟩ := splits_node splits
    have leftAbsent : ∀ a ∈ left.toList, probe a ≠ 0 := fun a member => absent a (by simp [toList, member])
    have rightAbsent : ∀ a ∈ right.toList, probe a ≠ 0 := fun a member => absent a (by simp [toList, member])
    have entryAbsent : probe entry ≠ 0 := absent entry (by simp [toList])
    by_cases lower : probe entry < 0
    · obtain ⟨before, after, split, result, low, high⟩ := leftPut leftSplits leftAbsent
      refine ⟨before, after ++ entry :: right.toList, by simp [toList, split],
        by simp [put, lower, toList, result], low, ?_⟩
      intro a member
      rcases List.mem_append.mp member with member | member
      · exact high a member
      · rcases List.mem_cons.mp member with rfl | member
        · exact lower
        · exact negative lower a member
    · have upper : 0 < probe entry := by omega
      obtain ⟨before, after, split, result, low, high⟩ := rightPut rightSplits rightAbsent
      refine ⟨left.toList ++ entry :: before, after, by simp [toList, split],
        by simp [put, lower, upper, toList, result], ?_, high⟩
      intro a member
      rcases List.mem_append.mp member with member | member
      · exact positive upper a member
      · rcases List.mem_cons.mp member with rfl | member
        · exact upper
        · exact low a member

theorem toList_put_present (probe : α → Int) (fresh : α) (merge : α → α) (tree : SearchTree α)
    (splits : Splits probe tree.toList) (present : ∃ a ∈ tree.toList, probe a = 0) :
    ∃ before hit after, tree.toList = before ++ hit :: after ∧ probe hit = 0 ∧
      (tree.put probe fresh merge).toList = before ++ merge hit :: after := by
  induction tree with
  | leaf => simp [toList] at present
  | node mark left entry right leftPut rightPut =>
    obtain ⟨leftSplits, rightSplits, _, _⟩ := splits_node splits
    obtain ⟨a, member, zero⟩ := present
    by_cases lower : probe entry < 0
    · have inLeft := zero_in_left splits lower member zero
      obtain ⟨before, hit, after, split, hitZero, result⟩ := leftPut leftSplits ⟨a, inLeft, zero⟩
      exact ⟨before, hit, after ++ entry :: right.toList, by simp [toList, split], hitZero,
        by simp [put, lower, toList, result]⟩
    · by_cases upper : 0 < probe entry
      · have inRight := zero_in_right splits upper member zero
        obtain ⟨before, hit, after, split, hitZero, result⟩ := rightPut rightSplits ⟨a, inRight, zero⟩
        exact ⟨left.toList ++ entry :: before, hit, after, by simp [toList, split], hitZero,
          by simp [put, lower, upper, toList, result]⟩
      · exact ⟨left.toList, entry, right.toList, rfl, by omega, by simp [put, lower, upper, toList]⟩

theorem forall_put (probe : α → Int) (fresh : α) (merge : α → α) (property : α → Prop) (tree : SearchTree α)
    (old : ∀ a ∈ tree.toList, property a) (new : property fresh)
    (merged : ∀ a, property a → property (merge a)) :
    (∀ a ∈ (tree.put probe fresh merge).toList, property a) ∧ (tree.put probe fresh merge).toList ≠ [] := by
  induction tree with
  | leaf => simpa [put, toList] using new
  | node mark left entry right leftPut rightPut =>
    simp only [toList, List.mem_append, List.mem_cons, or_imp, forall_and, forall_eq] at old
    obtain ⟨leftOld, entryOld, rightOld⟩ := old
    simp only [put]
    split_ifs
    · have ⟨leftNew, _⟩ := leftPut leftOld
      simp_all [toList, or_imp]
    · have ⟨rightNew, _⟩ := rightPut rightOld
      simp_all [toList, or_imp]
    · have entryNew := merged entry entryOld
      simp_all [toList, or_imp]

theorem toList_popMin (tree : SearchTree α) :
    tree.toList = match tree.popMin with
      | none => []
      | some (least, rest) => least :: rest.toList := by
  induction tree with
  | leaf => rfl
  | node mark left entry right leftMin _ =>
    cases popped : left.popMin with
    | none => simp_all [popMin, toList]
    | some pair => simp_all [popMin, toList]

theorem toList_remove (probe : α → Int) (tree : SearchTree α)
    (splits : Splits probe tree.toList) (present : ∃ a ∈ tree.toList, probe a = 0) :
    ∃ before hit after, tree.toList = before ++ hit :: after ∧ probe hit = 0 ∧
      (tree.remove probe).toList = before ++ after := by
  induction tree with
  | leaf => simp [toList] at present
  | node mark left entry right leftRemove rightRemove =>
    obtain ⟨leftSplits, rightSplits, _, _⟩ := splits_node splits
    obtain ⟨a, member, zero⟩ := present
    by_cases lower : probe entry < 0
    · have inLeft := zero_in_left splits lower member zero
      obtain ⟨before, hit, after, split, hitZero, result⟩ := leftRemove leftSplits ⟨a, inLeft, zero⟩
      exact ⟨before, hit, after ++ entry :: right.toList, by simp [toList, split], hitZero,
        by simp [remove, lower, toList, result]⟩
    · by_cases upper : 0 < probe entry
      · have inRight := zero_in_right splits upper member zero
        obtain ⟨before, hit, after, split, hitZero, result⟩ := rightRemove rightSplits ⟨a, inRight, zero⟩
        exact ⟨left.toList ++ entry :: before, hit, after, by simp [toList, split], hitZero,
          by simp [remove, lower, upper, toList, result]⟩
      · refine ⟨left.toList, entry, right.toList, rfl, by omega, ?_⟩
        have least := toList_popMin right
        rw [remove, if_neg lower, if_neg upper, least]
        cases popped : right.popMin <;> simp [toList]

/-- Any balancing scheme: it sees the tree before and after an update and may rotate and remark
the result, but not reorder it. -/
structure Rebalance (α : Type u) where
  run : SearchTree α → SearchTree α → SearchTree α
  toList_run : ∀ before after, (run before after).toList = after.toList

namespace Rebalance

variable (rebalance : Rebalance α)

def put (probe : α → Int) (fresh : α) (merge : α → α) (tree : SearchTree α) : SearchTree α :=
  rebalance.run tree (tree.put probe fresh merge)

def remove (probe : α → Int) (tree : SearchTree α) : SearchTree α :=
  rebalance.run tree (tree.remove probe)

@[simp] theorem toList_put (probe : α → Int) (fresh : α) (merge : α → α) (tree : SearchTree α) :
    (rebalance.put probe fresh merge tree).toList = (tree.put probe fresh merge).toList :=
  rebalance.toList_run _ _

@[simp] theorem toList_remove (probe : α → Int) (tree : SearchTree α) :
    (rebalance.remove probe tree).toList = (tree.remove probe).toList :=
  rebalance.toList_run _ _

def none : Rebalance α := ⟨fun _ after => after, fun _ _ => rfl⟩

end Rebalance

end SearchTree
