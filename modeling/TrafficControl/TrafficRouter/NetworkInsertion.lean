import TrafficControl.TrafficRouter.NetworkTree

set_option autoImplicit false

namespace TrafficControl.TrafficRouter.NetworkNode

open CidrAddress

variable {α : Type}

@[simp] theorem withChildren_cidrAddress (node : NetworkNode α) (children : Children α) :
    (node.withChildren children).cidrAddress = node.cidrAddress := by cases node; rfl

@[simp] theorem withChildren_data (node : NetworkNode α) (children : Children α) :
    (node.withChildren children).data = node.data := by cases node; rfl

@[simp] theorem withChildren_children (node : NetworkNode α) (children : Children α) :
    (node.withChildren children).children = children := by cases node; rfl

@[simp] theorem leaf_cidrAddress (network : CidrAddress × α) : (leaf network).cidrAddress = network.1 := rfl

@[simp] theorem leaf_children (network : CidrAddress × α) : (leaf network).children = .leaf := rfl

theorem depthBelow_le {children : Children α} {bound : Nat} :
    depthBelow children ≤ bound ↔ ∀ e ∈ children.toList, depth e.2 ≤ bound := by
  induction children with
  | leaf => simp [depthBelow, SearchTree.toList]
  | node mark left middle right leftIh rightIh =>
    obtain ⟨key, value⟩ := middle
    simp only [depthBelow, SearchTree.toList, List.mem_append, List.mem_cons, Nat.max_le, leftIh, rightIh]
    constructor
    · intro bounds e member
      rcases member with member | rfl | member
      · exact bounds.1.1 e member
      · exact bounds.1.2
      · exact bounds.2 e member
    · intro bounds
      exact ⟨⟨fun e member => bounds e (Or.inl member), bounds (key, value) (Or.inr (Or.inl rfl))⟩,
        fun e member => bounds e (Or.inr (Or.inr member))⟩

theorem depth_eq (node : NetworkNode α) : depth node = depthBelow node.children + 1 := by
  cases node
  simp only [depth, children]

/-- What one insertion may do to the entries of a node. -/
inductive Added (network : CidrAddress × α) : List (ChildEntry α) → List (ChildEntry α) → Prop
  | duplicate {entries : List (ChildEntry α)} {e : ChildEntry α} (member : e ∈ entries)
    (same : e.2.cidrAddress = network.1) : Added network entries entries
  | deeper {before after : List (ChildEntry α)} {e : ChildEntry α} {children : Children α}
    (inside : network.1.Inside e.2.cidrAddress)
    (added : Added network e.2.children.toList children.toList) :
    Added network (before ++ e :: after) (before ++ (e.1, e.2.withChildren children) :: after)
  -- An equal key with other host bits: its key object stays, its subtree is lost.
  | replaced {before after : List (ChildEntry α)} {e : ChildEntry α}
    (samePrefix : e.2.cidrAddress.SamePrefix network.1) (different : e.2.cidrAddress ≠ network.1) :
    Added network (before ++ e :: after) (before ++ (some (e.1.getD e.2), leaf network) :: after)
  | inserted {entries before after : List (ChildEntry α)} {children : Children α}
    (outside : entries.filter (fun e => !network.1.includesAddress e.2.cidrAddress) = before ++ after)
    (below : ∀ e ∈ before, e.2.cidrAddress.compareTo network.1 < 0)
    (above : ∀ e ∈ after, network.1.compareTo e.2.cidrAddress < 0)
    (moved : children.toList =
      (entries.filter fun e => network.1.includesAddress e.2.cidrAddress).map fun e => (none, e.2)) :
    Added network entries (before ++ (none, mk network.1 network.2 children) :: after)

section Steps

variable (rebalance : SearchTree.Rebalance (ChildEntry α))

-- Moving a child below the new node puts it after the children moved before it.
theorem addTo_adopt (nesting : Nat) {node child : NetworkNode α} {taken : List (NetworkNode α)}
    (contents : node.children.toList = taken.map fun value => (none, value))
    (inside : child.cidrAddress.Inside node.cidrAddress)
    (after : ∀ value ∈ taken, value.cidrAddress.compareTo child.cidrAddress < 0) :
    (addTo rebalance (nesting + 1) node.cidrAddress node.children child).1.toList =
      (taken ++ [child]).map fun value => (none, value) := by
  have covers : node.cidrAddress.compareTo child.cidrAddress = 0 :=
    (compareTo_eq_zero _ _).mpr (overlaps_comm.mp (overlaps_of_within inside.2))
  have theValues : values node.children = taken := by
    simp [values, contents, Function.comp_def]
  have apart (value : NetworkNode α) (member : value ∈ taken) :
      ¬value.cidrAddress.Overlaps child.cidrAddress := compareTo_neg_not_overlaps (after value member)
  have notEqual : taken.any (fun value => value.cidrAddress.equals child.cidrAddress) = false := by
    simp only [List.any_eq_false, equals_iff]
    exact fun value member same => apart value member (same ▸ overlaps_of_within (within_refl _))
  have noneMoved : taken.filter (fun value => child.cidrAddress.includesAddress value.cidrAddress) = [] := by
    simp only [List.filter_eq_nil_iff, includesAddress_iff]
    exact fun value member within => apart value member (overlaps_of_within within.2)
  have notIncluded : taken.find? (fun value => value.cidrAddress.includesAddress child.cidrAddress) = none := by
    simp only [List.find?_eq_none, includesAddress_iff]
    exact fun value member within => apart value member (overlaps_comm.mp (overlaps_of_within within.2))
  have upper : ∀ e ∈ node.children.toList, 0 < compareToKey child.cidrAddress e := by
    intro e member
    obtain ⟨value, inTaken, rfl⟩ := List.mem_map.mp (contents ▸ member)
    exact compareTo_pos.mpr (after value inTaken)
  have splits : SearchTree.Splits (compareToKey child.cidrAddress) node.children.toList := by
    apply List.pairwise_of_forall_mem_list
    exact fun a aMember b bMember =>
      ⟨fun negative => absurd (upper a aMember) (by omega), fun _ => upper a aMember⟩
  obtain ⟨before, rest, split, result, _, low⟩ := SearchTree.toList_put_absent
    (compareToKey child.cidrAddress) (none, child) (fun entry => (some (entry.1.getD entry.2), child))
    node.children splits fun e member => Int.ne_of_gt (upper e member)
  have nothingAfter : rest = [] := by
    apply List.eq_nil_iff_forall_not_mem.mpr
    intro e member
    have negative := low e member
    have positive := upper e (split ▸ List.mem_append_right before member)
    omega
  subst nothingAfter
  simp only [addTo, covers, theValues, notEqual, noneMoved, notIncluded, List.foldl_nil, ne_eq,
    not_true_eq_false, if_false, Bool.false_eq_true, putChild, SearchTree.Rebalance.toList_put, result]
  rw [List.append_nil] at split
  simp [← split, contents]

theorem adopt_all (nesting : Nat) (moved : List (NetworkNode α)) (node : NetworkNode α)
    (taken : List (NetworkNode α)) (contents : node.children.toList = taken.map fun value => (none, value))
    (inside : ∀ child ∈ moved, child.cidrAddress.Inside node.cidrAddress)
    (ordered : (taken ++ moved).Pairwise fun a b => a.cidrAddress.compareTo b.cidrAddress < 0) :
    ∃ children, moved.foldl (fun node child =>
        node.withChildren (addTo rebalance (nesting + 1) node.cidrAddress node.children child).1) node =
        node.withChildren children ∧
      children.toList = (taken ++ moved).map fun value => (none, value) := by
  induction moved generalizing node taken with
  | nil => exact ⟨node.children, by cases node; rfl, by simp [contents]⟩
  | cons child rest ih =>
    obtain ⟨_, _, across⟩ := List.pairwise_append.mp ordered
    have step := addTo_adopt rebalance nesting contents (inside child (by simp)) fun value member => across value member child (by simp)
    obtain ⟨children, result, listed⟩ := ih
      (node.withChildren (addTo rebalance (nesting + 1) node.cidrAddress node.children child).1)
      (taken ++ [child]) (by simpa using step)
      (fun value member => by simpa using inside value (by simp [member]))
      (by simpa using ordered)
    refine ⟨children, ?_, by simpa using listed⟩
    rw [List.foldl_cons, result]
    cases node
    rfl

theorem removeChild_toList {children : Children α} (wf : WF children.toList) {e : ChildEntry α}
    (member : e ∈ children.toList) :
    (removeChild rebalance children e.2).toList =
      children.toList.filter fun other => decide (e.2.cidrAddress.compareTo other.2.cidrAddress ≠ 0) := by
  have zeroSelf : compareToKey e.2.cidrAddress e = 0 :=
    (wf.compareToKey_eq_zero _ member).mpr (overlaps_of_within (within_refl _))
  obtain ⟨before, hit, after, split, hitZero, result⟩ := SearchTree.toList_remove
    (compareToKey e.2.cidrAddress) children (wf.splits _) ⟨e, member, zeroSelf⟩
  have hitMember : hit ∈ children.toList := by simp [split]
  have same : e = hit := wf.unique member hitMember ((wf.compareToKey_eq_zero _ hitMember).mp hitZero)
  subst same
  have ordered := wf.ordered
  rw [split] at ordered
  obtain ⟨_, rest, across⟩ := List.pairwise_append.mp ordered
  have beforeKept : before.filter (fun other =>
      decide (e.2.cidrAddress.compareTo other.2.cidrAddress ≠ 0)) = before := by
    apply List.filter_eq_self.mpr
    intro other inBefore
    have lower := compareTo_pos.mpr (across other inBefore e (by simp))
    exact decide_eq_true (Int.ne_of_gt lower)
  have afterKept : after.filter (fun other =>
      decide (e.2.cidrAddress.compareTo other.2.cidrAddress ≠ 0)) = after := by
    apply List.filter_eq_self.mpr
    intro other inAfter
    have higher := (List.pairwise_cons.mp rest).1 other inAfter
    exact decide_eq_true (Int.ne_of_lt higher)
  have dropped : e.2.cidrAddress.compareTo e.2.cidrAddress = 0 :=
    (compareTo_eq_zero _ _).mpr (overlaps_of_within (within_refl _))
  rw [removeChild, SearchTree.Rebalance.toList_remove, result, split, List.filter_append, beforeKept,
    List.filter_cons_of_neg (by simp [dropped]), afterKept]

theorem remove_all (moved : List (NetworkNode α)) {children : Children α} (wf : WF children.toList)
    (present : ∀ value ∈ moved, ∃ e ∈ children.toList, e.2 = value)
    (apart : moved.Pairwise fun a b => a.cidrAddress.compareTo b.cidrAddress < 0) :
    (moved.foldl (removeChild rebalance) children).toList = children.toList.filter fun other =>
      moved.all fun value => decide (value.cidrAddress.compareTo other.2.cidrAddress ≠ 0) := by
  induction moved generalizing children with
  | nil => simp
  | cons value rest ih =>
    obtain ⟨e, member, rfl⟩ := present value (by simp)
    obtain ⟨first, restApart⟩ := List.pairwise_cons.mp apart
    have step := removeChild_toList rebalance wf member
    rw [List.foldl_cons, ih (by rw [step]; exact wf.sublist List.filter_sublist) ?_ restApart, step,
      List.filter_filter]
    · apply List.filter_congr
      intro other _
      simp [Bool.and_comm]
    · intro later inRest
      obtain ⟨e', member', same⟩ := present later (by simp [inRest])
      refine ⟨e', ?_, same⟩
      rw [step, List.mem_filter]
      exact ⟨member', decide_eq_true (by rw [same]; exact Int.ne_of_lt (first later inRest))⟩

variable {this : CidrAddress} {children : Children α} {network : CidrAddress × α} {nesting : Nat}

theorem adopt_moved (network : CidrAddress × α) (wf : WF children.toList) (fits : depthBelow children ≤ nesting) :
    ∃ moved, ((values children).filter fun child => network.1.includesAddress child.cidrAddress).foldl
        (fun node child =>
          node.withChildren (addTo rebalance nesting node.cidrAddress node.children child).1) (leaf network) =
        mk network.1 network.2 moved ∧
      moved.toList = (children.toList.filter fun e =>
        network.1.includesAddress e.2.cidrAddress).map fun e => (none, e.2) := by
  cases nesting with
  | zero =>
    have empty : children.toList = [] := by
      apply List.eq_nil_iff_forall_not_mem.mpr
      intro e member
      have shallow := depthBelow_le.mp fits e member
      rw [depth_eq] at shallow
      omega
    exact ⟨.leaf, by simp [values, empty, leaf], by simp [empty, SearchTree.toList]⟩
  | succ nesting =>
    have ordered : (values children).Pairwise fun a b => a.cidrAddress.compareTo b.cidrAddress < 0 :=
      List.pairwise_map.mpr wf.ordered
    obtain ⟨moved, result, listed⟩ := adopt_all rebalance nesting
      ((values children).filter fun child => network.1.includesAddress child.cidrAddress)
      (leaf network) [] (by simp [SearchTree.toList])
      (fun child member => (includesAddress_iff _ _).mp (List.mem_filter.mp member).2)
      (by simpa using ordered.sublist List.filter_sublist)
    refine ⟨moved, result, listed.trans ?_⟩
    simp [values, List.filter_map, Function.comp_def]

theorem remove_moved (network : CidrAddress × α) (wf : WF children.toList) :
    (((values children).filter fun child => network.1.includesAddress child.cidrAddress).foldl
      (removeChild rebalance) children).toList =
      children.toList.filter fun e => !network.1.includesAddress e.2.cidrAddress := by
  have ordered : (values children).Pairwise fun a b => a.cidrAddress.compareTo b.cidrAddress < 0 :=
    List.pairwise_map.mpr wf.ordered
  rw [remove_all rebalance _ wf ?_ (ordered.sublist List.filter_sublist)]
  · apply List.filter_congr
    intro e member
    rw [Bool.eq_iff_iff, List.all_eq_true, Bool.not_eq_true', ← Bool.not_eq_true, includesAddress_iff]
    constructor
    · intro apart inside
      have chosen : e.2 ∈ (values children).filter fun child =>
          network.1.includesAddress child.cidrAddress :=
        List.mem_filter.mpr ⟨List.mem_map_of_mem member, (includesAddress_iff _ _).mpr inside⟩
      have different := of_decide_eq_true (apart e.2 chosen)
      exact different ((compareTo_eq_zero _ _).mpr (overlaps_of_within (within_refl _)))
    · intro outside value chosen
      obtain ⟨inValues, included⟩ := List.mem_filter.mp chosen
      obtain ⟨e', member', rfl⟩ := List.mem_map.mp inValues
      apply decide_eq_true
      intro zero
      have same : e' = e := wf.unique member' member ((compareTo_eq_zero _ _).mp zero)
      exact outside (same ▸ (includesAddress_iff _ _).mp included)
  · intro value chosen
    obtain ⟨e, member, same⟩ := List.mem_map.mp (List.mem_filter.mp chosen).1
    exact ⟨e, member, same⟩

-- `addTo` once the duplicates are excluded and the moved children have changed sides.
theorem addTo_fresh (wf : WF children.toList) (covers : this.compareTo network.1 = 0)
    (fits : depthBelow children ≤ nesting) (fresh : ∀ e ∈ children.toList, e.2.cidrAddress ≠ network.1) :
    ∃ kept moved : Children α,
      kept.toList = (children.toList.filter fun e => !network.1.includesAddress e.2.cidrAddress) ∧
      moved.toList = (children.toList.filter fun e =>
        network.1.includesAddress e.2.cidrAddress).map (fun e => (none, e.2)) ∧
      (addTo rebalance (nesting + 1) this children (leaf network)).1 =
        match kept.toList.find? fun e => e.2.cidrAddress.includesAddress network.1 with
        | some e => kept.updateFirst (fun e => e.2.cidrAddress.includesAddress network.1) fun entry =>
            (entry.1, entry.2.withChildren
              (addTo rebalance nesting e.2.cidrAddress e.2.children (mk network.1 network.2 moved)).1)
        | none => putChild rebalance kept (mk network.1 network.2 moved) := by
  obtain ⟨moved, adopted, movedList⟩ := adopt_moved rebalance network wf fits
  refine ⟨_, moved, remove_moved rebalance network wf, movedList, ?_⟩
  have noDuplicate : (values children).any (fun child => child.cidrAddress.equals network.1) = false := by
    simp only [List.any_eq_false, equals_iff]
    intro value inValues
    obtain ⟨e, member, rfl⟩ := List.mem_map.mp inValues
    exact fresh e member
  simp only [addTo, leaf_cidrAddress, covers, noDuplicate, adopted, ne_eq, not_true_eq_false, if_false,
    Bool.false_eq_true]
  simp only [values, cidrAddress, List.find?_map, Function.comp_def]
  split
  next hit =>
    obtain ⟨e, found, rfl⟩ := Option.map_eq_some_iff.mp hit
    simp only [found]
  next miss =>
    rw [Option.map_eq_none_iff] at miss
    simp only [miss]

-- A network cannot lie inside a sibling and hold another one, nor share a sibling's prefix and hold one.
theorem none_moved (wf : WF children.toList) {e : ChildEntry α} (member : e ∈ children.toList)
    (outer : network.1.Within e.2.cidrAddress) :
    children.toList.filter (fun e => network.1.includesAddress e.2.cidrAddress) = [] ∧
      children.toList.filter (fun e => !network.1.includesAddress e.2.cidrAddress) = children.toList := by
  have outside : ∀ other ∈ children.toList, network.1.includesAddress other.2.cidrAddress = false := by
    intro other otherMember
    rw [← Bool.not_eq_true, includesAddress_iff]
    intro inside
    have same : other = e := wf.unique otherMember member
      (overlaps_of_within (within_trans inside.2 outer))
    subst same
    have longer := inside.1
    have shorter := outer.1
    omega
  exact ⟨List.filter_eq_nil_iff.mpr fun other otherMember => by simp [outside other otherMember],
    List.filter_eq_self.mpr fun other otherMember => by simp [outside other otherMember]⟩

theorem eq_leaf {children : Children α} (empty : children.toList = []) : children = .leaf := by
  cases children with
  | leaf => rfl
  | node => simp [SearchTree.toList] at empty

theorem putChild_added (wf : WF children.toList) {kept moved : Children α}
    (keptList : kept.toList = children.toList.filter fun e => !network.1.includesAddress e.2.cidrAddress)
    (movedList : moved.toList = (children.toList.filter fun e =>
      network.1.includesAddress e.2.cidrAddress).map fun e => (none, e.2))
    (fresh : ∀ e ∈ children.toList, e.2.cidrAddress ≠ network.1)
    (notInside : ∀ e ∈ kept.toList, ¬network.1.Inside e.2.cidrAddress) :
    Added network children.toList (putChild rebalance kept (mk network.1 network.2 moved)).toList := by
  have keptWf : WF kept.toList := keptList ▸ wf.sublist List.filter_sublist
  rw [putChild, SearchTree.Rebalance.toList_put]
  by_cases present : ∃ e ∈ kept.toList, compareToKey network.1 e = 0
  · obtain ⟨before, hit, after, split, zero, result⟩ := SearchTree.toList_put_present
      (compareToKey network.1) (none, mk network.1 network.2 moved)
      (fun entry => (some (entry.1.getD entry.2), mk network.1 network.2 moved)) kept
      (keptWf.splits _) present
    have hitKept : hit ∈ kept.toList := by simp [split]
    obtain ⟨hitMember, hitOutside⟩ := List.mem_filter.mp (keptList ▸ hitKept)
    have samePrefix : hit.2.cidrAddress.SamePrefix network.1 := by
      rcases overlaps_cases ((keptWf.compareToKey_eq_zero _ hitKept).mp zero) with inside | same | holds
      · exact absurd inside (notInside hit hitKept)
      · exact samePrefix_symm same
      · have included := (includesAddress_iff network.1 hit.2.cidrAddress).mpr holds
        simp [included] at hitOutside
    obtain ⟨noMoved, allKept⟩ := none_moved wf hitMember (samePrefix_symm samePrefix).2
    obtain rfl : moved = .leaf := eq_leaf (by simp [movedList, noMoved])
    rw [cidrAddress, result, ← allKept, ← keptList, split]
    exact .replaced samePrefix (fresh hit hitMember)
  · obtain ⟨before, after, split, result, low, high⟩ := SearchTree.toList_put_absent
      (compareToKey network.1) (none, mk network.1 network.2 moved)
      (fun entry => (some (entry.1.getD entry.2), mk network.1 network.2 moved)) kept
      (keptWf.splits _) fun e member zero => present ⟨e, member, zero⟩
    rw [cidrAddress, result]
    refine .inserted (keptList ▸ split) ?_ ?_ movedList
    · intro e member
      have inKept := split ▸ List.mem_append_left after member
      rw [← compareTo_pos]
      exact (compareTo_pos_congr (keptWf.keys e inKept)).mp (low e member)
    · intro e member
      have inKept := split ▸ List.mem_append_right before member
      exact (compareTo_neg_congr (keptWf.keys e inKept)).mp (high e member)

theorem addTo_added_step (wf : WF children.toList) (covers : this.compareTo network.1 = 0)
    (fits : depthBelow children ≤ nesting)
    (below : ∀ e ∈ children.toList, e.2.cidrAddress.compareTo network.1 = 0 →
      Added network e.2.children.toList
        (addTo rebalance nesting e.2.cidrAddress e.2.children (leaf network)).1.toList) :
    Added network children.toList (addTo rebalance (nesting + 1) this children (leaf network)).1.toList := by
  by_cases duplicate : ∃ e ∈ children.toList, e.2.cidrAddress = network.1
  · obtain ⟨e, member, same⟩ := duplicate
    have anyEqual : (values children).any (fun child => child.cidrAddress.equals network.1) = true := by
      rw [List.any_eq_true]
      exact ⟨e.2, List.mem_map_of_mem member, (equals_iff _ _).mpr same⟩
    simp only [addTo, leaf_cidrAddress, covers, anyEqual, ne_eq, not_true_eq_false, if_true, if_false]
    exact .duplicate member same
  · have fresh : ∀ e ∈ children.toList, e.2.cidrAddress ≠ network.1 :=
      fun e member same => duplicate ⟨e, member, same⟩
    obtain ⟨kept, moved, keptList, movedList, result⟩ := addTo_fresh rebalance wf covers fits fresh
    rw [result]
    split
    next e found =>
      obtain ⟨chosen, before, after, split, others⟩ := List.find?_eq_some_iff_append.mp found
      have inside := (includesAddress_iff _ _).mp chosen
      have inKept : e ∈ kept.toList := List.mem_of_find?_eq_some found
      have member := (List.mem_filter.mp (keptList ▸ inKept)).1
      obtain ⟨noMoved, allKept⟩ := none_moved wf member inside.2
      obtain rfl : moved = .leaf := eq_leaf (by simp [movedList, noMoved])
      rw [SearchTree.toList_updateFirst _ _ _ before after e split (by simpa using others) chosen,
        ← allKept, ← keptList, split]
      have zero : e.2.cidrAddress.compareTo network.1 = 0 :=
        (compareTo_eq_zero _ _).mpr (overlaps_comm.mp (overlaps_of_within inside.2))
      exact .deeper inside (below e member zero)
    next missing =>
      refine putChild_added rebalance wf keptList movedList fresh fun e member inside => ?_
      have notChosen := List.find?_eq_none.mp missing e member
      exact notChosen ((includesAddress_iff _ _).mpr inside)

theorem addTo_added (wf : WF children.toList) (covers : this.compareTo network.1 = 0)
    (fits : depthBelow children ≤ nesting) :
    Added network children.toList (addTo rebalance (nesting + 1) this children (leaf network)).1.toList := by
  induction nesting generalizing this children with
  | zero =>
    apply addTo_added_step rebalance wf covers fits
    intro e member
    have shallow := depthBelow_le.mp fits e member
    rw [depth_eq] at shallow
    omega
  | succ nesting ih =>
    apply addTo_added_step rebalance wf covers fits
    intro e member zero
    have shallow := depthBelow_le.mp fits e member
    rw [depth_eq] at shallow
    exact ih (wf.subtrees e member) zero (by omega)

end Steps

section Preservation

variable {network : CidrAddress × α} {entries entries' : List (ChildEntry α)}

theorem Added.address (added : Added network entries entries') :
    ∀ c ∈ entries', c.2.cidrAddress = network.1 ∨ ∃ c' ∈ entries, c.2.cidrAddress = c'.2.cidrAddress := by
  intro c member
  cases added with
  | duplicate => exact Or.inr ⟨c, member, rfl⟩
  | @deeper before after e children inside added =>
    rcases List.mem_append.mp member with member | member
    · exact Or.inr ⟨c, by simp [member], rfl⟩
    · rcases List.mem_cons.mp member with rfl | member
      · exact Or.inr ⟨e, by simp, by simp⟩
      · exact Or.inr ⟨c, by simp [member], rfl⟩
  | @replaced before after e samePrefix different =>
    rcases List.mem_append.mp member with member | member
    · exact Or.inr ⟨c, by simp [member], rfl⟩
    · rcases List.mem_cons.mp member with rfl | member
      · exact Or.inl rfl
      · exact Or.inr ⟨c, by simp [member], rfl⟩
  | @inserted _ before after children outside below above moved =>
    rcases List.mem_append.mp member with member | member
    · have kept := outside ▸ List.mem_append_left after member
      exact Or.inr ⟨c, (List.mem_filter.mp kept).1, rfl⟩
    · rcases List.mem_cons.mp member with rfl | member
      · exact Or.inl rfl
      · have kept := outside ▸ List.mem_append_right before member
        exact Or.inr ⟨c, (List.mem_filter.mp kept).1, rfl⟩

theorem WF.insert {before after : List (ChildEntry α)} {e : ChildEntry α} (wf : WF (before ++ after))
    (below : ∀ x ∈ before, x.2.cidrAddress.compareTo e.2.cidrAddress < 0)
    (above : ∀ x ∈ after, e.2.cidrAddress.compareTo x.2.cidrAddress < 0)
    (key : (keyAddress e).SamePrefix e.2.cidrAddress)
    (nested : ∀ c ∈ e.2.children.toList, c.2.cidrAddress.Inside e.2.cidrAddress)
    (subtree : WF e.2.children.toList) : WF (before ++ e :: after) := by
  have others {property : ChildEntry α → Prop} (holds : ∀ x ∈ before ++ after, property x)
      (new : property e) : ∀ x ∈ before ++ e :: after, property x := by
    intro x member
    rcases List.mem_append.mp member with member | member
    · exact holds x (by simp [member])
    · rcases List.mem_cons.mp member with rfl | member
      · exact new
      · exact holds x (by simp [member])
  obtain ⟨beforeOrdered, afterOrdered, across⟩ := List.pairwise_append.mp wf.ordered
  refine .mk ?_ (others wf.keys key) (others wf.nested nested) (others wf.subtrees subtree)
  refine List.pairwise_append.mpr ⟨beforeOrdered, List.pairwise_cons.mpr ⟨above, afterOrdered⟩, ?_⟩
  intro x member y member'
  rcases List.mem_cons.mp member' with rfl | member'
  · exact below x member
  · exact across x member y member'

-- Exchanging one entry for another with the same prefix and a well-formed subtree.
theorem WF.exchange {before after : List (ChildEntry α)} {e e' : ChildEntry α}
    (wf : WF (before ++ e :: after)) (samePrefix : e.2.cidrAddress.SamePrefix e'.2.cidrAddress)
    (key : keyAddress e' = keyAddress e)
    (nested : ∀ c ∈ e'.2.children.toList, c.2.cidrAddress.Inside e'.2.cidrAddress)
    (subtree : WF e'.2.children.toList) : WF (before ++ e' :: after) := by
  have kept : WF (before ++ after) :=
    wf.sublist (List.Sublist.append (List.Sublist.refl _) (List.sublist_cons_self _ _))
  obtain ⟨_, rest, across⟩ := List.pairwise_append.mp wf.ordered
  refine kept.insert ?_ ?_ (key ▸ samePrefix_trans (wf.keys e (by simp)) samePrefix) nested subtree
  · exact fun x member => (compareTo_neg_congr samePrefix).mp (across x member e (by simp))
  · intro x member
    have higher := compareTo_pos.mpr ((List.pairwise_cons.mp rest).1 x member)
    exact compareTo_pos.mp ((compareTo_pos_congr samePrefix).mp higher)

theorem WF.moved (wf : WF entries) : WF (entries.map fun e => (none, e.2)) := by
  refine .mk (List.pairwise_map.mpr wf.ordered) ?_ ?_ ?_
  · intro c member
    obtain ⟨e, _, rfl⟩ := List.mem_map.mp member
    exact samePrefix_refl _
  · intro c member
    obtain ⟨e, original, rfl⟩ := List.mem_map.mp member
    exact wf.nested e original
  · intro c member
    obtain ⟨e, original, rfl⟩ := List.mem_map.mp member
    exact wf.subtrees e original

theorem wf_nil : WF ([] : List (ChildEntry α)) := .mk .nil (by simp) (by simp) (by simp)

theorem Added.wf (added : Added network entries entries') (wf : WF entries) : WF entries' := by
  induction added with
  | duplicate => exact wf
  | @deeper before after e children inside added ih =>
    have member : e ∈ before ++ e :: after := by simp
    have key : keyAddress (e.1, e.2.withChildren children) = keyAddress e := by
      rcases e with ⟨_ | key, value⟩ <;> simp [keyAddress]
    refine wf.exchange (by simpa using samePrefix_refl _) key ?_ (by simpa using ih (wf.subtrees e member))
    intro c inChildren
    simp only [withChildren_children, withChildren_cidrAddress] at inChildren ⊢
    rcases added.address c inChildren with new | ⟨c', old, same⟩
    · exact new ▸ inside
    · exact same ▸ wf.nested e member c' old
  | replaced samePrefix different =>
    exact wf.exchange samePrefix rfl (by simp [SearchTree.toList]) wf_nil
  | @inserted entries before after children outside below above moved =>
    have kept : WF (before ++ after) := outside ▸ wf.sublist List.filter_sublist
    refine kept.insert below above (samePrefix_refl _) ?_ ?_
    · intro c member
      rw [NetworkNode.children, moved] at member
      obtain ⟨e, chosen, rfl⟩ := List.mem_map.mp member
      exact (includesAddress_iff _ _).mp (List.mem_filter.mp chosen).2
    · rw [NetworkNode.children, moved]
      exact (wf.sublist List.filter_sublist).moved

end Preservation

end TrafficControl.TrafficRouter.NetworkNode
