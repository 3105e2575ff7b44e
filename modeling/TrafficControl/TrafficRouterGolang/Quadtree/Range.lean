import TrafficControl.TrafficRouterGolang.Quadtree.Nearest

set_option autoImplicit false

-- The search for the objects in a rectangle.
namespace TrafficRouterGolang.Quadtree

section Search

variable (top left bottom right : Rat)

def inRect (lat lon : Rat) : Bool := lat < top ∧ lat > bottom ∧ lon > left ∧ lon < right

def elementsInRect (elements : List DataT) : List DataT := elements.filter fun e => inRect top left bottom right e.lat e.lon

-- The rectangle is beyond a border of the cell.
def apart (n : Cell) : Bool := top < n.bottom ∨ bottom > n.top ∨ left > n.right ∨ right < n.left

def get : Node → List DataT
  | .leaf cell elements => if apart top left bottom right cell then [] else elementsInRect top left bottom right elements
  | .split cell children =>
    if apart top left bottom right cell then []
    else get (children .topLeft) ++ get (children .topRight) ++ get (children .bottomLeft) ++ get (children .bottomRight)

end Search

def Node.elements : Node → List DataT
  | .leaf _ elements => elements
  | .split _ children =>
    (children .topLeft).elements ++ (children .topRight).elements ++ (children .bottomLeft).elements ++ (children .bottomRight).elements

section Elements

variable {cell : Cell} {points : Set DataT}

theorem mem_split_elements {children : Quadrant → Node} {e : DataT} :
    e ∈ (Node.split cell children).elements ↔ ∃ k, e ∈ (children k).elements := by
  simp only [Node.elements, List.mem_append]
  constructor
  · rintro (((inTopLeft | inTopRight) | inBottomLeft) | inBottomRight)
    · exact ⟨.topLeft, inTopLeft⟩
    · exact ⟨.topRight, inTopRight⟩
    · exact ⟨.bottomLeft, inBottomLeft⟩
    · exact ⟨.bottomRight, inBottomRight⟩
  · rintro ⟨k, member⟩
    cases k <;> simp [member]

theorem mem_elements_iff {n : Node} (represents : Represents n cell points) (e : DataT) : e ∈ n.elements ↔ e ∈ points := by
  induction n generalizing cell points with
  | leaf c elements => exact represents.2.2 e
  | split c children ih =>
    obtain ⟨rfl, -, represents⟩ := represents
    rw [mem_split_elements]
    constructor
    · rintro ⟨k, member⟩
      exact ((ih k (represents k)).mp member).1
    · intro member
      exact ⟨c.quadrant e.lat e.lon, (ih _ (represents _)).mpr ⟨member, rfl⟩⟩

/-- A rectangle beyond a border has no point of the cell. -/
theorem not_inRect_of_apart {top left bottom right lat lon : Rat} (beyond : apart top left bottom right cell = true)
    (inside : cell.Inside lat lon) : inRect top left bottom right lat lon = false := by
  obtain ⟨fromLeft, toRight, fromBottom, toTop⟩ := inside
  unfold apart at beyond
  unfold inRect
  rw [decide_eq_true_iff] at beyond
  rw [decide_eq_false_iff_not]
  rintro ⟨belowTop, aboveBottom, afterLeft, beforeRight⟩
  rcases beyond with low | high | east | west
  · linarith
  · linarith
  · linarith
  · linarith

theorem elementsInRect_apart {n : Node} (represents : Represents n cell points) (inside : ∀ e ∈ points, cell.Inside e.lat e.lon)
    {top left bottom right : Rat} (beyond : apart top left bottom right cell = true) :
    elementsInRect top left bottom right n.elements = [] := by
  refine List.filter_eq_nil_iff.mpr fun e member => ?_
  rw [not_inRect_of_apart beyond (inside e ((mem_elements_iff represents e).mp member))]
  exact Bool.false_ne_true

/-- In a tree of points inside their cells the search finds what a scan of all elements does. -/
theorem get_eq_elementsInRect {n : Node} (represents : Represents n cell points) (inside : ∀ e ∈ points, cell.Inside e.lat e.lon)
    (top left bottom right : Rat) : get top left bottom right n = elementsInRect top left bottom right n.elements := by
  induction n generalizing cell points with
  | leaf c elements =>
    have pruned := @elementsInRect_apart _ _ _ represents inside top left bottom right
    obtain ⟨rfl, -, -⟩ := represents
    unfold get
    split_ifs with beyond
    · exact (pruned beyond).symm
    · rfl
  | split c children ih =>
    have pruned := @elementsInRect_apart _ _ _ represents inside top left bottom right
    obtain ⟨rfl, -, represents⟩ := represents
    unfold get
    split_ifs with beyond
    · exact (pruned beyond).symm
    · have below (k : Quadrant) : get top left bottom right (children k) = elementsInRect top left bottom right (children k).elements := by
        refine ih k (represents k) ?_
        rintro e ⟨member, rfl⟩
        exact Cell.child_inside (inside e member)
      rw [below, below, below, below]
      simp only [elementsInRect, Node.elements, List.filter_append]

end Elements

section Counts

variable {cell : Cell} {d : DataT}

/-- One insertion into a child adds the element, for any insertion that adds it below. -/
theorem insertAppropriateChild_perm {insert : Node → DataT → Option Node}
    (adds : ∀ n n' d, insert n d = some n' → n'.elements.Perm (d :: n.elements)) {children children' : Quadrant → Node}
    (inserted : insertAppropriateChild insert cell children d = some children') :
    (Node.split cell children').elements.Perm (d :: (Node.split cell children).elements) := by
  obtain ⟨child, below, rfl⟩ := Option.map_eq_some_iff.mp inserted
  have counts := (adds _ _ _ below).count_eq
  refine List.perm_iff_count.mpr fun e => ?_
  have count := counts e
  revert count
  cases cell.quadrant d.lat d.lon <;>
    · intro count
      simp only [Node.elements, Function.update_self, List.count_append, List.count_cons, ne_eq, reduceCtorEq, not_false_eq_true,
        Function.update_of_ne] at count ⊢
      omega

theorem insertAll_perm {insert : Node → DataT → Option Node}
    (adds : ∀ n n' d, insert n d = some n' → n'.elements.Perm (d :: n.elements)) {elements : List DataT}
    {children children' : Quadrant → Node} (inserted : elements.foldlM (insertAppropriateChild insert cell) children = some children') :
    (Node.split cell children').elements.Perm (elements ++ (Node.split cell children).elements) := by
  induction elements generalizing children with
  | nil =>
    cases inserted
    exact List.Perm.refl _
  | cons d elements ih =>
    rw [List.foldlM_cons] at inserted
    obtain ⟨next, first, rest⟩ := Option.bind_eq_some_iff.mp inserted
    have later := (ih rest).trans ((insertAppropriateChild_perm adds first).append_left elements)
    exact later.trans List.perm_middle

theorem insert_perm {fuel : Nat} {n n' : Node} {d : DataT} (inserted : insert fuel n d = some n') :
    n'.elements.Perm (d :: n.elements) := by
  induction fuel generalizing n n' d with
  | zero => cases inserted
  | succ fuel ih =>
    cases n with
    | leaf cell elements =>
      unfold insert at inserted
      dsimp only at inserted
      split at inserted
      · cases inserted
        exact List.perm_append_singleton d elements
      · obtain ⟨children, put, rfl⟩ := Option.map_eq_some_iff.mp inserted
        have all := insertAll_perm (fun n n' d => ih) put
        have none : (Node.split cell (newChildren cell)).elements = [] := rfl
        rw [none, List.append_nil] at all
        exact all.trans (List.perm_append_singleton d elements)
    | split cell children =>
      obtain ⟨children', put, rfl⟩ := Option.map_eq_some_iff.mp inserted
      exact insertAppropriateChild_perm (fun n n' d => ih) put

theorem foldlM_insert_perm {fuel : Nat} {points : List DataT} {n n' : Node} (built : points.foldlM (insert fuel) n = some n') :
    n'.elements.Perm (points ++ n.elements) := by
  induction points generalizing n with
  | nil =>
    cases built
    exact List.Perm.refl _
  | cons d points ih =>
    rw [List.foldlM_cons] at built
    obtain ⟨next, first, rest⟩ := Option.bind_eq_some_iff.mp built
    exact ((ih rest).trans ((insert_perm first).append_left points)).trans List.perm_middle

/-- The tree holds each point as often as it was inserted. -/
theorem build_perm {fuel : Nat} {points : List DataT} {tree : Node} (built : build fuel points = some tree) :
    tree.elements.Perm points := by
  have all := foldlM_insert_perm built
  rwa [Node.elements, List.append_nil] at all

end Counts

section Borders

theorem get_apart {top left bottom right : Rat} {cell : Cell} (beyond : apart top left bottom right cell = true) {n : Node}
    {points : Set DataT} (represents : Represents n cell points) : get top left bottom right n = [] := by
  cases n with
  | leaf c elements =>
    rw [get, represents.1, if_pos beyond]
  | split c children =>
    rw [get, represents.1, if_pos beyond]

/-- Around a point outside there is a rectangle beyond a border of the cell. -/
theorem exists_apart {cell : Cell} {lat lon : Rat} (outside : ¬cell.Inside lat lon) :
    ∃ top left bottom right, apart top left bottom right cell = true ∧ inRect top left bottom right lat lon = true := by
  have around : ∀ margin, 0 < margin → inRect (lat + margin) (lon - margin) (lat - margin) (lon + margin) lat lon = true := by
    intro margin positive
    unfold inRect
    rw [decide_eq_true_iff]
    exact ⟨by linarith, by linarith, by linarith, by linarith⟩
  have beyond : ∃ margin, 0 < margin ∧ apart (lat + margin) (lon - margin) (lat - margin) (lon + margin) cell = true := by
    unfold Cell.Inside at outside
    simp only [apart, decide_eq_true_iff]
    by_cases west : lon < cell.left
    · exact ⟨(cell.left - lon) / 2, by linarith, Or.inr (Or.inr (Or.inr (by linarith)))⟩
    by_cases east : cell.right < lon
    · exact ⟨(lon - cell.right) / 2, by linarith, Or.inr (Or.inr (Or.inl (by linarith)))⟩
    by_cases south : lat < cell.bottom
    · exact ⟨(cell.bottom - lat) / 2, by linarith, Or.inl (by linarith)⟩
    by_cases north : cell.top < lat
    · exact ⟨(lat - cell.top) / 2, by linarith, Or.inr (Or.inl (by linarith))⟩
    · exact absurd ⟨not_lt.mp west, not_lt.mp east, not_lt.mp south, not_lt.mp north⟩ outside
  obtain ⟨margin, positive, beyond⟩ := beyond
  exact ⟨_, _, _, _, beyond, around margin positive⟩

/-- The insertions end, and every search of a rectangle finds the inserted points in it, as often as they were inserted. -/
def ExactRanges (points : List DataT) : Prop :=
  ∃ tree, (∃ fuel, build fuel points = some tree) ∧
    ∀ top left bottom right, (get top left bottom right tree).Perm (elementsInRect top left bottom right points)

/-- Searches are exact for the points inside the map, and only for those. -/
theorem exactRanges_iff (points : List DataT) : ExactRanges points ↔ ∀ d ∈ points, world.Inside d.lat d.lon := by
  constructor
  · rintro ⟨tree, ⟨fuel, built⟩, exact_⟩ d member
    by_contra outside
    obtain ⟨top, left, bottom, right, beyond, inside⟩ := exists_apart outside
    have none := (exact_ top left bottom right).symm
    rw [get_apart beyond (build_represents built)] at none
    have found : d ∈ elementsInRect top left bottom right points := List.mem_filter.mpr ⟨member, inside⟩
    rw [none.eq_nil] at found
    exact List.not_mem_nil found
  · intro inside
    obtain ⟨fuel, tree, built⟩ := build_total inside
    refine ⟨tree, ⟨fuel, built⟩, fun top left bottom right => ?_⟩
    rw [get_eq_elementsInRect (build_represents built) inside]
    exact (build_perm built).filter _

/-- Two points beyond the same corner are never separated. -/
theorem insert_beyond {fuel : Nat} {cell : Cell} {e d : DataT} (apart : ¬e.SamePos d) (width : cell.left < cell.right)
    (height : cell.bottom < cell.top) (east : cell.right ≤ e.lon ∧ cell.right ≤ d.lon) (north : cell.top ≤ e.lat ∧ cell.top ≤ d.lat) :
    insert fuel (.leaf cell [e]) d = none := by
  induction fuel generalizing cell with
  | zero => rfl
  | succ fuel ih =>
    have corner : ∀ f : DataT, cell.right ≤ f.lon → cell.top ≤ f.lat → cell.quadrant f.lat f.lon = .topRight := by
      intro f lon lat
      have notLeft : ¬f.lon < cell.leftMid := by
        unfold Cell.leftMid
        linarith
      have inTop : f.lat > cell.topMid := by
        unfold Cell.topMid
        linarith
      unfold Cell.quadrant
      simp [notLeft, inTop]
    have splits : ¬stays [e, d] = true := by
      simpa [stays, elementSize] using apart
    unfold insert
    simp only [List.singleton_append, if_neg splits, Option.map_eq_none_iff, List.foldlM_cons, List.foldlM_nil]
    cases fuel with
    | zero => rfl
    | succ fuel =>
      have below : insert (fuel + 1) (.leaf (cell.child .topRight) [e]) d = none := by
        refine ih ?_ ?_ east north
        · have half := cell.child_width .topRight
          linarith
        · have half := cell.child_height .topRight
          linarith
      have first : insertAppropriateChild (insert (fuel + 1)) cell (newChildren cell) e =
          some (Function.update (newChildren cell) .topRight (.leaf (cell.child .topRight) [e])) := by
        rw [insertAppropriateChild, corner e east.1 north.1]
        rfl
      have second : insertAppropriateChild (insert (fuel + 1)) cell
          (Function.update (newChildren cell) .topRight (.leaf (cell.child .topRight) [e])) d = none := by
        rw [insertAppropriateChild, corner d east.2 north.2, Function.update_self, below]
        rfl
      rw [first]
      simp [second]

theorem build_beyond {fuel : Nat} {e d : DataT} (apart : ¬e.SamePos d) (east : world.right ≤ e.lon ∧ world.right ≤ d.lon)
    (north : world.top ≤ e.lat ∧ world.top ≤ d.lat) : build fuel [e, d] = none := by
  cases fuel with
  | zero => rfl
  | succ fuel =>
    have first : insert (fuel + 1) (.leaf world []) e = some (.leaf world [e]) := insert_stays rfl
    have second : insert (fuel + 1) (.leaf world [e]) d = none :=
      insert_beyond apart (by norm_num [world]) (by norm_num [world]) east north
    unfold build
    rw [List.foldlM_cons, first]
    simp [second]

def outside : DataT where
  lat := 100
  lon := 100
  obj := "a"

/-- A point outside the map is not found in a rectangle around it, and the insertions of two of them need not end. -/
theorem not_exactRanges : build 1 [outside] = some (.leaf world [outside]) ∧ get 105 95 95 105 (.leaf world [outside]) = [] ∧
    elementsInRect 105 95 95 105 [outside] = [outside] ∧ ¬ExactRanges [outside] ∧
    ∀ fuel, build fuel [{ outside with lon := 200 }, { outside with lon := 201 }] = none := by
  refine ⟨rfl, by decide +kernel, by decide +kernel, ?_, fun fuel => ?_⟩
  · rintro ⟨tree, ⟨fuel, built⟩, exact_⟩
    have none := exact_ 105 95 95 105
    have beyond : apart 105 95 95 105 world = true := by decide +kernel
    have found : elementsInRect 105 95 95 105 [outside] = [outside] := by decide +kernel
    rw [get_apart beyond (build_represents built), found] at none
    exact absurd none.symm.eq_nil (List.cons_ne_nil _ _)
  · exact build_beyond (by norm_num [DataT.SamePos]) (by norm_num [world]) (by norm_num [world, outside])

end Borders

end TrafficRouterGolang.Quadtree
