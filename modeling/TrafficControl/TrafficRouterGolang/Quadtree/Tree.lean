import TrafficControl.TrafficRouterGolang.Quadtree.Cells
import Mathlib.Data.Set.Insert
import Mathlib.Logic.Function.Basic
import Mathlib.Tactic.Ring

set_option autoImplicit false

-- The quadtree of the router and its search for the nearest object.
namespace TrafficRouterGolang.Quadtree

/-- A node that has split has no elements of its own. -/
inductive Node where
  | leaf (cell : Cell) (elements : List DataT)
  | split (cell : Cell) (children : Quadrant → Node)

def elementSize : Nat := 1

/-- `split` leaves the node as it is. -/
def stays (elements : List DataT) : Bool :=
  if elements.length ≤ elementSize then true
  else
    match elements.reverse with
    | last :: previous :: _ => previous.SamePos last
    | _ => false

def insertAppropriateChild (insert : Node → DataT → Option Node) (cell : Cell) (children : Quadrant → Node) (d : DataT) :
    Option (Quadrant → Node) :=
  let k := cell.quadrant d.lat d.lon
  (insert (children k) d).map (Function.update children k)

/-- The children of a node that splits. -/
def newChildren (cell : Cell) (k : Quadrant) : Node := .leaf (cell.child k) []

/-- The fuel bounds how often nodes split one below the other. -/
def insert : Nat → Node → DataT → Option Node
  | 0, _, _ => none
  | fuel + 1, .leaf cell elements, d =>
    let elements := elements ++ [d]
    if stays elements then some (.leaf cell elements)
    else (elements.foldlM (insertAppropriateChild (insert fuel) cell) (newChildren cell)).map (.split cell)
  | fuel + 1, .split cell children, d => (insertAppropriateChild (insert fuel) cell children d).map (.split cell)

/-- The tree of `New` after the insertions. -/
def build (fuel : Nat) (points : List DataT) : Option Node := points.foldlM (insert fuel) (.leaf world [])

section Search

variable (top left : Rat)

def maxFloat64 : Rat := (2 ^ 53 - 1) * 2 ^ 971

def closer (best : DataT × Rat) (candidate : DataT) : DataT × Rat :=
  let d := distSq top left candidate.lat candidate.lon
  if d < best.2 then (candidate, d) else best

def bestOf (candidates : List DataT) : Option DataT :=
  if candidates = [] then none
  else some (candidates.foldl (closer top left) ({ lat := 0, lon := 0, obj := "" }, maxFloat64)).1

def nearest : Node → Option DataT
  | .leaf _ elements => bestOf top left elements
  | .split cell children =>
    let own := (nearest (children (cell.quadrant top left))).toList
    if own = [] then
      bestOf top left ([.topLeft, .topRight, .bottomLeft, .bottomRight].filterMap fun k => nearest (children k))
    else bestOf top left own

end Search

/-- The points of a node are those of a set, and the cells are split where they are at several positions. -/
def Represents : Node → Cell → Set DataT → Prop
  | .leaf c elements, cell, points => c = cell ∧ OnePos points ∧ ∀ d, d ∈ elements ↔ d ∈ points
  | .split c children, cell, points =>
    c = cell ∧ ¬OnePos points ∧ ∀ k, Represents (children k) (cell.child k) (within cell points k)

section Insertion

variable {cell : Cell} {points : Set DataT} {d : DataT}

theorem within_insert (k : Quadrant) : within cell (Insert.insert d points) k =
    if k = cell.quadrant d.lat d.lon then Insert.insert d (within cell points k) else within cell points k := by
  ext e
  by_cases here : k = cell.quadrant d.lat d.lon
  · rw [if_pos here]
    constructor
    · rintro ⟨rfl | member, quadrant⟩
      · exact Or.inl rfl
      · exact Or.inr ⟨member, quadrant⟩
    · rintro (rfl | ⟨member, quadrant⟩)
      · exact ⟨Or.inl rfl, here.symm⟩
      · exact ⟨Or.inr member, quadrant⟩
  · rw [if_neg here]
    constructor
    · rintro ⟨rfl | member, quadrant⟩
      · exact absurd quadrant.symm here
      · exact ⟨member, quadrant⟩
    · rintro ⟨member, quadrant⟩
      exact ⟨Or.inr member, quadrant⟩

theorem stays_iff {elements : List DataT} (one : OnePos {e | e ∈ elements}) :
    stays (elements ++ [d]) = true ↔ OnePos {e | e ∈ elements ++ [d]} := by
  rcases List.eq_nil_or_concat elements with rfl | ⟨others, last, rfl⟩
  · refine iff_of_true rfl ?_
    rintro e (member : e ∈ [d]) f (member' : f ∈ [d])
    rw [List.mem_singleton.mp member, List.mem_singleton.mp member']
    exact ⟨rfl, rfl⟩
  · have same : stays (others ++ [last] ++ [d]) = decide (last.SamePos d) := by simp [stays, elementSize]
    rw [List.concat_eq_append] at one ⊢
    rw [same, decide_eq_true_iff]
    constructor
    · intro ends
      have toLast : ∀ e ∈ others ++ [last] ++ [d], e.SamePos last := by
        intro e member
        rcases List.mem_append.mp member with old | new
        · exact one e old last (List.mem_append_right _ List.mem_cons_self)
        · rw [List.mem_singleton.mp new]
          exact ends.symm
      exact fun e member f member' => (toLast e member).trans (toLast f member').symm
    · exact fun all => all last (by simp) d (by simp)

/-- What one insertion into a child keeps, for any insertion that keeps it below. -/
theorem insertAppropriateChild_represents {insert : Node → DataT → Option Node}
    (kept : ∀ n n' cell points d, Represents n cell points → insert n d = some n' →
      Represents n' cell (Insert.insert d points))
    {children children' : Quadrant → Node} (represents : ∀ k, Represents (children k) (cell.child k) (within cell points k))
    (inserted : insertAppropriateChild insert cell children d = some children') (k : Quadrant) :
    Represents (children' k) (cell.child k) (within cell (Insert.insert d points) k) := by
  obtain ⟨child, below, rfl⟩ := Option.map_eq_some_iff.mp inserted
  rw [within_insert]
  by_cases here : k = cell.quadrant d.lat d.lon
  · rw [if_pos here, here, Function.update_self]
    exact kept _ _ _ _ _ (represents _) below
  · rw [if_neg here, Function.update_of_ne here]
    exact represents k

theorem insert_union_list (elements : List DataT) :
    {e | e ∈ elements} ∪ Insert.insert d points = {e | e ∈ d :: elements} ∪ points := by
  ext e
  simp only [Set.mem_union, Set.mem_ofPred_eq, Set.mem_insert_iff, List.mem_cons]
  tauto

theorem insertAll_represents {insert : Node → DataT → Option Node}
    (kept : ∀ n n' cell points d, Represents n cell points → insert n d = some n' →
      Represents n' cell (Insert.insert d points))
    {elements : List DataT} {children children' : Quadrant → Node}
    (represents : ∀ k, Represents (children k) (cell.child k) (within cell points k))
    (inserted : elements.foldlM (insertAppropriateChild insert cell) children = some children') (k : Quadrant) :
    Represents (children' k) (cell.child k) (within cell ({e | e ∈ elements} ∪ points) k) := by
  induction elements generalizing children points with
  | nil =>
    cases inserted
    simpa using represents k
  | cons d elements ih =>
    rw [List.foldlM_cons] at inserted
    obtain ⟨next, first, rest⟩ := Option.bind_eq_some_iff.mp inserted
    have later := ih (insertAppropriateChild_represents kept represents first) rest
    rwa [insert_union_list] at later

theorem insert_represents {fuel : Nat} {n n' : Node} {cell : Cell} {points : Set DataT} {d : DataT}
    (represents : Represents n cell points) (inserted : insert fuel n d = some n') :
    Represents n' cell (Insert.insert d points) := by
  induction fuel generalizing n n' cell points d with
  | zero => cases inserted
  | succ fuel ih =>
    have kept : ∀ n n' cell points d, Represents n cell points → insert fuel n d = some n' →
        Represents n' cell (Insert.insert d points) := fun _ _ _ _ _ => ih
    cases n with
    | leaf c elements =>
      obtain ⟨rfl, one, same⟩ := represents
      have points' : points = {e | e ∈ elements} := Set.ext fun e => (same e).symm
      have all : Insert.insert d points = {e | e ∈ elements ++ [d]} := by
        ext e
        simp [points', or_comm]
      rw [points'] at one
      unfold insert at inserted
      dsimp only at inserted
      split at inserted
      · next whole =>
        cases inserted
        rw [all]
        exact ⟨rfl, (stays_iff one).mp whole, fun e => Iff.rfl⟩
      · next splits =>
        obtain ⟨children, put, rfl⟩ := Option.map_eq_some_iff.mp inserted
        rw [all]
        refine ⟨rfl, fun same => splits ((stays_iff one).mpr same), fun k => ?_⟩
        have empty (k : Quadrant) : Represents (newChildren c k) (c.child k) (within c ∅ k) := by
          refine ⟨rfl, ?_, ?_⟩
          · rintro e ⟨⟨⟩, -⟩
          · exact fun e => iff_of_false List.not_mem_nil fun member => member.1
        have filled := insertAll_represents kept empty put k
        rwa [Set.union_empty] at filled
    | split c children =>
      obtain ⟨rfl, several, represents⟩ := represents
      obtain ⟨children', put, rfl⟩ := Option.map_eq_some_iff.mp inserted
      refine ⟨rfl, fun one => several fun e member f member' => ?_, ?_⟩
      · exact one e (Or.inr member) f (Or.inr member')
      · exact insertAppropriateChild_represents kept represents put

end Insertion

section Termination

theorem foldlM_mono {σ β : Type} {step more : σ → β → Option σ} (kept : ∀ s b t, step s b = some t → more s b = some t)
    {items : List β} {s t : σ} (ran : items.foldlM step s = some t) : items.foldlM more s = some t := by
  induction items generalizing s with
  | nil => exact ran
  | cons b items ih =>
    rw [List.foldlM_cons] at ran ⊢
    obtain ⟨next, first, rest⟩ := Option.bind_eq_some_iff.mp ran
    rw [kept s b next first]
    exact ih rest

theorem insertAppropriateChild_mono {small large : Node → DataT → Option Node}
    (kept : ∀ n d n', small n d = some n' → large n d = some n') {cell : Cell} {children children' : Quadrant → Node}
    {d : DataT} (inserted : insertAppropriateChild small cell children d = some children') :
    insertAppropriateChild large cell children d = some children' := by
  obtain ⟨child, below, rfl⟩ := Option.map_eq_some_iff.mp inserted
  rw [insertAppropriateChild, kept _ _ _ below]
  rfl

theorem insert_mono {fuel more : Nat} {n n' : Node} {d : DataT} (enough : fuel ≤ more) (inserted : insert fuel n d = some n') :
    insert more n d = some n' := by
  induction fuel generalizing more n n' d with
  | zero => cases inserted
  | succ fuel ih =>
    obtain ⟨more, rfl⟩ := Nat.exists_eq_add_of_le' (Nat.le_trans (Nat.succ_le_succ (Nat.zero_le fuel)) enough)
    have below : ∀ n d n', insert fuel n d = some n' → insert more n d = some n' := fun n d n' =>
      ih (Nat.le_of_succ_le_succ enough)
    cases n with
    | leaf cell elements =>
      unfold insert at inserted ⊢
      dsimp only at inserted ⊢
      split at inserted
      · next whole => rwa [if_pos whole]
      · next splits =>
        rw [if_neg splits]
        obtain ⟨children, put, rfl⟩ := Option.map_eq_some_iff.mp inserted
        rw [foldlM_mono (fun children d children' => insertAppropriateChild_mono below) put]
        rfl
    | split cell children =>
      unfold insert at inserted ⊢
      obtain ⟨children', put, rfl⟩ := Option.map_eq_some_iff.mp inserted
      rw [insertAppropriateChild_mono below put]
      rfl

theorem insert_stays {fuel : Nat} {cell : Cell} {elements : List DataT} {d : DataT} (whole : stays (elements ++ [d]) = true) :
    insert (fuel + 1) (.leaf cell elements) d = some (.leaf cell (elements ++ [d])) := by
  unfold insert
  exact if_pos whole

theorem OnePos.mono {points more : Set DataT} (one : OnePos more) (sub : ∀ d ∈ points, d ∈ more) : OnePos points :=
  fun d member e member' => one d (sub d member) e (sub e member')

/-- Points at one position come one after the other into a leaf of their quadrant. -/
theorem insertAll_leaf {fuel : Nat} {cell : Cell} {elements done : List DataT} (one : OnePos {e | e ∈ done ++ elements})
    {k : Quadrant} (here : ∀ e ∈ elements, cell.quadrant e.lat e.lon = k) {children : Quadrant → Node}
    (leaf : children k = .leaf (cell.child k) done) :
    elements.foldlM (insertAppropriateChild (insert (fuel + 1)) cell) children =
      some (Function.update children k (.leaf (cell.child k) (done ++ elements))) := by
  induction elements generalizing done children with
  | nil => simp [← leaf]
  | cons e elements ih =>
    have whole : stays (done ++ [e]) = true := by
      refine (stays_iff (one.mono fun d member => ?_)).mpr (one.mono fun d member => ?_)
      · exact List.mem_append_left _ member
      · have split : done ++ e :: elements = done ++ [e] ++ elements := by simp
        rw [split]
        exact List.mem_append_left _ member
    have first : insertAppropriateChild (insert (fuel + 1)) cell children e =
        some (Function.update children k (.leaf (cell.child k) (done ++ [e]))) := by
      rw [insertAppropriateChild, here e List.mem_cons_self, leaf, insert_stays whole]
      rfl
    have one' : OnePos {d | d ∈ done ++ [e] ++ elements} := by simpa using one
    have leaf' : Function.update children k (.leaf (cell.child k) (done ++ [e])) k = .leaf (cell.child k) (done ++ [e]) :=
      Function.update_self ..
    have rest := ih one' (fun d member => here d (List.mem_cons_of_mem _ member)) leaf'
    rw [List.foldlM_cons, first]
    simpa using rest

theorem close_of_inside {low high x y : Rat} (lowX : low ≤ x) (highX : x ≤ high) (lowY : low ≤ y) (highY : y ≤ high) :
    |x - y| ≤ high - low :=
  abs_le.mpr ⟨by linarith, by linarith⟩

/-- A leaf takes a point at another position after as many splits as halve the cell below their distance. -/
theorem insert_leaf_total {n : Nat} {cell : Cell} {elements : List DataT} {d : DataT} (one : OnePos {e | e ∈ elements})
    (inside : ∀ e ∈ elements, cell.Inside e.lat e.lon) (insideNew : cell.Inside d.lat d.lon)
    (small : ∀ e ∈ elements, ¬e.SamePos d → cell.right - cell.left < 2 ^ n * |e.lon - d.lon| ∨
      cell.top - cell.bottom < 2 ^ n * |e.lat - d.lat|) :
    ∃ n', insert (n + 1) (.leaf cell elements) d = some n' := by
  by_cases whole : stays (elements ++ [d]) = true
  · exact ⟨_, insert_stays whole⟩
  · obtain ⟨e, member, apart⟩ : ∃ e ∈ elements, ¬e.SamePos d := by
      by_contra none
      simp only [not_exists, not_and, not_not] at none
      refine whole ((stays_iff one).mpr ?_)
      have toNew : ∀ e ∈ elements ++ [d], e.SamePos d := by
        intro e member
        rcases List.mem_append.mp member with old | new
        · exact none e old
        · rw [List.mem_singleton.mp new]
          exact ⟨rfl, rfl⟩
      exact fun e member f member' => (toNew e member).trans (toNew f member').symm
    induction n generalizing cell with
    | zero =>
      obtain ⟨left, right, bottom, top⟩ := inside e member
      obtain ⟨left', right', bottom', top'⟩ := insideNew
      have lon := close_of_inside left right left' right'
      have lat := close_of_inside bottom top bottom' top'
      rcases small e member apart with narrow | flat
      · linarith
      · linarith
    | succ n ih =>
      have here : ∀ f ∈ elements, cell.quadrant f.lat f.lon = cell.quadrant e.lat e.lon := by
        intro f other
        obtain ⟨lat, lon⟩ := one f other e member
        rw [lat, lon]
      have one' : OnePos {f | f ∈ [] ++ elements} := one
      have filled : elements.foldlM (insertAppropriateChild (insert (n + 1)) cell) (newChildren cell) = some
          (Function.update (newChildren cell) (cell.quadrant e.lat e.lon)
            (.leaf (cell.child (cell.quadrant e.lat e.lon)) elements)) :=
        insertAll_leaf one' here rfl
      have last : ∃ child, insert (n + 1) (Function.update (newChildren cell) (cell.quadrant e.lat e.lon)
          (.leaf (cell.child (cell.quadrant e.lat e.lon)) elements) (cell.quadrant d.lat d.lon)) d = some child := by
        by_cases same : cell.quadrant d.lat d.lon = cell.quadrant e.lat e.lon
        · rw [same, Function.update_self]
          refine ih (fun f other => ?_) ?_ fun f other differ => ?_
          · rw [← here f other]
            exact Cell.child_inside (inside f other)
          · rw [← same]
            exact Cell.child_inside insideNew
          · rw [Cell.child_width, Cell.child_height]
            have double (x : Rat) : (2 : Rat) ^ (n + 1) * x = 2 * (2 ^ n * x) := by rw [pow_succ']; ring
            rcases small f other differ with narrow | flat
            · rw [double] at narrow
              exact Or.inl (by linarith)
            · rw [double] at flat
              exact Or.inr (by linarith)
        · rw [Function.update_of_ne same]
          exact ⟨_, insert_stays rfl⟩
      obtain ⟨child, last⟩ := last
      have all : (elements ++ [d]).foldlM (insertAppropriateChild (insert (n + 1)) cell) (newChildren cell) ≠ none := by
        rw [List.foldlM_append, filled]
        simp [insertAppropriateChild, last]
      obtain ⟨children, put⟩ := Option.ne_none_iff_exists'.mp all
      refine ⟨.split cell children, ?_⟩
      unfold insert
      dsimp only
      rw [if_neg whole, put]
      rfl

theorem exists_halvings (x : Rat) {y : Rat} (positive : 0 < y) : ∃ n : Nat, x < 2 ^ n * y := by
  obtain ⟨n, large⟩ := pow_unbounded_of_one_lt (x / y) (one_lt_two (α := Rat))
  exact ⟨n, (div_lt_iff₀ positive).mp large⟩

theorem insert_total {n : Node} {cell : Cell} {points : Set DataT} (represents : Represents n cell points)
    (inside : ∀ e ∈ points, cell.Inside e.lat e.lon) {d : DataT} (insideNew : cell.Inside d.lat d.lon) :
    ∃ fuel n', insert fuel n d = some n' := by
  induction n generalizing cell points with
  | leaf c elements =>
    obtain ⟨rfl, one, same⟩ := represents
    have one' : OnePos {e | e ∈ elements} := one.mono fun e member => (same e).mp member
    have inside' : ∀ e ∈ elements, c.Inside e.lat e.lon := fun e member => inside e ((same e).mp member)
    have enough : ∃ n : Nat, ∀ e ∈ elements, ¬e.SamePos d → c.right - c.left < 2 ^ n * |e.lon - d.lon| ∨
        c.top - c.bottom < 2 ^ n * |e.lat - d.lat| := by
      by_cases apart : ∃ e ∈ elements, ¬e.SamePos d
      · obtain ⟨e, member, apart⟩ := apart
        have toFirst : ∀ f ∈ elements, f.lat = e.lat ∧ f.lon = e.lon := fun f other => one' f other e member
        by_cases lon : e.lon = d.lon
        · have lat : e.lat ≠ d.lat := fun lat => apart ⟨lat, lon⟩
          obtain ⟨n, small⟩ := exists_halvings (c.top - c.bottom) (abs_pos.mpr (sub_ne_zero.mpr lat))
          refine ⟨n, fun f other _ => Or.inr ?_⟩
          rwa [(toFirst f other).1]
        · obtain ⟨n, small⟩ := exists_halvings (c.right - c.left) (abs_pos.mpr (sub_ne_zero.mpr lon))
          refine ⟨n, fun f other _ => Or.inl ?_⟩
          rwa [(toFirst f other).2]
      · exact ⟨0, fun e member differ => absurd ⟨e, member, differ⟩ apart⟩
    obtain ⟨n, small⟩ := enough
    obtain ⟨n', inserted⟩ := insert_leaf_total one' inside' insideNew small
    exact ⟨n + 1, n', inserted⟩
  | split c children ih =>
    obtain ⟨rfl, -, represents⟩ := represents
    have insideChild : ∀ e ∈ within c points (c.quadrant d.lat d.lon), (c.child (c.quadrant d.lat d.lon)).Inside e.lat e.lon := by
      rintro e ⟨member, quadrant⟩
      rw [← quadrant]
      exact Cell.child_inside (inside e member)
    obtain ⟨fuel, child, inserted⟩ := ih _ (represents _) insideChild (Cell.child_inside insideNew)
    refine ⟨fuel + 1, .split c (Function.update children (c.quadrant d.lat d.lon) child), ?_⟩
    unfold insert
    rw [insertAppropriateChild, inserted]
    rfl

end Termination

end TrafficRouterGolang.Quadtree
