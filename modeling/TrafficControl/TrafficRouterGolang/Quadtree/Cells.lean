import Mathlib.Algebra.Order.Archimedean.Basic
import Mathlib.Data.Rat.Floor
import Mathlib.Data.Set.Basic
import Mathlib.Tactic.Linarith

set_option autoImplicit false

-- The cells of the map and the search that looks elsewhere only where the query's quadrant is empty.
namespace TrafficRouterGolang.Quadtree

structure DataT where
  lat : Rat
  lon : Rat
  obj : String
  deriving DecidableEq

structure Cell where
  left : Rat
  right : Rat
  top : Rat
  bottom : Rat
  deriving DecidableEq

inductive Quadrant where
  | topLeft
  | topRight
  | bottomLeft
  | bottomRight
  deriving DecidableEq

namespace Cell

variable (n : Cell)

def leftMid : Rat := (n.right - n.left) / 2 + n.left

def topMid : Rat := (n.top - n.bottom) / 2 + n.bottom

def quadrant (lat lon : Rat) : Quadrant :=
  let left := lon < n.leftMid
  let top := lat > n.topMid
  if left ∧ top then .topLeft else if top then .topRight else if left then .bottomLeft else .bottomRight

def child : Quadrant → Cell
  | .topLeft => { left := n.left, right := n.leftMid, top := n.top, bottom := n.topMid }
  | .topRight => { left := n.leftMid, right := n.right, top := n.top, bottom := n.topMid }
  | .bottomLeft => { left := n.left, right := n.leftMid, top := n.topMid, bottom := n.bottom }
  | .bottomRight => { left := n.leftMid, right := n.right, top := n.topMid, bottom := n.bottom }

/-- On the map, its borders included. -/
def Inside (lat lon : Rat) : Prop := n.left ≤ lon ∧ lon ≤ n.right ∧ n.bottom ≤ lat ∧ lat ≤ n.top

variable {n} {lat lon : Rat}

theorem child_inside (inside : n.Inside lat lon) : (n.child (n.quadrant lat lon)).Inside lat lon := by
  obtain ⟨left, right, bottom, top⟩ := inside
  unfold quadrant
  dsimp only
  split
  · next quarter => exact ⟨left, quarter.1.le, quarter.2.le, top⟩
  · next notTopLeft =>
    split
    · next inTop => exact ⟨not_lt.mp fun inLeft => notTopLeft ⟨inLeft, inTop⟩, right, inTop.le, top⟩
    · next inBottom =>
      split
      · next inLeft => exact ⟨left, inLeft.le, bottom, not_lt.mp inBottom⟩
      · next inRight => exact ⟨not_lt.mp inRight, right, bottom, not_lt.mp inBottom⟩

theorem child_width (k : Quadrant) : (n.child k).right - (n.child k).left = (n.right - n.left) / 2 := by
  cases k <;> simp only [child, leftMid] <;> linarith

theorem child_height (k : Quadrant) : (n.child k).top - (n.child k).bottom = (n.top - n.bottom) / 2 := by
  cases k <;> simp only [child, topMid] <;> linarith

end Cell

def world : Cell where
  left := -180
  right := 180
  top := 90
  bottom := -90

namespace DataT

def SamePos (d e : DataT) : Prop := d.lat = e.lat ∧ d.lon = e.lon

instance (d e : DataT) : Decidable (d.SamePos e) := inferInstanceAs (Decidable (_ ∧ _))

theorem SamePos.symm {d e : DataT} (same : d.SamePos e) : e.SamePos d := ⟨same.1.symm, same.2.symm⟩

theorem SamePos.trans {d e f : DataT} (same : d.SamePos e) (next : e.SamePos f) : d.SamePos f :=
  ⟨same.1.trans next.1, same.2.trans next.2⟩

end DataT

/-- All points are at one position. -/
def OnePos (points : Set DataT) : Prop := ∀ d ∈ points, ∀ e ∈ points, d.SamePos e

/-- The points of a cell that are in one of its quadrants. -/
def within (cell : Cell) (points : Set DataT) (k : Quadrant) : Set DataT :=
  {d | d ∈ points ∧ cell.quadrant d.lat d.lon = k}

/-- The search comes to the points of a cell: it goes on in the query's quadrant, or in all of them where that is empty. -/
inductive Visited (top left : Rat) : Cell → Set DataT → DataT → Prop
  | leaf {cell : Cell} {points : Set DataT} {d : DataT} (one : OnePos points) (member : d ∈ points) :
    Visited top left cell points d
  | own {cell : Cell} {points : Set DataT} {d : DataT} (several : ¬OnePos points)
    (visited : Visited top left (cell.child (cell.quadrant top left)) (within cell points (cell.quadrant top left)) d) :
    Visited top left cell points d
  | elsewhere {cell : Cell} {points : Set DataT} {d : DataT} (several : ¬OnePos points)
    (empty : within cell points (cell.quadrant top left) = ∅) (k : Quadrant)
    (visited : Visited top left (cell.child k) (within cell points k) d) : Visited top left cell points d

theorem Visited.mem {top left : Rat} {cell : Cell} {points : Set DataT} {d : DataT} (visited : Visited top left cell points d) :
    d ∈ points := by
  induction visited with
  | leaf _ member => exact member
  | own _ _ ih => exact ih.1
  | elsewhere _ _ _ _ ih => exact ih.1

def distSq (atop aleft btop bleft : Rat) : Rat := (btop - atop) * (btop - atop) + (bleft - aleft) * (bleft - aleft)

/-- Some nearest point is among those that the search comes to. -/
def Reaches (top left : Rat) (points : Set DataT) : Prop :=
  ∃ d, Visited top left world points d ∧ ∀ e ∈ points, distSq top left d.lat d.lon ≤ distSq top left e.lat e.lon

end TrafficRouterGolang.Quadtree
