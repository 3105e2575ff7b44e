import TrafficControl.Lib.SearchTree
import TrafficControl.TrafficRouter.CidrAddress

set_option autoImplicit false

namespace TrafficControl.TrafficRouter

-- `data` stands for the node's other fields. In a child entry the key object is the value's own
-- object, unless a `put` found an equal key: the map then keeps the older key object.
inductive NetworkNode (α : Type) where
  | mk (cidrAddress : CidrAddress) (data : α)
      (children : SearchTree (Option (NetworkNode α) × NetworkNode α))

abbrev ChildEntry (α : Type) := Option (NetworkNode α) × NetworkNode α
abbrev Children (α : Type) := SearchTree (ChildEntry α)

namespace NetworkNode

variable {α : Type}

def cidrAddress : NetworkNode α → CidrAddress
  | mk cidrAddress _ _ => cidrAddress

def data : NetworkNode α → α
  | mk _ data _ => data

def children : NetworkNode α → Children α
  | mk _ _ children => children

def withChildren : NetworkNode α → Children α → NetworkNode α
  | mk cidrAddress data _, children => mk cidrAddress data children

abbrev label (node : NetworkNode α) : CidrAddress × α := (node.cidrAddress, node.data)

def leaf (network : CidrAddress × α) : NetworkNode α := mk network.1 network.2 .leaf

def keyAddress (entry : ChildEntry α) : CidrAddress := (entry.1.getD entry.2).cidrAddress

def compareToKey (searched : CidrAddress) (entry : ChildEntry α) : Int :=
  searched.compareTo (keyAddress entry)

def values (children : Children α) : List (NetworkNode α) := children.toList.map (·.2)

mutual

def depth : NetworkNode α → Nat
  | mk _ _ children => depthBelow children + 1

def depthBelow : SearchTree (Option (NetworkNode α) × NetworkNode α) → Nat
  | .leaf => 0
  | .node _ left (_, value) right => max (max (depthBelow left) (depth value)) (depthBelow right)

end

theorem sizeOf_mem {entry : ChildEntry α} {children : Children α} (member : entry ∈ children.toList) :
    sizeOf entry.2 < sizeOf children := by
  induction children with
  | leaf => simp [SearchTree.toList] at member
  | node mark left middle right leftIh rightIh =>
    simp only [SearchTree.toList, List.mem_append, List.mem_cons] at member
    rcases member with member | rfl | member
    · have := leftIh member
      simp only [SearchTree.node.sizeOf_spec]
      omega
    · rcases entry with ⟨key, value⟩
      simp only [SearchTree.node.sizeOf_spec, Prod.mk.sizeOf_spec]
      omega
    · have := rightIh member
      simp only [SearchTree.node.sizeOf_spec]
      omega

def getNetwork (this : NetworkNode α) (ipnn : CidrAddress) : Option (NetworkNode α) :=
  if this.cidrAddress.compareTo ipnn ≠ 0 then none
  else
    match _hit : this.children.get (compareToKey ipnn) with
    | none => some this
    | some c => c.2.getNetwork ipnn
termination_by sizeOf this
decreasing_by
  have smaller := sizeOf_mem (SearchTree.get_mem _hit).1
  cases this
  simp only [children] at smaller
  simp only [mk.sizeOf_spec]
  omega

theorem getNetwork_eq (this : NetworkNode α) (ipnn : CidrAddress) :
    this.getNetwork ipnn =
      if this.cidrAddress.compareTo ipnn ≠ 0 then none
      else
        match this.children.get (compareToKey ipnn) with
        | none => some this
        | some c => c.2.getNetwork ipnn := by
  rw [getNetwork]
  split_ifs
  · rfl
  · split <;> simp only [*]

section Add

variable (rebalance : SearchTree.Rebalance (ChildEntry α))

-- `Map.put(networkNode, networkNode)`: an equal key keeps its key object and gets the new value.
def putChild (children : Children α) (networkNode : NetworkNode α) : Children α :=
  rebalance.put (compareToKey networkNode.cidrAddress) (none, networkNode)
    (fun entry => (some (entry.1.getD entry.2), networkNode)) children

def removeChild (children : Children α) (moved : NetworkNode α) : Children α :=
  rebalance.remove (compareToKey moved.cidrAddress) children

-- The protected `add(children, networkNode)` of a node with address `this`. The counter bounds
-- the nesting of calls; `enough` below is what every tree built by `add` needs.
def addTo : Nat → CidrAddress → Children α → NetworkNode α → Children α × Bool
  | 0, _, children, _ => (children, false)
  | nesting + 1, this, children, networkNode =>
    if this.compareTo networkNode.cidrAddress ≠ 0 then (children, false)
    else if (values children).any fun child => child.cidrAddress.equals networkNode.cidrAddress then
      (children, false)
    else
      let movedChildren := (values children).filter fun child =>
        networkNode.cidrAddress.includesAddress child.cidrAddress
      let networkNode := movedChildren.foldl (fun node child =>
        node.withChildren (addTo nesting node.cidrAddress node.children child).1) networkNode
      let children := movedChildren.foldl (removeChild rebalance) children
      let includesNetwork (child : NetworkNode α) : Bool :=
        child.cidrAddress.includesAddress networkNode.cidrAddress
      match (values children).find? includesNetwork with
      | some child =>
        let (below, added) := addTo nesting child.cidrAddress child.children networkNode
        (children.updateFirst (fun entry => includesNetwork entry.2)
          (fun entry => (entry.1, entry.2.withChildren below)), added)
      | none => (putChild rebalance children networkNode, true)

def enough (children : Children α) (networkNode : NetworkNode α) : Nat :=
  depthBelow children + depth networkNode + 1

def add (this networkNode : NetworkNode α) : NetworkNode α × Bool :=
  let (children, added) := addTo rebalance (enough this.children networkNode)
    this.cidrAddress this.children networkNode
  (this.withChildren children, added)

end Add

end NetworkNode

def defaultSubStr : CidrAddress := ⟨⟨[0, 0, 0, 0], by simp⟩, 0, by simp⟩

structure SuperNode (α : Type) where
  node : NetworkNode α
  children6 : Children α

namespace SuperNode

open NetworkNode

variable {α : Type} (rebalance : SearchTree.Rebalance (ChildEntry α))

def new (data : α) : SuperNode α := ⟨.leaf (defaultSubStr, data), .leaf⟩

def add (this : SuperNode α) (networkNode : NetworkNode α) : SuperNode α × Bool :=
  let (node, added) := this.node.add rebalance networkNode
  ({ this with node }, added)

def add6 (this : SuperNode α) (networkNode : NetworkNode α) : SuperNode α × Bool :=
  let (children6, added) := addTo rebalance (enough this.children6 networkNode)
    this.node.cidrAddress this.children6 networkNode
  ({ this with children6 }, added)

def getNetwork6 (this : SuperNode α) (networkNode : CidrAddress) : Option (NetworkNode α) :=
  match this.children6.get (compareToKey networkNode) with
  | none => some this.node
  | some c => c.2.getNetwork networkNode

def getNetwork (this : SuperNode α) (ip : CidrAddress) : Option (NetworkNode α) :=
  if ip.isIpV6 then this.getNetwork6 ip else this.node.getNetwork ip

end SuperNode

end TrafficControl.TrafficRouter
