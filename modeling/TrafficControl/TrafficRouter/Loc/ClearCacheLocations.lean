import TrafficControl.TrafficRouter.Router.TrafficRouter

set_option autoImplicit false
set_option linter.dupNamespace false

namespace TrafficControl.TrafficRouter

namespace NetworkNode

variable {α : Type}

mutual

-- The nodes that `clearCacheLocations` visits: it walks the keys of each map.
def cleared : NetworkNode α → List α
  | mk _ data children => data :: clearedKeys children

def clearedKeys : SearchTree (Option (NetworkNode α) × NetworkNode α) → List α
  | .leaf => []
  | .node _ left (none, value) right => clearedKeys left ++ cleared value ++ clearedKeys right
  | .node _ left (some key, _) right => clearedKeys left ++ cleared key ++ clearedKeys right

end

theorem cleared_eq (node : NetworkNode α) : node.cleared = node.data :: clearedKeys node.children := by
  cases node
  rfl

/-- No `put` of this tree ever found an equal key: each key object is its own value. -/
inductive OwnKeys : NetworkNode α → Prop
  | mk {node : NetworkNode α} (keys : ∀ entry ∈ node.children.toList, entry.1 = none)
      (below : ∀ entry ∈ node.children.toList, OwnKeys entry.2) : OwnKeys node

theorem cleared_mem_clearedKeys {children : Children α} {entry : ChildEntry α} (member : entry ∈ children.toList)
    (own : entry.1 = none) {data : α} (inValue : data ∈ cleared entry.2) : data ∈ clearedKeys children := by
  induction children with
  | leaf => exact absurd member List.not_mem_nil
  | node mark left middle right leftIh rightIh =>
    obtain ⟨key, value⟩ := middle
    rcases List.mem_append.mp member with inLeft | rest
    · have := leftIh inLeft
      cases key <;> simp [clearedKeys, this]
    · rcases List.mem_cons.mp rest with rfl | inRight
      · obtain rfl : key = none := own
        simp [clearedKeys, inValue]
      · have := rightIh inRight
        cases key <;> simp [clearedKeys, this]

theorem getNetwork_cleared {node found : NetworkNode α} (ownKeys : OwnKeys node) {ipnn : CidrAddress}
    (hit : node.getNetwork ipnn = some found) : found.data ∈ node.cleared := by
  induction ownKeys with
  | @mk node keys below ih =>
    rw [getNetwork_eq] at hit
    rw [cleared_eq]
    split_ifs at hit
    split at hit
    next =>
      obtain rfl := Option.some.inj hit
      exact List.mem_cons_self
    next entry under =>
      have member := (SearchTree.get_mem under).1
      have inValue := ih entry member hit
      exact List.mem_cons_of_mem _ (cleared_mem_clearedKeys member (keys entry member) inValue)

end NetworkNode

namespace SuperNode

open NetworkNode

variable {α : Type}

def cleared (this : SuperNode α) : List α :=
  this.node.data :: (clearedKeys this.children6 ++ clearedKeys this.node.children)

theorem getNetwork_cleared {this : SuperNode α} (ownKeys : this.node.OwnKeys)
    (ownKeys6 : ∀ entry ∈ this.children6.toList, entry.1 = none ∧ entry.2.OwnKeys) {ip : CidrAddress}
    {found : NetworkNode α} (hit : this.getNetwork ip = some found) : found.data ∈ this.cleared := by
  unfold getNetwork getNetwork6 at hit
  split_ifs at hit
  · split at hit
    next =>
      obtain rfl := Option.some.inj hit
      exact List.mem_cons_self
    next entry under =>
      have member := (SearchTree.get_mem under).1
      obtain ⟨own, below⟩ := ownKeys6 entry member
      have inKeys := cleared_mem_clearedKeys member own (NetworkNode.getNetwork_cleared below hit)
      exact List.mem_cons_of_mem _ (List.mem_append_left _ inKeys)
  · have inNode := NetworkNode.getNetwork_cleared ownKeys hit
    rw [cleared_eq] at inNode
    rcases List.mem_cons.mp inNode with same | below
    · exact same ▸ List.mem_cons_self
    · exact List.mem_cons_of_mem _ (List.mem_append_right _ below)

end SuperNode

namespace TrafficRouter

open Routine

variable {α : Type} [LinearOrder α] (router : TrafficRouter α) (memory : Memory)

/-- `findCacheLocation` reaches `setCacheLocation` with this location. -/
def Sets (networkNode : NodeData) (deliveryServiceId : String) (cacheLocation : LocationRef) : Prop :=
  ∃ loc, networkNode.loc = some loc ∧ router.getCacheLocationById loc = some cacheLocation ∧
    outcome (router.hasSupportingCaches cacheLocation (router.getDeliveryServiceById deliveryServiceId)) memory =
      (.ok true, memory)

theorem getCaches_reads (cacheLocation : LocationRef) :
    Yields Eq (router.getCaches cacheLocation) memory fun _ _ => True :=
  ⟨rfl, trivial⟩

theorem hasSupportingCaches_reads (cacheLocation : LocationRef) (deliveryService : Option DeliveryService) :
    Yields Eq (router.hasSupportingCaches cacheLocation deliveryService) memory fun _ _ => True := by
  refine yields_bind (router.getCaches_reads memory cacheLocation) fun caches _ _ _ => ?_
  cases deliveryService with
  | some deliveryService => exact yields_pure trivial
  | none =>
    dsimp only
    split_ifs
    · exact yields_pure trivial
    · exact yields_throw _

theorem hasSupportingCaches_outcome (cacheLocation : LocationRef) (deliveryService : Option DeliveryService) :
    ∃ result, outcome (router.hasSupportingCaches cacheLocation deliveryService) memory = (result, memory) :=
  ⟨_, Prod.ext rfl (router.hasSupportingCaches_reads memory cacheLocation deliveryService).state⟩

theorem getClosestCacheLocationFrom_reads (deliveryService : Option DeliveryService) (locations : List LocationRef) :
    Yields Eq (router.getClosestCacheLocationFrom deliveryService locations) memory fun _ _ => True := by
  induction locations with
  | nil => exact yields_pure trivial
  | cons cacheLocation rest ih =>
    refine yields_bind (router.hasSupportingCaches_reads memory cacheLocation deliveryService) fun found _ same _ => ?_
    cases found
    · exact same ▸ ih
    · exact yields_pure trivial

theorem getClosestCacheLocation_reads (locations : Option (List LocationRef)) (clientLocation : Option Geolocation)
    (deliveryService : Option DeliveryService) :
    Yields Eq (router.getClosestCacheLocation locations clientLocation deliveryService) memory fun _ _ => True := by
  cases clientLocation with
  | none => exact yields_pure trivial
  | some clientLocation =>
    cases locations with
    | none => exact yields_throw _
    | some locations => exact router.getClosestCacheLocationFrom_reads memory deliveryService _

theorem findCacheLocation_memory (networkNode : NodeData) (deliveryServiceId : String) :
    (outcome (router.findCacheLocation networkNode deliveryServiceId) memory).2 = memory ∨
      ∃ cacheLocation, router.Sets memory networkNode deliveryServiceId cacheLocation ∧
        (outcome (router.findCacheLocation networkNode deliveryServiceId) memory).2 =
          { memory with cacheLocation := Function.update memory.cacheLocation networkNode.ref (some cacheLocation) } := by
  have closest := (router.getClosestCacheLocation_reads memory (router.filterAvailableLocations deliveryServiceId)
    networkNode.geolocation (router.getDeliveryServiceById deliveryServiceId)).state
  unfold findCacheLocation
  split
  next => exact Or.inl rfl
  next loc named =>
    split
    next cacheLocation known =>
      obtain ⟨result, supporting⟩ := router.hasSupportingCaches_outcome memory cacheLocation
        (router.getDeliveryServiceById deliveryServiceId)
      rw [outcome_bind, supporting]
      rcases result with _ | (_ | _)
      · exact Or.inl rfl
      · exact Or.inl closest
      · exact Or.inr ⟨cacheLocation, ⟨loc, named, known, supporting⟩, rfl⟩
    next => exact Or.inl closest

/-- In the shallow tree, `getCoverageZoneCacheLocation` writes what `findCacheLocation` writes for
the client's node, or nothing. -/
theorem getCoverageZoneCacheLocation_memory (ip deliveryServiceId : String) :
    (outcome (router.getCoverageZoneCacheLocation ip deliveryServiceId false) memory).2 = memory ∨
      ∃ networkNode, router.getNetworkNode router.coverageZone ip = some networkNode ∧
        (outcome (router.getCoverageZoneCacheLocation ip deliveryServiceId false) memory).2 =
          (outcome (router.findCacheLocation networkNode deliveryServiceId) memory).2 := by
  cases found : router.getNetworkNode router.coverageZone ip with
  | none =>
    left
    simp only [getCoverageZoneCacheLocation, Bool.false_eq_true, if_false, found]
    rfl
  | some networkNode =>
    simp only [getCoverageZoneCacheLocation, Bool.false_eq_true, if_false, found]
    have read : outcome (readState : Routing Memory) memory = (.ok memory, memory) := rfl
    rw [outcome_bind, read]
    dsimp only
    split
    next cacheLocation _ =>
      obtain ⟨result, supporting⟩ := router.hasSupportingCaches_outcome memory cacheLocation
        (router.getDeliveryServiceById deliveryServiceId)
      rw [outcome_bind, supporting]
      rcases result with _ | (_ | _)
      · exact Or.inl rfl
      · exact Or.inr ⟨networkNode, rfl, rfl⟩
      · exact Or.inl rfl
    next => exact Or.inr ⟨networkNode, rfl, rfl⟩

end TrafficRouter

end TrafficControl.TrafficRouter
