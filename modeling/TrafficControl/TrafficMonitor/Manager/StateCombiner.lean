import Mathlib.Data.List.Sort
import Mathlib.Data.String.Basic
import TrafficControl.Lib.BinarySearch
import TrafficControl.TrafficMonitor.Health.Cache
import TrafficControl.TrafficMonitor.Peer.CRStates

set_option autoImplicit false

namespace TrafficControl.TrafficMonitor

open Peer KeyedLoop

-- The order in which a loop visits a map; it differs from loop to loop.
structure RangeOrder where
  order : List String → List String
  perm : ∀ keys, (order keys).Perm keys

/-- What one run of `combineCrStates` finds. -/
structure CombineRun where
  peerOptimistic : Bool
  peerStates : CRStatesPeers
  localStates : Peer.CRStates
  toData : TOData
  now : Int
  caches : RangeOrder
  deliveryServices : RangeOrder
  peersOfCache : String → RangeOrder
  peersOfDeliveryService : String → RangeOrder

-- What is kept between the runs, with the events in the order in which they are added.
structure Combiner where
  combinedStates : Peer.CRStates
  overrideMap : String → Bool
  events : List Event

namespace CombineRun

variable (this : CombineRun)

def onlineOnPeers (cacheName : String) : List String :=
  (inOrder (this.peersOfCache cacheName).order this.peerStates.getCrstates).filterMap fun entry =>
    if this.peerStates.getPeerAvailability this.now entry.1 then
      if (entry.2.caches.lookup cacheName).getD false then some entry.1 else none
    else none

/-- Whether the cache is available, the override condition, and whether it is overridden. -/
def cacheState (cacheName : String) (localCacheState override : Bool) : Bool × String × Bool :=
  if localCacheState then (true, if override then "cleared; healthy locally" else "", false)
  else if this.peerOptimistic then
    if !this.peerStates.hasAvailablePeers then (false, if override then "irrelevant; no peers online" else "", false)
    else
      let onlineOnPeers := this.onlineOnPeers cacheName
      if 0 < onlineOnPeers.length then
        (true, if !override then "detected; healthy on (at least) " ++ String.intercalate ", " onlineOnPeers else "", true)
      else (false, if override then "irrelevant; not online on any peers" else "", false)
  else (false, "", override)

def overrideEvent (cacheName overrideCondition : String) (available : Bool) : Event where
  index := 0
  description := "Health protocol override condition " ++ overrideCondition
  name := cacheName
  hostname := cacheName
  type := (this.toData.serverTypes cacheName).getD .INVALIDCACHETYPE
  available := available

def combineCacheState (s : Combiner) (entry : String × Bool) : Combiner :=
  let (cacheName, localCacheState) := entry
  let (available, overrideCondition, override) := this.cacheState cacheName localCacheState (s.overrideMap cacheName)
  { combinedStates := s.combinedStates.addCache cacheName available
    overrideMap := Function.update s.overrideMap cacheName override
    events := if overrideCondition ≠ "" then s.events ++ [this.overrideEvent cacheName overrideCondition available]
      else s.events }

end CombineRun

-- `sort.Search` finds where a name would have to be. Both lists are sorted in place.
def intersection (a b : List String) : List String :=
  let a := a.insertionSort (· ≤ ·)
  let b := b.insertionSort (· ≤ ·)
  a.filter fun s =>
    let i := BinarySearch.first b.length fun i => (b[i]?).any fun name => decide (s ≤ name)
    b[i]? = some s

namespace CombineRun

variable (this : CombineRun)

-- The availability of the peer is not asked for.
def withPeer (deliveryServiceName : String) (deliveryService : Peer.CRStatesDeliveryService)
    (entry : String × Peer.CRStates) : Peer.CRStatesDeliveryService :=
  match entry.2.deliveryService.lookup deliveryServiceName with
  | none => deliveryService
  | some peerDeliveryService =>
    { isAvailable := if peerDeliveryService.isAvailable then true else deliveryService.isAvailable
      disabledLocations := intersection deliveryService.disabledLocations peerDeliveryService.disabledLocations }

def combineDSState (s : Combiner) (entry : String × Peer.CRStatesDeliveryService) : Combiner :=
  let (deliveryServiceName, localDeliveryService) := entry
  let peers := inOrder (this.peersOfDeliveryService deliveryServiceName).order this.peerStates.getCrstates
  let deliveryService := peers.foldl (withPeer deliveryServiceName) localDeliveryService
  { s with combinedStates := s.combinedStates.setDeliveryService deliveryServiceName deliveryService }

end CombineRun

def pruneCombinedCaches (combinedStates localStates : Peer.CRStates) : Peer.CRStates :=
  combinedStates.getCaches.keys.foldl (fun combinedStates cacheName =>
    if (localStates.caches.lookup cacheName).isNone then combinedStates.deleteCache cacheName else combinedStates)
    combinedStates

namespace Combiner

def new : Combiner := ⟨Peer.CRStates.new, fun _ => false, []⟩

def combineCrStates (s : Combiner) (run : CombineRun) : Combiner :=
  let s := (inOrder run.caches.order run.localStates.caches).foldl run.combineCacheState s
  let s := (inOrder run.deliveryServices.order run.localStates.deliveryService).foldl run.combineDSState s
  { s with combinedStates := pruneCombinedCaches s.combinedStates run.localStates }

def combineAll (runs : List CombineRun) : Combiner := runs.foldl combineCrStates new

end Combiner

theorem mem_intersection {a b : List String} {name : String} : name ∈ intersection a b ↔ name ∈ a ∧ name ∈ b := by
  unfold intersection
  have sorted : (b.insertionSort (· ≤ ·)).Pairwise (· ≤ ·) := List.pairwise_insertionSort _ b
  rw [List.mem_filter, (List.perm_insertionSort _ a).mem_iff, decide_eq_true_eq, BinarySearch.getElem?_first sorted,
    (List.perm_insertionSort _ b).mem_iff]

end TrafficControl.TrafficMonitor
