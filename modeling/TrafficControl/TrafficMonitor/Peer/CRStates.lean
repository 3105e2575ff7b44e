import Mathlib.Algebra.Ring.Int.Defs
import TrafficControl.Lib.KeyedLoop

set_option autoImplicit false

namespace TrafficControl.TrafficMonitor.Peer

structure CRStatesDeliveryService where
  disabledLocations : List String
  isAvailable : Bool

-- The states that a monitor publishes. Their maps are also the ones that loops run through.
structure CRStates where
  caches : AList fun _ : String => Bool
  deliveryService : AList fun _ : String => CRStatesDeliveryService

namespace CRStates

def new : CRStates := ⟨∅, ∅⟩

def addCache (this : CRStates) (cacheName : String) (available : Bool) : CRStates :=
  { this with caches := this.caches.insert cacheName available }

def deleteCache (this : CRStates) (name : String) : CRStates :=
  { this with caches := this.caches.erase name }

def setDeliveryService (this : CRStates) (name : String) (ds : CRStatesDeliveryService) : CRStates :=
  { this with deliveryService := this.deliveryService.insert name ds }

def getCaches (this : CRStates) : AList fun _ : String => Bool := this.caches

end CRStates

-- The data of one poll of a peer.
structure Result where
  id : String
  available : Bool
  peerStates : CRStates
  time : Int

structure CRStatesPeers where
  crStates : AList fun _ : String => CRStates
  peerStates : AList fun _ : String => Bool
  peerTimes : AList fun _ : String => Int
  peerOnline : AList fun _ : String => Bool
  timeout : Int

-- A `Duration` saturates.
def since (now time : Int) : Int := max (-2 ^ 63) (min (2 ^ 63 - 1) (now - time))

namespace CRStatesPeers

def hour : Int := 3600000000000

def new : CRStatesPeers := ⟨∅, ∅, ∅, ∅, hour⟩

def setTimeout (this : CRStatesPeers) (timeout : Int) : CRStatesPeers := { this with timeout }

def setPeers (this : CRStatesPeers) (newPeers : List String) : CRStatesPeers :=
  { this with peerOnline := this.crStates.keys.foldl (fun peerOnline peer =>
      peerOnline.insert peer (peer ∈ newPeers)) this.peerOnline }

def getCrstates (this : CRStatesPeers) : AList fun _ : String => CRStates := this.crStates

-- A missing time is the zero `Time`; a peer without one has no state.
def getPeerAvailability (this : CRStatesPeers) (now : Int) (peer : String) : Bool :=
  (this.peerStates.lookup peer).getD false && (this.peerOnline.lookup peer).getD false &&
    since now ((this.peerTimes.lookup peer).getD (-62135596800000000000)) < this.timeout

def hasAvailablePeers (this : CRStatesPeers) : Bool := this.peerStates.entries.any fun entry => entry.2

def set (this : CRStatesPeers) (result : Result) : CRStatesPeers where
  crStates := this.crStates.insert result.id result.peerStates
  peerStates := this.peerStates.insert result.id result.available
  peerTimes := this.peerTimes.insert result.id result.time
  peerOnline := this.peerOnline
  timeout := this.timeout

theorem getPeerAvailability_peerStates {this : CRStatesPeers} {now : Int} {peer : String}
    (available : this.getPeerAvailability now peer = true) : this.hasAvailablePeers = true := by
  unfold getPeerAvailability at available
  simp only [Bool.and_eq_true, Option.getD_eq_iff] at available
  obtain ⟨⟨stored | ⟨-, impossible⟩, -⟩, -⟩ := available
  · exact List.any_eq_true.mpr ⟨⟨peer, true⟩, List.mem_dlookup_iff this.peerStates.nodupKeys |>.mp stored, rfl⟩
  · cases impossible

/-- Only the peers that have answered are visited. -/
theorem setPeers_online (this : CRStatesPeers) (newPeers : List String) (peer : String) :
    (this.setPeers newPeers).peerOnline.lookup peer =
      if peer ∈ this.crStates then some (decide (peer ∈ newPeers)) else this.peerOnline.lookup peer := by
  have frame : ∀ (peerOnline : AList fun _ : String => Bool) (other : String), other ≠ peer →
      (peerOnline.insert other (decide (other ∈ newPeers))).lookup peer = peerOnline.lookup peer :=
    fun _ _ apart => AList.lookup_insert_ne (Ne.symm apart)
  let online (peerOnline : AList fun _ : String => Bool) : Option Bool := peerOnline.lookup peer
  split_ifs with answered
  · exact KeyedLoop.foldl_own id online (fun _ => some (decide (peer ∈ newPeers)))
      (by simpa using this.crStates.keys_nodup) (AList.mem_keys.mp answered) frame (fun _ => AList.lookup_insert _) _
  · refine KeyedLoop.foldl_other id online frame (fun name member same => answered ?_) _
    rw [← same]
    exact AList.mem_keys.mpr member

end CRStatesPeers

end TrafficControl.TrafficMonitor.Peer
