import TrafficControl.Lib.DoubleBits
import TrafficControl.Lib.LinearProbing
import TrafficControl.Lib.MachineInt
import TrafficControl.TrafficRouter.Hash.ConsistentHasher

set_option autoImplicit false

namespace TrafficControl.TrafficRouter

open DoubleBits

-- The digest of 16 bytes is a positive integer.
def MD5HashFunction.hash (digest : BitVec 128) : Nat := MachineInt.nearestDouble digest.toNat

/-- Doubles that are natural numbers, whose bits no search for the closest steps. -/
def naturalDoubles : DoubleArithmetic Nat where
  zero := 0
  absDifference a b := MachineInt.nearestDouble (a - b + (b - a))
  less a b := decide (a < b)
  incrementBits := (· + 1)
  decrementBits := (· - 1)

/-- All hashes come from the hash function. -/
structure Digested extends DefaultHashable Nat where
  digests : ∀ h ∈ hashes, ∃ digest, MD5HashFunction.hash digest = h

-- The hasher on the doubles of 64 bits. A loop that never ends is `none`.
namespace DoubleHasher

variable {T : Type} (rebalance : SearchTree.Rebalance (Double × T)) (hashable : T → Digested)

def getSafeHash (hashableMap : SortedMap Double T) (hash : Double) (add : Bool) : Option Double :=
  if !hashableMap.containsKey hash then some hash
  else
    (probe hashableMap.containsKey add (2 ^ 64) hash.bits).map fun bits =>
      let syntheticHash := longBitsToDouble bits
      if add && less syntheticHash hash || !add && less hash syntheticHash then hash else syntheticHash

def prepend (state : SortedMap Double T × Double × Double) (hashable : T) : Option (SortedMap Double T × Double × Double) :=
  let (hashableMap, minHash, maxHash) := state
  (getSafeHash hashableMap minHash false).map fun syntheticHash =>
    (hashableMap.put rebalance syntheticHash hashable, syntheticHash, maxHash)

def append (state : SortedMap Double T × Double × Double) (hashable : T) : Option (SortedMap Double T × Double × Double) :=
  let (hashableMap, minHash, maxHash) := state
  (getSafeHash hashableMap maxHash true).map fun syntheticHash =>
    (hashableMap.put rebalance syntheticHash hashable, minHash, syntheticHash)

def synthesizeZeroHashes (hashableMap : SortedMap Double T) (zeroHashes : List T) : Option (SortedMap Double T) :=
  if zeroHashes.isEmpty then some hashableMap
  else
    let minHash := (hashableMap.entries.head?.map Prod.fst).getD (ofBits 0)
    let maxHash := (hashableMap.entries.getLast?.map Prod.fst).getD (ofBits 0)
    let zeroHashes := zeroHashes.insertionSort fun a b => (hashable a).compareTo (hashable b).toDefaultHashable ≤ 0
    (zeroHashes.foldlM (fun state t =>
      if 0 ≤ (hashable t).order then append rebalance state t else prepend rebalance state t)
      (hashableMap, minHash, maxHash)).map (·.1)

-- `Math.abs(hash - closestHash)`, by its bits.
def delta (hash : Nat) (t : T) : Nat :=
  bitsOf (naturalDoubles.absDifference hash ((hashable t).getClosestHash naturalDoubles hash))

def distance (hash : Nat) (t : T) : Double := ofBits (delta hashable hash t)

def place (hash : Nat) (state : SortedMap Double T × List T) (t : T) : Option (SortedMap Double T × List T) :=
  let (hashableMap, zeroHashes) := state
  if !(hashable t).hasHashes then some (hashableMap, zeroHashes ++ [t])
  else
    (getSafeHash hashableMap (distance hashable hash t) true).map fun hashDelta =>
      (hashableMap.put rebalance hashDelta t, zeroHashes)

def sortHashables (hash : Nat) (hashables : List T) : Option (SortedMap Double T) := do
  let (hashableMap, zeroHashes) ← hashables.foldlM (place rebalance hashable hash) (SortedMap.empty, [])
  synthesizeZeroHashes rebalance hashable hashableMap zeroHashes

def selectHashables (digest : String → BitVec 128) (hashables : List T) (s : String) : Option (List T) :=
  (sortHashables rebalance hashable (MD5HashFunction.hash (digest s)) hashables).map SortedMap.values

section Slots

variable {rebalance} {map : SortedMap Double T}

/-- The keys of the map among the doubles without a sign. -/
def Keys (map : SortedMap Double T) (taken : List Nat) : Prop :=
  ∀ z ≤ infinityBits, map.containsKey (ofBits z) = true ↔ z ∈ taken

/-- Upwards the first free slot is found. -/
theorem getSafeHash_up {taken : List Nat} (keys : Keys map taken) {n y : Nat} (probes : LinearProbing.Probes taken n y)
    (small : y ≤ infinityBits) : getSafeHash map (ofBits n) true = some (ofBits y) := by
  have low : n ≤ infinityBits := probes.start.trans small
  unfold getSafeHash
  cases contained : map.containsKey (ofBits n) with
  | false =>
    have free : n ∉ taken := fun member => by
      rw [(keys n low).mpr member] at contained
      cases contained
    have same := probes.unique ⟨le_rfl, free, fun z from_n below => absurd below (Nat.not_lt.mpr from_n)⟩
    rw [same]
    rfl
  | true =>
    have member := (keys n low).mp contained
    have above : n < y := Nat.lt_of_le_of_ne probes.start fun same => probes.free (same ▸ member)
    have found : (probe map.containsKey true (2 ^ 64) (ofBits n).bits).map longBitsToDouble = some (ofBits y) := by
      refine probe_up low above ?_ (fun z higher lower => ?_) ?_
      · unfold infinityBits at small
        omega
      · exact (keys z (by omega)).mpr (probes.passed z higher.le lower)
      · rw [← Bool.not_eq_true, keys y small]
        exact probes.free
    obtain ⟨bits, result, double⟩ := Option.map_eq_some_iff.mp found
    rw [result]
    simp [double, less_ofBits small low probes.start]

/-- Downwards the slot below is taken. -/
theorem getSafeHash_down {n : Nat} (small : n + 1 ≤ infinityBits) (contained : map.containsKey (ofBits (n + 1)) = true)
    (free : map.containsKey (ofBits n) = false) : getSafeHash map (ofBits (n + 1)) false = some (ofBits n) := by
  obtain ⟨bits, result, double⟩ := Option.map_eq_some_iff.mp (@probe_down _ n (2 ^ 64) small (by decide) free)
  unfold getSafeHash
  rw [contained, result]
  simp [double, less_ofBits small (Nat.le_of_succ_le small) (Nat.le_succ n)]

/-- Below 0.0 comes NaN, which is the greatest key. -/
theorem getSafeHash_zero (contained : map.containsKey (ofBits 0) = true) (free : map.containsKey nan = false) :
    getSafeHash map (ofBits 0) false = some nan := by
  obtain ⟨bits, result, double⟩ := Option.map_eq_some_iff.mp (@probe_zero _ (2 ^ 64) (by decide) free)
  unfold getSafeHash
  rw [contained, result]
  simp [double, less_nan]

theorem getSafeHash_nan (contained : map.containsKey nan = true) (free : map.containsKey (ofBits infinityBits) = false) :
    getSafeHash map nan false = some (ofBits infinityBits) := by
  obtain ⟨bits, result, double⟩ := Option.map_eq_some_iff.mp (@probe_nan _ (2 ^ 64) (by decide) contained free)
  unfold getSafeHash
  rw [contained, result]
  simp [double, less_nan]

theorem getSafeHash_free {hash : Double} (free : map.containsKey hash = false) (add : Bool) :
    getSafeHash map hash add = some hash := by
  rw [getSafeHash, free]
  rfl

end Slots

end DoubleHasher

end TrafficControl.TrafficRouter
