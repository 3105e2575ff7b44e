import Mathlib.Algebra.Order.Group.Abs
import Mathlib.Data.List.MinMax
import Mathlib.Data.List.Sort
import TrafficControl.Lib.BinarySearch
import TrafficControl.Lib.SortedMap

set_option autoImplicit false

namespace TrafficControl.TrafficRouter

/-- What the hasher does with doubles. Their `compareTo` is the linear order of the type; the
primitive `<` may differ from it. -/
structure DoubleArithmetic (α : Type) where
  zero : α
  absDifference : α → α → α
  less : α → α → Bool
  incrementBits : α → α
  decrementBits : α → α

def DoubleArithmetic.exact {α : Type} [AddCommGroup α] [LinearOrder α] (incrementBits decrementBits : α → α) :
    DoubleArithmetic α where
  zero := 0
  absDifference a b := |a - b|
  less a b := decide (a < b)
  incrementBits := incrementBits
  decrementBits := decrementBits

namespace NumberSearcher

variable {α : Type} [LinearOrder α] (arithmetic : DoubleArithmetic α)

-- `Arrays.binarySearch`: a missing key is reported as `-(insertion point) - 1`.
def binarySearch (numbers : List α) (target : α) : Int :=
  match BinarySearch.search numbers target with
  | .ok index => index
  | .error insertion => -(insertion + 1)

def findClosest (numbers : List α) (target : α) : Int :=
  let index := binarySearch numbers target
  if 0 ≤ index then index
  else
    let biggerThanIndex := -(index + 1)
    if biggerThanIndex = numbers.length then numbers.length - 1
    else if biggerThanIndex = 0 then 0
    else
      let smallerThanIndex := biggerThanIndex - 1
      let numberAt (i : Int) : α := numbers.getD i.toNat arithmetic.zero
      let biggerThanDelta := arithmetic.absDifference (numberAt biggerThanIndex) target
      let smallerThanDelta := arithmetic.absDifference (numberAt smallerThanIndex) target
      if arithmetic.less biggerThanDelta smallerThanDelta then biggerThanIndex else smallerThanIndex

end NumberSearcher

-- `hashes` is read from a TreeSet.
structure DefaultHashable (α : Type) [LinearOrder α] where
  hashes : List α
  sorted : hashes.Pairwise (· ≤ ·)
  order : Int
deriving DecidableEq

class Hashable (α : outParam Type) [LinearOrder α] (T : Type) where
  hashable : T → DefaultHashable α
  compareTo : T → T → Int

namespace DefaultHashable

variable {α : Type} [LinearOrder α] (arithmetic : DoubleArithmetic α)

def hasHashes (this : DefaultHashable α) : Bool := !this.hashes.isEmpty

-- Without hashes the source would read index -1; callers ask `hasHashes` first.
def getClosestHash (this : DefaultHashable α) (hash : α) : α :=
  this.hashes.getD (NumberSearcher.findClosest arithmetic this.hashes hash).toNat arithmetic.zero

def compareTo (this o : DefaultHashable α) : Int :=
  if this.order < 0 ∧ o.order < 0 then
    if this.order < o.order then 1 else if o.order < this.order then -1 else 0
  else if this.order < o.order then -1 else if o.order < this.order then 1 else 0

instance : Hashable α (DefaultHashable α) := ⟨id, compareTo⟩

end DefaultHashable

structure Dispersion where
  limit : Int
  shuffled : Bool
deriving DecidableEq

-- `Collections.shuffle` with whatever its generator draws.
structure Shuffle (T : Type) where
  run : List T → List T
  perm : ∀ list, (run list).Perm list

namespace ConsistentHasher

variable {α : Type} [LinearOrder α] {T : Type} [Hashable α T]
variable (arithmetic : DoubleArithmetic α) (rebalance : SearchTree.Rebalance (α × T))

-- The do-while loop of `getSafeHash`; the counter only has to reach the number of keys.
def nextFree (hashableMap : SortedMap α T) (step : α → α) : Nat → α → α
  | 0, syntheticHash => syntheticHash
  | tries + 1, syntheticHash =>
    let syntheticHash := step syntheticHash
    if hashableMap.containsKey syntheticHash then nextFree hashableMap step tries syntheticHash
    else syntheticHash

def getSafeHash (hashableMap : SortedMap α T) (hash : α) (add : Bool) : α :=
  if !hashableMap.containsKey hash then hash
  else
    let step := if add then arithmetic.incrementBits else arithmetic.decrementBits
    let syntheticHash := nextFree hashableMap step hashableMap.size hash
    if add && arithmetic.less syntheticHash hash || !add && arithmetic.less hash syntheticHash then hash
    else syntheticHash

-- The fold's state: the map, `minHash` and `maxHash`.
def synthesizeZeroHashes (hashableMap : SortedMap α T) (zeroHashes : List T) : SortedMap α T :=
  if zeroHashes.isEmpty then hashableMap
  else
    let minHash := (hashableMap.entries.head?.map Prod.fst).getD arithmetic.zero
    let maxHash := (hashableMap.entries.getLast?.map Prod.fst).getD arithmetic.zero
    let zeroHashes := zeroHashes.insertionSort fun a b => Hashable.compareTo a b ≤ 0
    (zeroHashes.foldl (fun (hashableMap, minHash, maxHash) hashable =>
      if 0 ≤ (Hashable.hashable hashable).order then
        let syntheticHash := getSafeHash arithmetic hashableMap maxHash true
        (hashableMap.put rebalance syntheticHash hashable, minHash, syntheticHash)
      else
        let syntheticHash := getSafeHash arithmetic hashableMap minHash false
        (hashableMap.put rebalance syntheticHash hashable, syntheticHash, maxHash))
      (hashableMap, minHash, maxHash)).1

def place (hash : α) (hashableMap : SortedMap α T) (hashable : T) : SortedMap α T :=
  let closestHash := (Hashable.hashable hashable).getClosestHash arithmetic hash
  let hashDelta := getSafeHash arithmetic hashableMap (arithmetic.absDifference hash closestHash) true
  hashableMap.put rebalance hashDelta hashable

def sortHashables (hash : α) (hashables : List T) : SortedMap α T :=
  let (hashableMap, zeroHashes) := hashables.foldl
    (fun (hashableMap, zeroHashes) hashable =>
      if !(Hashable.hashable hashable).hasHashes then (hashableMap, zeroHashes ++ [hashable])
      else (place arithmetic rebalance hash hashableMap hashable, zeroHashes))
    (SortedMap.empty, [])
  synthesizeZeroHashes arithmetic rebalance hashableMap zeroHashes

variable (hashFunction : String → α) (shuffle : Shuffle T)

def selectHashables (hashables : List T) (dispersion : Option Dispersion) (s : String) : List T :=
  let sortedHashables := sortHashables arithmetic rebalance (hashFunction s) hashables
  match dispersion with
  | none => sortedHashables.values
  | some dispersion =>
    let selectedHashables := sortedHashables.values.take dispersion.limit.toNat
    if dispersion.shuffled then shuffle.run selectedHashables else selectedHashables

def selectHashable (hashables : List T) (dispersion : Option Dispersion) (s : String) : Option T :=
  (selectHashables arithmetic rebalance hashFunction shuffle hashables dispersion s).head?

theorem synthesizeZeroHashes_values (hashableMap : SortedMap α T) (zeroHashes : List T) {hashable : T}
    (member : hashable ∈ (synthesizeZeroHashes arithmetic rebalance hashableMap zeroHashes).values) :
    hashable ∈ hashableMap.values ∨ hashable ∈ zeroHashes := by
  unfold synthesizeZeroHashes at member
  split_ifs at member with nothing
  · exact Or.inl member
  · revert member
    refine List.foldlRecOn (motive := fun state : SortedMap α T × α × α =>
      hashable ∈ state.1.values → hashable ∈ hashableMap.values ∨ hashable ∈ zeroHashes) _ _ Or.inl ?_
    intro state kept added inList
    have inZeroHashes : added ∈ zeroHashes := (List.mem_insertionSort _).mp inList
    dsimp only
    split_ifs
    all_goals
      intro inMap
      rcases SortedMap.mem_values_put rebalance inMap with rfl | old
      · exact Or.inr inZeroHashes
      · exact kept old

theorem sortHashables_values (hash : α) (hashables : List T) {hashable : T}
    (member : hashable ∈ (sortHashables arithmetic rebalance hash hashables).values) : hashable ∈ hashables := by
  have sources := synthesizeZeroHashes_values arithmetic rebalance _ _ member
  revert sources
  refine List.foldlRecOn (motive := fun state : SortedMap α T × List T =>
    hashable ∈ state.1.values ∨ hashable ∈ state.2 → hashable ∈ hashables) hashables _
    (by simp [SortedMap.values]) ?_
  intro state kept added inList
  dsimp only
  split_ifs
  · intro sources
    rw [List.mem_append, List.mem_singleton, ← or_assoc] at sources
    rcases sources with old | rfl
    · exact kept old
    · exact inList
  · rintro (inMap | inZeroHashes)
    · rcases SortedMap.mem_values_put rebalance inMap with rfl | old
      · exact inList
      · exact kept (Or.inl old)
    · exact kept (Or.inr inZeroHashes)

theorem selectHashable_mem {hashables : List T} {dispersion : Option Dispersion} {s : String} {hashable : T}
    (selected : selectHashable arithmetic rebalance hashFunction shuffle hashables dispersion s = some hashable) :
    hashable ∈ hashables := by
  have member := List.mem_of_mem_head? selected
  refine sortHashables_values arithmetic rebalance (hashFunction s) hashables ?_
  unfold selectHashables at member
  cases dispersion with
  | none => exact member
  | some dispersion =>
    dsimp only at member
    split_ifs at member
    · exact List.mem_of_mem_take ((shuffle.perm _).mem_iff.mp member)
    · exact List.mem_of_mem_take member

omit [Hashable α T] in
theorem values_put_ne_nil (map : SortedMap α T) (key : α) (hashable : T) : (map.put rebalance key hashable).values ≠ [] := by
  obtain ⟨before, after, _, result⟩ := SortedMap.entries_put rebalance map key hashable
  rw [SortedMap.values, result]
  simp

theorem synthesizeZeroHashes_ne_nil (hashableMap : SortedMap α T) (zeroHashes : List T)
    (given : hashableMap.values ≠ [] ∨ zeroHashes ≠ []) :
    (synthesizeZeroHashes arithmetic rebalance hashableMap zeroHashes).values ≠ [] := by
  unfold synthesizeZeroHashes
  split_ifs with nothing
  · exact given.resolve_right fun some_zero => some_zero (List.isEmpty_iff.mp nothing)
  · dsimp only
    rcases List.eq_nil_or_concat (zeroHashes.insertionSort fun a b => Hashable.compareTo a b ≤ 0) with none | ⟨earlier, last, split⟩
    · have perm := List.perm_insertionSort (fun a b => Hashable.compareTo a b ≤ 0) zeroHashes
      rw [none] at perm
      exact absurd (List.isEmpty_iff.mpr perm.nil_eq.symm) nothing
    · rw [split, List.concat_eq_append, List.foldl_append, List.foldl_cons, List.foldl_nil]
      split_ifs
      · exact values_put_ne_nil rebalance _ _ last
      · exact values_put_ne_nil rebalance _ _ last

theorem sortHashables_nil_iff (hash : α) (hashables : List T) :
    (sortHashables arithmetic rebalance hash hashables).values = [] ↔ hashables = [] := by
  rcases List.eq_nil_or_concat hashables with rfl | ⟨earlier, last, rfl⟩
  · exact iff_of_true rfl rfl
  · refine iff_of_false (synthesizeZeroHashes_ne_nil arithmetic rebalance _ _ ?_) (by simp)
    rw [List.concat_eq_append, List.foldl_append, List.foldl_cons, List.foldl_nil]
    split_ifs
    · exact Or.inr (by simp)
    · exact Or.inl (values_put_ne_nil rebalance _ _ last)

/-- The selection is null when there is nothing to select or the limit leaves nothing of it. -/
theorem selectHashable_none_iff (hashables : List T) (dispersion : Dispersion) (s : String) :
    selectHashable arithmetic rebalance hashFunction shuffle hashables (some dispersion) s = none ↔
      hashables = [] ∨ dispersion.limit ≤ 0 := by
  rw [← sortHashables_nil_iff arithmetic rebalance (hashFunction s) hashables, ← Int.toNat_eq_zero, selectHashable, List.head?_eq_none_iff]
  unfold selectHashables
  dsimp only
  split_ifs
  · rw [← List.length_eq_zero_iff, (shuffle.perm _).length_eq, List.length_eq_zero_iff, List.take_eq_nil_iff, or_comm]
  · rw [List.take_eq_nil_iff, or_comm]

end ConsistentHasher

end TrafficControl.TrafficRouter
