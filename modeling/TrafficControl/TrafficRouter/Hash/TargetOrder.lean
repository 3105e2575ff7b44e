import TrafficControl.TrafficRouter.Hash.DoubleHasher

set_option autoImplicit false

namespace TrafficControl.TrafficRouter.DoubleHasher

open DoubleBits LinearProbing

variable {T : Type} {rebalance : SearchTree.Rebalance (Double × T)} {hashable : T → Digested}

section Distances

/-- No distance comes near the infinite one. -/
def farthest : Nat := 1155 * 2 ^ 52

theorem hash_lt (digest : BitVec 128) : MD5HashFunction.hash digest < 2 ^ 130 := by
  have range := digest.isLt
  have rounded := MachineInt.nearestDouble_le digest.toNat
  unfold MD5HashFunction.hash
  omega

theorem absDifference_lt {a b : Nat} (first : a < 2 ^ 130) (second : b < 2 ^ 130) :
    naturalDoubles.absDifference a b < 2 ^ 131 := by
  have rounded := MachineInt.nearestDouble_le (a - b + (b - a))
  unfold naturalDoubles
  dsimp only
  omega

theorem getClosestHash_lt (this : Digested) (hash : Nat) : this.getClosestHash naturalDoubles hash < 2 ^ 130 := by
  unfold DefaultHashable.getClosestHash
  rw [List.getD_eq_getElem?_getD]
  cases found : this.hashes[(NumberSearcher.findClosest naturalDoubles this.hashes hash).toNat]? with
  | none => exact Nat.two_pow_pos 130
  | some h =>
    obtain ⟨digest, rfl⟩ := this.digests h (List.mem_of_getElem? found)
    exact hash_lt digest

theorem delta_le (digest : BitVec 128) (t : T) : delta hashable (MD5HashFunction.hash digest) t ≤ farthest := by
  have bits := bitsOf_le (absDifference_lt (hash_lt digest) (getClosestHash_lt (hashable t) (MD5HashFunction.hash digest)))
  unfold delta farthest
  omega

theorem delta_large {hash : Nat} {t : T} (apart : delta hashable hash t ≠ 0) : 1023 * 2 ^ 52 ≤ delta hashable hash t := by
  unfold delta at apart ⊢
  refine bitsOf_large fun same => apart ?_
  rw [same]
  rfl

end Distances

section Placing

-- The slots of the hashables with hashes, in the order of the list.
structure Placed (hashable : T → Digested) (hash : Nat) (placed : List (T × Nat)) (map : SortedMap Double T) : Prop where
  entries : map.entries.Perm (placed.map fun p => (ofBits p.2, p.1))
  run : Run (placed.map fun p => (delta hashable hash p.1, p.2))
  near : ∀ p ∈ placed, p.2 ≤ farthest + placed.length

variable {hash : Nat} {placed : List (T × Nat)} {map : SortedMap Double T}

theorem containsKey_perm {entries : List (Double × T)} (perm : map.entries.Perm entries) (key : Double) :
    map.containsKey key = true ↔ ∃ entry ∈ entries, entry.1 = key := by
  rw [SortedMap.containsKey_iff]
  constructor
  · rintro ⟨entry, member, same⟩
    exact ⟨entry, perm.mem_iff.mp member, same⟩
  · rintro ⟨entry, member, same⟩
    exact ⟨entry, perm.mem_iff.mpr member, same⟩

theorem Placed.small (done : Placed hashable hash placed map) (short : placed.length < 2 ^ 31) {p : T × Nat} (member : p ∈ placed) :
    p.2 ≤ infinityBits := by
  have near := done.near p member
  unfold infinityBits
  unfold farthest at near
  omega

theorem Placed.keys (done : Placed hashable hash placed map) (short : placed.length < 2 ^ 31) : Keys map (placed.map Prod.snd) := by
  intro z small
  rw [containsKey_perm done.entries]
  constructor
  · rintro ⟨entry, member, same⟩
    obtain ⟨p, inPlaced, rfl⟩ := List.mem_map.mp member
    rw [← (ofBits_inj (done.small short inPlaced) small).mp same]
    exact List.mem_map_of_mem inPlaced
  · intro member
    obtain ⟨p, inPlaced, rfl⟩ := List.mem_map.mp member
    exact ⟨(ofBits p.2, p.1), List.mem_map_of_mem inPlaced, rfl⟩

theorem Placed.place (digest : BitVec 128) (done : Placed hashable (MD5HashFunction.hash digest) placed map)
    (short : placed.length < 2 ^ 31) (t : T) :
    ∃ y, getSafeHash map (distance hashable (MD5HashFunction.hash digest) t) true = some (ofBits y) ∧
      Placed hashable (MD5HashFunction.hash digest) (placed ++ [(t, y)]) (map.put rebalance (ofBits y) t) := by
  obtain ⟨y, probes, close⟩ := exists_probes (placed.map Prod.snd) (delta hashable (MD5HashFunction.hash digest) t)
  rw [List.length_map] at close
  have far := @delta_le T hashable digest t
  have small : y ≤ infinityBits := by
    unfold infinityBits
    unfold farthest at far
    omega
  have keys := done.keys short
  refine ⟨y, getSafeHash_up keys probes small, ?_, ?_, ?_⟩
  · have fresh : ¬map.containsKey (ofBits y) = true := by
      rw [keys y small]
      exact probes.free
    rw [List.map_append]
    exact ((SortedMap.perm_put rebalance fresh t).trans (done.entries.cons _)).trans (List.perm_append_singleton _ _).symm
  · rw [List.map_append]
    refine done.run.snoc ?_
    rw [List.map_map]
    exact probes
  · intro p member
    rw [List.length_append, List.length_singleton]
    rcases List.mem_append.mp member with old | new
    · have near := done.near p old
      omega
    · rw [List.mem_singleton.mp new]
      dsimp only
      omega

/-- All hashables with hashes find a slot, and the others are put aside. -/
theorem place_all (digest : BitVec 128) (hashables : List T) (short : hashables.length < 2 ^ 31) :
    ∃ map placed, hashables.foldlM (place rebalance hashable (MD5HashFunction.hash digest)) (SortedMap.empty, []) =
        some (map, hashables.filter fun t => !(hashable t).hasHashes) ∧
      Placed hashable (MD5HashFunction.hash digest) placed map ∧ placed.map Prod.fst = hashables.filter fun t => (hashable t).hasHashes := by
  induction hashables using List.reverseRecOn with
  | nil => exact ⟨SortedMap.empty, [], rfl, ⟨List.Perm.refl _, .nil, fun p none => absurd none List.not_mem_nil⟩, rfl⟩
  | append_singleton hashables t ih =>
    rw [List.length_append, List.length_singleton] at short
    obtain ⟨map, placed, folded, done, fits⟩ := ih (by omega)
    have count : placed.length ≤ hashables.length := by
      rw [← List.length_map (f := Prod.fst), fits]
      exact List.length_filter_le _ _
    rw [List.foldlM_append, folded, List.filter_append, List.filter_append]
    cases hashed : (hashable t).hasHashes with
    | false =>
      refine ⟨map, placed, ?_, done, ?_⟩
      · simp [DoubleHasher.place, hashed]
      · simp [fits, hashed]
    | true =>
      obtain ⟨y, found, next⟩ := @Placed.place T rebalance hashable placed map digest done (by omega) t
      refine ⟨map.put rebalance (ofBits y) t, placed ++ [(t, y)], ?_, next, ?_⟩
      · simp [DoubleHasher.place, hashed, found]
      · simp [fits, hashed]

end Placing

section Ends

variable {map : SortedMap Double T} {low high : List (Double × T)} {n : Nat}

theorem containsKey_split (split : map.entries = low ++ high) (key : Double) :
    map.containsKey key = true ↔ (∃ entry ∈ low, entry.1 = key) ∨ ∃ entry ∈ high, entry.1 = key := by
  rw [SortedMap.containsKey_iff, split]
  simp [or_and_right, exists_or]

theorem not_containsKey {key : Double} (split : map.entries = low ++ high) (under : ∀ entry ∈ low, entry.1 < key)
    (over_key : ∀ entry ∈ high, key < entry.1) : map.containsKey key = false := by
  rw [← Bool.not_eq_true, containsKey_split split]
  rintro (⟨entry, member, same⟩ | ⟨entry, member, same⟩)
  · exact absurd same (ne_of_lt (under entry member))
  · exact absurd same (ne_of_gt (over_key entry member))

theorem keys_entries (map : SortedMap Double T) : Keys map (map.entries.map fun entry => entry.1.bits.toNat) := by
  intro z small
  have bits : (ofBits z).bits.toNat = z := by
    rw [bits_ofBits small, BitVec.toNat_ofNat]
    refine Nat.mod_eq_of_lt ?_
    unfold infinityBits at small
    omega
  rw [SortedMap.containsKey_iff, List.mem_map]
  refine exists_congr fun entry => and_congr_right fun _ => ⟨fun same => same ▸ bits, fun same => ?_⟩
  apply rank_injective
  have size : z < 2 ^ 63 := by
    unfold infinityBits at small
    omega
  rw [rank_ofBits small, Double.rank, same, if_pos size]

/-- One target more, just below the part of the map from `n` on. -/
theorem prepend_below (maxHash : Double) (t : T) (split : map.entries = low ++ high) (small : n + 1 ≤ infinityBits)
    (above : ∀ entry ∈ high, ofBits (n + 1) ≤ entry.1) (here : ∃ entry ∈ high, entry.1 = ofBits (n + 1))
    (under : ∀ entry ∈ low, entry.1 < ofBits n) :
    ∃ map', prepend rebalance (map, ofBits (n + 1), maxHash) t = some (map', ofBits n, maxHash) ∧
      map'.entries = low ++ (ofBits n, t) :: high := by
  have step : ofBits n < ofBits (n + 1) := (ofBits_lt (Nat.le_of_succ_le small) small).mpr (Nat.lt_succ_self n)
  have later : ∀ entry ∈ high, ofBits n < entry.1 := fun entry member => step.trans_le (above entry member)
  have contained := (containsKey_split split _).mpr (Or.inr here)
  have free := not_containsKey split under later
  refine ⟨map.put rebalance (ofBits n) t, ?_, SortedMap.entries_put_between rebalance split under later t⟩
  simp only [prepend, getSafeHash_down small contained free, Option.map_some]

theorem prepend_all {targets : List T} (maxHash : Double) (split : map.entries = low ++ high) (small : n ≤ infinityBits)
    (room : targets.length ≤ n) (above : ∀ entry ∈ high, ofBits n ≤ entry.1) (here : ∃ entry ∈ high, entry.1 = ofBits n)
    (under : ∀ entry ∈ low, entry.1 < ofBits (n - targets.length)) :
    ∃ map' news, targets.foldlM (prepend rebalance) (map, ofBits n, maxHash) = some (map', ofBits (n - targets.length), maxHash) ∧
      map'.entries = low ++ (news ++ high) ∧ news.map Prod.snd = targets.reverse ∧
      ∀ entry ∈ news, ofBits (n - targets.length) ≤ entry.1 ∧ entry.1 ≤ ofBits n := by
  induction targets generalizing map n high with
  | nil => exact ⟨map, [], rfl, split, rfl, fun entry none => absurd none List.not_mem_nil⟩
  | cons t targets ih =>
    rw [List.length_cons] at room under
    obtain ⟨n, rfl⟩ := Nat.exists_eq_add_one_of_ne_zero (Nat.ne_of_gt (Nat.lt_of_lt_of_le (Nat.succ_pos _) room))
    rw [Nat.add_sub_add_right] at under
    have lowest : ofBits (n - targets.length) ≤ ofBits n := by
      rw [← not_lt, ofBits_lt (by omega) (by omega)]
      omega
    have step : ofBits n < ofBits (n + 1) := (ofBits_lt (by omega) small).mpr (Nat.lt_succ_self n)
    obtain ⟨map', first, split'⟩ := @prepend_below T rebalance map low high n maxHash t split small above here
      fun entry member => (under entry member).trans_le lowest
    obtain ⟨map'', news, rest, split'', values, range⟩ := @ih map' ((ofBits n, t) :: high) n split' (by omega) (by omega)
      (by
        intro entry member
        rcases List.mem_cons.mp member with rfl | old
        · exact le_rfl
        · exact (step.trans_le (above entry old)).le)
      ⟨(ofBits n, t), List.mem_cons_self, rfl⟩ under
    refine ⟨map'', news ++ [(ofBits n, t)], ?_, ?_, ?_, ?_⟩
    · rw [List.foldlM_cons, first, List.length_cons, Nat.add_sub_add_right]
      exact rest
    · rw [split'', List.append_assoc]
      rfl
    · rw [List.map_append, values, List.reverse_cons]
      rfl
    · intro entry member
      rw [List.length_cons, Nat.add_sub_add_right]
      rcases List.mem_append.mp member with old | new
      · exact ⟨(range entry old).1, (range entry old).2.trans step.le⟩
      · rw [List.mem_singleton.mp new]
        exact ⟨lowest, step.le⟩

/-- One target more, just above the part of the map up to `n`. -/
theorem append_above (minHash : Double) (t : T) (split : map.entries = low ++ high) (small : n + 1 ≤ infinityBits)
    (below : ∀ entry ∈ low, entry.1 ≤ ofBits n) (here : ∃ entry ∈ low, entry.1 = ofBits n)
    (over_next : ∀ entry ∈ high, ofBits (n + 1) < entry.1) :
    ∃ map', append rebalance (map, minHash, ofBits n) t = some (map', minHash, ofBits (n + 1)) ∧
      map'.entries = (low ++ [(ofBits (n + 1), t)]) ++ high := by
  have step : ofBits n < ofBits (n + 1) := (ofBits_lt (Nat.le_of_succ_le small) small).mpr (Nat.lt_succ_self n)
  have earlier : ∀ entry ∈ low, entry.1 < ofBits (n + 1) := fun entry member => (below entry member).trans_lt step
  have free := not_containsKey split earlier over_next
  have keys := keys_entries map
  have probes : Probes (map.entries.map fun entry => entry.1.bits.toNat) n (n + 1) := by
    refine ⟨Nat.le_succ n, ?_, ?_⟩
    · rw [← keys (n + 1) small, free]
      exact Bool.false_ne_true
    · intro z from_n before
      obtain rfl : z = n := by omega
      exact (keys z (Nat.le_of_succ_le small)).mp ((containsKey_split split _).mpr (Or.inl here))
  refine ⟨map.put rebalance (ofBits (n + 1)) t, ?_, ?_⟩
  · simp only [append, getSafeHash_up keys probes small, Option.map_some]
  · rw [SortedMap.entries_put_between rebalance split earlier over_next t, List.append_assoc]
    rfl

theorem append_all {targets : List T} (minHash : Double) (split : map.entries = low ++ high)
    (small : n + targets.length ≤ infinityBits) (below : ∀ entry ∈ low, entry.1 ≤ ofBits n)
    (here : ∃ entry ∈ low, entry.1 = ofBits n) (above : ∀ entry ∈ high, ofBits (n + targets.length) < entry.1) :
    ∃ map' news, targets.foldlM (append rebalance) (map, minHash, ofBits n) = some (map', minHash, ofBits (n + targets.length)) ∧
      map'.entries = low ++ news ++ high ∧ news.map Prod.snd = targets := by
  induction targets generalizing map n low with
  | nil => exact ⟨map, [], rfl, by rw [split, List.append_nil], rfl⟩
  | cons t targets ih =>
    rw [List.length_cons] at small above
    have step : ofBits n < ofBits (n + 1) := (ofBits_lt (by omega) (by omega)).mpr (Nat.lt_succ_self n)
    have same : n + (targets.length + 1) = n + 1 + targets.length := by omega
    rw [same] at above
    have reach : ofBits (n + 1) ≤ ofBits (n + 1 + targets.length) := by
      rw [← not_lt, ofBits_lt (by omega) (by omega)]
      omega
    obtain ⟨map', first, split'⟩ := @append_above T rebalance map low high n minHash t split (by omega) below here
      fun entry member => reach.trans_lt (above entry member)
    obtain ⟨map'', news, rest, split'', values⟩ := @ih map' (low ++ [(ofBits (n + 1), t)]) (n + 1) split' (by omega)
      (by
        intro entry member
        rcases List.mem_append.mp member with old | new
        · exact (below entry old).trans step.le
        · rw [List.mem_singleton.mp new])
      ⟨(ofBits (n + 1), t), List.mem_append_right _ (List.mem_singleton_self _), rfl⟩ above
    refine ⟨map'', (ofBits (n + 1), t) :: news, ?_, ?_, ?_⟩
    · rw [List.foldlM_cons, first, List.length_cons, same]
      exact rest
    · rw [split'', List.append_assoc low]
      rfl
    · rw [List.map_cons, values]

/-- Below 0.0 the targets go to the tail, behind all numbers of the map. -/
theorem prepend_zero {targets : List T} (maxHash : Double) (here : map.containsKey (ofBits 0) = true)
    (short : targets.length < infinityBits) (below : ∀ entry ∈ map.entries, entry.1 < ofBits (infinityBits - targets.length)) :
    ∃ map' minHash news, targets.foldlM (prepend rebalance) (map, ofBits 0, maxHash) = some (map', minHash, maxHash) ∧
      map'.entries = map.entries ++ news ∧ news.map Prod.snd = targets.reverse ∧
      ∀ entry ∈ news, ofBits (infinityBits - targets.length) ≤ entry.1 := by
  have under_nan : ∀ entry ∈ map.entries, entry.1 < nan := fun entry member =>
    (below entry member).trans (ofBits_lt_nan (Nat.sub_le _ _))
  have whole : map.entries = map.entries ++ [] := (List.append_nil _).symm
  rcases targets with _ | ⟨t, targets⟩
  · exact ⟨map, ofBits 0, [], rfl, whole, rfl, fun entry none => absurd none List.not_mem_nil⟩
  have first : prepend rebalance (map, ofBits 0, maxHash) t = some (map.put rebalance nan t, nan, maxHash) := by
    have free := not_containsKey whole under_nan fun entry none => absurd none List.not_mem_nil
    simp only [prepend, getSafeHash_zero here free, Option.map_some]
  have split : (map.put rebalance nan t).entries = map.entries ++ [(nan, t)] :=
    SortedMap.entries_put_between rebalance whole under_nan (fun entry none => absurd none List.not_mem_nil) t
  rw [List.foldlM_cons, first]
  rcases targets with _ | ⟨t', targets⟩
  · refine ⟨_, _, [(nan, t)], rfl, split, rfl, fun entry member => ?_⟩
    rw [List.mem_singleton.mp member]
    exact (ofBits_lt_nan (Nat.sub_le _ _)).le
  have lower : ofBits (infinityBits - (t :: t' :: targets).length) ≤ ofBits (infinityBits - targets.length) := by
    rw [← not_lt, ofBits_lt (Nat.sub_le _ _) (Nat.sub_le _ _), List.length_cons, List.length_cons]
    omega
  have under_infinity : ∀ entry ∈ map.entries, entry.1 < ofBits infinityBits := fun entry member => by
    refine (below entry member).trans_le ?_
    rw [← not_lt, ofBits_lt le_rfl (Nat.sub_le _ _)]
    omega
  have above_infinity : ∀ entry ∈ [(nan, t)], ofBits infinityBits < entry.1 := fun entry member => by
    rw [List.mem_singleton.mp member]
    exact ofBits_lt_nan le_rfl
  have second : prepend rebalance (map.put rebalance nan t, nan, maxHash) t' =
      some ((map.put rebalance nan t).put rebalance (ofBits infinityBits) t', ofBits infinityBits, maxHash) := by
    have contained := (containsKey_split split nan).mpr (Or.inr ⟨(nan, t), List.mem_singleton_self _, rfl⟩)
    have free := not_containsKey split under_infinity above_infinity
    simp only [prepend, getSafeHash_nan contained free, Option.map_some]
  have split' := SortedMap.entries_put_between rebalance split under_infinity above_infinity t'
  obtain ⟨map', news, rest, split'', values, range⟩ := @prepend_all T rebalance _ map.entries
    ((ofBits infinityBits, t') :: [(nan, t)]) infinityBits targets maxHash split' le_rfl
    (by
      rw [List.length_cons, List.length_cons] at short
      omega)
    (by
      intro entry member
      rcases List.mem_cons.mp member with rfl | last
      · exact le_rfl
      · exact (above_infinity entry last).le)
    ⟨_, List.mem_cons_self, rfl⟩ fun entry member => (below entry member).trans_le lower
  refine ⟨map', ofBits (infinityBits - targets.length), news ++ [(ofBits infinityBits, t'), (nan, t)], ?_, split'', ?_, ?_⟩
  · change (prepend rebalance (map.put rebalance nan t, nan, maxHash) t' >>= fun state => targets.foldlM (prepend rebalance) state) = _
    rw [second]
    exact rest
  · rw [List.map_append, values]
    simp
  · intro entry member
    rcases List.mem_append.mp member with old | new
    · exact lower.trans (range entry old).1
    · rcases List.mem_cons.mp new with rfl | last
      · rw [← not_lt, ofBits_lt le_rfl (Nat.sub_le _ _)]
        omega
      · rw [List.mem_singleton.mp last]
        exact (ofBits_lt_nan (Nat.sub_le _ _)).le

end Ends

end TrafficControl.TrafficRouter.DoubleHasher
