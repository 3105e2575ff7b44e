import Mathlib.Data.List.MinMax
import TrafficControl.TrafficRouter.Hash.TargetOrder

set_option autoImplicit false

namespace TrafficControl.TrafficRouter.DoubleHasher

open DoubleBits LinearProbing

variable {T : Type} {rebalance : SearchTree.Rebalance (Double × T)} {hashable : T → Digested}

section Sorting

variable (hashable)

/-- The targets without hashes as they are sorted: the negative orders first, the most negative last. -/
structure Sorted (zeroHashes negatives others : List T) : Prop where
  sorted : zeroHashes.insertionSort (fun a b => (hashable a).compareTo (hashable b).toDefaultHashable ≤ 0) = negatives ++ others
  negative : ∀ t ∈ negatives, (hashable t).order < 0
  other : ∀ t ∈ others, 0 ≤ (hashable t).order
  descending : negatives.Pairwise fun a b => (hashable b).order ≤ (hashable a).order
  ascending : others.Pairwise fun a b => (hashable a).order ≤ (hashable b).order

theorem compareTo_le (a b : T) : (hashable a).compareTo (hashable b).toDefaultHashable ≤ 0 ↔
    if (hashable a).order < 0 ∧ (hashable b).order < 0 then (hashable b).order ≤ (hashable a).order
    else (hashable a).order ≤ (hashable b).order := by
  unfold DefaultHashable.compareTo
  split_ifs <;> omega

theorem exists_sorted (zeroHashes : List T) : ∃ negatives others, Sorted hashable zeroHashes negatives others := by
  have total : Std.Total fun a b => (hashable a).compareTo (hashable b).toDefaultHashable ≤ 0 := ⟨fun a b => by
    simp only [compareTo_le]
    split_ifs <;> omega⟩
  have trans : IsTrans T fun a b => (hashable a).compareTo (hashable b).toDefaultHashable ≤ 0 := ⟨fun a b c first second => by
    simp only [compareTo_le] at first second ⊢
    split_ifs at first second ⊢ <;> omega⟩
  have pairs := List.pairwise_insertionSort (fun a b => (hashable a).compareTo (hashable b).toDefaultHashable ≤ 0) zeroHashes
  have split : ∀ targets : List T, targets.Pairwise (fun a b => (hashable a).compareTo (hashable b).toDefaultHashable ≤ 0) →
      ∃ negatives others, targets = negatives ++ others ∧ (∀ t ∈ negatives, (hashable t).order < 0) ∧
        (∀ t ∈ others, 0 ≤ (hashable t).order) ∧
        targets.Pairwise fun a b => (hashable a).compareTo (hashable b).toDefaultHashable ≤ 0 := by
    intro targets
    induction targets with
    | nil => exact fun pairs => ⟨[], [], rfl, by simp, by simp, pairs⟩
    | cons t targets ih =>
      intro pairs
      obtain ⟨first, rest⟩ := List.pairwise_cons.mp pairs
      rcases lt_or_ge (hashable t).order 0 with below | above
      · obtain ⟨negatives, others, rfl, negative, other, _⟩ := ih rest
        exact ⟨t :: negatives, others, rfl, List.forall_mem_cons.mpr ⟨below, negative⟩, other, pairs⟩
      · refine ⟨[], t :: targets, rfl, by simp, List.forall_mem_cons.mpr ⟨above, fun t' member => ?_⟩, pairs⟩
        have order := (compareTo_le hashable t t').mp (first t' member)
        rw [if_neg (fun both => absurd both.1 (not_lt.mpr above))] at order
        exact above.trans order
  obtain ⟨negatives, others, same, negative, other, _⟩ := split _ pairs
  rw [same] at pairs
  obtain ⟨descending, ascending, _⟩ := List.pairwise_append.mp pairs
  refine ⟨negatives, others, same, negative, other, ?_, ?_⟩
  · refine descending.imp_of_mem fun {a b} first second order => ?_
    rw [compareTo_le, if_pos ⟨negative a first, negative b second⟩] at order
    exact order
  · refine ascending.imp_of_mem fun {a b} first second order => ?_
    rw [compareTo_le, if_neg (fun both => absurd both.1 (not_lt.mpr (other a first)))] at order
    exact order

theorem Sorted.perm {zeroHashes negatives others : List T} (targets : Sorted hashable zeroHashes negatives others) :
    (negatives ++ others).Perm zeroHashes := by
  rw [← targets.sorted]
  exact List.perm_insertionSort _ _

end Sorting

section Synthesis

variable {map : SortedMap Double T} {zeroHashes negatives others : List T} {n m : Nat}

/-- The least and the greatest key of the map. -/
structure Spans (map : SortedMap Double T) (n m : Nat) : Prop where
  least : ∃ entry ∈ map.entries, entry.1 = ofBits n
  greatest : ∃ entry ∈ map.entries, entry.1 = ofBits m
  above : ∀ entry ∈ map.entries, ofBits n ≤ entry.1
  below : ∀ entry ∈ map.entries, entry.1 ≤ ofBits m

theorem Spans.firstKey (spans : Spans map n m) : (map.entries.head?.map Prod.fst).getD (ofBits 0) = ofBits n := by
  obtain ⟨entry, member, same⟩ := spans.least
  cases head : map.entries.head? with
  | none =>
    rw [List.head?_eq_none_iff.mp head] at member
    cases member
  | some first =>
    have order := SortedMap.head?_le head member
    exact le_antisymm (same ▸ order) (spans.above first (List.mem_of_mem_head? head))

theorem Spans.lastKey (spans : Spans map n m) : (map.entries.getLast?.map Prod.fst).getD (ofBits 0) = ofBits m := by
  obtain ⟨entry, member, same⟩ := spans.greatest
  cases last : map.entries.getLast? with
  | none =>
    rw [List.getLast?_eq_none_iff.mp last] at member
    cases member
  | some final =>
    obtain ⟨before, split⟩ := List.getLast?_eq_some_iff.mp last
    have ascending : map.entries.Pairwise fun a b => a.1 < b.1 := map.ascending
    have order : entry.1 ≤ final.1 := by
      rw [split] at member ascending
      rcases List.mem_append.mp member with earlier | itself
      · exact ((List.pairwise_append.mp ascending).2.2 entry earlier final (List.mem_singleton_self _)).le
      · rw [List.mem_singleton.mp itself]
    exact le_antisymm (spans.below final (List.mem_of_mem_getLast? last)) (same ▸ order)

theorem foldlM_same {S : Type} {f g : S → T → Option S} {targets : List T} (same : ∀ t ∈ targets, ∀ state, f state t = g state t)
    (state : S) : targets.foldlM f state = targets.foldlM g state := by
  induction targets generalizing state with
  | nil => rfl
  | cons t targets ih =>
    obtain ⟨first, rest⟩ := List.forall_mem_cons.mp same
    rw [List.foldlM_cons, List.foldlM_cons, first state]
    exact congrArg _ (funext fun state => ih rest state)

theorem fold_signs {S : Type} (up down : S → T → Option S) (negative : ∀ t ∈ negatives, (hashable t).order < 0)
    (other : ∀ t ∈ others, 0 ≤ (hashable t).order) (state : S) :
    (negatives ++ others).foldlM (fun state t => if 0 ≤ (hashable t).order then up state t else down state t) state =
      negatives.foldlM down state >>= fun state => others.foldlM up state := by
  rw [List.foldlM_append, foldlM_same fun t member state => if_neg (not_le.mpr (negative t member))]
  exact congrArg _ (funext fun state => foldlM_same (fun t member state => if_pos (other t member)) state)

/-- The loop over the sorted targets. -/
def loop (rebalance : SearchTree.Rebalance (Double × T)) (negatives others : List T) (state : SortedMap Double T × Double × Double) :
    Option (SortedMap Double T × Double × Double) :=
  negatives.foldlM (prepend rebalance) state >>= fun state => others.foldlM (append rebalance) state

/-- With room below the least key the targets of negative order come to the head. -/
theorem loop_below (spans : Spans map n m) (room : negatives.length ≤ n) (ordered : n ≤ m) (small : m + others.length ≤ infinityBits) :
    ∃ state, loop rebalance negatives others (map, ofBits n, ofBits m) = some state ∧
      state.1.values = negatives.reverse ++ map.values ++ others := by
  obtain ⟨map', news, first, split, values, range⟩ := @prepend_all T rebalance map [] map.entries n negatives (ofBits m)
    rfl (by omega) room spans.above spans.least (fun entry none => absurd none List.not_mem_nil)
  have reach : ofBits n ≤ ofBits m := by
    rw [← not_lt, ofBits_lt (by omega) (by omega)]
    omega
  obtain ⟨entry, member, greatest⟩ := spans.greatest
  obtain ⟨map'', news', second, split', values'⟩ := @append_all T rebalance map' (news ++ map.entries) [] m others
    (ofBits (n - negatives.length)) (by rw [split, List.nil_append, List.append_nil]) small
    (by
      intro entry member
      rcases List.mem_append.mp member with new | old
      · exact (range entry new).2.trans reach
      · exact spans.below entry old)
    ⟨entry, List.mem_append_right _ member, greatest⟩ (fun entry none => absurd none List.not_mem_nil)
  refine ⟨_, by rw [loop, first]; exact second, ?_⟩
  rw [SortedMap.values, split', List.append_nil, List.map_append, List.map_append, values, values']
  rfl

/-- Without room they come to the tail. -/
theorem loop_zero (spans : Spans map 0 m) (small : m + (others.length + negatives.length) < infinityBits) :
    ∃ state, loop rebalance negatives others (map, ofBits 0, ofBits m) = some state ∧
      state.1.values = map.values ++ others ++ negatives.reverse := by
  have below : ∀ x, x ≤ m + others.length → ofBits x < ofBits (infinityBits - negatives.length) := by
    intro x small'
    rw [ofBits_lt (by omega) (Nat.sub_le _ _)]
    omega
  obtain ⟨map', minHash, news, first, split, values, range⟩ := @prepend_zero T rebalance map negatives (ofBits m)
    ((SortedMap.containsKey_iff map _).mpr spans.least) (by omega)
    fun entry member => (spans.below entry member).trans_lt (below m (Nat.le_add_right _ _))
  obtain ⟨map'', news', second, split', values'⟩ := @append_all T rebalance map' map.entries news m others minHash split (by omega)
    spans.below spans.greatest fun entry member => (below _ le_rfl).trans_le (range entry member)
  refine ⟨_, by rw [loop, first]; exact second, ?_⟩
  rw [SortedMap.values, split', List.map_append, List.map_append, values, values']
  rfl

/-- Into an empty map the first target goes with 0.0. -/
theorem loop_empty (nothing : map.entries = []) (small : others.length + negatives.length < infinityBits) :
    ∃ state, loop rebalance negatives others (map, ofBits 0, ofBits 0) = some state ∧
      state.1.values = negatives.take 1 ++ others ++ (negatives.drop 1).reverse := by
  have free : map.containsKey (ofBits 0) = false :=
    @not_containsKey T map [] [] (ofBits 0) nothing (fun entry none => absurd none List.not_mem_nil)
      fun entry none => absurd none List.not_mem_nil
  have single : ∀ t, (map.put rebalance (ofBits 0) t).entries = [(ofBits 0, t)] := fun t =>
    @SortedMap.entries_put_between Double T _ rebalance map (ofBits 0) [] [] nothing (fun entry none => absurd none List.not_mem_nil)
      (fun entry none => absurd none List.not_mem_nil) t
  have spans : ∀ t, Spans (map.put rebalance (ofBits 0) t) 0 0 := fun t => by
    have least : ∃ entry ∈ (map.put rebalance (ofBits 0) t).entries, entry.1 = ofBits 0 :=
      ⟨(ofBits 0, t), by rw [single]; exact List.mem_singleton_self _, rfl⟩
    refine ⟨least, least, fun entry member => ?_, fun entry member => ?_⟩
    all_goals rw [single] at member; rw [List.mem_singleton.mp member]
  rcases negatives with _ | ⟨t, negatives⟩
  · rcases others with _ | ⟨t, others⟩
    · exact ⟨(map, ofBits 0, ofBits 0), rfl, by rw [SortedMap.values, nothing]; rfl⟩
    · rw [List.length_cons] at small
      obtain ⟨state, looped, values⟩ := @loop_below T rebalance (map.put rebalance (ofBits 0) t) [] others 0 0 (spans t) le_rfl le_rfl
        (by omega)
      have first : append rebalance (map, ofBits 0, ofBits 0) t = some (map.put rebalance (ofBits 0) t, ofBits 0, ofBits 0) := by
        simp only [append, getSafeHash_free free, Option.map_some]
      refine ⟨state, ?_, ?_⟩
      · change (append rebalance (map, ofBits 0, ofBits 0) t >>= fun state => others.foldlM (append rebalance) state) = some state
        rw [first]
        exact looped
      · rw [values, SortedMap.values, single]
        simp
  · rw [List.length_cons] at small
    obtain ⟨state, looped, values⟩ := @loop_zero T rebalance (map.put rebalance (ofBits 0) t) negatives others 0 (spans t) (by omega)
    have first : prepend rebalance (map, ofBits 0, ofBits 0) t = some (map.put rebalance (ofBits 0) t, ofBits 0, ofBits 0) := by
      simp only [prepend, getSafeHash_free free, Option.map_some]
    refine ⟨state, ?_, ?_⟩
    · rw [loop, List.foldlM_cons, first]
      exact looped
    · rw [values, SortedMap.values, single]
      rfl

theorem synthesizeZeroHashes_eq (targets : Sorted hashable zeroHashes negatives others)
    (firstKey : (map.entries.head?.map Prod.fst).getD (ofBits 0) = ofBits n)
    (lastKey : (map.entries.getLast?.map Prod.fst).getD (ofBits 0) = ofBits m) {values : List T} (looped : ∃ state, loop rebalance negatives others (map, ofBits n, ofBits m) = some state ∧ state.1.values = values)
    (unchanged : zeroHashes = [] → map.values = values) :
    (synthesizeZeroHashes rebalance hashable map zeroHashes).map SortedMap.values = some values := by
  unfold synthesizeZeroHashes
  split_ifs with nothing
  · rw [Option.map_some, unchanged (List.isEmpty_iff.mp nothing)]
  · obtain ⟨state, done, result⟩ := looped
    dsimp only
    rw [firstKey, lastKey, targets.sorted, fold_signs _ _ targets.negative targets.other]
    change (Option.map (·.1) (loop rebalance negatives others (map, ofBits n, ofBits m))).map SortedMap.values = _
    rw [done, Option.map_some, Option.map_some, result]

end Synthesis

section Selection

variable (hashable)

/-- The answer that is asked for. -/
structure Ordered (hash : Nat) (first middle last : List T) : Prop where
  negative : ∀ t ∈ first, (hashable t).hasHashes = false ∧ (hashable t).order < 0
  hashed : ∀ t ∈ middle, (hashable t).hasHashes = true
  other : ∀ t ∈ last, (hashable t).hasHashes = false ∧ 0 ≤ (hashable t).order
  orders : first.Pairwise fun a b => (hashable a).order ≤ (hashable b).order
  distances : middle.Pairwise fun a b => distance hashable hash a ≤ distance hashable hash b
  orders' : last.Pairwise fun a b => (hashable a).order ≤ (hashable b).order

/-- The distances leave room for each hashable at its place and for the targets of negative order below them. -/
structure Fits (hash : Nat) (hashables : List T) : Prop where
  room : ¬Crowded ((hashables.filter fun t => (hashable t).hasHashes).map (delta hashable hash))
  below : (∃ t ∈ hashables, (hashable t).hasHashes = true ∧ delta hashable hash t = 0) →
    ∀ t ∈ hashables, (hashable t).hasHashes = false → 0 ≤ (hashable t).order
  alone : (∀ t ∈ hashables, (hashable t).hasHashes = false) →
    (hashables.filter fun t => decide ((hashable t).order < 0)).length ≤ 1 ∨ ∃ order < 0, ∀ t ∈ hashables, (hashable t).order = order

variable {hashable} {hash : Nat} {placed : List (T × Nat)} {map : SortedMap Double T}

theorem Placed.values_perm (done : Placed hashable hash placed map) : map.values.Perm (placed.map Prod.fst) := by
  have perm := done.entries.map Prod.snd
  rw [List.map_map] at perm
  exact perm

/-- The values stand in the order of their distances unless these are crowded. -/
theorem Placed.distances_iff (far : ∀ t, delta hashable hash t ≤ farthest) (done : Placed hashable hash placed map)
    (short : placed.length < 2 ^ 31) :
    (map.values.Pairwise fun a b => distance hashable hash a ≤ distance hashable hash b) ↔
      ¬Crowded ((placed.map Prod.fst).map (delta hashable hash)) := by
  have near : ∀ t, delta hashable hash t ≤ infinityBits := fun t => by
    have far := far t
    unfold farthest at far
    unfold infinityBits
    omega
  have distances : ∀ a b : T, distance hashable hash a ≤ distance hashable hash b ↔
      delta hashable hash a ≤ delta hashable hash b := by
    intro a b
    rw [← not_lt, ← not_lt, distance, distance, ofBits_lt (near b) (near a)]
  have ascending : map.entries.Pairwise fun a b => a.1 < b.1 := map.ascending
  have slots : ∀ p ∈ placed, ∀ q ∈ placed, ofBits p.2 < ofBits q.2 ↔ p.2 < q.2 := fun p first q second =>
    ofBits_lt (done.small short first) (done.small short second)
  have numbers : (placed.map Prod.fst).map (delta hashable hash) =
      (placed.map fun p => (delta hashable hash p.1, p.2)).map Prod.fst := by
    simp only [List.map_map, Function.comp_def]
  rw [numbers, ← done.run.ordered_iff]
  rw [SortedMap.values, List.pairwise_map]
  constructor
  · intro pairs p first q second below
    obtain ⟨p, inPlaced, rfl⟩ := List.mem_map.mp first
    obtain ⟨q, inPlaced', rfl⟩ := List.mem_map.mp second
    have all := List.Pairwise.forall_of_forall_of_flip
      (R := fun a b : Double × T => a.1 < b.1 → distance hashable hash a.2 ≤
        distance hashable hash b.2)
      (fun entry _ loop => absurd loop (lt_irrefl _)) (pairs.imp fun {a b} order (_ : a.1 < b.1) => order)
      (ascending.imp fun order back => absurd back (lt_asymm order))
    have entry : (ofBits p.2, p.1) ∈ map.entries := done.entries.mem_iff.mpr (List.mem_map.mpr ⟨p, inPlaced, rfl⟩)
    have entry' : (ofBits q.2, q.1) ∈ map.entries := done.entries.mem_iff.mpr (List.mem_map.mpr ⟨q, inPlaced', rfl⟩)
    have order := all entry entry' ((slots p inPlaced q inPlaced').mpr below)
    exact (distances p.1 q.1).mp order
  · intro ordered
    refine ascending.imp_of_mem fun {a b} first second order => ?_
    obtain ⟨p, inPlaced, rfl⟩ := List.mem_map.mp (done.entries.mem_iff.mp first)
    obtain ⟨q, inPlaced', rfl⟩ := List.mem_map.mp (done.entries.mem_iff.mp second)
    have pair := List.mem_map_of_mem (f := fun p : T × Nat => (delta hashable hash p.1, p.2)) inPlaced
    have pair' := List.mem_map_of_mem (f := fun p : T × Nat => (delta hashable hash p.1, p.2)) inPlaced'
    exact (distances p.1 q.1).mpr (ordered _ pair _ pair' ((slots p inPlaced q inPlaced').mp order))

/-- The least key is 0.0, or it is far above. -/
theorem Placed.spans (done : Placed hashable hash placed map) (short : placed.length < 2 ^ 31) (nonempty : placed ≠ []) :
    ∃ n m, Spans map n m ∧ n ≤ m ∧ m ≤ farthest + placed.length ∧ (n ≠ 0 → 1023 * 2 ^ 52 ≤ n) ∧
      (n = 0 ↔ ∃ p ∈ placed, delta hashable hash p.1 = 0) := by
  obtain ⟨p, first⟩ := Option.ne_none_iff_exists'.mp (mt (List.argmin_eq_none (f := Prod.snd)).mp nonempty)
  obtain ⟨q, last⟩ := Option.ne_none_iff_exists'.mp (mt (List.argmax_eq_none (f := Prod.snd)).mp nonempty)
  have inPlaced : p ∈ placed := List.argmin_mem first
  have inPlaced' : q ∈ placed := List.argmax_mem last
  have least : ∀ r ∈ placed, p.2 ≤ r.2 := fun r member => List.le_of_mem_argmin member first
  have greatest : ∀ r ∈ placed, r.2 ≤ q.2 := fun r member => List.le_of_mem_argmax member last
  have entry : ∀ r ∈ placed, (ofBits r.2, r.1) ∈ map.entries := fun r member =>
    done.entries.mem_iff.mpr (List.mem_map_of_mem (f := fun p : T × Nat => (ofBits p.2, p.1)) member)
  have slot : ∀ r ∈ placed, delta hashable hash r.1 ≤ r.2 ∧
      ∀ z, delta hashable hash r.1 ≤ z → z < r.2 → z ∈ placed.map Prod.snd := fun r member => by
    have passed := done.run.passed (List.mem_map_of_mem (f := fun p : T × Nat => (delta hashable hash p.1, p.2)) member)
    rw [List.map_map] at passed
    exact passed
  have zero : (∃ r ∈ placed, delta hashable hash r.1 = 0) → p.2 = 0 := by
    rintro ⟨r, member, same⟩
    by_contra above
    have range := least r member
    obtain ⟨r', member', same'⟩ := List.mem_map.mp ((slot r member).2 0 (by omega) (by omega))
    have least' := least r' member'
    omega
  refine ⟨p.2, q.2, ⟨⟨_, entry p inPlaced, rfl⟩, ⟨_, entry q inPlaced', rfl⟩, ?_, ?_⟩, least q inPlaced', done.near q inPlaced', ?_,
    fun none => ⟨p, inPlaced, Nat.le_zero.mp (none ▸ (slot p inPlaced).1)⟩, zero⟩
  · intro e member
    obtain ⟨r, inside, rfl⟩ := List.mem_map.mp (done.entries.mem_iff.mp member)
    rw [← not_lt, ofBits_lt (done.small short inside) (done.small short inPlaced), not_lt]
    exact least r inside
  · intro e member
    obtain ⟨r, inside, rfl⟩ := List.mem_map.mp (done.entries.mem_iff.mp member)
    rw [← not_lt, ofBits_lt (done.small short inPlaced') (done.small short inside), not_lt]
    exact greatest r inside
  · intro above
    exact (delta_large fun same => above (zero ⟨p, inPlaced, same⟩)).trans (slot p inPlaced).1

variable {digest : String → BitVec 128} {hashables : List T} {s : String} {negatives values others : List T}

/-- The answer by its parts: what has hashes stands together, and the targets of negative order come before it
only when there is room below. -/
structure Parts (rebalance : SearchTree.Rebalance (Double × T)) (hashable : T → Digested) (digest : String → BitVec 128)
    (hashables : List T) (s : String) (negatives values others : List T) : Prop where
  targets : Sorted hashable (hashables.filter fun t => !(hashable t).hasHashes) negatives others
  perm : values.Perm (hashables.filter fun t => (hashable t).hasHashes)
  distances : (values.Pairwise fun a b => distance hashable (MD5HashFunction.hash (digest s)) a ≤ distance hashable (MD5HashFunction.hash (digest s)) b) ↔
    ¬Crowded ((hashables.filter fun t => (hashable t).hasHashes).map (delta hashable (MD5HashFunction.hash (digest s))))
  alone : (∀ t ∈ hashables, (hashable t).hasHashes = false) →
    selectHashables rebalance hashable digest hashables s = some (negatives.take 1 ++ others ++ (negatives.drop 1).reverse)
  near : (∃ t ∈ hashables, (hashable t).hasHashes = true ∧ delta hashable (MD5HashFunction.hash (digest s)) t = 0) →
    selectHashables rebalance hashable digest hashables s = some (values ++ others ++ negatives.reverse)
  apart : (∃ t ∈ hashables, (hashable t).hasHashes = true) →
    (∀ t ∈ hashables, (hashable t).hasHashes = true → delta hashable (MD5HashFunction.hash (digest s)) t ≠ 0) →
    selectHashables rebalance hashable digest hashables s = some (negatives.reverse ++ values ++ others)

theorem exists_parts (digest : String → BitVec 128) (hashables : List T) (short : hashables.length < 2 ^ 31) (s : String) :
    ∃ negatives values others, Parts rebalance hashable digest hashables s negatives values others := by
  obtain ⟨map, placed, folded, done, fits⟩ := @place_all T rebalance hashable (digest s) hashables short
  obtain ⟨negatives, others, targets⟩ := exists_sorted hashable (hashables.filter fun t => !(hashable t).hasHashes)
  have count : placed.length + (negatives.length + others.length) = hashables.length := by
    rw [← List.length_map (f := Prod.fst), fits, ← List.length_append, targets.perm.length_eq]
    exact (List.length_eq_length_filter_add fun t => (hashable t).hasHashes).symm
  have selected : selectHashables rebalance hashable digest hashables s =
      (synthesizeZeroHashes rebalance hashable map (hashables.filter fun t => !(hashable t).hasHashes)).map SortedMap.values := by
    unfold selectHashables sortHashables
    rw [folded]
    rfl
  have nothing : (hashables.filter fun t => !(hashable t).hasHashes) = [] → negatives = [] ∧ others = [] := fun none => by
    have perm := targets.perm
    rw [none, List.perm_nil, List.append_eq_nil_iff] at perm
    exact perm
  have hashed : ∀ t, (∃ p ∈ placed, p.1 = t) ↔ t ∈ hashables ∧ (hashable t).hasHashes = true := fun t => by
    rw [← List.mem_filter (p := fun t => (hashable t).hasHashes), ← fits, List.mem_map]
  refine ⟨negatives, map.values, others, targets, fits ▸ done.values_perm, ?_, ?_, ?_, ?_⟩
  · rw [← fits]
    exact done.distances_iff (fun t => delta_le (digest s) t) (by omega)
  · intro none
    have empty : placed = [] := by
      rw [← List.map_eq_nil_iff (f := Prod.fst), fits, List.filter_eq_nil_iff]
      intro t member
      rw [none t member]
      exact Bool.false_ne_true
    have entries : map.entries = [] := by
      have perm := done.entries
      rw [empty] at perm
      exact List.perm_nil.mp perm
    rw [selected]
    refine synthesizeZeroHashes_eq (n := 0) (m := 0) targets (by rw [entries]; rfl) (by rw [entries]; rfl) (loop_empty entries ?_) ?_
    · unfold infinityBits
      omega
    · intro none
      obtain ⟨rfl, rfl⟩ := nothing none
      rw [SortedMap.values, entries]
      rfl
  · intro near
    have placed_near : ∃ p ∈ placed, delta hashable (MD5HashFunction.hash (digest s)) p.1 = 0 := by
      obtain ⟨t, member, has, same⟩ := near
      obtain ⟨p, inPlaced, rfl⟩ := (hashed t).mpr ⟨member, has⟩
      exact ⟨p, inPlaced, same⟩
    have nonempty : placed ≠ [] := List.ne_nil_of_mem placed_near.choose_spec.1
    obtain ⟨n, m, spans, _, close, _, zero⟩ := done.spans (by omega) nonempty
    obtain rfl := zero.mpr placed_near
    rw [selected]
    refine synthesizeZeroHashes_eq targets spans.firstKey spans.lastKey (loop_zero spans ?_) ?_
    · unfold farthest at close
      unfold infinityBits
      omega
    · intro none
      obtain ⟨rfl, rfl⟩ := nothing none
      simp
  · intro some_hashed apart
    have nonempty : placed ≠ [] := by
      obtain ⟨t, member, has⟩ := some_hashed
      obtain ⟨p, inPlaced, _⟩ := (hashed t).mpr ⟨member, has⟩
      exact List.ne_nil_of_mem inPlaced
    obtain ⟨n, m, spans, ordered, close, far, zero⟩ := done.spans (by omega) nonempty
    have room : 1023 * 2 ^ 52 ≤ n := far fun none => by
      obtain ⟨p, inPlaced, same⟩ := zero.mp none
      obtain ⟨member, has⟩ := (hashed p.1).mp ⟨p, inPlaced, rfl⟩
      exact apart p.1 member has same
    rw [selected]
    refine synthesizeZeroHashes_eq targets spans.firstKey spans.lastKey (loop_below spans (by omega) ordered ?_) ?_
    · unfold farthest at close
      unfold infinityBits
      omega
    · intro none
      obtain ⟨rfl, rfl⟩ := nothing none
      simp

theorem Parts.hashed (parts : Parts rebalance hashable digest hashables s negatives values others) (t : T) :
    t ∈ values ↔ t ∈ hashables ∧ (hashable t).hasHashes = true := by
  rw [parts.perm.mem_iff, List.mem_filter]

theorem Parts.without (parts : Parts rebalance hashable digest hashables s negatives values others) (t : T) :
    t ∈ negatives ++ others ↔ t ∈ hashables ∧ (hashable t).hasHashes = false := by
  rw [parts.targets.perm.mem_iff, List.mem_filter, Bool.not_eq_true']

theorem Parts.all_hashed (parts : Parts rebalance hashable digest hashables s negatives values others) :
    ∀ t ∈ values, (hashable t).hasHashes = true :=
  fun t member => ((parts.hashed t).mp member).2

theorem Parts.negative (parts : Parts rebalance hashable digest hashables s negatives values others) :
    ∀ t ∈ negatives, (hashable t).hasHashes = false ∧ (hashable t).order < 0 :=
  fun t member => ⟨((parts.without t).mp (List.mem_append_left _ member)).2, parts.targets.negative t member⟩

theorem Parts.other (parts : Parts rebalance hashable digest hashables s negatives values others) :
    ∀ t ∈ others, (hashable t).hasHashes = false ∧ 0 ≤ (hashable t).order :=
  fun t member => ⟨((parts.without t).mp (List.mem_append_right _ member)).2, parts.targets.other t member⟩

theorem none_hashed (some_hashed : ¬∃ t ∈ hashables, (hashable t).hasHashes = true) : ∀ t ∈ hashables, (hashable t).hasHashes = false := by
  intro t member
  rw [← Bool.not_eq_true]
  exact fun has => some_hashed ⟨t, member, has⟩

theorem Parts.values_nil (parts : Parts rebalance hashable digest hashables s negatives values others)
    (some_hashed : ¬∃ t ∈ hashables, (hashable t).hasHashes = true) : values = [] :=
  List.eq_nil_iff_forall_not_mem.mpr fun t member => some_hashed ⟨t, (parts.hashed t).mp member⟩

/-- The search for free doubles ends, and no hashable is lost. -/
theorem Parts.result_perm (parts : Parts rebalance hashable digest hashables s negatives values others) :
    ∃ result, selectHashables rebalance hashable digest hashables s = some result ∧ result.Perm hashables := by
  have whole : (values ++ (negatives ++ others)).Perm hashables :=
    (parts.perm.append parts.targets.perm).trans (List.filter_append_perm (fun t => (hashable t).hasHashes) hashables)
  by_cases some_hashed : ∃ t ∈ hashables, (hashable t).hasHashes = true
  · by_cases some_near : ∃ t ∈ hashables, (hashable t).hasHashes = true ∧ delta hashable (MD5HashFunction.hash (digest s)) t = 0
    · refine ⟨_, parts.near some_near, List.Perm.trans ?_ whole⟩
      rw [List.append_assoc]
      exact (List.perm_append_comm.trans (negatives.reverse_perm.append_right _)).append_left values
    · refine ⟨_, parts.apart some_hashed fun t member has same => some_near ⟨t, member, has, same⟩, List.Perm.trans ?_ whole⟩
      rw [← List.append_assoc values]
      exact (List.perm_append_comm.trans ((negatives.reverse_perm).append_left values)).append_right others
  · refine ⟨_, parts.alone (none_hashed some_hashed), List.Perm.trans ?_ whole⟩
    rw [parts.values_nil some_hashed, List.nil_append, List.append_assoc]
    refine (List.Perm.append_left _ (List.perm_append_comm.trans ((negatives.drop 1).reverse_perm.append_right _))).trans ?_
    rw [← List.append_assoc, List.take_append_drop]

section Answers

variable {first middle last : List T}

def isNegative (hashable : T → Digested) (t : T) : Bool := !(hashable t).hasHashes && decide ((hashable t).order < 0)

theorem Ordered.middle_eq (ordered : Ordered hashable hash first middle last) :
    (first ++ middle ++ last).filter (fun t => (hashable t).hasHashes) = middle := by
  rw [List.filter_append, List.filter_append, List.filter_eq_self.mpr ordered.hashed]
  rw [List.filter_eq_nil_iff.mpr fun t member => by simp [(ordered.negative t member).1]]
  rw [List.filter_eq_nil_iff.mpr fun t member => by simp [(ordered.other t member).1]]
  rw [List.append_nil, List.nil_append]

theorem Ordered.first_eq (ordered : Ordered hashable hash first middle last) :
    (first ++ middle ++ last).filter (isNegative hashable) = first := by
  rw [List.filter_append, List.filter_append]
  rw [List.filter_eq_self.mpr fun t member => by simp [isNegative, ordered.negative t member]]
  rw [List.filter_eq_nil_iff.mpr fun t member => by simp [isNegative, ordered.hashed t member]]
  rw [List.filter_eq_nil_iff.mpr fun t member => by simp [isNegative, (ordered.other t member).2]]
  rw [List.append_nil, List.append_nil]

/-- Targets of negative order do not come first behind one with hashes. -/
theorem Ordered.none_behind (ordered : Ordered hashable hash first middle last)
    (negative : ∀ t ∈ negatives, (hashable t).hasHashes = false ∧ (hashable t).order < 0)
    (hashed : ∀ t ∈ values, (hashable t).hasHashes = true) (other : ∀ t ∈ others, (hashable t).hasHashes = false ∧ 0 ≤ (hashable t).order)
    (same : values ++ others ++ negatives.reverse = first ++ middle ++ last) (nonempty : values ≠ []) : negatives = [] := by
  have front := ordered.first_eq
  rw [← same, List.filter_append, List.filter_append] at front
  rw [List.filter_eq_nil_iff.mpr fun t member => by simp [isNegative, hashed t member]] at front
  rw [List.filter_eq_nil_iff.mpr fun t member => by simp [isNegative, (other t member).2]] at front
  rw [List.filter_eq_self.mpr fun t member => by simp [isNegative, negative t (List.mem_reverse.mp member)]] at front
  rw [List.append_nil, List.nil_append] at front
  obtain ⟨v, values, rfl⟩ := List.exists_cons_of_ne_nil nonempty
  cases list : first with
  | nil => rw [← List.reverse_eq_nil_iff, front, list]
  | cons t first =>
    rw [list] at same
    obtain rfl : v = t := (List.cons.inj same).1
    have has := hashed v List.mem_cons_self
    rw [(ordered.negative v (list ▸ List.mem_cons_self)).1] at has
    cases has

/-- Without hashes the first target of negative order stays at the head, and the others go to the tail. -/
theorem Ordered.alone (ordered : Ordered hashable hash first middle last)
    (negative : ∀ t ∈ negatives, (hashable t).hasHashes = false ∧ (hashable t).order < 0)
    (other : ∀ t ∈ others, (hashable t).hasHashes = false ∧ 0 ≤ (hashable t).order)
    (descending : negatives.Pairwise fun a b => (hashable b).order ≤ (hashable a).order)
    (same : negatives.take 1 ++ others ++ (negatives.drop 1).reverse = first ++ middle ++ last) :
    negatives.length ≤ 1 ∨ others = [] ∧ ∃ order < 0, ∀ t ∈ negatives, (hashable t).order = order := by
  have front := ordered.first_eq
  have inTail : ∀ t ∈ (negatives.drop 1).reverse, t ∈ negatives := fun t member => List.mem_of_mem_drop (List.mem_reverse.mp member)
  rw [← same, List.filter_append, List.filter_append] at front
  rw [List.filter_eq_self.mpr fun t member => by simp [isNegative, negative t (List.mem_of_mem_take member)]] at front
  rw [List.filter_eq_nil_iff.mpr fun t member => by simp [isNegative, (other t member).2]] at front
  rw [List.filter_eq_self.mpr fun t member => by simp [isNegative, negative t (inTail t member)]] at front
  rw [List.append_nil] at front
  rcases negatives with _ | ⟨t, negatives⟩
  · exact Or.inl (Nat.zero_le _)
  rcases Nat.eq_zero_or_pos negatives.length with none | more
  · exact Or.inl (Nat.succ_le_succ none.le)
  refine Or.inr ⟨?_, (hashable t).order, (negative t List.mem_cons_self).2, ?_⟩
  · change ([t] ++ others) ++ negatives.reverse = _ at same
    rw [← front, List.append_assoc, List.append_assoc, List.append_assoc] at same
    have rest : others ++ negatives.reverse = negatives.reverse ++ (middle ++ last) := List.append_cancel_left same
    obtain ⟨r, tail, list⟩ := List.exists_cons_of_length_pos (List.length_reverse ▸ more)
    cases others with
    | nil => rfl
    | cons o others =>
      rw [list] at rest
      obtain rfl : o = r := (List.cons.inj rest).1
      have above := (other o List.mem_cons_self).2
      have below := (negative o (inTail o (by change o ∈ negatives.reverse; rw [list]; exact List.mem_cons_self))).2
      omega
  · have orders := ordered.orders
    rw [← front] at orders
    refine List.forall_mem_cons.mpr ⟨rfl, fun t' member => le_antisymm ((List.pairwise_cons.mp descending).1 t' member) ?_⟩
    exact (List.pairwise_cons.mp orders).1 t' (List.mem_reverse.mpr member)

end Answers

theorem Parts.negatives_length (parts : Parts rebalance hashable digest hashables s negatives values others)
    (none : ∀ t ∈ hashables, (hashable t).hasHashes = false) :
    (hashables.filter fun t => decide ((hashable t).order < 0)).length = negatives.length := by
  have whole : (hashables.filter fun t => !(hashable t).hasHashes) = hashables :=
    List.filter_eq_self.mpr fun t member => by rw [none t member]; rfl
  have perm := parts.targets.perm.filter fun t => decide ((hashable t).order < 0)
  rw [whole, List.filter_append] at perm
  rw [List.filter_eq_self.mpr fun t member => decide_eq_true (parts.targets.negative t member)] at perm
  rw [List.filter_eq_nil_iff.mpr fun t member => by simpa using parts.targets.other t member, List.append_nil] at perm
  exact perm.length_eq.symm
/-- An answer as it is asked for shows that the distances fit. -/
theorem Parts.fits (parts : Parts rebalance hashable digest hashables s negatives values others) {first middle last : List T}
    (found : selectHashables rebalance hashable digest hashables s = some (first ++ middle ++ last))
    (ordered : Ordered hashable (MD5HashFunction.hash (digest s)) first middle last) :
    Fits hashable (MD5HashFunction.hash (digest s)) hashables := by
  refine ⟨parts.distances.mp ?_, fun some_near t member none => ?_, fun none => ?_⟩
  · -- What has hashes stands together in the answer.
    have kept : ∀ front back : List T, (∀ t ∈ front, (hashable t).hasHashes = false) → (∀ t ∈ back, (hashable t).hasHashes = false) →
        front ++ values ++ back = first ++ middle ++ last → values = middle := fun front back before after same => by
      rw [← ordered.middle_eq, ← same, List.filter_append, List.filter_append, List.filter_eq_self.mpr parts.all_hashed]
      rw [List.filter_eq_nil_iff.mpr fun t member => by simp [before t member]]
      rw [List.filter_eq_nil_iff.mpr fun t member => by simp [after t member], List.append_nil, List.nil_append]
    have reversed : ∀ t ∈ negatives.reverse, (hashable t).hasHashes = false := fun t member =>
      (parts.negative t (List.mem_reverse.mp member)).1
    by_cases some_hashed : ∃ t ∈ hashables, (hashable t).hasHashes = true
    · by_cases some_near : ∃ t ∈ hashables, (hashable t).hasHashes = true ∧ delta hashable (MD5HashFunction.hash (digest s)) t = 0
      · have same := Option.some.inj ((parts.near some_near).symm.trans found)
        rw [List.append_assoc] at same
        rw [kept [] (others ++ negatives.reverse) (fun t none => absurd none List.not_mem_nil)
          (fun t member => (List.mem_append.mp member).elim (fun inside => (parts.other t inside).1) (reversed t)) same]
        exact ordered.distances
      · have same := Option.some.inj ((parts.apart some_hashed fun t member has same => some_near ⟨t, member, has, same⟩).symm.trans found)
        rw [kept negatives.reverse others reversed (fun t member => (parts.other t member).1) same]
        exact ordered.distances
    · have empty : values = [] := List.eq_nil_iff_forall_not_mem.mpr fun t member => some_hashed ⟨t, (parts.hashed t).mp member⟩
      rw [empty]
      exact List.Pairwise.nil
  · have same := Option.some.inj ((parts.near some_near).symm.trans found)
    have nonempty : values ≠ [] := by
      obtain ⟨t, member, has, _⟩ := some_near
      exact List.ne_nil_of_mem ((parts.hashed t).mpr ⟨member, has⟩)
    have empty := ordered.none_behind parts.negative parts.all_hashed parts.other same nonempty
    have inParts := (parts.without t).mpr ⟨member, none⟩
    rw [empty, List.nil_append] at inParts
    exact (parts.other t inParts).2
  · have same := Option.some.inj ((parts.alone none).symm.trans found)
    rcases ordered.alone parts.negative parts.other parts.targets.descending same with few | ⟨empty, order, below, equal⟩
    · exact Or.inl ((parts.negatives_length none).trans_le few)
    · refine Or.inr ⟨order, below, fun t member => equal t ?_⟩
      have inParts := (parts.without t).mpr ⟨member, none t member⟩
      rw [empty, List.append_nil] at inParts
      exact inParts

theorem Parts.ordered (parts : Parts rebalance hashable digest hashables s negatives values others)
    (fits : Fits hashable (MD5HashFunction.hash (digest s)) hashables) :
    ∃ first middle last, selectHashables rebalance hashable digest hashables s = some (first ++ middle ++ last) ∧
      (first ++ middle ++ last).Perm hashables ∧ Ordered hashable (MD5HashFunction.hash (digest s)) first middle last := by
  obtain ⟨result, selected, permutation⟩ := parts.result_perm
  have increasing : negatives.reverse.Pairwise fun a b => (hashable a).order ≤ (hashable b).order :=
    List.pairwise_reverse.mpr parts.targets.descending
  by_cases some_hashed : ∃ t ∈ hashables, (hashable t).hasHashes = true
  · have found : selectHashables rebalance hashable digest hashables s = some (negatives.reverse ++ values ++ others) := by
      by_cases some_near : ∃ t ∈ hashables, (hashable t).hasHashes = true ∧ delta hashable (MD5HashFunction.hash (digest s)) t = 0
      · have empty : negatives = [] := List.eq_nil_iff_forall_not_mem.mpr fun t member => by
          obtain ⟨inList, none⟩ := (parts.without t).mp (List.mem_append_left _ member)
          have above := fits.below some_near t inList none
          have below := parts.targets.negative t member
          omega
        rw [parts.near some_near, empty, List.reverse_nil, List.append_nil, List.nil_append]
      · exact parts.apart some_hashed fun t member has same => some_near ⟨t, member, has, same⟩
    refine ⟨negatives.reverse, values, others, found, Option.some.inj (selected.symm.trans found) ▸ permutation, ?_⟩
    exact ⟨fun t member => parts.negative t (List.mem_reverse.mp member), parts.all_hashed, parts.other, increasing, parts.distances.mpr fits.room,
      parts.targets.ascending⟩
  · have none : ∀ t ∈ hashables, (hashable t).hasHashes = false := fun t member => by
      rw [← Bool.not_eq_true]
      exact fun has => some_hashed ⟨t, member, has⟩
    have found := parts.alone none
    have same := Option.some.inj (selected.symm.trans found)
    rcases fits.alone none with few | ⟨order, below, equal⟩
    · rw [parts.negatives_length none] at few
      have single : negatives.reverse = negatives := by
        rcases negatives with _ | ⟨t, _ | ⟨t', negatives⟩⟩
        · rfl
        · rfl
        · exact absurd few (by simp)
      rw [List.take_of_length_le few, List.drop_of_length_le few] at found same
      rw [single] at increasing
      refine ⟨negatives, [], others, ?_, ?_, parts.negative, fun t none => absurd none List.not_mem_nil, parts.other, increasing, List.Pairwise.nil,
        parts.targets.ascending⟩
      · rw [found, List.reverse_nil, List.append_nil, List.append_nil]
      · rw [List.append_nil, ← List.append_nil (negatives ++ others), ← List.reverse_nil, ← same]
        exact permutation
    · have empty : others = [] := List.eq_nil_iff_forall_not_mem.mpr fun t member => by
        have inList := ((parts.without t).mp (List.mem_append_right _ member)).1
        have above := parts.targets.other t member
        have same := equal t inList
        omega
      rw [empty, List.append_nil] at found same
      have inNegatives : ∀ t ∈ negatives.take 1 ++ (negatives.drop 1).reverse, t ∈ negatives := fun t member =>
        (List.mem_append.mp member).elim List.mem_of_mem_take fun inside => List.mem_of_mem_drop (List.mem_reverse.mp inside)
      refine ⟨negatives.take 1 ++ (negatives.drop 1).reverse, [], [], ?_, ?_, fun t member => parts.negative t (inNegatives t member),
        fun t none => absurd none List.not_mem_nil, fun t none => absurd none List.not_mem_nil, ?_, List.Pairwise.nil, List.Pairwise.nil⟩
      · rw [found, List.append_nil, List.append_nil]
      · rw [List.append_nil, List.append_nil, ← same]
        exact permutation
      · refine List.pairwise_of_forall_mem_list fun a first b second => ?_
        have inList := ((parts.without a).mp (List.mem_append_left _ (inNegatives a first))).1
        have inList' := ((parts.without b).mp (List.mem_append_left _ (inNegatives b second))).1
        rw [equal a inList, equal b inList']

end Selection

/-- The answer is the one that is asked for exactly when the distances fit. -/
theorem selectHashables_ordered_iff (digest : String → BitVec 128) (hashables : List T) (short : hashables.length < 2 ^ 31) (s : String) :
    (∃ first middle last, selectHashables rebalance hashable digest hashables s = some (first ++ middle ++ last) ∧
      (first ++ middle ++ last).Perm hashables ∧ Ordered hashable (MD5HashFunction.hash (digest s)) first middle last) ↔
      Fits hashable (MD5HashFunction.hash (digest s)) hashables := by
  obtain ⟨negatives, values, others, parts⟩ := @exists_parts T rebalance hashable digest hashables short s
  constructor
  · rintro ⟨first, middle, last, found, _, ordered⟩
    exact parts.fits found ordered
  · exact parts.ordered

section Samples

-- A target without hashes, by its order.
def unhashed (order : Int) : Digested where
  hashes := []
  sorted := List.Pairwise.nil
  order := order
  digests := fun _ none => absurd none List.not_mem_nil

theorem not_crowded_nil : ¬Crowded [] := by
  rintro ⟨earlier, d, later, split, _⟩
  cases earlier <;> cases split

theorem unhashed_fits (hash : Nat) : Fits unhashed hash [2, -1, 0] := by
  refine ⟨not_crowded_nil, fun hashed => ?_, fun _ => Or.inl (by decide)⟩
  obtain ⟨t, _, has, _⟩ := hashed
  cases has

theorem selectHashables_ordered_oneNegative : ∃ first middle last,
    selectHashables SearchTree.Rebalance.none unhashed (fun _ => 0) [2, -1, 0] "/path" = some (first ++ middle ++ last) ∧
      (first ++ middle ++ last).Perm [2, -1, 0] ∧ Ordered unhashed (MD5HashFunction.hash 0) first middle last :=
  (selectHashables_ordered_iff (fun _ => 0) [2, -1, 0] (by decide) "/path").mpr (unhashed_fits _)

theorem selectHashables_twoNegative : ¬∃ first middle last,
    selectHashables SearchTree.Rebalance.none unhashed (fun _ => 0) [-2, -1] "/path" = some (first ++ middle ++ last) ∧
      (first ++ middle ++ last).Perm [-2, -1] ∧ Ordered unhashed (MD5HashFunction.hash 0) first middle last := by
  rintro ⟨first, middle, last, found, _, ordered⟩
  obtain ⟨negatives, values, others, parts⟩ := @exists_parts Int SearchTree.Rebalance.none unhashed (fun _ => 0) [-2, -1]
    (by decide) "/path"
  rcases (parts.fits found ordered).alone (by decide) with few | ⟨order, _, equal⟩
  · exact absurd few (by decide)
  · have first_order : -2 = order := equal (-2) (by decide)
    have second_order : -1 = order := equal (-1) (by decide)
    omega

end Samples

end TrafficControl.TrafficRouter.DoubleHasher
