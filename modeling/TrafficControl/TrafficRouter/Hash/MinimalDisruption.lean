import Mathlib
import TrafficControl.TrafficRouter.Hash.ConsistentHasher

set_option autoImplicit false

namespace TrafficControl.TrafficRouter

variable {α : Type} [AddCommGroup α] [LinearOrder α] [IsOrderedAddMonoid α]
variable (incrementBits decrementBits : α → α)

namespace NumberSearcher

theorem abs_sub_le_below {target closer farther : α} (order : farther ≤ closer) (below : closer ≤ target) :
    |target - closer| ≤ |target - farther| := by
  rw [abs_of_nonneg (sub_nonneg.mpr below), abs_of_nonneg (sub_nonneg.mpr (order.trans below))]
  exact sub_le_sub_left order target

theorem abs_sub_le_above {target closer farther : α} (order : closer ≤ farther) (above : target ≤ closer) :
    |target - closer| ≤ |target - farther| := by
  rw [abs_sub_comm, abs_sub_comm target, abs_of_nonneg (sub_nonneg.mpr above),
    abs_of_nonneg (sub_nonneg.mpr (above.trans order))]
  exact sub_le_sub_right order target

theorem findClosest_minimal {numbers : List α} (sorted : numbers.Pairwise (· ≤ ·)) (nonempty : numbers ≠ [])
    (target : α) :
    ∃ (i : Nat) (bound : i < numbers.length),
      findClosest (.exact incrementBits decrementBits) numbers target = i ∧
        ∀ a ∈ numbers, |target - numbers[i]| ≤ |target - a| := by
  have positive := List.length_pos_iff.mpr nonempty
  have answers := BinarySearch.search_answers sorted target
  unfold findClosest binarySearch
  cases found : BinarySearch.search numbers target with
  | ok index =>
    rw [found, BinarySearch.Answers] at answers
    obtain ⟨bound, same⟩ := List.getElem?_eq_some_iff.mp answers
    refine ⟨index, bound, by simp, fun a _ => ?_⟩
    rw [same, sub_self, abs_zero]
    exact abs_nonneg _
  | error insertion =>
    rw [found] at answers
    obtain ⟨inside, around⟩ := answers
    have missed : ¬(0 : Int) ≤ -(insertion + 1) := by omega
    have bigger : -(-((insertion : Int) + 1) + 1) = insertion := by omega
    simp only [missed, if_false, bigger]
    -- Every number below the insertion point is at most the last of them, and likewise above it.
    have smallerSide : ∀ (i : Nat) (bound : i < numbers.length), i + 1 = insertion →
        ∀ (j : Nat) (inList : j < numbers.length), j < insertion →
          |target - numbers[i]| ≤ |target - numbers[j]| := fun i bound last j inList below =>
      abs_sub_le_below (BinarySearch.getElem_le sorted (by omega) bound)
        (le_of_lt ((around i bound).1 (by omega)))
    have biggerSide : ∀ (bound : insertion < numbers.length) (j : Nat) (inList : j < numbers.length),
        insertion ≤ j → |target - numbers[insertion]| ≤ |target - numbers[j]| := fun bound j inList above =>
      abs_sub_le_above (BinarySearch.getElem_le sorted above inList)
        (le_of_lt ((around insertion bound).2 (by omega)))
    by_cases atEnd : insertion = numbers.length
    next =>
      refine ⟨numbers.length - 1, by omega, by simp [atEnd]; omega, fun a member => ?_⟩
      obtain ⟨j, inList, rfl⟩ := List.mem_iff_getElem.mp member
      exact smallerSide _ _ (by omega) j inList (by omega)
    next =>
      have bound : insertion < numbers.length := by omega
      by_cases atStart : insertion = 0
      next =>
        refine ⟨0, positive, by simp [atStart]; omega, fun a member => ?_⟩
        obtain ⟨j, inList, rfl⟩ := List.mem_iff_getElem.mp member
        simpa only [atStart] using biggerSide bound j inList (by omega)
      next =>
        have smallerBound : insertion - 1 < numbers.length := by omega
        have neighbours : ∀ b : α, |target - b| ≤ |target - numbers[insertion - 1]| →
            |target - b| ≤ |target - numbers[insertion]| → ∀ a ∈ numbers, |target - b| ≤ |target - a| := by
          intro b smaller bigger a member
          obtain ⟨j, inList, rfl⟩ := List.mem_iff_getElem.mp member
          by_cases below : j < insertion
          next => exact smaller.trans (smallerSide _ smallerBound (by omega) j inList below)
          next => exact bigger.trans (biggerSide bound j inList (by omega))
        have smallerIndex : ((insertion : Int) - 1).toNat = insertion - 1 := by omega
        simp only [Int.natCast_inj, atEnd, Int.natCast_eq_zero, atStart, if_false, smallerIndex,
          Int.toNat_natCast, List.getD_eq_getElem?_getD, List.getElem?_eq_getElem bound,
          List.getElem?_eq_getElem smallerBound, Option.getD_some, DoubleArithmetic.exact,
          decide_eq_true_eq, abs_sub_comm _ target]
        split_ifs with closer
        · exact ⟨insertion, bound, rfl, neighbours _ (le_of_lt closer) (le_refl _)⟩
        · exact ⟨insertion - 1, smallerBound, by omega, neighbours _ (le_refl _) (not_lt.mp closer)⟩

end NumberSearcher

namespace ConsistentHasher

section Argmin

variable {T β : Type} [LinearOrder β] (f : T → β)

def nearer (a b : T) : T := if f b < f a then b else a

instance nearer_associative : Std.Associative (nearer f) where
  assoc a b c := by
    unfold nearer
    by_cases first : f b < f a <;> by_cases second : f c < f b <;> simp only [first, second, if_true, if_false]
    · rw [if_pos (lt_trans second first)]
    · rw [if_neg (not_lt.mpr ((not_lt.mp first).trans (not_lt.mp second)))]

theorem argmin_append (before after : List T) :
    (before ++ after).argmin f = (before.argmin f).merge (nearer f) (after.argmin f) := by
  have concat : ∀ (list : List T) (x : T),
      (list ++ [x]).argmin f = (list.argmin f).merge (nearer f) (some x) := by
    intro list x
    rw [List.argmin_concat]
    cases list.argmin f with
    | none => rfl
    | some a => exact (apply_ite some (f x < f a) x a).symm
  induction after using List.reverseRecOn with
  | nil => simp
  | append_singleton after x ih =>
    rw [← List.append_assoc, concat, ih, concat]
    exact (Option.associative_merge (nearer f)).assoc _ _ _

theorem argmin_remove (before after : List T) (x : T) (other : (before ++ x :: after).argmin f ≠ some x) :
    (before ++ after).argmin f = (before ++ x :: after).argmin f := by
  have cons : (x :: after).argmin f = (some x).merge (nearer f) (after.argmin f) :=
    argmin_append f [x] after
  rw [argmin_append, cons] at other
  rw [argmin_append, argmin_append, cons]
  generalize before.argmin f = first, after.argmin f = last at other ⊢
  cases first <;> cases last <;>
    simp only [Option.merge_none_left, Option.merge_none_right, Option.merge_some_some, nearer] at other ⊢ <;> grind

theorem argmin_insert (before after : List T) (selected x : T)
    (first : (before ++ after).argmin f = some selected) (farther : f selected < f x) :
    (before ++ x :: after).argmin f = some selected := by
  rw [← first, argmin_remove f before after x]
  intro chosen
  have inList : selected ∈ before ++ x :: after :=
    (List.sublist_cons_self x after).append_left before |>.subset (List.argmin_mem first)
  exact absurd farther (not_lt.mpr (List.le_of_mem_argmin inList chosen))

end Argmin

variable {T : Type} [Hashable α T]

/-- How far a hash is from the nearest of a hashable's hashes. -/
def distance (hash : α) (hashable : T) : WithTop α :=
  ((Hashable.hashable hashable).hashes.map fun a => |hash - a|).minimum

def Hashed (hashable : T) : Prop := (Hashable.hashable hashable).hashes ≠ []

def hashDelta (hash : α) (hashable : T) : α :=
  |hash - (Hashable.hashable hashable).getClosestHash (.exact incrementBits decrementBits) hash|

theorem distance_eq {hashable : T} (hashed : Hashed hashable) (hash : α) :
    distance hash hashable = hashDelta incrementBits decrementBits hash hashable := by
  obtain ⟨i, bound, index, minimal⟩ := NumberSearcher.findClosest_minimal incrementBits decrementBits
    (Hashable.hashable hashable).sorted hashed hash
  have closest : (Hashable.hashable hashable).getClosestHash (.exact incrementBits decrementBits) hash =
      (Hashable.hashable hashable).hashes[i] := by
    simp [DefaultHashable.getClosestHash, index, bound]
  rw [distance, hashDelta, closest, List.minimum_eq_coe_iff]
  refine ⟨List.mem_map_of_mem (List.getElem_mem bound), fun delta member => ?_⟩
  obtain ⟨a, inHashes, rfl⟩ := List.mem_map.mp member
  exact minimal a inHashes

section Slots

variable {incrementBits} (increasing : ∀ x : α, 0 ≤ x → x < incrementBits x)

include increasing

omit [IsOrderedAddMonoid α] [Hashable α T] in
theorem nextFree_free (map : SortedMap α T) (tries : Nat) (hash : α) (nonnegative : 0 ≤ hash)
    (enough : (map.entries.filter fun entry => hash < entry.1).length < tries) :
    hash < nextFree map incrementBits tries hash ∧
      ¬map.containsKey (nextFree map incrementBits tries hash) := by
  induction tries generalizing hash with
  | zero => omega
  | succ tries ih =>
    have up := increasing hash nonnegative
    rw [nextFree]
    split_ifs with taken
    · -- The occupied slot counts among the keys above `hash`, but not among those above itself.
      have fewer : (map.entries.filter fun entry => incrementBits hash < entry.1).length <
          (map.entries.filter fun entry => hash < entry.1).length := by
        obtain ⟨entry, member, key⟩ := (SortedMap.containsKey_iff map _).mp taken
        have nested : (map.entries.filter fun entry => incrementBits hash < entry.1) =
            (map.entries.filter fun entry => hash < entry.1).filter fun entry => incrementBits hash < entry.1 := by
          rw [List.filter_filter]
          refine List.filter_congr fun entry _ => ?_
          have : incrementBits hash < entry.1 → hash < entry.1 := up.trans
          simpa using this
        rw [nested, List.length_filter_lt_length_iff_exists]
        exact ⟨entry, by simp [member, key, up], by simp [key]⟩
      have ⟨above, free⟩ := ih (incrementBits hash) (le_of_lt (lt_of_le_of_lt nonnegative up)) (by omega)
      exact ⟨up.trans above, free⟩
    · exact ⟨up, taken⟩

omit [IsOrderedAddMonoid α] [Hashable α T] in
theorem getSafeHash_free (map : SortedMap α T) (hash : α) (nonnegative : 0 ≤ hash) :
    hash ≤ getSafeHash (.exact incrementBits decrementBits) map hash true ∧
      ¬map.containsKey (getSafeHash (.exact incrementBits decrementBits) map hash true) ∧
      (¬map.containsKey hash → getSafeHash (.exact incrementBits decrementBits) map hash true = hash) := by
  unfold getSafeHash
  by_cases taken : map.containsKey hash
  next =>
    obtain ⟨entry, member, key⟩ := (SortedMap.containsKey_iff map hash).mp taken
    have enough : (map.entries.filter fun entry => hash < entry.1).length < map.size :=
      List.length_filter_lt_length_iff_exists.mpr ⟨entry, member, by simp [key]⟩
    have ⟨above, free⟩ := nextFree_free increasing map map.size hash nonnegative enough
    have unwrapped : ¬nextFree map incrementBits map.size hash < hash := not_lt.mpr (le_of_lt above)
    simp only [taken, DoubleArithmetic.exact]
    simp [unwrapped, free, le_of_lt above]
  next => simp [taken]

end Slots

/-- What holds of the map once the hashables of a list were placed, in the list's order. -/
structure Holds (hash : α) (placed : List T) (map : SortedMap α T) : Prop where
  perm : map.values.Perm placed
  first : map.values.head? = placed.argmin (distance hash)
  unmoved : ∀ entry ∈ map.entries.head?, entry.1 = hashDelta incrementBits decrementBits hash entry.2
  exactly : (placed.map (distance hash)).Nodup →
    ∀ entry ∈ map.entries, entry.1 = hashDelta incrementBits decrementBits hash entry.2

variable {incrementBits decrementBits} {hash : α} {placed : List T} {map : SortedMap α T} {hashable : T}

omit [IsOrderedAddMonoid α] in
theorem Holds.mem_placed (holds : Holds incrementBits decrementBits hash placed map) {entry : α × T}
    (member : entry ∈ map.entries) : entry.2 ∈ placed :=
  holds.perm.mem_iff.mp (List.mem_map_of_mem member)

theorem distance_lt_iff {other : T} (hashed : Hashed hashable) (otherHashed : Hashed other) :
    distance hash hashable < distance hash other ↔
      hashDelta incrementBits decrementBits hash hashable < hashDelta incrementBits decrementBits hash other := by
  rw [distance_eq incrementBits decrementBits hashed, distance_eq incrementBits decrementBits otherHashed,
    WithTop.coe_lt_coe]

-- Two hashables only compete for a slot when they are equally far from the hash.
theorem Holds.slot_free (holds : Holds incrementBits decrementBits hash placed map)
    (allHashed : ∀ other ∈ placed, Hashed other) (hashed : Hashed hashable)
    (distinct : ((placed ++ [hashable]).map (distance hash)).Nodup) :
    ¬map.containsKey (hashDelta incrementBits decrementBits hash hashable) := by
  rw [List.map_append, List.nodup_append] at distinct
  obtain ⟨distinctBefore, _, apart⟩ := distinct
  rw [SortedMap.containsKey_iff]
  rintro ⟨other, inMap, same⟩
  have placedBefore := holds.mem_placed inMap
  refine apart _ (List.mem_map_of_mem placedBefore) (distance hash hashable) (by simp) ?_
  rw [distance_eq incrementBits decrementBits hashed, distance_eq incrementBits decrementBits
    (allHashed _ placedBefore), ← holds.exactly distinctBefore other inMap, same]

-- The first entry after a hashable was put under a free key, its own slot unless that is taken.
theorem Holds.put_first (holds : Holds incrementBits decrementBits hash placed map)
    (rebalance : SearchTree.Rebalance (α × T))
    (allHashed : ∀ other ∈ placed, Hashed other) (hashed : Hashed hashable) {key : α}
    (atLeast : hashDelta incrementBits decrementBits hash hashable ≤ key) (free : ¬map.containsKey key)
    (unlessTaken : ¬map.containsKey (hashDelta incrementBits decrementBits hash hashable) →
      key = hashDelta incrementBits decrementBits hash hashable) :
    ∃ best, (map.put rebalance key hashable).entries.head? = some best ∧
      (placed ++ [hashable]).argmin (distance hash) = some best.2 ∧
      best.1 = hashDelta incrementBits decrementBits hash best.2 := by
  rw [SortedMap.head?_put, List.argmin_concat, ← holds.first, SortedMap.values, List.head?_map]
  cases head : map.entries.head? with
  | none =>
    have empty := List.head?_eq_none_iff.mp head
    exact ⟨(key, hashable), rfl, rfl, unlessTaken (by simp [empty])⟩
  | some first =>
    have firstKey : first.1 = hashDelta incrementBits decrementBits hash first.2 := holds.unmoved _ head
    have closerIff : distance hash hashable < distance hash first.2 ↔
        hashDelta incrementBits decrementBits hash hashable < first.1 := by
      rw [firstKey]
      exact distance_lt_iff hashed (allHashed first.2 (holds.mem_placed (List.mem_of_mem_head? head)))
    by_cases closer : hashDelta incrementBits decrementBits hash hashable < first.1
    next =>
      have untaken : ¬map.containsKey (hashDelta incrementBits decrementBits hash hashable) := by
        rw [SortedMap.containsKey_iff]
        rintro ⟨entry, member, same⟩
        exact absurd closer (not_lt.mpr (same ▸ SortedMap.head?_le head member))
      have keyEq := unlessTaken untaken
      exact ⟨(key, hashable), by simp [keyEq, not_lt.mpr (le_of_lt closer)], by simp [closerIff.mpr closer], keyEq⟩
    next =>
      have different : first.1 ≠ key := by
        intro same
        exact free ((SortedMap.containsKey_iff map key).mpr ⟨first, List.mem_of_mem_head? head, same⟩)
      have later : first.1 < key := lt_of_le_of_ne ((not_lt.mp closer).trans atLeast) different
      exact ⟨first, by simp [later], by simp [closerIff, closer], firstKey⟩

theorem place_holds (increasing : ∀ x : α, 0 ≤ x → x < incrementBits x)
    (rebalance : SearchTree.Rebalance (α × T))
    (holds : Holds incrementBits decrementBits hash placed map)
    (allHashed : ∀ other ∈ placed, Hashed other) (hashed : Hashed hashable) :
    Holds incrementBits decrementBits hash (placed ++ [hashable])
      (place (.exact incrementBits decrementBits) rebalance hash map hashable) := by
  let delta := hashDelta incrementBits decrementBits hash hashable
  let key := getSafeHash (.exact incrementBits decrementBits) map delta true
  obtain ⟨atLeast, free, unlessTaken⟩ :=
    getSafeHash_free decrementBits increasing map delta (abs_nonneg _)
  have result : place (.exact incrementBits decrementBits) rebalance hash map hashable =
      map.put rebalance key hashable := rfl
  have slots := SortedMap.perm_put rebalance free hashable
  obtain ⟨best, head, closest, bestKey⟩ := holds.put_first rebalance allHashed hashed atLeast free unlessTaken
  rw [result]
  constructor
  case perm =>
    have moved := (slots.map Prod.snd).trans (List.Perm.cons hashable holds.perm)
    exact moved.trans (List.perm_append_singleton hashable placed).symm
  case first => rw [closest, SortedMap.values, List.head?_map, head, Option.map_some]
  case unmoved =>
    intro entry inFront
    obtain rfl : best = entry := Option.some.inj (head.symm.trans inFront)
    exact bestKey
  case exactly =>
    intro distinct entry member
    have distinctBefore := distinct.sublist ((List.sublist_append_left placed [hashable]).map (distance hash))
    rcases List.mem_cons.mp (slots.mem_iff.mp member) with rfl | old
    · exact unlessTaken (holds.slot_free allHashed hashed distinct)
    · exact holds.exactly distinctBefore entry old

section Sorting

variable (rebalance : SearchTree.Rebalance (α × T)) {hashables : List T}

omit [AddCommGroup α] [IsOrderedAddMonoid α] in
theorem sortHashables_hashed (arithmetic : DoubleArithmetic α) (hash : α)
    (allHashed : ∀ hashable ∈ hashables, Hashed hashable) :
    sortHashables arithmetic rebalance hash hashables =
      hashables.foldl (place arithmetic rebalance hash) SortedMap.empty := by
  have onlyPlaced : ∀ map : SortedMap α T,
      hashables.foldl (fun state hashable => (place arithmetic rebalance hash state.1 hashable, state.2))
        (map, ([] : List T)) = (hashables.foldl (place arithmetic rebalance hash) map, []) :=
    fun map => List.foldl_hom (fun placed => (placed, [])) fun _ _ => rfl
  unfold sortHashables
  rw [List.foldl_ext _ (fun state hashable => (place arithmetic rebalance hash state.1 hashable, state.2)), onlyPlaced]
  · simp [synthesizeZeroHashes]
  · intro state hashable member
    have hashed : (Hashable.hashable hashable).hasHashes = true := by
      simpa [DefaultHashable.hasHashes, Hashed] using allHashed hashable member
    simp [hashed]

theorem sortHashables_holds (increasing : ∀ x : α, 0 ≤ x → x < incrementBits x) (hash : α)
    (allHashed : ∀ hashable ∈ hashables, Hashed hashable) :
    Holds incrementBits decrementBits hash hashables
      (sortHashables (.exact incrementBits decrementBits) rebalance hash hashables) := by
  rw [sortHashables_hashed rebalance _ hash allHashed]
  induction hashables using List.reverseRecOn with
  | nil => exact ⟨by simp [SortedMap.values], by simp [SortedMap.values], by simp, by simp⟩
  | append_singleton hashables hashable ih =>
    rw [List.foldl_concat]
    have before : ∀ other ∈ hashables, Hashed other := fun other member => allHashed other (by simp [member])
    exact place_holds increasing rebalance (ih before) before (allHashed hashable (by simp))

theorem selectHashables_perm (decrementBits : α → α) (increasing : ∀ x : α, 0 ≤ x → x < incrementBits x) (hashFunction : String → α)
    (shuffle : Shuffle T) (allHashed : ∀ hashable ∈ hashables, Hashed hashable) (s : String) :
    (selectHashables (.exact incrementBits decrementBits) rebalance hashFunction shuffle hashables none s).Perm
      hashables :=
  (sortHashables_holds rebalance increasing (hashFunction s) allHashed).perm

theorem selectHashables_ascending (decrementBits : α → α) (increasing : ∀ x : α, 0 ≤ x → x < incrementBits x)
    (hashFunction : String → α) (shuffle : Shuffle T) (allHashed : ∀ hashable ∈ hashables, Hashed hashable)
    (s : String) (distinct : (hashables.map (distance (hashFunction s))).Nodup) :
    (selectHashables (.exact incrementBits decrementBits) rebalance hashFunction shuffle hashables none s).Pairwise
      fun a b => distance (hashFunction s) a < distance (hashFunction s) b := by
  have holds : Holds incrementBits decrementBits _ hashables _ :=
    sortHashables_holds rebalance increasing (hashFunction s) allHashed
  refine List.pairwise_map.mpr ((List.Pairwise.and_mem.mp (SortedMap.ascending _)).imp ?_)
  rintro a b ⟨aMember, bMember, order⟩
  rw [distance_eq incrementBits decrementBits (allHashed _ (holds.mem_placed aMember)),
    distance_eq incrementBits decrementBits (allHashed _ (holds.mem_placed bMember)), WithTop.coe_lt_coe,
    ← holds.exactly distinct a aMember, ← holds.exactly distinct b bMember]
  exact order

theorem selectHashable_argmin (increasing : ∀ x : α, 0 ≤ x → x < incrementBits x) (hashFunction : String → α)
    (shuffle : Shuffle T) (allHashed : ∀ hashable ∈ hashables, Hashed hashable) (s : String) (shuffled : Bool) :
    selectHashable (.exact incrementBits decrementBits) rebalance hashFunction shuffle hashables
        (some ⟨1, shuffled⟩) s =
      hashables.argmin (distance (hashFunction s)) := by
  have holds : Holds incrementBits decrementBits _ hashables _ :=
    sortHashables_holds rebalance increasing (hashFunction s) allHashed
  rw [← holds.first, selectHashable, selectHashables]
  cases sorted : (sortHashables (.exact incrementBits decrementBits) rebalance (hashFunction s) hashables).values with
  | nil =>
    have nothing : shuffle.run [] = [] := List.Perm.eq_nil (shuffle.perm [])
    cases shuffled <;> simp [nothing]
  | cons first rest =>
    have single : shuffle.run [first] = [first] := List.perm_singleton.mp (shuffle.perm [first])
    cases shuffled <;> simp [single]

theorem selectHashables_erase [DecidableEq T] (increasing : ∀ x : α, 0 ≤ x → x < incrementBits x)
    (hashFunction : String → α) (shuffle later : Shuffle T) {before after : List T} {x : T}
    (allHashed : ∀ hashable ∈ before ++ x :: after, Hashed hashable) (s : String)
    (distinct : ((before ++ x :: after).map (distance (hashFunction s))).Nodup) :
    selectHashables (.exact incrementBits decrementBits) rebalance hashFunction later (before ++ after) none s =
      (selectHashables (.exact incrementBits decrementBits) rebalance hashFunction shuffle
        (before ++ x :: after) none s).erase x := by
  have shorter : (before ++ after).Sublist (before ++ x :: after) :=
    (List.sublist_cons_self x after).append_left before
  have restHashed : ∀ hashable ∈ before ++ after, Hashed hashable :=
    fun hashable member => allHashed hashable (shorter.subset member)
  have order := selectHashables_ascending rebalance decrementBits increasing hashFunction
    shuffle allHashed s distinct
  have restOrder := selectHashables_ascending rebalance decrementBits increasing hashFunction
    later restHashed s (distinct.sublist (shorter.map _))
  have rest := selectHashables_perm rebalance decrementBits increasing hashFunction
    later restHashed s
  have erased := ((selectHashables_perm rebalance decrementBits increasing hashFunction
    shuffle allHashed s).trans List.perm_middle).erase x
  rw [List.erase_cons_head] at erased
  exact List.Perm.eq_of_pairwise (fun a b _ _ closer farther => absurd closer (not_lt.mpr (le_of_lt farther)))
    restOrder (order.sublist List.erase_sublist) (rest.trans erased.symm)

end Sorting

theorem selectHashable_minimallyDisruptive [DecidableEq T] (incrementBits decrementBits : α → α)
    (rebalance : SearchTree.Rebalance (α × T))
    (hashFunction : String → α) (s : String) (increasing : ∀ x : α, 0 ≤ x → x < incrementBits x) :
    let distanceTo : T → WithTop α := distance (hashFunction s)
    let selectHashables (shuffle : Shuffle T) (hashables : List T) (dispersion : Option Dispersion) :=
      selectHashables (.exact incrementBits decrementBits) rebalance hashFunction shuffle hashables dispersion s
    let selectHashable (shuffle : Shuffle T) (hashables : List T) (shuffled : Bool) :=
      selectHashable (.exact incrementBits decrementBits) rebalance hashFunction shuffle hashables
        (some ⟨1, shuffled⟩) s
    ∀ (shuffle later : Shuffle T) (shuffled : Bool),
      (∀ hashables : List T, (∀ hashable ∈ hashables, Hashed hashable) →
        selectHashable shuffle hashables shuffled = hashables.argmin distanceTo) ∧
      ∀ (before after : List T) (x : T), (∀ hashable ∈ before ++ x :: after, Hashed hashable) →
        (selectHashable shuffle (before ++ x :: after) shuffled ≠ some x →
          selectHashable later (before ++ after) shuffled = selectHashable shuffle (before ++ x :: after) shuffled) ∧
        (∀ selected, selectHashable shuffle (before ++ after) shuffled = some selected →
          distanceTo selected < distanceTo x →
            selectHashable later (before ++ x :: after) shuffled = some selected) ∧
        (((before ++ x :: after).map distanceTo).Nodup →
          selectHashables later (before ++ after) none =
            (selectHashables shuffle (before ++ x :: after) none).erase x) := by
  intro distanceTo selectHashables selectHashable shuffle later shuffled
  refine ⟨fun hashables allHashed => selectHashable_argmin rebalance increasing hashFunction shuffle allHashed s shuffled,
    fun before after x allHashed => ?_⟩
  have shorter : (before ++ after).Sublist (before ++ x :: after) :=
    (List.sublist_cons_self x after).append_left before
  have restHashed : ∀ hashable ∈ before ++ after, Hashed hashable :=
    fun hashable member => allHashed hashable (shorter.subset member)
  simp only [selectHashable, selectHashable_argmin rebalance increasing hashFunction _ allHashed,
    selectHashable_argmin rebalance increasing hashFunction _ restHashed]
  exact ⟨argmin_remove distanceTo before after x, fun selected => argmin_insert distanceTo before after selected x,
    selectHashables_erase rebalance increasing hashFunction shuffle later allHashed s⟩

theorem selectHashable_minimallyDisruptive_twoCaches :
    let near : DefaultHashable Int := ⟨[1, 5], by decide, 0⟩
    let far : DefaultHashable Int := ⟨[20], by decide, 0⟩
    let shuffle : Shuffle (DefaultHashable Int) := ⟨id, fun _ => .refl _⟩
    let select (hashables : List (DefaultHashable Int)) :=
      selectHashable (.exact (· + 1) (· - 1)) .none (fun _ => 4) shuffle hashables (some ⟨1, true⟩) "/path"
    let selectAll (hashables : List (DefaultHashable Int)) :=
      selectHashables (.exact (· + 1) (· - 1)) .none (fun _ => 4) shuffle hashables none "/path"
    select [near, far] = [near, far].argmin (distance 4) ∧ select [near] = select [near, far] ∧
      select [near, far] = some near ∧ selectAll [near] = (selectAll [near, far]).erase far := by
  intro near far shuffle select selectAll
  have hashed : ∀ hashable ∈ [near] ++ [far], Hashed hashable := by
    intro hashable member
    rcases List.mem_pair.mp member with rfl | rfl <;> simp [Hashed, Hashable.hashable, near, far]
  have stable := selectHashable_minimallyDisruptive (T := DefaultHashable Int) (· + 1) (· - 1) .none
    (fun _ => (4 : Int)) "/path" (fun x _ => Int.lt_succ x) shuffle shuffle true
  have ⟨removed, inserted, erased⟩ := stable.2 [near] [] far hashed
  exact ⟨stable.1 [near, far] hashed, removed (by decide), inserted near (by decide) (by decide), erased (by decide)⟩

end ConsistentHasher

end TrafficControl.TrafficRouter
