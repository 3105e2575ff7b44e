import Mathlib.Data.List.MinMax
import Mathlib.Data.List.Nodup
import TrafficControl.TrafficRouter.NetworkInsertion

set_option autoImplicit false

namespace TrafficControl.TrafficRouter

open CidrAddress

variable {α : Type}

namespace NetworkNode

section Occurrences

variable {network x : CidrAddress × α} {entries entries' : List (ChildEntry α)}

theorem occurs_iff (x : CidrAddress × α) (entries : List (ChildEntry α)) : Occurs x entries ↔
    ∃ e ∈ entries, e.2.label = x ∨ Occurs x e.2.children.toList := by
  constructor
  · intro occurs
    cases occurs with
    | here member same => exact ⟨_, member, Or.inl same⟩
    | deeper member occurs => exact ⟨_, member, Or.inr occurs⟩
  · rintro ⟨e, member, same | occurs⟩
    · exact .here member same
    · exact .deeper member occurs

theorem occurs_split {before after : List (ChildEntry α)} {e : ChildEntry α} :
    Occurs x (before ++ e :: after) ↔
      Occurs x (before ++ after) ∨ e.2.label = x ∨ Occurs x e.2.children.toList := by
  simp only [occurs_iff x (before ++ e :: after), occurs_iff x (before ++ after),
    List.mem_append, List.mem_cons, or_and_right, exists_or, exists_eq_left]
  exact (or_congr_right or_comm).trans or_assoc.symm

theorem occurs_moved : Occurs x (entries.map fun e => (none, e.2)) ↔ Occurs x entries := by
  rw [occurs_iff, occurs_iff]
  constructor
  · rintro ⟨c, member, occurs⟩
    obtain ⟨e, original, rfl⟩ := List.mem_map.mp member
    exact ⟨e, original, occurs⟩
  · rintro ⟨e, member, occurs⟩
    exact ⟨(none, e.2), List.mem_map_of_mem member, occurs⟩

theorem occurs_filter (x : CidrAddress × α) (entries : List (ChildEntry α)) (chosen : ChildEntry α → Bool) : Occurs x entries ↔
    Occurs x (entries.filter fun e => !chosen e) ∨ Occurs x (entries.filter chosen) := by
  simp only [occurs_iff x (entries.filter _), occurs_iff x entries, List.mem_filter]
  constructor
  · rintro ⟨e, member, occurs⟩
    cases included : chosen e with
    | true => exact Or.inr ⟨e, ⟨member, included⟩, occurs⟩
    | false => exact Or.inl ⟨e, ⟨member, by simp [included]⟩, occurs⟩
  · rintro (⟨e, ⟨member, _⟩, occurs⟩ | ⟨e, ⟨member, _⟩, occurs⟩)
    · exact ⟨e, member, occurs⟩
    · exact ⟨e, member, occurs⟩

-- Networks of one family and without host bits are equal when their prefixes are.
def Tidy (family : Bool) (cidr : CidrAddress) : Prop := cidr.isIpV6 = family ∧ cidr.ZeroHostBits

theorem tidy_eq {family : Bool} {a b : CidrAddress} (aTidy : Tidy family a) (bTidy : Tidy family b)
    (same : a.SamePrefix b) : a = b :=
  eq_of_within (aTidy.1.trans bTidy.1.symm) aTidy.2 bTidy.2 same.2 same.1

-- An occurrence of a network's own address can only lie below the entry that holds the network.
theorem WF.fresh_below_iff {before after : List (ChildEntry α)} {e : ChildEntry α} {cidr : CidrAddress}
    (wf : WF (before ++ e :: after)) (inside : cidr.Inside e.2.cidrAddress) :
    (∀ y, Occurs y e.2.children.toList → y.1 ≠ cidr) ↔
      ∀ y, Occurs y (before ++ e :: after) → y.1 ≠ cidr := by
  have member : e ∈ before ++ e :: after := by simp
  constructor
  · intro fresh y occurs same
    obtain ⟨e', member', outer, cases⟩ := wf.occurs_within occurs
    have inE' : cidr.Within e'.2.cidrAddress := same ▸ outer
    obtain rfl := wf.unique member' member (overlaps_of_within_both inE' inside.2)
    rcases cases with top | ⟨_, below⟩
    · have longer := inside.1
      rw [← same, ← top] at longer
      exact absurd longer (Nat.lt_irrefl _)
    · exact fresh y below same
  · exact fun fresh y occurs => fresh y (.deeper member occurs)

-- A network between its neighbours occurs nowhere: no entry outside it overlaps it.
theorem WF.fresh_between {before after : List (ChildEntry α)} {cidr : CidrAddress} (wf : WF entries)
    (outside : entries.filter (fun e => !cidr.includesAddress e.2.cidrAddress) = before ++ after)
    (below : ∀ e ∈ before, e.2.cidrAddress.compareTo cidr < 0)
    (above : ∀ e ∈ after, cidr.compareTo e.2.cidrAddress < 0) :
    ∀ y, Occurs y entries → y.1 ≠ cidr := by
  intro y occurs same
  obtain ⟨e, member, outer, _⟩ := wf.occurs_within occurs
  rw [same] at outer
  have overlap := overlaps_of_within outer
  have kept : e ∈ before ++ after := by
    rw [← outside, List.mem_filter]
    refine ⟨member, ?_⟩
    rw [Bool.not_eq_true', ← Bool.not_eq_true, includesAddress_iff]
    intro inside
    have longer := inside.1
    have shorter := outer.1
    omega
  rcases List.mem_append.mp kept with lower | upper
  · exact compareTo_neg_not_overlaps (below e lower) (overlaps_comm.mp overlap)
  · exact compareTo_neg_not_overlaps (above e upper) overlap

theorem Added.occurs {family : Bool} (added : Added network entries entries') (wf : WF entries)
    (tidy : ∀ y, Occurs y entries → Tidy family y.1) (newTidy : Tidy family network.1) :
    Occurs x entries' ↔ Occurs x entries ∨ x = network ∧ ∀ y, Occurs y entries → y.1 ≠ network.1 := by
  induction added with
  | @duplicate entries e member same =>
    constructor
    · exact Or.inl
    · rintro (occurs | ⟨_, fresh⟩)
      · exact occurs
      · exact absurd same (fresh e.2.label (.here member rfl))
  | @deeper before after e children inside added ih =>
    have member : e ∈ before ++ e :: after := by simp
    have step := ih (wf.subtrees e member) fun y occurs => tidy y (.deeper member occurs)
    have sameLabel : (e.2.withChildren children).label = e.2.label := by simp [label]
    rw [occurs_split, occurs_split]
    simp only [sameLabel, withChildren_children, step, wf.fresh_below_iff inside]
    grind
  | @replaced before after e samePrefix different =>
    have old : Tidy family e.2.cidrAddress := tidy e.2.label (.here (by simp) rfl)
    exact absurd (tidy_eq old newTidy samePrefix) different
  | @inserted entries before after children outside below above moved =>
    have fresh := wf.fresh_between outside below above
    have divided := occurs_filter x entries fun e => network.1.includesAddress e.2.cidrAddress
    rw [occurs_split, divided, outside]
    simp only [NetworkNode.children, moved, occurs_moved, label, cidrAddress, data]
    constructor
    · rintro (occurs | rfl | occurs)
      · exact Or.inl (Or.inl occurs)
      · exact Or.inr ⟨rfl, fresh⟩
      · exact Or.inl (Or.inr occurs)
    · rintro ((occurs | occurs) | ⟨rfl, _⟩)
      · exact Or.inl occurs
      · exact Or.inr (Or.inr occurs)
      · exact Or.inr (Or.inl rfl)

end Occurrences

end NetworkNode

open NetworkNode

section SuperNode

variable (rebalance : SearchTree.Rebalance (ChildEntry α)) (rootData : α)

def addNetwork (root : SuperNode α) (network : CidrAddress × α) : SuperNode α :=
  if network.1.isIpV6 then (root.add6 rebalance (leaf network)).1 else (root.add rebalance (leaf network)).1

def coverageZone (networks : List (CidrAddress × α)) : SuperNode α :=
  networks.foldl (addNetwork rebalance) (.new rootData)

def ofFamily (family : Bool) (networks : List (CidrAddress × α)) : List (CidrAddress × α) :=
  networks.filter fun network => network.1.isIpV6 == family

/-- The first of the longest networks that hold the address. -/
def longestPrefix (networks : List (CidrAddress × α)) (ip : CidrAddress) : Option (CidrAddress × α) :=
  ((ofFamily ip.isIpV6 networks).filter fun network => decide (ip.Within network.1)).argmax
    fun network => network.1.netmaskLength

-- The entries hold the networks of one family, the first of each address.
def Holds (family : Bool) (networks : List (CidrAddress × α)) (entries : List (ChildEntry α)) : Prop :=
  WF entries ∧ ∀ x, Occurs x entries ↔
    (ofFamily family networks).find? (fun network => network.1 == x.1) = some x

theorem Holds.member {family : Bool} {networks : List (CidrAddress × α)} {entries : List (ChildEntry α)}
    (holds : Holds family networks entries) {x : CidrAddress × α} (occurs : Occurs x entries) :
    x ∈ networks ∧ x.1.isIpV6 = family := by
  have member := List.mem_of_find?_eq_some ((holds.2 x).mp occurs)
  simpa [ofFamily] using member

theorem Holds.other {family : Bool} {networks : List (CidrAddress × α)} {entries : List (ChildEntry α)}
    (holds : Holds family networks entries) {network : CidrAddress × α}
    (different : network.1.isIpV6 ≠ family) : Holds family (networks ++ [network]) entries := by
  have ignored : ofFamily family (networks ++ [network]) = ofFamily family networks := by
    simp [ofFamily, different]
  exact ⟨holds.1, fun x => ignored ▸ holds.2 x⟩

theorem Holds.added {family : Bool} {networks : List (CidrAddress × α)} {entries entries' : List (ChildEntry α)}
    (holds : Holds family networks entries) (zero : ∀ network ∈ networks, network.1.ZeroHostBits)
    {network : CidrAddress × α} (newTidy : Tidy family network.1) (added : Added network entries entries') :
    Holds family (networks ++ [network]) entries' := by
  have tidy (y : CidrAddress × α) (occurs : Occurs y entries) : Tidy family y.1 :=
    ⟨(holds.member occurs).2, zero y (holds.member occurs).1⟩
  have taken : ofFamily family (networks ++ [network]) = ofFamily family networks ++ [network] := by
    simp [ofFamily, newTidy.1]
  -- The address is new exactly when the search for it fails.
  have freshIff : (∀ y, Occurs y entries → y.1 ≠ network.1) ↔
      (ofFamily family networks).find? (fun other => other.1 == network.1) = none := by
    constructor
    · intro fresh
      by_contra present
      obtain ⟨y, found⟩ := Option.ne_none_iff_exists'.mp present
      have same : y.1 = network.1 := by simpa using List.find?_some found
      exact fresh y ((holds.2 y).mpr (same ▸ found)) same
    · intro absent y occurs same
      have found := (holds.2 y).mp occurs
      rw [same, absent] at found
      contradiction
  refine ⟨added.wf holds.1, fun x => ?_⟩
  rw [added.occurs holds.1 tidy newTidy, taken, List.find?_append, Option.or_eq_some_iff, freshIff, holds.2 x]
  apply or_congr_right
  by_cases same : network.1 = x.1
  · simp only [List.find?_singleton, same, beq_self_eq_true, if_true, Option.some.injEq]
    exact and_comm.trans (and_congr_right fun _ => eq_comm)
  · simp only [List.find?_singleton, beq_eq_false_iff_ne.mpr same, Bool.false_eq_true, if_false]
    constructor
    · rintro ⟨rfl, _⟩
      exact absurd rfl same
    · simp

theorem Holds.first {family : Bool} {networks : List (CidrAddress × α)} {entries : List (ChildEntry α)}
    (holds : Holds family networks entries) {network : CidrAddress × α}
    (member : network ∈ ofFamily family networks) : ∃ y, Occurs y entries ∧ y.1 = network.1 := by
  have present : ((ofFamily family networks).find? fun other => other.1 == network.1).isSome :=
    List.find?_isSome.mpr ⟨network, member, beq_self_eq_true _⟩
  obtain ⟨y, found⟩ := Option.isSome_iff_exists.mp present
  have same : y.1 = network.1 := by simpa using List.find?_some found
  exact ⟨y, (holds.2 y).mpr (same ▸ found), same⟩

theorem argmax_of_first {β : Type} (size : β → Nat) {before after : List β} {largest : β}
    (smaller : ∀ b ∈ before, size b < size largest) (notLarger : ∀ b ∈ after, size b ≤ size largest) :
    (before ++ largest :: after).argmax size = some largest := by
  induction before with
  | nil =>
    rw [List.nil_append, List.argmax_cons]
    cases rest : after.argmax size with
    | none => rfl
    | some other =>
      have bound := notLarger other (List.argmax_mem rest)
      simp [Nat.not_lt.mpr bound]
  | cons first rest ih =>
    have later := ih fun b member => smaller b (by simp [member])
    have bound := smaller first (by simp)
    simp [List.argmax_cons, later, bound]

theorem Holds.longestPrefix_hit {networks : List (CidrAddress × α)} {entries : List (ChildEntry α)}
    {ip : CidrAddress} (holds : Holds ip.isIpV6 networks entries) {found : NetworkNode α}
    (deepest : Deepest ip entries found) : longestPrefix networks ip = some found.label := by
  obtain ⟨occurs, within, longest⟩ := deepest
  obtain ⟨_, before, after, split, others⟩ :=
    List.find?_eq_some_iff_append.mp ((holds.2 found.label).mp occurs)
  have shorter (network : CidrAddress × α) (member : network ∈ ofFamily ip.isIpV6 networks)
      (inside : ip.Within network.1) :
      network.1 = found.cidrAddress ∨ network.1.netmaskLength < found.cidrAddress.netmaskLength := by
    obtain ⟨y, yOccurs, same⟩ := holds.first member
    rw [← same]
    exact (longest y yOccurs (same ▸ inside)).imp_left fun equal => by rw [equal]
  have kept : decide (ip.Within found.label.1) = true := decide_eq_true within
  simp only [longestPrefix, split, List.filter_append, List.filter_cons, kept, if_true]
  apply argmax_of_first
  · intro network chosen
    obtain ⟨member, inside⟩ := List.mem_filter.mp chosen
    rcases shorter network (by simp [split, member]) (of_decide_eq_true inside) with same | less
    · have different := others network member
      simp [same] at different
    · exact less
  · intro network chosen
    obtain ⟨member, inside⟩ := List.mem_filter.mp chosen
    rcases shorter network (by simp [split, member]) (of_decide_eq_true inside) with same | less
    · rw [same]
    · exact less.le

theorem Holds.longestPrefix_miss {networks : List (CidrAddress × α)} {children : Children α}
    {ip : CidrAddress} (holds : Holds ip.isIpV6 networks children.toList)
    (miss : children.get (compareToKey ip) = none) : longestPrefix networks ip = none := by
  rw [longestPrefix, List.argmax_eq_none, List.filter_eq_nil_iff]
  intro network member inside
  obtain ⟨y, occurs, same⟩ := holds.first member
  exact holds.1.get_miss rfl miss occurs (same ▸ of_decide_eq_true inside)

theorem Holds.lookup {networks : List (CidrAddress × α)} {children : Children α} {ip : InetAddress}
    (holds : Holds (ofAddress ip).isIpV6 networks children.toList) (root : NetworkNode α) :
    (match children.get (compareToKey (ofAddress ip)) with
      | none => some root
      | some c => c.2.getNetwork (ofAddress ip)).map label =
      some ((longestPrefix networks (ofAddress ip)).getD root.label) := by
  have fits (network : CidrAddress × α) (occurs : Occurs network children.toList) :
      network.1.netmaskLength ≤ (ofAddress ip).netmaskLength := by
    have family := (holds.member occurs).2
    have range := network.1.valid
    have sizes := network.1.address.family
    have ipSizes := ip.family
    have sameSize : 4 < network.1.address.bytes.length ↔ 4 < ip.bytes.length := decide_eq_decide.mp family
    change network.1.netmaskLength ≤ 8 * ip.bytes.length
    omega
  split
  next miss => rw [holds.longestPrefix_miss miss]; rfl
  next c hit =>
    obtain ⟨found, result, deepest⟩ := holds.1.getNetwork_deepest fits rfl hit
    rw [result, holds.longestPrefix_hit deepest]
    rfl

structure Represents (networks : List (CidrAddress × α)) (root : SuperNode α) : Prop where
  label : root.node.label = (defaultSubStr, rootData)
  ipv4 : Holds false networks root.node.children.toList
  ipv6 : Holds true networks root.children6.toList

variable {rootData} in
theorem Represents.covers {networks : List (CidrAddress × α)} {root : SuperNode α}
    (represents : Represents rootData networks root) (cidr : CidrAddress) :
    root.node.cidrAddress.compareTo cidr = 0 := by
  have address : root.node.cidrAddress = defaultSubStr := congrArg Prod.fst represents.label
  rw [compareTo_eq_zero, address]
  simp [defaultSubStr]

theorem addNetwork_represents {networks : List (CidrAddress × α)} {root : SuperNode α}
    (represents : Represents rootData networks root) {network : CidrAddress × α}
    (zero : ∀ other ∈ networks ++ [network], other.1.ZeroHostBits) :
    Represents rootData (networks ++ [network]) (addNetwork rebalance root network) := by
  have covers := represents.covers network.1
  have oldZero (other : CidrAddress × α) (member : other ∈ networks) := zero other (by simp [member])
  have newZero := zero network (by simp)
  unfold addNetwork
  split_ifs with family
  · refine ⟨represents.label, represents.ipv4.other (by simp [family]), ?_⟩
    exact represents.ipv6.added oldZero ⟨family, newZero⟩
      (addTo_added rebalance represents.ipv6.1 covers (by omega))
  · rw [Bool.not_eq_true] at family
    refine ⟨?_, ?_, represents.ipv6.other (by simp [family])⟩
    · simpa [SuperNode.add, NetworkNode.add] using represents.label
    · simp only [SuperNode.add, NetworkNode.add, withChildren_children]
      exact represents.ipv4.added oldZero ⟨family, newZero⟩
        (addTo_added rebalance represents.ipv4.1 covers (by omega))

theorem coverageZone_represents (networks : List (CidrAddress × α))
    (zero : ∀ network ∈ networks, network.1.ZeroHostBits) :
    Represents rootData networks (coverageZone rebalance rootData networks) := by
  have empty (family : Bool) : Holds (α := α) family [] [] :=
    ⟨wf_nil, fun x => by rw [occurs_iff]; simp [ofFamily]⟩
  induction networks using List.reverseRecOn with
  | nil => exact ⟨rfl, empty false, empty true⟩
  | append_singleton networks network ih =>
    rw [coverageZone, List.foldl_append]
    exact addNetwork_represents rebalance rootData
      (ih fun other member => zero other (by simp [member])) zero

-- Without repeated addresses the order of the list does not matter.
theorem longestPrefix_perm {networks reordered : List (CidrAddress × α)} (perm : networks.Perm reordered)
    (zero : ∀ network ∈ networks, network.1.ZeroHostBits) (distinct : (networks.map Prod.fst).Nodup)
    (ip : CidrAddress) : longestPrefix reordered ip = longestPrefix networks ip := by
  have candidates := (perm.filter fun network => network.1.isIpV6 == ip.isIpV6).filter
    fun network => decide (ip.Within network.1)
  cases answer : longestPrefix networks ip with
  | none =>
    rw [longestPrefix, List.argmax_eq_none] at answer ⊢
    rw [ofFamily] at answer ⊢
    rw [answer] at candidates
    exact candidates.nil_eq.symm
  | some best =>
    obtain ⟨best', answer'⟩ : ∃ best', longestPrefix reordered ip = some best' := by
      apply Option.ne_none_iff_exists'.mp
      intro nothing
      rw [longestPrefix, List.argmax_eq_none, ofFamily] at nothing
      rw [nothing] at candidates
      have member := List.argmax_mem answer
      rw [ofFamily, candidates.eq_nil] at member
      contradiction
    have member := List.argmax_mem answer
    have member' := candidates.mem_iff.mpr (List.argmax_mem answer')
    have bound := List.le_of_mem_argmax member' answer
    have bound' := List.le_of_mem_argmax (candidates.mem_iff.mp member) answer'
    simp only [ofFamily, List.mem_filter, beq_iff_eq, decide_eq_true_eq] at member member'
    have samePrefix : best.1.SamePrefix best'.1 :=
      ⟨Nat.le_antisymm bound' bound, within_of_overlaps (overlaps_of_within_both member.2 member'.2) bound⟩
    have same := tidy_eq ⟨member.1.2, zero best member.1.1⟩ ⟨member'.1.2, zero best' member'.1.1⟩ samePrefix
    rw [answer', List.inj_on_of_nodup_map distinct member'.1.1 member.1.1 same.symm]

theorem getNetwork_longestPrefix (networks : List (CidrAddress × α))
    (zero : ∀ network ∈ networks, network.1.ZeroHostBits) (ip : InetAddress) :
    ((coverageZone rebalance rootData networks).getNetwork (ofAddress ip)).map label =
        some ((longestPrefix networks (ofAddress ip)).getD (defaultSubStr, rootData)) ∧
      ∀ reordered, networks.Perm reordered → (networks.map Prod.fst).Nodup →
        ((coverageZone rebalance rootData reordered).getNetwork (ofAddress ip)).map label =
          ((coverageZone rebalance rootData networks).getNetwork (ofAddress ip)).map label := by
  have answer (networks : List (CidrAddress × α)) (zero : ∀ network ∈ networks, network.1.ZeroHostBits) :
      ((coverageZone rebalance rootData networks).getNetwork (ofAddress ip)).map label =
        some ((longestPrefix networks (ofAddress ip)).getD (defaultSubStr, rootData)) := by
    have represents := coverageZone_represents rebalance rootData networks zero
    rw [← represents.label, SuperNode.getNetwork]
    split_ifs with family
    · exact Holds.lookup (family ▸ represents.ipv6) _
    · rw [Bool.not_eq_true] at family
      rw [NetworkNode.getNetwork_eq]
      simp only [represents.covers, ne_eq, not_true_eq_false, if_false]
      exact Holds.lookup (family ▸ represents.ipv4) _
  refine ⟨answer networks zero, fun reordered perm distinct => ?_⟩
  rw [answer networks zero, answer reordered fun network member => zero network (perm.mem_iff.mpr member),
    longestPrefix_perm perm zero distinct]

-- The /8 is added after the /24 inside it and takes it over; the second /24 is a repetition.
theorem getNetwork_longestPrefix_nested :
    let networks : List (CidrAddress × Nat) :=
      [(⟨.ipv4 10 200 3 0, 24, by decide⟩, 1), (⟨.ipv4 10 0 0 0, 8, by decide⟩, 2),
        (⟨.ipv4 10 200 3 0, 24, by decide⟩, 3), (⟨.ipv4 10 200 0 0, 16, by decide⟩, 4)]
    ((coverageZone .none 0 networks).getNetwork (ofAddress (.ipv4 10 200 3 7))).map label =
      some (⟨.ipv4 10 200 3 0, 24, by decide⟩, 1) := by
  intro networks
  have zero : ∀ network ∈ networks, network.1.ZeroHostBits := by decide
  exact (getNetwork_longestPrefix .none 0 networks zero (.ipv4 10 200 3 7)).1.trans (by decide)

end SuperNode

end TrafficControl.TrafficRouter
