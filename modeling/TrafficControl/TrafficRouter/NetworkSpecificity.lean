import TrafficControl.TrafficRouter.LongestPrefix

set_option autoImplicit false

namespace TrafficControl.TrafficRouter

open CidrAddress NetworkNode

variable {α : Type}

namespace NetworkNode

section Additions

variable {network x : CidrAddress × α} {entries entries' : List (ChildEntry α)}

/-- The network lies in one that has the new one's prefix and other host bits. -/
def Displaced (entries : List (ChildEntry α)) (cidr : CidrAddress) (x : CidrAddress × α) : Prop :=
  ∃ z, Occurs z entries ∧ z.1.SamePrefix cidr ∧ z.1 ≠ cidr ∧ x.1.Inside z.1

theorem Added.occurs_only (added : Added network entries entries') (occurs : Occurs x entries') :
    x = network ∨ Occurs x entries := by
  induction added with
  | duplicate => exact Or.inr occurs
  | @deeper before after e children inside added ih =>
    have sameLabel : (e.2.withChildren children).label = e.2.label := by simp [label]
    rw [occurs_split] at occurs ⊢
    simp only [sameLabel, withChildren_children] at occurs
    rcases occurs with others | top | below
    · exact Or.inr (Or.inl others)
    · exact Or.inr (Or.inr (Or.inl top))
    · exact (ih below).imp_right fun old => Or.inr (Or.inr old)
  | replaced samePrefix different =>
    rw [occurs_split] at occurs ⊢
    rcases occurs with others | rfl | below
    · exact Or.inr (Or.inl others)
    · exact Or.inl rfl
    · rw [occurs_iff] at below
      obtain ⟨e, member, _⟩ := below
      cases member
  | @inserted entries before after children outside _ _ moved =>
    rw [occurs_split] at occurs
    rw [occurs_filter x entries fun e => network.1.includesAddress e.2.cidrAddress, outside]
    simp only [NetworkNode.children, moved, occurs_moved] at occurs
    rcases occurs with kept | rfl | taken
    · exact Or.inr (Or.inl kept)
    · exact Or.inl rfl
    · exact Or.inr (Or.inr taken)

/-- The new network is there, perhaps with the host bits of an equal one. -/
theorem Added.present (added : Added network entries entries') : ∃ y, Occurs y entries' ∧ y.1.SamePrefix network.1 := by
  induction added with
  | duplicate member same => exact ⟨_, .here member rfl, same ▸ samePrefix_refl _⟩
  | deeper inside added ih =>
    obtain ⟨y, occurs, same⟩ := ih
    exact ⟨y, .deeper (List.mem_append_right _ (List.mem_cons_self ..)) (by simpa using occurs), same⟩
  | replaced => exact ⟨network, .here (List.mem_append_right _ (List.mem_cons_self ..)) rfl, samePrefix_refl _⟩
  | inserted => exact ⟨network, .here (List.mem_append_right _ (List.mem_cons_self ..)) rfl, samePrefix_refl _⟩

/-- A network keeps its place, or an equal one has it, unless it was displaced. -/
theorem Added.kept (added : Added network entries entries') (wf : WF entries) (occurs : Occurs x entries) :
    (∃ y, Occurs y entries' ∧ y.1.SamePrefix x.1) ∨ Displaced entries network.1 x := by
  induction added with
  | duplicate => exact Or.inl ⟨x, occurs, samePrefix_refl _⟩
  | @deeper before after e children inside added ih =>
    have member : e ∈ before ++ e :: after := by simp
    have sameLabel : (e.2.withChildren children).label = e.2.label := by simp [label]
    rw [occurs_split] at occurs
    rcases occurs with others | top | below
    · exact Or.inl ⟨x, occurs_split.mpr (Or.inl others), samePrefix_refl _⟩
    · exact Or.inl ⟨x, occurs_split.mpr (Or.inr (Or.inl (sameLabel.trans top))), samePrefix_refl _⟩
    · rcases ih (wf.subtrees e member) below with ⟨y, present, same⟩ | ⟨z, present, displaced⟩
      · exact Or.inl ⟨y, occurs_split.mpr (Or.inr (Or.inr (by simpa using present))), same⟩
      · exact Or.inr ⟨z, .deeper member present, displaced⟩
  | @replaced before after e samePrefix different =>
    have member : e ∈ before ++ e :: after := by simp
    rw [occurs_split] at occurs
    rcases occurs with others | top | below
    · exact Or.inl ⟨x, occurs_split.mpr (Or.inl others), samePrefix_refl _⟩
    · exact Or.inl ⟨network, occurs_split.mpr (Or.inr (Or.inl rfl)), top ▸ samePrefix_symm samePrefix⟩
    · exact Or.inr ⟨e.2.label, .here member rfl, samePrefix, different,
        (wf.subtrees e member).occurs_inside (wf.nested e member) below⟩
  | @inserted entries before after children outside _ _ moved =>
    rw [occurs_filter x entries fun e => network.1.includesAddress e.2.cidrAddress, outside] at occurs
    refine Or.inl ⟨x, occurs_split.mpr ?_, samePrefix_refl _⟩
    simp only [NetworkNode.children, moved, occurs_moved]
    exact occurs.imp_right Or.inr

/-- Two networks of one prefix are the same. -/
theorem WF.occurs_unique (wf : WF entries) {y : CidrAddress × α} (occurs : Occurs x entries) (occurs' : Occurs y entries)
    (same : x.1.SamePrefix y.1) : x.1 = y.1 := by
  induction wf generalizing x y with
  | @mk entries ordered keys nested subtrees ih =>
    have wf : WF entries := .mk ordered keys nested subtrees
    obtain ⟨e, member, outer, position⟩ := wf.occurs_within occurs
    obtain ⟨e', member', outer', position'⟩ := wf.occurs_within occurs'
    have inE' : x.1.Within e'.2.cidrAddress := within_trans same.2 outer'
    obtain rfl := wf.unique member member' (overlaps_of_within_both outer inE')
    rcases position with rfl | ⟨inside, below⟩
    · rcases position' with rfl | ⟨inside', _⟩
      · rfl
      · have longer := inside'.1
        rw [← same.1] at longer
        exact absurd longer (Nat.lt_irrefl _)
    · rcases position' with rfl | ⟨_, below'⟩
      · have longer := inside.1
        rw [same.1] at longer
        exact absurd longer (Nat.lt_irrefl _)
      · exact ih e member below below' same

/-- The networks below hold an address with the bits of this one, up to the shorter length. -/
def Meets (entries : List (ChildEntry α)) (cidr : CidrAddress) : Prop := ∃ x, Occurs x entries ∧ cidr.Overlaps x.1

/-- What was displaced is held by what displaced it. -/
theorem Added.meets_iff (added : Added network entries entries') (wf : WF entries) (cidr : CidrAddress) :
    Meets entries' cidr ↔ Meets entries cidr ∨ cidr.Overlaps network.1 := by
  constructor
  · rintro ⟨x, occurs, overlap⟩
    rcases added.occurs_only occurs with rfl | old
    · exact Or.inr overlap
    · exact Or.inl ⟨x, old, overlap⟩
  · intro meets
    obtain ⟨y, present, same⟩ := added.present
    rcases meets with ⟨x, occurs, overlap⟩ | overlap
    · rcases added.kept wf occurs with ⟨y', present', same'⟩ | ⟨z, _, equal, _, inside⟩
      · exact ⟨y', present', (overlaps_congr same').mpr overlap⟩
      · have outer : z.1.Overlaps cidr := overlaps_outer inside.2 (overlaps_comm.mp overlap)
        refine ⟨y, present, ?_⟩
        rw [overlaps_congr (samePrefix_trans same (samePrefix_symm equal))]
        exact overlaps_comm.mp outer
    · exact ⟨y, present, (overlaps_congr same).mpr overlap⟩

theorem WF.apart {before after : List (ChildEntry α)} {e e' : ChildEntry α} (wf : WF (before ++ e :: after))
    (member : e' ∈ before ++ after) : ¬e'.2.cidrAddress.Overlaps e.2.cidrAddress := by
  obtain ⟨_, rest, across⟩ := List.pairwise_append.mp wf.ordered
  rcases List.mem_append.mp member with lower | upper
  · exact compareTo_neg_not_overlaps (across e' lower e (List.mem_cons_self ..))
  · intro overlap
    exact compareTo_neg_not_overlaps ((List.pairwise_cons.mp rest).1 e' upper) (overlaps_comm.mp overlap)

/-- Nothing longer than the new network overlaps it where it took the place of an equal one. -/
theorem Added.replaces (added : Added network entries entries') (wf : WF entries) {z : CidrAddress × α}
    (equal : Occurs z entries) (same : z.1.SamePrefix network.1) (different : z.1 ≠ network.1)
    (occurs : Occurs x entries') (overlap : x.1.Overlaps network.1) : x.1.netmaskLength ≤ network.1.netmaskLength := by
  induction added with
  | @duplicate entries e member label =>
    have same' : z.1.SamePrefix e.2.cidrAddress := label.symm ▸ same
    have twice : z.1 = e.2.cidrAddress := wf.occurs_unique equal (.here member rfl) same'
    exact absurd (twice.trans label) different
  | @deeper before after e children inside added ih =>
    have member : e ∈ before ++ e :: after := by simp
    rw [occurs_split] at occurs
    rcases occurs with others | top | deeper
    · obtain ⟨e', member', outer, _⟩ := (wf.sublist (List.Sublist.append_left (List.sublist_cons_self e after) before)).occurs_within others
      have meets : e'.2.cidrAddress.Overlaps network.1 := overlaps_outer outer overlap
      exact absurd (overlaps_comm.mp (overlaps_outer inside.2 (overlaps_comm.mp meets))) (wf.apart member')
    · have shorter := inside.1
      rw [← top]
      simp only [withChildren_cidrAddress]
      omega
    · simp only [withChildren_children] at deeper
      obtain ⟨e', member', outer, position⟩ := wf.occurs_within equal
      obtain rfl := wf.unique member' member (overlaps_of_within_both outer (within_trans same.2 inside.2))
      rcases position with top | ⟨_, below⟩
      · have shorter := inside.1
        have length := same.1
        rw [← top] at length
        change e'.2.cidrAddress.netmaskLength = _ at length
        omega
      · exact ih (wf.subtrees e' member) below deeper
  | @replaced before after e samePrefix other =>
    rw [occurs_split] at occurs
    rcases occurs with others | rfl | below
    · obtain ⟨e', member', outer, _⟩ := (wf.sublist (List.Sublist.append_left (List.sublist_cons_self e after) before)).occurs_within others
      exact absurd ((overlaps_congr samePrefix).mpr (overlaps_outer outer overlap)) (wf.apart member')
    · exact le_rfl
    · rw [occurs_iff] at below
      obtain ⟨_, none, _⟩ := below
      cases none
  | @inserted entries before after children outside below above moved =>
    -- No sibling can hold the equal network: it would have to be as short as the new one.
    obtain ⟨e, member, outer, _⟩ := wf.occurs_within equal
    have meets : e.2.cidrAddress.Overlaps network.1 := overlaps_of_within_both outer same.2
    have kept : e ∈ before ++ after := by
      rw [← outside, List.mem_filter]
      refine ⟨member, ?_⟩
      rw [Bool.not_eq_true', ← Bool.not_eq_true, includesAddress_iff]
      intro inside
      have longer := inside.1
      have shorter := outer.1
      have length := same.1
      omega
    rcases List.mem_append.mp kept with lower | upper
    · exact absurd meets (compareTo_neg_not_overlaps (below e lower))
    · exact absurd (overlaps_comm.mp meets) (compareTo_neg_not_overlaps (above e upper))

end Additions

section Lookup

variable {entries : List (ChildEntry α)} {ip : CidrAddress}

/-- A lookup that finds a child ends at a node below it. -/
theorem WF.getNetwork_occurs (wf : WF entries) {e : ChildEntry α} (member : e ∈ entries)
    (overlap : e.2.cidrAddress.Overlaps ip) : ∃ found, e.2.getNetwork ip = some found ∧ Occurs found.label entries := by
  induction wf generalizing e with
  | @mk entries ordered keys nested subtrees ih =>
    rw [getNetwork_eq, if_neg (by simpa using (compareTo_eq_zero _ _).mpr overlap)]
    split
    · exact ⟨e.2, rfl, .here member rfl⟩
    · next c hit =>
      obtain ⟨inside, meets⟩ := (subtrees e member).get_hit rfl hit
      obtain ⟨found, result, occurs⟩ := ih e member inside (overlaps_comm.mp meets)
      exact ⟨found, result, .deeper member occurs⟩

theorem WF.get_miss_overlaps (wf : WF entries) {children : Children α} (contents : children.toList = entries)
    (miss : children.get (compareToKey ip) = none) {x : CidrAddress × α} (occurs : Occurs x entries) :
    ¬ip.Overlaps x.1 := by
  intro overlap
  have absent := (SearchTree.get_eq_none (contents ▸ wf.splits ip)).mp miss
  rw [contents] at absent
  obtain ⟨e, member, outer, _⟩ := wf.occurs_within occurs
  apply absent e member
  rw [wf.compareToKey_eq_zero ip member]
  exact overlaps_comm.mp (overlaps_outer outer (overlaps_comm.mp overlap))

end Lookup

end NetworkNode

section Zones

variable (rebalance : SearchTree.Rebalance (ChildEntry α))

-- A list of networks names the family that they are filed under.
def fileNetwork (six : Bool) (root : SuperNode α) (network : CidrAddress × α) : SuperNode α :=
  if six then (root.add6 rebalance (leaf network)).1 else (root.add rebalance (leaf network)).1

def childrenOf (six : Bool) (root : SuperNode α) : Children α := if six then root.children6 else root.node.children

def filed (six : Bool) (root : SuperNode α) : List (ChildEntry α) := (childrenOf six root).toList

/-- A tree that was built by additions, whatever the networks. -/
structure Zone (root : SuperNode α) : Prop where
  address : root.node.cidrAddress = defaultSubStr
  wf : ∀ six, WF (filed six root)

variable {root : SuperNode α}

theorem Zone.covers (zone : Zone root) (cidr : CidrAddress) : root.node.cidrAddress.compareTo cidr = 0 := by
  rw [compareTo_eq_zero, zone.address]
  simp [defaultSubStr]

theorem Zone.new (data : α) : Zone (.new data) :=
  ⟨rfl, fun six => by cases six <;> exact wf_nil⟩

section Filing

variable (zone : Zone root) (six : Bool) (network : CidrAddress × α)
include zone

theorem Zone.added : Added network (filed six root) (filed six (fileNetwork rebalance six root network)) := by
  cases six with
  | true =>
    have wf : WF root.children6.toList := zone.wf true
    have fits : depthBelow root.children6 ≤ depthBelow root.children6 + depth (leaf network) := by omega
    exact addTo_added rebalance wf (zone.covers network.1) fits
  | false =>
    simp only [filed, childrenOf, fileNetwork, Bool.false_eq_true, if_false, SuperNode.add, NetworkNode.add, withChildren_children]
    have wf : WF root.node.children.toList := zone.wf false
    exact addTo_added rebalance wf (zone.covers network.1) (by omega)

omit zone in
theorem filed_other : filed (!six) (fileNetwork rebalance six root network) = filed (!six) root := by
  cases six <;> rfl

theorem Zone.file : Zone (fileNetwork rebalance six root network) := by
  refine ⟨?_, fun other => ?_⟩
  · rw [← zone.address]
    cases six with
    | true => rfl
    | false => simp [fileNetwork, SuperNode.add, NetworkNode.add]
  · by_cases same : other = six
    · subst same
      exact (zone.added rebalance other network).wf (zone.wf other)
    · rw [Bool.eq_not_of_ne same, filed_other]
      exact zone.wf _

omit zone in
theorem fileNetwork_data : (fileNetwork rebalance six root network).node.data = root.node.data := by
  cases six with
  | true => rfl
  | false => simp [fileNetwork, SuperNode.add, NetworkNode.add]

end Filing

section Lookup

variable (zone : Zone root) (ip : InetAddress)
include zone

theorem Zone.getNetwork_eq : root.getNetwork (ofAddress ip) =
    ((childrenOf ip.isInet6 root).get (compareToKey (ofAddress ip))).elim (some root.node)
      fun c => c.2.getNetwork (ofAddress ip) := by
  have family : (ofAddress ip).isIpV6 = ip.isInet6 := rfl
  rw [SuperNode.getNetwork, family]
  cases six : ip.isInet6 with
  | true =>
    rw [if_pos rfl, SuperNode.getNetwork6, childrenOf, if_pos rfl]
    cases root.children6.get (compareToKey (ofAddress ip)) <;> rfl
  | false =>
    rw [if_neg (by simp), NetworkNode.getNetwork_eq, if_neg (by simpa using zone.covers (ofAddress ip)), childrenOf,
      if_neg (by simp)]
    cases root.node.children.get (compareToKey (ofAddress ip)) <;> rfl

/-- The root answers for an address whose bits no network has. -/
theorem Zone.getNetwork_cases : ∃ found, root.getNetwork (ofAddress ip) = some found ∧
    (found = root.node ∧ ¬Meets (filed ip.isInet6 root) (ofAddress ip) ∨
      Occurs found.label (filed ip.isInet6 root) ∧ Meets (filed ip.isInet6 root) (ofAddress ip)) := by
  rw [zone.getNetwork_eq]
  cases hit : (childrenOf ip.isInet6 root).get (compareToKey (ofAddress ip)) with
  | none =>
    refine ⟨root.node, rfl, Or.inl ⟨rfl, ?_⟩⟩
    rintro ⟨x, occurs, overlap⟩
    exact (zone.wf ip.isInet6).get_miss_overlaps rfl hit occurs overlap
  | some c =>
    obtain ⟨member, overlap⟩ := (zone.wf ip.isInet6).get_hit rfl hit
    obtain ⟨found, result, occurs⟩ := (zone.wf ip.isInet6).getNetwork_occurs member (overlaps_comm.mp overlap)
    exact ⟨found, result, Or.inr ⟨occurs, c.2.label, .here member rfl, overlap⟩⟩

/-- Among networks that are no longer than the address the deepest answers. -/
theorem Zone.getNetwork_deepest
    (fits : ∀ x, Occurs x (filed ip.isInet6 root) → x.1.netmaskLength ≤ (ofAddress ip).netmaskLength) :
    ∃ found, root.getNetwork (ofAddress ip) = some found ∧
      (found = root.node ∧ (∀ x, Occurs x (filed ip.isInet6 root) → ¬(ofAddress ip).Within x.1) ∨
        Deepest (ofAddress ip) (filed ip.isInet6 root) found) := by
  rw [zone.getNetwork_eq]
  cases hit : (childrenOf ip.isInet6 root).get (compareToKey (ofAddress ip)) with
  | none => exact ⟨root.node, rfl, Or.inl ⟨rfl, fun x occurs => (zone.wf ip.isInet6).get_miss rfl hit occurs⟩⟩
  | some c =>
    obtain ⟨found, result, deepest⟩ := (zone.wf ip.isInet6).getNetwork_deepest fits rfl hit
    exact ⟨found, result, Or.inr deepest⟩

end Lookup

end Zones

section Specificity

variable (rebalance : SearchTree.Rebalance (ChildEntry α)) (rootData : α)

/-- What answers for the address afterwards is at least as long as before, and holds the address. -/
def Keeps (before after : SuperNode α) (ip : InetAddress) : Prop :=
  ∃ found found', before.getNetwork (ofAddress ip) = some found ∧ after.getNetwork (ofAddress ip) = some found' ∧
    found.cidrAddress.netmaskLength ≤ found'.cidrAddress.netmaskLength ∧ (ofAddress ip).Within found'.cidrAddress

/-- A network with the prefix of the new one and other host bits, and one inside it. -/
def LosesSubtree (entries : List (ChildEntry α)) (cidr : CidrAddress) : Prop :=
  ∃ x, Occurs x entries ∧ Displaced entries cidr x

/-- The networks of a zone are filed under their families. -/
structure Sorted (root : SuperNode α) : Prop extends Zone root where
  families : ∀ six, ∀ x, Occurs x (filed six root) → x.1.isIpV6 = six

theorem addNetwork_eq (root : SuperNode α) (network : CidrAddress × α) :
    addNetwork rebalance root network = fileNetwork rebalance network.1.isIpV6 root network := rfl

theorem Sorted.add {root : SuperNode α} (sorted : Sorted root) (network : CidrAddress × α) :
    Sorted (addNetwork rebalance root network) := by
  refine ⟨sorted.toZone.file rebalance _ network, fun six x occurs => ?_⟩
  rw [addNetwork_eq] at occurs
  by_cases same : six = network.1.isIpV6
  · subst same
    rcases (sorted.toZone.added rebalance _ network).occurs_only occurs with rfl | old
    · rfl
    · exact sorted.families _ x old
  · rw [Bool.eq_not_of_ne same, filed_other] at occurs
    rw [Bool.eq_not_of_ne same]
    exact sorted.families _ x occurs

theorem coverageZone_sorted (networks : List (CidrAddress × α)) : Sorted (coverageZone rebalance rootData networks) := by
  induction networks using List.reverseRecOn with
  | nil =>
    refine ⟨Zone.new rootData, fun six x occurs => ?_⟩
    rw [occurs_iff] at occurs
    obtain ⟨e, member, _⟩ := occurs
    cases six <;> cases member
  | append_singleton networks network ih =>
    rw [coverageZone, List.foldl_append]
    exact ih.add rebalance network

theorem Sorted.fits {root : SuperNode α} (sorted : Sorted root) (ip : InetAddress) :
    ∀ x, Occurs x (filed ip.isInet6 root) → x.1.netmaskLength ≤ (ofAddress ip).netmaskLength := by
  intro x occurs
  have family := sorted.families _ x occurs
  have range := x.1.valid
  have sizes := x.1.address.family
  have ipSizes := ip.family
  have sameSize : 4 < x.1.address.bytes.length ↔ 4 < ip.bytes.length := decide_eq_decide.mp family
  change x.1.netmaskLength ≤ 8 * ip.bytes.length
  omega

theorem within_root (ip : CidrAddress) {node : NetworkNode α} (address : node.cidrAddress = defaultSubStr) :
    ip.Within node.cidrAddress ∧ node.cidrAddress.netmaskLength = 0 := by
  rw [address]
  exact ⟨⟨Nat.zero_le _, fun i inside => absurd inside (Nat.not_lt_zero i)⟩, rfl⟩

section Step

variable {root : SuperNode α} {network : CidrAddress × α} (sorted : Sorted root)
include sorted

theorem Sorted.keeps (whole : ¬LosesSubtree (filed network.1.isIpV6 root) network.1) {ip : InetAddress}
    (family : ip.isInet6 = network.1.isIpV6) : Keeps root (addNetwork rebalance root network) ip := by
  have sorted' := sorted.add rebalance network
  have added := sorted.toZone.added rebalance network.1.isIpV6 network
  rw [← addNetwork_eq, ← family] at added
  rw [← family] at whole
  obtain ⟨found, before, position⟩ := sorted.toZone.getNetwork_deepest ip (sorted.fits ip)
  obtain ⟨found', after, position'⟩ := sorted'.toZone.getNetwork_deepest ip (sorted'.fits ip)
  have within : (ofAddress ip).Within found'.cidrAddress := by
    rcases position' with ⟨rfl, _⟩ | deepest
    · exact (within_root _ sorted'.address).1
    · exact deepest.2.1
  refine ⟨found, found', before, after, ?_, within⟩
  rcases position with ⟨rfl, _⟩ | ⟨occurs, inside, _⟩
  · rw [(within_root (ofAddress ip) sorted.address).2]
    exact Nat.zero_le _
  · rcases added.kept (sorted.wf _) occurs with ⟨y, present, same⟩ | displaced
    · have holds : (ofAddress ip).Within y.1 := within_trans inside (samePrefix_symm same).2
      rcases position' with ⟨_, nothing⟩ | ⟨_, _, longest⟩
      · exact absurd holds (nothing y present)
      · rcases longest y present holds with top | shorter
        · exact (same.1.symm.trans (congrArg (·.1.netmaskLength) top)).le
        · exact same.1.symm.le.trans shorter.le
    · exact absurd ⟨_, occurs, displaced⟩ whole

/-- An address of the lost subtree is then answered by a shorter network. -/
theorem Sorted.not_keeps (loses : LosesSubtree (filed network.1.isIpV6 root) network.1) :
    ∃ ip : InetAddress, ip.isInet6 = network.1.isIpV6 ∧ ¬Keeps root (addNetwork rebalance root network) ip := by
  obtain ⟨x, occurs, z, equal, same, different, inside⟩ := loses
  have family : x.1.address.isInet6 = network.1.isIpV6 := sorted.families _ x occurs
  refine ⟨x.1.address, family, ?_⟩
  rintro ⟨found, found', before, after, longer, _⟩
  have sorted' := sorted.add rebalance network
  have added := sorted.toZone.added rebalance network.1.isIpV6 network
  rw [← addNetwork_eq] at added
  obtain ⟨deep, result, position⟩ := sorted.toZone.getNetwork_deepest x.1.address (sorted.fits _)
  obtain ⟨deep', result', position'⟩ := sorted'.toZone.getNetwork_deepest x.1.address (sorted'.fits _)
  obtain rfl := Option.some.inj (before.symm.trans result)
  obtain rfl := Option.some.inj (after.symm.trans result')
  have own : (ofAddress x.1.address).Within x.1 := ⟨x.1.valid, fun _ _ => rfl⟩
  rw [family] at position position'
  have long : x.1.netmaskLength ≤ found.cidrAddress.netmaskLength := by
    rcases position with ⟨_, nothing⟩ | ⟨_, _, longest⟩
    · exact absurd own (nothing x occurs)
    · rcases longest x occurs own with top | shorter
      · exact (congrArg (·.1.netmaskLength) top).le
      · exact shorter.le
  have short : found'.cidrAddress.netmaskLength ≤ network.1.netmaskLength := by
    rcases position' with ⟨rfl, _⟩ | ⟨occurs', holds, _⟩
    · rw [(within_root network.1 sorted'.address).2]
      exact Nat.zero_le _
    · have within : (ofAddress x.1.address).Within network.1 := within_trans (within_trans own inside.2) same.2
      exact added.replaces (sorted.wf _) equal same different occurs' (overlaps_of_within_both holds within)
  have outer := inside.1
  have length := same.1
  omega

end Step

/-- An addition loses no specificity unless it takes the place of an equal network that has a subtree. -/
theorem addNetwork_keeps_iff (networks : List (CidrAddress × α)) (network : CidrAddress × α) :
    (∀ ip : InetAddress, ip.isInet6 = network.1.isIpV6 → Keeps (coverageZone rebalance rootData networks)
        (addNetwork rebalance (coverageZone rebalance rootData networks) network) ip) ↔
      ¬LosesSubtree (filed network.1.isIpV6 (coverageZone rebalance rootData networks)) network.1 := by
  have sorted := coverageZone_sorted rebalance rootData networks
  constructor
  · intro keeps loses
    obtain ⟨ip, family, shorter⟩ := sorted.not_keeps rebalance loses
    exact shorter (keeps ip family)
  · intro whole ip family
    exact sorted.keeps rebalance whole family

-- 10.1.0.0/16 lies in 10.0.0.0/8.
def nestedZone : SuperNode Nat :=
  coverageZone .none 0 [(⟨.ipv4 10 0 0 0, 8, by decide⟩, 1), (⟨.ipv4 10 1 0 0, 16, by decide⟩, 2)]

def hostBitsNetwork : CidrAddress × Nat := (⟨.ipv4 10 0 0 1, 8, by decide⟩, 3)

/-- 10.0.0.1/8 takes the place of 10.0.0.0/8, and the network below that is gone. -/
theorem not_keeps_hostBits : ¬Keeps nestedZone (addNetwork .none nestedZone hostBitsNetwork) (.ipv4 10 1 2 3) := by
  have before : nestedZone.getNetwork (ofAddress (.ipv4 10 1 2 3)) = some (leaf (⟨.ipv4 10 1 0 0, 16, by decide⟩, 2)) := by
    rw [SuperNode.getNetwork, if_neg (by decide), NetworkNode.getNetwork_eq, if_neg (by decide)]
    change NetworkNode.getNetwork (mk _ _ (.node _ .leaf (none, leaf _) .leaf)) _ = _
    rw [NetworkNode.getNetwork_eq, if_neg (by decide)]
    change NetworkNode.getNetwork (leaf _) _ = _
    rw [NetworkNode.getNetwork_eq, if_neg (by decide)]
    rfl
  have after : (addNetwork .none nestedZone hostBitsNetwork).getNetwork (ofAddress (.ipv4 10 1 2 3)) =
      some (leaf hostBitsNetwork) := by
    rw [SuperNode.getNetwork, if_neg (by decide), NetworkNode.getNetwork_eq, if_neg (by decide)]
    change NetworkNode.getNetwork (leaf hostBitsNetwork) _ = _
    rw [NetworkNode.getNetwork_eq, if_neg (by decide)]
    rfl
  rintro ⟨found, found', first, second, longer, _⟩
  rw [before] at first
  rw [after] at second
  rw [← Option.some.inj first, ← Option.some.inj second] at longer
  exact absurd longer (by decide)

end Specificity

end TrafficControl.TrafficRouter
