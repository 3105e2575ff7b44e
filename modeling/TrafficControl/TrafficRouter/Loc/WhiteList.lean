import TrafficControl.TrafficRouter.Loc.RedirectLoops
import TrafficControl.TrafficRouter.NetworkSpecificity

set_option autoImplicit false

namespace TrafficControl.TrafficRouter.RegionalGeo

open CidrAddress NetworkNode

variable (fromString : String → Option CidrAddress) (rebalance : SearchTree.Rebalance (ChildEntry (Option String)))

section Filing

/-- A subnet of one family that has the bits of the address, and whose text says another or the same. -/
def Filed (texts : List String) (colon six : Bool) (address : InetAddress) : Prop :=
  ∃ text ∈ texts, text.contains ':' = colon ∧ ∃ subnet, fromString text = some subnet ∧ subnet.isIpV6 = six ∧
    (ofAddress address).Overlaps subnet

/-- A listed subnet of the address's family contains the address. -/
def Listed (texts : List String) (address : InetAddress) : Prop :=
  ∃ text ∈ texts, ∃ subnet, fromString text = some subnet ∧ subnet.isIpV6 = address.isInet6 ∧ (ofAddress address).Within subnet

/-- The tree of the subnets that were read so far. -/
structure WhiteList (texts : List String) (root : SuperNode (Option String)) : Prop extends Zone root where
  unmarked : root.node.data = none
  marked : ∀ colon, ∀ x, Occurs x (filed colon root) → x.2 = some RegionalGeoRule.WHITE_LIST_NODE_LOCATION
  meets : ∀ colon cidr, Meets (filed colon root) cidr ↔
    ∃ text ∈ texts, text.contains ':' = colon ∧ ∃ subnet, fromString text = some subnet ∧ cidr.Overlaps subnet

variable {fromString} {texts : List String} {root : SuperNode (Option String)}

theorem WhiteList.new : WhiteList fromString [] (.new none) := by
  have nothing : ∀ colon x, ¬Occurs x (filed colon (SuperNode.new (none : Option String))) := by
    intro colon x occurs
    rw [occurs_iff] at occurs
    obtain ⟨e, member, _⟩ := occurs
    cases colon <;> cases member
  refine ⟨Zone.new none, rfl, fun colon x occurs => absurd occurs (nothing colon x), fun colon cidr => ?_⟩
  constructor
  · rintro ⟨x, occurs, _⟩
    exact absurd occurs (nothing colon x)
  · rintro ⟨_, member, _⟩
    cases member

theorem WhiteList.add (list : WhiteList fromString texts root) {text : String} {subnet : CidrAddress}
    (read : fromString text = some subnet) : WhiteList fromString (texts ++ [text])
      (fileNetwork rebalance (text.contains ':') root (subnet, some RegionalGeoRule.WHITE_LIST_NODE_LOCATION)) := by
  have zone := list.toZone
  refine ⟨zone.file rebalance _ _, (fileNetwork_data ..).trans list.unmarked, ?_, ?_⟩
  · intro colon x occurs
    by_cases same : colon = text.contains ':'
    · subst same
      rcases (zone.added rebalance _ _).occurs_only occurs with rfl | old
      · rfl
      · exact list.marked _ x old
    · rw [Bool.eq_not_of_ne same, filed_other] at occurs
      exact list.marked _ x occurs
  · intro colon cidr
    by_cases same : colon = text.contains ':'
    · subst same
      rw [(zone.added rebalance _ _).meets_iff (zone.wf _), list.meets]
      constructor
      · rintro (⟨other, member, filing⟩ | overlap)
        · exact ⟨other, List.mem_append_left _ member, filing⟩
        · exact ⟨text, List.mem_append_right _ (List.mem_singleton_self text), rfl, subnet, read, overlap⟩
      · rintro ⟨other, member, colon, subnet', read', overlap⟩
        rcases List.mem_append.mp member with old | new
        · exact Or.inl ⟨other, old, colon, subnet', read', overlap⟩
        · rw [List.mem_singleton.mp new, read] at read'
          rw [Option.some.inj read']
          exact Or.inr overlap
    · rw [Bool.eq_not_of_ne same, filed_other, list.meets]
      constructor
      · rintro ⟨other, member, filing⟩
        exact ⟨other, List.mem_append_left _ member, filing⟩
      · rintro ⟨other, member, colon, filing⟩
        rcases List.mem_append.mp member with old | new
        · exact ⟨other, old, colon, filing⟩
        · rw [List.mem_singleton.mp new] at colon
          simp at colon

theorem parseWhiteListJson_whiteList {json : JsonNode} (loaded : parseWhiteListJson fromString rebalance json = some root) :
    WhiteList fromString (json.elements.map JsonNode.asText) root := by
  have run : ∀ (items : List JsonNode) (read : List String) (start : SuperNode (Option String)), WhiteList fromString read start →
      items.foldlM (fun root subnetNode => do
        let subnet := subnetNode.asText
        let address ← fromString subnet
        let node := leaf (address, some RegionalGeoRule.WHITE_LIST_NODE_LOCATION)
        return if subnet.contains ':' then (root.add6 rebalance node).1 else (root.add rebalance node).1) start = some root →
      WhiteList fromString (read ++ items.map JsonNode.asText) root := by
    intro items
    induction items with
    | nil =>
      intro read start list done
      rw [List.map_nil, List.append_nil, ← Option.some.inj done]
      exact list
    | cons item items ih =>
      intro read start list done
      rw [List.foldlM_cons] at done
      obtain ⟨next, step, rest⟩ := Option.bind_eq_some_iff.mp done
      obtain ⟨subnet, parsed, filing⟩ := Option.bind_eq_some_iff.mp step
      rw [List.map_cons, List.append_cons]
      refine ih _ next ?_ rest
      rw [← Option.some.inj filing]
      exact list.add rebalance parsed
  exact run json.elements [] (.new none) .new loaded

end Filing

section Exactness

variable {fromString rebalance} {json : JsonNode} {root : SuperNode (Option String)} {rule : RegionalGeoRule} {ip : String}
  {address : InetAddress}

variable (loaded : parseWhiteListJson fromString rebalance json = some root) (owned : rule.whiteListRoot = some root)
  (client : fromString ip = some (ofAddress address))
include loaded owned client

/-- What has a colon in its text is looked up for an IPv6 client, and the rest for the others. -/
theorem isIpInWhiteList_filed : ∃ allowed, rule.isIpInWhiteList fromString ip = some allowed ∧
    (allowed = true ↔ Filed fromString (json.elements.map JsonNode.asText) address.isInet6 address.isInet6 address ∨
      Filed fromString (json.elements.map JsonNode.asText) address.isInet6 (!address.isInet6) address) := by
  have list := parseWhiteListJson_whiteList rebalance loaded
  obtain ⟨found, result, position⟩ := list.toZone.getNetwork_cases address
  have meets : Meets (filed address.isInet6 root) (ofAddress address) ↔
      Filed fromString (json.elements.map JsonNode.asText) address.isInet6 address.isInet6 address ∨
        Filed fromString (json.elements.map JsonNode.asText) address.isInet6 (!address.isInet6) address := by
    rw [list.meets]
    constructor
    · rintro ⟨text, member, colon, subnet, read, overlap⟩
      by_cases family : subnet.isIpV6 = address.isInet6
      · exact Or.inl ⟨text, member, colon, subnet, read, family, overlap⟩
      · exact Or.inr ⟨text, member, colon, subnet, read, Bool.eq_not_of_ne family, overlap⟩
    · rintro (⟨text, member, colon, subnet, read, _, overlap⟩ | ⟨text, member, colon, subnet, read, _, overlap⟩)
      · exact ⟨text, member, colon, subnet, read, overlap⟩
      · exact ⟨text, member, colon, subnet, read, overlap⟩
  have answer : rule.isIpInWhiteList fromString ip =
      some (found.data == some RegionalGeoRule.WHITE_LIST_NODE_LOCATION) := by
    unfold RegionalGeoRule.isIpInWhiteList
    rw [owned, client]
    simp only [result, Option.map_some]
  refine ⟨_, answer, ?_⟩
  rw [← meets]
  rcases position with ⟨rfl, nothing⟩ | ⟨occurs, holds⟩
  · rw [list.unmarked]
    exact iff_of_false (by decide) nothing
  · have mark : found.data = some RegionalGeoRule.WHITE_LIST_NODE_LOCATION := list.marked _ _ occurs
    rw [mark]
    exact iff_of_true (beq_self_eq_true _) holds

omit loaded owned client in
theorem within_iff {subnet : CidrAddress} (family : subnet.isIpV6 = address.isInet6) :
    (ofAddress address).Within subnet ↔ (ofAddress address).Overlaps subnet := by
  refine ⟨overlaps_of_within, fun overlap => within_of_overlaps overlap ?_⟩
  have range := subnet.valid
  have sizes := subnet.address.family
  have own := address.family
  have sameSize : 4 < subnet.address.bytes.length ↔ 4 < address.bytes.length := decide_eq_decide.mp family
  change subnet.netmaskLength ≤ 8 * address.bytes.length
  omega

omit loaded owned client in
theorem listed_iff (texts : List String) : Listed fromString texts address ↔
    Filed fromString texts address.isInet6 address.isInet6 address ∨
      Filed fromString texts (!address.isInet6) address.isInet6 address := by
  constructor
  · rintro ⟨text, member, subnet, read, family, within⟩
    have overlap := (within_iff family).mp within
    by_cases colon : text.contains ':' = address.isInet6
    · exact Or.inl ⟨text, member, colon, subnet, read, family, overlap⟩
    · exact Or.inr ⟨text, member, Bool.eq_not_of_ne colon, subnet, read, family, overlap⟩
  · rintro (⟨text, member, _, subnet, read, family, overlap⟩ | ⟨text, member, _, subnet, read, family, overlap⟩)
    · exact ⟨text, member, subnet, read, family, (within_iff family).mpr overlap⟩
    · exact ⟨text, member, subnet, read, family, (within_iff family).mpr overlap⟩

/-- The list is exact for a client that a well-filed subnet holds, or that is in a listed subnet filed with the other
family just when it has the bits of a subnet of the other family filed with its own. -/
theorem isIpInWhiteList_exact_iff :
    (rule.isIpInWhiteList fromString ip = some true ↔ Listed fromString (json.elements.map JsonNode.asText) address) ↔
      Filed fromString (json.elements.map JsonNode.asText) address.isInet6 address.isInet6 address ∨
        (Filed fromString (json.elements.map JsonNode.asText) (!address.isInet6) address.isInet6 address ↔
          Filed fromString (json.elements.map JsonNode.asText) address.isInet6 (!address.isInet6) address) := by
  obtain ⟨allowed, answer, allowed_iff⟩ := isIpInWhiteList_filed loaded owned client
  rw [answer, Option.some.injEq, allowed_iff, listed_iff]
  by_cases own : Filed fromString (json.elements.map JsonNode.asText) address.isInet6 address.isInet6 address
  · simp only [own, true_or]
  · simp only [own, false_or]
    exact Iff.comm

/-- With every text under the family of its subnet the list is exact for every client. -/
theorem isIpInWhiteList_exact (own : ∀ text ∈ json.elements.map JsonNode.asText, ∀ subnet, fromString text = some subnet →
    text.contains ':' = subnet.isIpV6) :
    rule.isIpInWhiteList fromString ip = some true ↔ Listed fromString (json.elements.map JsonNode.asText) address := by
  have filed_eq : ∀ colon six, Filed fromString (json.elements.map JsonNode.asText) colon six address → colon = six := by
    rintro colon six ⟨text, member, rfl, subnet, read, rfl, _⟩
    exact own text member subnet read
  rw [isIpInWhiteList_exact_iff loaded owned client]
  refine Or.inr (iff_of_false (fun filed => ?_) fun filed => ?_)
  · have same := filed_eq _ _ filed
    simp at same
  · have same := filed_eq _ _ filed
    simp at same

end Exactness

section Samples

-- An IPv4 address is meant by a text that maps it into IPv6.
def sampleFromString (text : String) : Option CidrAddress :=
  if text = "10.0.0.0/8" then ofNetmask (.ipv4 10 0 0 0) 8
  else if text = "2001:db8::/32" then ofNetmask ⟨[0x20, 0x01, 0x0d, 0xb8, 0, 0, 0, 0, 0, 0, 0, 0, 0, 0, 0, 0], Or.inr rfl⟩ 32
  else if text = "::ffff:10.0.0.5" ∨ text = "10.0.0.5" then some (ofAddress (.ipv4 10 0 0 5))
  else none

def sampleRule (root : SuperNode (Option String)) : RegionalGeoRule := ⟨"http://one/", .INCLUDE, ["K1A"], some root, "/two"⟩

theorem isIpInWhiteList_exact_iff_mixed : ∃ root,
    parseWhiteListJson sampleFromString .none (.array [.text "10.0.0.0/8", .text "2001:db8::/32"]) = some root ∧
    (((sampleRule root).isIpInWhiteList sampleFromString "10.0.0.5" = some true ↔
      Listed sampleFromString ["10.0.0.0/8", "2001:db8::/32"] (.ipv4 10 0 0 5)) ↔
      Filed sampleFromString ["10.0.0.0/8", "2001:db8::/32"] false false (.ipv4 10 0 0 5) ∨
        (Filed sampleFromString ["10.0.0.0/8", "2001:db8::/32"] true false (.ipv4 10 0 0 5) ↔
          Filed sampleFromString ["10.0.0.0/8", "2001:db8::/32"] false true (.ipv4 10 0 0 5))) :=
  ⟨_, rfl, @isIpInWhiteList_exact_iff sampleFromString .none (.array [.text "10.0.0.0/8", .text "2001:db8::/32"])
    _ _ _ _ rfl rfl rfl⟩

/-- The mapped address is filed with the IPv6 subnets, where no client at it is looked up. -/
theorem isIpInWhiteList_mapped : ∃ root,
    parseWhiteListJson sampleFromString .none (.array [.text "::ffff:10.0.0.5"]) = some root ∧
    Listed sampleFromString ["::ffff:10.0.0.5"] (.ipv4 10 0 0 5) ∧
    ¬(sampleRule root).isIpInWhiteList sampleFromString "10.0.0.5" = some true := by
  have listed : Listed sampleFromString ["::ffff:10.0.0.5"] (.ipv4 10 0 0 5) :=
    ⟨_, List.mem_singleton_self _, ofAddress (.ipv4 10 0 0 5), rfl, rfl, within_refl _⟩
  refine ⟨_, rfl, listed, fun allowed => ?_⟩
  obtain ⟨answer, result, filed⟩ := @isIpInWhiteList_filed sampleFromString .none (.array [.text "::ffff:10.0.0.5"])
    _ (sampleRule _) "10.0.0.5" (.ipv4 10 0 0 5) rfl rfl rfl
  have colon : ∀ six, ¬Filed sampleFromString ["::ffff:10.0.0.5"] false six (.ipv4 10 0 0 5) := by
    rintro six ⟨text, member, none, _⟩
    rw [List.mem_singleton.mp member] at none
    simp at none
  rw [result] at allowed
  exact (filed.mp (Option.some.inj allowed)).elim (colon _) (colon _)

end Samples

end TrafficControl.TrafficRouter.RegionalGeo
