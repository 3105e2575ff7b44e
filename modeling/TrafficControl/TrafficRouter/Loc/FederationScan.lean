import TrafficControl.Lib.ExceptList
import TrafficControl.Lib.FirstCome
import TrafficControl.TrafficRouter.Loc.Federation

set_option autoImplicit false

namespace TrafficControl.TrafficRouter.Loc

open CidrAddress FederationRegistry

section Definitions

variable (platform : Platform)

-- What a document configures, with the networks in the order they are listed.
structure MappingDefinition where
  cname : String
  ttl : Int
  resolve4 : List CidrAddress
  resolve6 : List CidrAddress

def listedAddresses (mapping : JsonNode) (key : String) : List CidrAddress :=
  ((mapping.get key).getD .null).elements.filterMap fun currNetwork =>
    (fromString platform currNetwork.asText).toOption

def mappingDefinition (mapping : JsonNode) : MappingDefinition where
  cname := ((mapping.get "cname").getD .null).asText
  ttl := platform.asInt ((mapping.get "ttl").getD .null)
  resolve4 := listedAddresses platform mapping "resolve4"
  resolve6 := listedAddresses platform mapping "resolve6"

-- The mappings of the first federation of a delivery service.
def mappingDefinitions (document : JsonNode) (deliveryServiceId : String) : List MappingDefinition :=
  match ((document.get "response").getD .null).elements.find? fun federation =>
    deliveryServiceId == ((federation.get "deliveryService").getD .null).asText with
  | none => []
  | some federation => ((federation.get "mappings").getD .null).elements.map (mappingDefinition platform)

end Definitions

namespace MappingDefinition

def record (this : MappingDefinition) : InetRecord := ⟨this.cname, this.ttl⟩

/-- A network of the client's family that contains the client is configured. -/
def Configured (client : InetAddress) (this : MappingDefinition) : Prop :=
  ∃ cidrAddress ∈ this.resolve4 ++ this.resolve6,
    cidrAddress.isIpV6 = client.isInet6 ∧ (ofAddress client).Within cidrAddress

def listedFor (client : InetAddress) (this : MappingDefinition) : List CidrAddress :=
  if client.isInet6 then this.resolve6 else this.resolve4

/-- The list for the client's family has a network that resolves the client, before which no
overlapping network that does not resolve it is listed. -/
def Unshadowed (client : InetAddress) (this : MappingDefinition) : Prop :=
  ∃ cidrAddress ∈ this.listedFor client, resolves (ofAddress client) cidrAddress ∧
    ∀ earlier ∈ (this.listedFor client).takeWhile (· ≠ cidrAddress),
      cidrAddress.compareTo earlier = 0 → resolves (ofAddress client) earlier

instance (client : InetAddress) : DecidablePred (Configured client) :=
  fun _ => inferInstanceAs (Decidable (∃ _ ∈ _, _))

instance (client : InetAddress) : DecidablePred (Unshadowed client) :=
  fun _ => inferInstanceAs (Decidable (∃ _ ∈ _, _))

end MappingDefinition

open MappingDefinition

/-- The naive scan: the first mapping with a network of the client's family that contains it. -/
def naiveInetRecords (platform : Platform) (document : JsonNode) (deliveryServiceId : String)
    (client : InetAddress) : Option (List InetRecord) :=
  ((mappingDefinitions platform document deliveryServiceId).find? fun mapping =>
    decide (Configured client mapping)).map fun mapping => [mapping.record]

/-- The first mapping that has something for the client has an unshadowed network, or a later
answer makes up for it. -/
def AnswersAlike (client : InetAddress) : List MappingDefinition → Prop
  | [] => True
  | mapping :: rest =>
    if Configured client mapping then
      Unshadowed client mapping ∨
        (rest.find? fun later => decide (Unshadowed client later)).map record = some mapping.record
    else if Unshadowed client mapping then
      (rest.find? fun later => decide (Configured client later)).map record = some mapping.record
    else AnswersAlike client rest

instance decidableAnswersAlike (client : InetAddress) : DecidablePred (AnswersAlike client)
  | [] => .isTrue trivial
  | mapping :: rest =>
    have := decidableAnswersAlike client rest
    inferInstanceAs (Decidable (if Configured client mapping then _ else if Unshadowed client mapping then _ else _))

theorem find_eq_iff_answersAlike (client : InetAddress) (mappings : List MappingDefinition) :
    (mappings.find? fun mapping => decide (Unshadowed client mapping)).map record =
        (mappings.find? fun mapping => decide (Configured client mapping)).map record ↔
      AnswersAlike client mappings := by
  induction mappings with
  | nil => simp [AnswersAlike]
  | cons mapping rest ih =>
    unfold AnswersAlike
    by_cases configured : Configured client mapping
    · by_cases unshadowed : Unshadowed client mapping
      · simp [configured, unshadowed]
      · simp [configured, unshadowed]
    · by_cases unshadowed : Unshadowed client mapping
      · simp only [configured, unshadowed, decide_true, decide_false, List.find?_cons_of_pos, List.find?_cons_of_neg,
          Bool.false_eq_true, not_false_eq_true, if_true, if_false, Option.map_some]
        exact eq_comm
      · simpa [configured, unshadowed] using ih

section Sets

variable (rebalance : SearchTree.Rebalance CidrAddress)

def Sorted (network : CidrSet) : Prop := network.toList.Pairwise fun a b => a.compareTo b < 0

theorem Sorted.splits {network : CidrSet} (sorted : Sorted network) (cidrAddress : CidrAddress) :
    SearchTree.Splits cidrAddress.compareTo network.toList := by
  refine SearchTree.splits_of_ordered _ _ _ sorted (fun a b before lower => compareTo_trans lower before) ?_
  intro a b before upper
  rw [compareTo_pos] at upper ⊢
  exact compareTo_trans before upper

theorem sorted_add {network : CidrSet} (sorted : Sorted network) (cidrAddress : CidrAddress) :
    Sorted (add rebalance network cidrAddress) ∧ ∀ other, other ∈ (add rebalance network cidrAddress).toList ↔
      other ∈ FirstCome.take (fun kept a => a.compareTo kept = 0) network.toList cidrAddress := by
  unfold Sorted add FirstCome.take
  rw [SearchTree.Rebalance.toList_put]
  split_ifs with met
  · obtain ⟨before, hit, after, split, _, result⟩ :=
      SearchTree.toList_put_present _ cidrAddress id network (sorted.splits cidrAddress) met
    rw [result, id, ← split]
    exact ⟨sorted, fun _ => Iff.rfl⟩
  · obtain ⟨before, after, split, result, low, high⟩ := SearchTree.toList_put_absent _ cidrAddress id network
      (sorted.splits cidrAddress) fun a member zero => met ⟨a, member, zero⟩
    rw [result]
    refine ⟨?_, fun other => ?_⟩
    · rw [Sorted, split] at sorted
      obtain ⟨beforeSorted, afterSorted, across⟩ := List.pairwise_append.mp sorted
      refine List.pairwise_append.mpr ⟨beforeSorted, List.pairwise_cons.mpr ⟨high, afterSorted⟩, ?_⟩
      intro a inBefore b inRest
      rcases List.mem_cons.mp inRest with rfl | inAfter
      · exact compareTo_pos.mp (low a inBefore)
      · exact across a inBefore b inAfter
    · simp only [split, List.mem_append, List.mem_cons, List.not_mem_nil, or_false]
      exact (or_congr_right or_comm).trans or_assoc.symm

/-- A set holds the networks that overlap none of those stored before them. -/
theorem sorted_foldl_add (listed : List CidrAddress) :
    Sorted (listed.foldl (add rebalance) .leaf) ∧ ∀ cidrAddress,
      cidrAddress ∈ (listed.foldl (add rebalance) .leaf).toList ↔
        cidrAddress ∈ FirstCome.keep (fun kept a => a.compareTo kept = 0) listed := by
  induction listed using List.reverseRecOn with
  | nil => exact ⟨.nil, fun _ => Iff.rfl⟩
  | append_singleton listed last ih =>
    obtain ⟨sorted, members⟩ := ih
    obtain ⟨sorted', members'⟩ := sorted_add rebalance sorted last
    rw [List.foldl_concat]
    refine ⟨sorted', fun cidrAddress => ?_⟩
    rw [members', FirstCome.keep_concat]
    simp only [FirstCome.mem_take, members]

theorem resolves_iff (client cidrAddress : CidrAddress) :
    resolves client cidrAddress = true ↔ cidrAddress = client ∨ client.Inside cidrAddress := by
  rw [resolves, Bool.or_eq_true, equals_iff, includesAddress_iff]

-- A network that overlaps one which resolves the client, but does not resolve it, lies inside it.
theorem resolves_inward (client a b k : CidrAddress) (resolvesA : resolves client a) (failsB : ¬resolves client b)
    (overlap : a.compareTo b = 0) (met : b.compareTo k = 0) : a.compareTo k = 0 := by
  rw [resolves_iff] at resolvesA failsB
  have inA : client.Within a := by
    rcases resolvesA with rfl | inside
    · exact within_refl a
    · exact inside.2
  have bInA : b.Within a := by
    rcases overlaps_cases ((compareTo_eq_zero a b).mp overlap) with aInB | same | bInA
    · exact absurd (Or.inr (inside_of_within inA aInB)) failsB
    · exact (samePrefix_symm same).2
    · exact bInA.2
  exact (compareTo_eq_zero a k).mpr (overlaps_outer bInA ((compareTo_eq_zero b k).mp met))

theorem any_resolves_iff (client : CidrAddress) (listed : List CidrAddress) :
    (listed.foldl (add rebalance) .leaf).toList.any (resolves client) = true ↔
      ∃ cidrAddress ∈ listed, resolves client cidrAddress ∧
        ∀ earlier ∈ listed.takeWhile (· ≠ cidrAddress),
          cidrAddress.compareTo earlier = 0 → resolves client earlier := by
  rw [← FirstCome.exists_kept_iff (resolves_inward client), List.any_eq_true]
  simp only [(sorted_foldl_add rebalance listed).2]

end Sets

section Built

variable {platform : Platform} {rebalance : SearchTree.Rebalance CidrAddress}

theorem foldlM_addNetwork {networks : List JsonNode} {start network : CidrSet}
    (built : networks.foldlM (addNetwork platform rebalance) start = .ok network) :
    network = (networks.filterMap fun currNetwork =>
      (fromString platform currNetwork.asText).toOption).foldl (add rebalance) start := by
  induction networks generalizing start with
  | nil => exact (Except.ok.inj built).symm
  | cons first rest ih =>
    rw [List.foldlM_cons] at built
    obtain ⟨next, added, rest⟩ := ExceptList.bind_ok built
    rw [List.filterMap_cons]
    unfold addNetwork at added
    split at added
    next cidrAddress read =>
      cases added
      rw [read]
      exact ih rest
    next read =>
      cases added
      rw [read]
      exact ih rest
    next => cases added

theorem buildNetwork_listed {mapping : JsonNode} {key : String} {network : CidrSet}
    (built : buildNetwork platform rebalance mapping key = .ok network) :
    network.toList = ((listedAddresses platform mapping key).foldl (add rebalance) .leaf).toList := by
  unfold buildNetwork at built
  unfold listedAddresses
  split at built
  next absent =>
    cases built
    rw [absent]
    rfl
  next networkList present =>
    rw [present, Option.getD_some]
    obtain ⟨copied, read, rfl⟩ := ExceptList.map_ok built
    rw [← foldlM_addNetwork read]
    exact rebalance.toList_run _ _

-- A mapping as its definition says, but for the networks its sets drop.
structure Built (rebalance : SearchTree.Rebalance CidrAddress) (definition : MappingDefinition)
    (mapping : FederationMapping) : Prop where
  cname : mapping.cname = definition.cname
  ttl : mapping.ttl = definition.ttl
  resolve4 : mapping.resolve4.toList = (definition.resolve4.foldl (add rebalance) .leaf).toList
  resolve6 : mapping.resolve6.toList = (definition.resolve6.foldl (add rebalance) .leaf).toList

theorem getJsonNode_ok {node value : JsonNode} {key : String}
    (read : (JsonUtils.getJsonNode node key).mapError FederationException.configException = .ok value) :
    (node.get key).getD .null = value := by
  have found := ExceptList.mapError_ok read
  unfold JsonUtils.getJsonNode at found
  split at found
  next => cases found
  next present =>
    cases found
    rw [present, Option.getD_some]

theorem getString_ok {node : JsonNode} {key text : String}
    (read : (JsonUtils.getString node key).mapError FederationException.configException = .ok text) :
    ((node.get key).getD .null).asText = text := by
  obtain ⟨value, found, rfl⟩ := ExceptList.map_ok (ExceptList.mapError_ok read)
  rw [getJsonNode_ok (congrArg (Except.mapError FederationException.configException) found)]

theorem fromJSON_built {jsonNode : JsonNode} {mapping : FederationMapping}
    (built : FederationMappingBuilder.fromJSON platform rebalance jsonNode = .ok mapping) :
    Built rebalance (mappingDefinition platform jsonNode) mapping := by
  obtain ⟨cname, cnameRead, built⟩ := ExceptList.bind_ok built
  obtain ⟨ttl, ttlRead, built⟩ := ExceptList.bind_ok built
  obtain ⟨network, networkBuilt, built⟩ := ExceptList.bind_ok built
  obtain ⟨network6, network6Built, built⟩ := ExceptList.bind_ok built
  cases built
  constructor
  · exact (getString_ok cnameRead).symm
  · exact congrArg platform.asInt (getJsonNode_ok ttlRead).symm
  · exact (rebalance.toList_run _ _).trans (buildNetwork_listed networkBuilt)
  · exact (rebalance.toList_run _ _).trans (buildNetwork_listed network6Built)

structure BuiltFederation (platform : Platform) (rebalance : SearchTree.Rebalance CidrAddress)
    (definition : JsonNode) (federation : Federation) : Prop where
  deliveryService : ((definition.get "deliveryService").getD .null).asText = federation.deliveryService
  mappings : List.Forall₂ (Built rebalance)
    (((definition.get "mappings").getD .null).elements.map (mappingDefinition platform)) federation.federationMappings

theorem buildFederation_built {currFederation : JsonNode} {federation : Federation}
    (built : buildFederation platform rebalance currFederation = .ok federation) :
    BuiltFederation platform rebalance currFederation federation := by
  obtain ⟨deliveryService, serviceRead, built⟩ := ExceptList.bind_ok built
  obtain ⟨mappingsList, listRead, built⟩ := ExceptList.bind_ok built
  obtain ⟨mappings, mappingsRead, built⟩ := ExceptList.bind_ok built
  cases built
  refine ⟨getString_ok serviceRead, ?_⟩
  rw [getJsonNode_ok listRead, List.forall₂_map_left_iff]
  exact (ExceptList.mapM_ok_forall₂ mappingsRead).imp fun _ _ => fromJSON_built

-- The mappings that a lookup for the delivery service goes through.
def targetMappings (federations : List Federation) (deliveryServiceId : String) : List FederationMapping :=
  match federations.find? fun federation => deliveryServiceId == federation.deliveryService with
  | none => []
  | some federation => federation.federationMappings

theorem targetMappings_built {document : JsonNode} {federations : List Federation}
    (built : FederationsBuilder.fromJSON platform rebalance document = .ok federations) (deliveryServiceId : String) :
    List.Forall₂ (Built rebalance) (mappingDefinitions platform document deliveryServiceId)
      (targetMappings federations deliveryServiceId) := by
  obtain ⟨federationList, found, built⟩ := ExceptList.bind_ok built
  have relation := (ExceptList.mapM_ok_forall₂ built).imp fun _ _ => buildFederation_built
  have alike (definition : JsonNode) (federation : Federation)
      (same : BuiltFederation platform rebalance definition federation) :
      (deliveryServiceId == ((definition.get "deliveryService").getD .null).asText) =
        (deliveryServiceId == federation.deliveryService) := by
    rw [same.deliveryService]
  have target := ExceptList.find_forall₂ relation alike
  unfold mappingDefinitions targetMappings
  rw [getJsonNode_ok found]
  generalize federationList.elements.find? _ = definition at target
  generalize federations.find? _ = federation at target
  cases target with
  | none => exact .nil
  | some same => exact same.mappings

theorem findInetRecords_targetMappings (federations : List Federation) (deliveryServiceId : String)
    (cidrAddress : CidrAddress) :
    findInetRecords federations deliveryServiceId cidrAddress =
      ((targetMappings federations deliveryServiceId).find? fun federationMapping =>
        (federationMapping.getResolveAddresses cidrAddress).toList.any (resolves cidrAddress)).map createInetRecords := by
  unfold findInetRecords targetMappings
  cases federations.find? _ <;> rfl

theorem Built.resolves_iff {definition : MappingDefinition} {mapping : FederationMapping}
    (built : Built rebalance definition mapping) (client : InetAddress) :
    (mapping.getResolveAddresses (ofAddress client)).toList.any (resolves (ofAddress client)) =
      decide (Unshadowed client definition) := by
  have family : (ofAddress client).isIpV6 = client.isInet6 := rfl
  have stored : (mapping.getResolveAddresses (ofAddress client)).toList =
      ((definition.listedFor client).foldl (add rebalance) .leaf).toList := by
    unfold FederationMapping.getResolveAddresses listedFor
    rw [family]
    split_ifs
    · exact built.resolve6
    · exact built.resolve4
  rw [stored, Bool.eq_iff_iff, decide_eq_true_iff]
  exact any_resolves_iff rebalance (ofAddress client) (definition.listedFor client)

/-- The lookup answers with the first mapping that has an unshadowed network. -/
theorem findInetRecords_unshadowed {document : JsonNode} {federations : List Federation}
    (built : FederationsBuilder.fromJSON platform rebalance document = .ok federations) (deliveryServiceId : String)
    (client : InetAddress) :
    findInetRecords federations deliveryServiceId (ofAddress client) =
      ((mappingDefinitions platform document deliveryServiceId).find? fun mapping =>
        decide (Unshadowed client mapping)).map fun mapping => [mapping.record] := by
  have found := ExceptList.find_forall₂ (targetMappings_built built deliveryServiceId)
    fun definition mapping same => (same.resolves_iff client).symm
  rw [findInetRecords_targetMappings]
  generalize (mappingDefinitions platform document deliveryServiceId).find? _ = first at found
  generalize (targetMappings federations deliveryServiceId).find? _ = answer at found
  cases found with
  | none => rfl
  | some same => simp [createInetRecords, record, same.cname, same.ttl]

/-- The lookup answers as the naive scan does just when the mappings answer alike. -/
theorem findInetRecords_naive_iff {document : JsonNode} {federations : List Federation}
    (built : FederationsBuilder.fromJSON platform rebalance document = .ok federations) (deliveryServiceId : String)
    (client : InetAddress) :
    findInetRecords federations deliveryServiceId (ofAddress client) =
        naiveInetRecords platform document deliveryServiceId client ↔
      AnswersAlike client (mappingDefinitions platform document deliveryServiceId) := by
  rw [findInetRecords_unshadowed built, naiveInetRecords, ← find_eq_iff_answersAlike]
  have single : (fun mapping : MappingDefinition => [mapping.record]) = (fun r => [r]) ∘ record := rfl
  have injective : Function.Injective fun r : InetRecord => [r] := fun a b same => List.head_eq_of_cons_eq same
  rw [single, ← Option.map_map, ← Option.map_map]
  exact (Option.map_injective injective).eq_iff

def decimalPlatform : Platform where
  getByName host :=
    if host = "10.0.0.0" then some (.ipv4 10 0 0 0)
    else if host = "10.1.2.0" then some (.ipv4 10 1 2 0)
    else none
  digit c := if c.isDigit then some (c.toNat - '0'.toNat) else none
  asInt node := if node.asText = "60" then 60 else 0

def oneMapping (networks : List String) : JsonNode :=
  .object [("response", .array [.object [
    ("deliveryService", .text "video"),
    ("mappings", .array [.object [
      ("cname", .text "partner.example."), ("ttl", .number "60"),
      ("resolve4", .array (networks.map .text))]])]])]

theorem findInetRecords_naive_iff_outerFirst : ∃ federations,
    FederationsBuilder.fromJSON decimalPlatform .none (oneMapping ["10.0.0.0/8", "10.1.2.0/24"]) = .ok federations ∧
      findInetRecords federations "video" (ofAddress (.ipv4 10 9 9 9)) =
        naiveInetRecords decimalPlatform (oneMapping ["10.0.0.0/8", "10.1.2.0/24"]) "video" (.ipv4 10 9 9 9) := by
  refine ⟨_, rfl, ?_⟩
  exact (findInetRecords_naive_iff rfl "video" (.ipv4 10 9 9 9)).mpr (by decide)

/-- The wider network is dropped after the narrower one, and its clients find no mapping. -/
theorem findInetRecords_innerFirst : ∃ federations,
    FederationsBuilder.fromJSON decimalPlatform .none (oneMapping ["10.1.2.0/24", "10.0.0.0/8"]) = .ok federations ∧
      findInetRecords federations "video" (ofAddress (.ipv4 10 9 9 9)) = none ∧
      naiveInetRecords decimalPlatform (oneMapping ["10.1.2.0/24", "10.0.0.0/8"]) "video" (.ipv4 10 9 9 9) =
        some [⟨"partner.example.", 60⟩] :=
  ⟨_, rfl, by decide, by decide⟩

end Built

end TrafficControl.TrafficRouter.Loc
