import Mathlib.Data.List.DropRight
import TrafficControl.Lib.SearchTree
import TrafficControl.TrafficRouter.CidrAddress
import TrafficControl.TrafficRouter.JsonUtils

set_option autoImplicit false

namespace TrafficControl.TrafficRouter.Loc

-- What reading a network or a number asks of the platform: `InetAddress.getByName`,
-- `Character.digit(c, 10)` and Jackson's `asInt`.
structure Platform where
  getByName : String → Option InetAddress
  digit : Char → Option Nat
  asInt : JsonNode → Int

inductive FederationException where
  | configException (cause : ConfigException)
  | networkNodeException
  | arrayIndexOutOfBoundsException
deriving DecidableEq

section Parsing

variable (platform : Platform)

-- `Integer.parseInt`.
def parseInt (s : List Char) : Option Int :=
  let (negative, digits) := match s with
    | '-' :: rest => (true, rest)
    | '+' :: rest => (false, rest)
    | _ => (false, s)
  if digits.isEmpty then none
  else
    (digits.mapM platform.digit).bind fun digits =>
      let result : Nat := digits.foldl (fun result digit => 10 * result + digit) 0
      let signed : Int := if negative then -result else result
      if -2 ^ 31 ≤ signed ∧ signed < 2 ^ 31 then some signed else none

-- `split("/")`: trailing empty pieces are dropped, unless there is no slash at all.
def splitSlash (cidrString : List Char) : List (List Char) :=
  if '/' ∈ cidrString then (cidrString.splitOn '/').rdropWhile List.isEmpty else [cidrString]

def fromString (cidrString : String) : Except FederationException CidrAddress :=
  match splitSlash cidrString.toList with
  | [] => .error .arrayIndexOutOfBoundsException
  | host :: rest =>
    match platform.getByName (String.ofList (JsonNode.trim host)), rest with
    | none, _ => .error .networkNodeException
    | some address, [] => .ok (.ofAddress address)
    | some address, netmask :: _ =>
      match (parseInt platform (JsonNode.trim netmask)).bind (CidrAddress.ofNetmask address) with
      | none => .error .networkNodeException
      | some cidrAddress => .ok cidrAddress

end Parsing

-- A `ComparableTreeSet<CidrAddress>`.
abbrev CidrSet := SearchTree CidrAddress

-- The records of a federation are aliases; their ttl is any int.
structure InetRecord where
  aliasName : String
  ttl : Int
deriving DecidableEq

structure FederationMapping where
  cname : String
  ttl : Int
  resolve4 : CidrSet
  resolve6 : CidrSet

structure Federation where
  deliveryService : String
  federationMappings : List FederationMapping

section Builder

variable (platform : Platform) (rebalance : SearchTree.Rebalance CidrAddress)

-- `TreeSet.add` keeps the element that compares equal.
def add (network : CidrSet) (cidrAddress : CidrAddress) : CidrSet :=
  rebalance.put cidrAddress.compareTo cidrAddress id network

-- `addAll` of a sorted set to an empty one takes its elements over in their order.
def addAll (network : CidrSet) : CidrSet := rebalance.run .leaf network

-- An address that cannot be read is logged and left out.
def addNetwork (network : CidrSet) (currNetwork : JsonNode) : Except FederationException CidrSet :=
  match fromString platform currNetwork.asText with
  | .ok cidrAddress => .ok (add rebalance network cidrAddress)
  | .error .networkNodeException => .ok network
  | .error e => .error e

def buildAddresses (networkArray : JsonNode) : Except FederationException CidrSet :=
  networkArray.elements.foldlM (addNetwork platform rebalance) .leaf

def FederationMapping.new (cname : String) (ttl : Int) (resolve4 resolve6 : CidrSet) : FederationMapping :=
  ⟨cname, ttl, addAll rebalance resolve4, addAll rebalance resolve6⟩

def buildNetwork (jsonNode : JsonNode) (key : String) : Except FederationException CidrSet :=
  match jsonNode.get key with
  | none => .ok .leaf
  | some networkList => (buildAddresses platform rebalance networkList).map (addAll rebalance)

-- The text of a mapping is written and read again in between, which gives the same tree.
def FederationMappingBuilder.fromJSON (jsonNode : JsonNode) : Except FederationException FederationMapping := do
  let cname ← (JsonUtils.getString jsonNode "cname").mapError .configException
  let ttl ← (JsonUtils.getJsonNode jsonNode "ttl").mapError .configException
  let network ← buildNetwork platform rebalance jsonNode "resolve4"
  let network6 ← buildNetwork platform rebalance jsonNode "resolve6"
  return FederationMapping.new rebalance cname (platform.asInt ttl) network network6

def buildFederation (currFederation : JsonNode) : Except FederationException Federation := do
  let deliveryService ← (JsonUtils.getString currFederation "deliveryService").mapError .configException
  let mappingsList ← (JsonUtils.getJsonNode currFederation "mappings").mapError .configException
  let mappings ← mappingsList.elements.mapM (FederationMappingBuilder.fromJSON platform rebalance)
  return ⟨deliveryService, mappings⟩

def FederationsBuilder.fromJSON (jsonObject : JsonNode) : Except FederationException (List Federation) := do
  let federationList ← (JsonUtils.getJsonNode jsonObject "response").mapError .configException
  federationList.elements.mapM (buildFederation platform rebalance)

end Builder

namespace FederationMapping

def getResolveAddresses (this : FederationMapping) (cidrAddress : CidrAddress) : CidrSet :=
  if cidrAddress.isIpV6 then this.resolve6 else this.resolve4

end FederationMapping

namespace FederationRegistry

def createInetRecords (federationMapping : FederationMapping) : List InetRecord :=
  [⟨federationMapping.cname, federationMapping.ttl⟩]

-- The test that the lookup makes of a resolver's network.
def resolves (cidrAddress resolverAddress : CidrAddress) : Bool :=
  resolverAddress.equals cidrAddress || resolverAddress.includesAddress cidrAddress

def findInetRecords (federations : List Federation) (deliveryServiceId : String) (cidrAddress : CidrAddress) :
    Option (List InetRecord) :=
  match federations.find? fun federation => deliveryServiceId == federation.deliveryService with
  | none => none
  | some targetFederation =>
    (targetFederation.federationMappings.find? fun federationMapping =>
      (federationMapping.getResolveAddresses cidrAddress).toList.any (resolves cidrAddress)).map createInetRecords

end FederationRegistry

end TrafficControl.TrafficRouter.Loc
