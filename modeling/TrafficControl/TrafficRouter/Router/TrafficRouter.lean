import TrafficControl.Lib.Routine
import TrafficControl.TrafficRouter.Ds.DeliveryService
import TrafficControl.TrafficRouter.Ds.Steering
import TrafficControl.TrafficRouter.Loc.RegionalGeo
import TrafficControl.TrafficRouter.MatchSets

set_option autoImplicit false
set_option linter.dupNamespace false

namespace TrafficControl.TrafficRouter

inductive RoutingException where
  | nullPointerException
  | malformedURLException
  | geolocationException
  | arrayIndexOutOfBoundsException
  | illegalArgumentException
deriving DecidableEq

inductive ResultType where
  | ERROR
  | CZ
  | GEO
  | MISS
  | STATIC_ROUTE
  | DS_REDIRECT
  | DS_MISS
  | INIT
  | FED
  | RGDENY
  | RGALT
  | GEO_REDIRECT
  | DEEP_CZ
deriving DecidableEq

inductive ResultDetails where
  | NO_DETAILS
  | DS_NOT_FOUND
  | DS_TLS_MISMATCH
  | DS_NO_BYPASS
  | DS_BYPASS
  | DS_CZ_ONLY
  | DS_CLIENT_GEO_UNSUPPORTED
  | GEO_NO_CACHE_FOUND
  | REGIONAL_GEO_NO_RULE
  | REGIONAL_GEO_ALTERNATE_WITHOUT_CACHE
  | REGIONAL_GEO_ALTERNATE_WITH_CACHE
deriving DecidableEq

structure Track where
  fqdn : Option String
  result : ResultType
  resultDetails : Option ResultDetails
  resultLocation : Option Geolocation
  clientGeolocation : Option Geolocation
  isClientGeolocationQueried : Bool
  regionalGeoResult : Option RegionalGeoResult

-- A node of a coverage zone tree. Its cache location is in the memory.
structure NodeData where
  ref : NodeRef
  loc : Option String
  geolocation : Option Geolocation
  deepCacheNames : Option (List String)

-- What routing writes: the caches of the locations, the cache locations of the nodes, the track,
-- and how many shuffles were drawn.
structure Memory where
  caches : LocationRef → CacheMap
  cacheLocation : NodeRef → Option LocationRef
  track : Track
  draws : Nat

abbrev Routing := Routine RoutingException Memory

-- One DeliveryService object exists for each id.
structure CacheRegister where
  configuredLocations : AList fun _ : String => LocationRef
  allCaches : CacheMap
  dsMap : List String
  matchSets : MatchSets

abbrev GeolocationService := String → Except Unit (Option Geolocation)

-- The router with the objects it reads and what it calls outside: geolocation, the clock and the
-- random password behind `encryptedTrans`, `new URL`, `java.util.regex` (`engine` ignores case),
-- Jackson's `asInt`, `InetAddress`, and the comparison of two distances from a client.
structure TrafficRouter (α : Type) [LinearOrder α] where
  cacheRegister : CacheRegister
  cache : CacheRef → Cache α
  service : String → DeliveryService
  location : LocationRef → CacheLocation
  coverageZone : SuperNode NodeData
  deepCoverageZone : SuperNode NodeData
  steeringRegistry : AList fun _ : String => Steering α
  regionalGeo : RegionalGeo
  geolocationService : GeolocationService
  geolocationService6 : GeolocationService
  applicationContext : Option (String → Option GeolocationService)
  arithmetic : DoubleArithmetic α
  hashFunction : String → α
  rebalanceCaches : SearchTree.Rebalance (α × Cache α)
  rebalanceTargets : SearchTree.Rebalance (α × SteeringTarget α)
  shuffleCaches : Nat → Shuffle (Cache α)
  shuffleTargets : Nat → Shuffle (SteeringTarget α)
  engine : PatternEngine
  matchesCase : String → String → Bool
  caseFold : Char → Char
  notFarther : Geolocation → Geolocation → Geolocation → Bool
  fromString : String → Option CidrAddress
  acceptsUrl : String → Bool
  encryptedTrans : String → String → Option String
  asInt : JsonNode → Int

-- A non-null result of `selectCaches`; the code returns the list alone, without its location.
structure Selection (α : Type) [LinearOrder α] where
  location : LocationRef
  caches : List (Cache α)

-- A URL, and the cache of which location it was built from for which delivery service, if any.
structure RoutedUrl (α : Type) [LinearOrder α] where
  text : String
  origin : Option (DeliveryService × LocationRef × Cache α)

structure HTTPRouteResult (α : Type) [LinearOrder α] where
  urls : List (Option (RoutedUrl α))
  deliveryServices : List DeliveryService
  multiRouteRequest : Bool
  responseCode : Int

namespace HTTPRouteResult

variable {α : Type} [LinearOrder α]

def new (multiRouteRequest : Bool) : HTTPRouteResult α := ⟨[], [], multiRouteRequest, 0⟩

def addUrl (this : HTTPRouteResult α) (url : Option (RoutedUrl α)) : HTTPRouteResult α :=
  { this with urls := this.urls ++ [url] }

def setUrl (this : HTTPRouteResult α) (url : Option (RoutedUrl α)) : HTTPRouteResult α :=
  { this with urls := [url] }

def setDeliveryService (this : HTTPRouteResult α) (ds : DeliveryService) : HTTPRouteResult α :=
  { this with deliveryServices := [ds] }

end HTTPRouteResult

namespace TrafficRouter

open Routine

variable {α : Type} [LinearOrder α] (router : TrafficRouter α)

def nonNull {β : Type} : Option β → Routing β
  | none => throw .nullPointerException
  | some value => pure value

def updateTrack (change : Track → Track) : Routing Unit :=
  modifyState fun memory => { memory with track := change memory.track }

def setResult (result : ResultType) : Routing Unit := updateTrack fun track => { track with result }

def setResultDetails (details : ResultDetails) : Routing Unit :=
  updateTrack fun track => { track with resultDetails := some details }

def setResultLocation (location : LocationRef) : Routing Unit :=
  updateTrack fun track => { track with resultLocation := some (router.location location).geolocation }

section Register

def getCacheLocations : List LocationRef :=
  (router.cacheRegister.configuredLocations.entries.map (·.2)).eraseDupsBy fun a b =>
    (router.location a).id == (router.location b).id

def getCacheLocationById (id : String) : Option LocationRef :=
  (router.cacheRegister.configuredLocations.entries.map (·.2)).find? fun cacheLocation =>
    id == (router.location cacheLocation).id

def getDeliveryServiceById (deliveryServiceId : String) : Option DeliveryService :=
  if deliveryServiceId ∈ router.cacheRegister.dsMap then some (router.service deliveryServiceId) else none

def getDeliveryServiceFor (request : HTTPRequest) : Option DeliveryService :=
  (router.cacheRegister.matchSets.getDeliveryService router.engine (.http request) true).map router.service

def filterAvailableLocations (deliveryServiceId : String) : Option (List LocationRef) :=
  (router.getDeliveryServiceById deliveryServiceId).map fun deliveryService =>
    deliveryService.filterAvailableLocations router.location router.getCacheLocations

-- `replaceFirst("@.*", "")`; the dot stops at a line terminator.
def monitorCacheName (cacheName : String) : String :=
  let name := cacheName.toList
  String.ofList (name.takeWhile (· != '@') ++
    (name.dropWhile (· != '@')).dropWhile fun c => !RequestMatcher.lineTerminator c)

def markCache (cacheStates : JsonNode) (cache : CacheRef → Cache α) (entry : (_ : String) × CacheRef) :
    CacheRef → Cache α :=
  Function.update cache entry.2 ((cache entry.2).setState (cacheStates.get (monitorCacheName entry.1)))

-- `setState` of the router, for the caches and the delivery services of its register.
def setCacheStates (cacheStates : Option JsonNode) : TrafficRouter α :=
  match cacheStates with
  | none => router
  | some cacheStates =>
    { router with cache := router.cacheRegister.allCaches.entries.foldl (markCache cacheStates) router.cache }

def setDsStates (dsStates : Option JsonNode) : TrafficRouter α :=
  match dsStates with
  | none => router
  | some dsStates =>
    { router with service := fun id =>
        if id ∈ router.cacheRegister.dsMap then (router.service id).setState (dsStates.get id)
        else router.service id }

def setState (states : JsonNode) : TrafficRouter α :=
  (router.setCacheStates (states.get "caches")).setDsStates (states.get "deliveryServices")

end Register

section Locations

def getCaches (location : LocationRef) : Routing (List (Cache α)) := do
  let memory ← readState
  return (memory.caches location).entries.map fun entry => router.cache entry.2

def getSupportingCaches (caches : List (Cache α)) (ds : DeliveryService) : List (Cache α) :=
  caches.filter fun cache => cache.hasDeliveryService ds.id && (if cache.hasAuthority then cache.isAvailable else true)

def getLocation (clientIP : String) (ds : DeliveryService) : Routing (Option Geolocation) :=
  let customGeolocationService := router.applicationContext.bind fun getBean =>
    if ds.geolocationProvider = "" then none else getBean ds.geolocationProvider
  let geolocationService := customGeolocationService.getD
    (if clientIP.toList.contains ':' then router.geolocationService6 else router.geolocationService)
  match geolocationService clientIP with
  | .ok location => pure location
  | .error _ => throw .geolocationException

def orderCacheLocations (cacheLocations : List LocationRef) (clientLocation : Geolocation) : List LocationRef :=
  cacheLocations.insertionSort fun a b =>
    router.notFarther clientLocation (router.location a).geolocation (router.location b).geolocation

-- The two-argument `selectCaches`.
def selectCachesAt (location : LocationRef) (ds : DeliveryService) : Routing (Option (Selection α)) := do
  let caches := getSupportingCaches (← router.getCaches location) ds
  return if caches.isEmpty then none else some ⟨location, caches⟩

def getCachesByGeoFrom (ds : DeliveryService) (locationLimit : Int) :
    List LocationRef → Int → Routing (Option (Selection α))
  | [], _ => return none
  | location :: rest, locationsTested => do
    match ← router.selectCachesAt location ds with
    | some caches =>
      router.setResultLocation location
      return some caches
    | none =>
      let locationsTested := locationsTested + 1
      if locationLimit ≠ 0 ∧ locationLimit ≤ locationsTested then return none
      else getCachesByGeoFrom ds locationLimit rest locationsTested

def getCachesByGeo (ds : DeliveryService) (clientLocation : Geolocation) : Routing (Option (Selection α)) :=
  let cacheLocations1 := ds.filterAvailableLocations router.location router.getCacheLocations
  router.getCachesByGeoFrom ds ds.locationLimit (router.orderCacheLocations cacheLocations1 clientLocation) 0

def getNetworkNode (root : SuperNode NodeData) (ip : String) : Option NodeData :=
  (router.fromString ip).bind fun address => (root.getNetwork address).map (·.data)

-- A null delivery service is only looked into when there is a cache to check.
def hasSupportingCaches (cacheLocation : LocationRef) (deliveryService : Option DeliveryService) : Routing Bool := do
  let caches ← router.getCaches cacheLocation
  match deliveryService with
  | some deliveryService => return !(getSupportingCaches caches deliveryService).isEmpty
  | none => if caches.isEmpty then return false else throw .nullPointerException

def getClosestCacheLocationFrom (deliveryService : Option DeliveryService) :
    List LocationRef → Routing (Option LocationRef)
  | [] => return none
  | cacheLocation :: rest => do
    if ← router.hasSupportingCaches cacheLocation deliveryService then return some cacheLocation
    else getClosestCacheLocationFrom deliveryService rest

def getClosestCacheLocation (cacheLocations : Option (List LocationRef)) (clientLocation : Option Geolocation)
    (deliveryService : Option DeliveryService) : Routing (Option LocationRef) := do
  match clientLocation with
  | none => return none
  | some clientLocation =>
    let cacheLocations ← nonNull cacheLocations
    router.getClosestCacheLocationFrom deliveryService (router.orderCacheLocations cacheLocations clientLocation)

def loadDeepCaches (cacheLocation : LocationRef) (deepCacheNames : Option (List String)) : Routing Unit :=
  modifyState fun memory => { memory with
    caches := Function.update memory.caches cacheLocation
      (CacheLocation.loadDeepCaches (fun ref => (router.cache ref).id) (memory.caches cacheLocation) deepCacheNames
        router.cacheRegister.allCaches) }

def setCacheLocation (networkNode : NodeData) (cacheLocation : LocationRef) : Routing Unit :=
  modifyState fun memory => { memory with
    cacheLocation := Function.update memory.cacheLocation networkNode.ref (some cacheLocation) }

-- `getCoverageZoneCacheLocation` from the point where the node's own location did not do.
def findCacheLocation (networkNode : NodeData) (deliveryServiceId : String) : Routing (Option LocationRef) := do
  let deliveryService := router.getDeliveryServiceById deliveryServiceId
  match networkNode.loc with
  | none => return none
  | some loc =>
    match router.getCacheLocationById loc with
    | some cacheLocation =>
      if ← router.hasSupportingCaches cacheLocation deliveryService then
        setCacheLocation networkNode cacheLocation
        return some cacheLocation
      else
        router.getClosestCacheLocation (router.filterAvailableLocations deliveryServiceId) networkNode.geolocation
          deliveryService
    | none =>
      router.getClosestCacheLocation (router.filterAvailableLocations deliveryServiceId) networkNode.geolocation
        deliveryService

def getCoverageZoneCacheLocation (ip deliveryServiceId : String) (useDeep : Bool) :
    Routing (Option LocationRef) := do
  let root := if useDeep then router.deepCoverageZone else router.coverageZone
  match router.getNetworkNode root ip with
  | none => return none
  | some networkNode =>
    let cacheLocation := (← readState).cacheLocation networkNode.ref
    match cacheLocation with
    | some cacheLocation =>
      if useDeep then router.loadDeepCaches cacheLocation networkNode.deepCacheNames
      if ← router.hasSupportingCaches cacheLocation (router.getDeliveryServiceById deliveryServiceId) then
        return some cacheLocation
      else if useDeep then return none
      else router.findCacheLocation networkNode deliveryServiceId
    | none => if useDeep then return none else router.findCacheLocation networkNode deliveryServiceId

end Locations

end TrafficRouter

end TrafficControl.TrafficRouter
