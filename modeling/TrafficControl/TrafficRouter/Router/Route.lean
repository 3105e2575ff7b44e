import TrafficControl.TrafficRouter.Router.TrafficRouter

set_option autoImplicit false
set_option linter.dupNamespace false

namespace TrafficControl.TrafficRouter.TrafficRouter

open Routine

variable {α : Type} [LinearOrder α] (router : TrafficRouter α)

section Selecting

def selectCachesByCZ (ds : DeliveryService) (cacheLocation : Option LocationRef) (result : ResultType) :
    Routing (Option (Selection α)) := do
  match cacheLocation with
  | none => return none
  | some cacheLocation =>
    if !ds.isLocationAvailable (router.location cacheLocation) then return none
    else
      match ← router.selectCachesAt cacheLocation ds with
      | none => return none
      | some caches =>
        setResult result
        router.setResultLocation cacheLocation
        return some caches

def getClientGeolocation (clientIp : String) (deliveryService : DeliveryService) : Routing (Option Geolocation) := do
  let track := (← readState).track
  if track.isClientGeolocationQueried then return track.clientGeolocation
  else
    let clientGeolocation ← router.getLocation clientIp deliveryService
    updateTrack fun track => { track with clientGeolocation, isClientGeolocationQueried := true }
    return clientGeolocation

def getClientLocation (clientIp : String) (ds : DeliveryService) (cacheLocation : Option LocationRef) :
    Routing (Option Geolocation) := do
  match cacheLocation with
  | some cacheLocation => return some (router.location cacheLocation).geolocation
  | none =>
    let clientGeolocation ← router.getClientGeolocation clientIp ds
    return ds.supportLocation router.caseFold clientGeolocation

-- `try … catch (GeolocationException e)` around a lookup that leaves null behind.
def orNull (lookup : Routing (Option Geolocation)) : Routing (Option Geolocation) :=
  recover lookup (· == .geolocationException) (return none)

def redirectLocation (ds : DeliveryService) (clientIp : String) (queriedClientLocation : Option Geolocation) :
    Routing (Option Geolocation) :=
  match queriedClientLocation with
  | some location => return some location
  | none => do return (← orNull (router.getLocation clientIp ds)).or ds.missLocation

def enforceGeoRedirect (ds : DeliveryService) (clientIp : String) (queriedClientLocation : Option Geolocation) :
    Routing (Option (Selection α)) := do
  let urlType := ds.geoRedirectUrlType
  setResult .GEO_REDIRECT
  if urlType = "NOT_DS_URL" then return none
  else if urlType ≠ "DS_URL" then
    setResult .MISS
    setResultDetails .GEO_NO_CACHE_FOUND
    return none
  else
    match ← router.redirectLocation ds clientIp queriedClientLocation with
    | none =>
      setResult .MISS
      setResultDetails .DS_CLIENT_GEO_UNSUPPORTED
      return none
    | some clientLocation =>
      match ← router.getCachesByGeo ds clientLocation with
      | some caches => return some caches
      | none =>
        setResult .MISS
        setResultDetails .GEO_NO_CACHE_FOUND
        return none

def selectCachesByGeo (clientIp : String) (deliveryService : DeliveryService) (cacheLocation : Option LocationRef) :
    Routing (Option (Selection α)) := do
  match ← orNull (router.getClientLocation clientIp deliveryService cacheLocation) with
  | none =>
    if deliveryService.geoRedirectUrl.isSome then
      let track := (← readState).track
      router.enforceGeoRedirect deliveryService clientIp track.clientGeolocation
    else
      setResultDetails .DS_CLIENT_GEO_UNSUPPORTED
      return none
  | some clientLocation =>
    let caches ← router.getCachesByGeo deliveryService clientLocation
    if caches.all fun caches => caches.caches.isEmpty then setResultDetails .GEO_NO_CACHE_FOUND
    setResult .GEO
    return caches

def selectCoverageZone (request : HTTPRequest) (ds : DeliveryService) :
    Routing (Option LocationRef × ResultType) := do
  let regular : Routing (Option LocationRef × ResultType) := do
    return (← router.getCoverageZoneCacheLocation request.clientIP ds.id false, .CZ)
  if ds.deepCache = .ALWAYS then
    match ← router.getCoverageZoneCacheLocation request.clientIP ds.id true with
    | some cacheLocation =>
      if (← router.getCaches cacheLocation).isEmpty then regular else return (some cacheLocation, .DEEP_CZ)
    | none => regular
  else regular

def selectCaches (request : HTTPRequest) (ds : DeliveryService) : Routing (Option (Selection α)) := do
  let (cacheLocation, result) ← router.selectCoverageZone request ds
  match ← router.selectCachesByCZ ds cacheLocation result with
  | some caches => return some caches
  | none =>
    if ds.coverageZoneOnly then
      if ds.geoRedirectUrl.isSome then router.enforceGeoRedirect ds request.clientIP none
      else
        setResult .MISS
        setResultDetails .DS_CZ_ONLY
        return none
    else router.selectCachesByGeo request.clientIP ds cacheLocation

-- `consistentHasher.selectHashable`, with the next draw for its shuffle.
def selectCache (caches : List (Cache α)) (dispersion : Dispersion) (path : Option String) :
    Routing (Option (Cache α)) := do
  let s ← nonNull path
  let draw := (← readState).draws
  modifyState fun memory => { memory with draws := draw + 1 }
  return ConsistentHasher.selectHashable router.arithmetic router.rebalanceCaches router.hashFunction
    (router.shuffleCaches draw) caches (some dispersion) s

def selectTarget (targets : List (SteeringTarget α)) (dispersion : Dispersion) (path : String) :
    Routing (Option (SteeringTarget α)) := do
  let draw := (← readState).draws
  modifyState fun memory => { memory with draws := draw + 1 }
  return ConsistentHasher.selectHashable router.arithmetic router.rebalanceTargets router.hashFunction
    (router.shuffleTargets draw) targets (some dispersion) path

end Selecting

section Urls

def newURL (text : String) (origin : Option (DeliveryService × LocationRef × Cache α)) : Routing (RoutedUrl α) :=
  if router.acceptsUrl text then pure ⟨text, origin⟩ else throw .malformedURLException

-- `split("\\.", 2)`: the part before the first dot, and the part behind it if there is a dot.
def splitAtDot (name : String) : String × Option String :=
  match name.toList.dropWhile (· != '.') with
  | [] => (name, none)
  | _ :: rest => (String.ofList (name.toList.takeWhile (· != '.')), some (String.ofList rest))

def getFQDN (ds : DeliveryService) (cache : Cache α) (request : HTTPRequest) : Routing String := do
  match cache.deliveryServices.lookup ds.id with
  | some fqdn => return fqdn
  | none =>
    let hostname ← nonNull request.hostname
    match (splitAtDot hostname).2 with
    | none => throw .arrayIndexOutOfBoundsException
    | some domain => return (splitAtDot cache.fqdn).1 ++ "." ++ domain

def getTransInfoStr (ds : DeliveryService) (request : HTTPRequest) : Routing (Option String) := do
  let type ← nonNull ds.transInfoType
  if type = "NONE" then return none
  else if type = "IP" ∨ type = "IP_TID" then return router.encryptedTrans type request.clientIP
  else throw .illegalArgumentException

-- `new URL(deliveryService.createURIString(request, cache))` for a cache of a selection.
def createCacheURL (ds : DeliveryService) (request : HTTPRequest) (location : LocationRef)
    (cache : Option (Cache α)) : Routing (RoutedUrl α) := do
  let cache ← nonNull cache
  let fqdn ← getFQDN ds cache request
  let port := if ds.useSecure request then cache.httpsPort else cache.port
  let text := ds.createURIString request fqdn port (← router.getTransInfoStr ds request)
  router.newURL text (some (ds, location, cache))

def createAlternateURL (ds : DeliveryService) (request : HTTPRequest) (alternatePath : String)
    (location : LocationRef) (cache : Option (Cache α)) : Routing (RoutedUrl α) := do
  let cache ← nonNull cache
  let fqdn ← getFQDN ds cache request
  let port := if ds.useSecure request then cache.httpsPort else cache.port
  router.newURL (ds.scheme request ++ fqdn ++ ds.getPortString request port ++ alternatePath)
    (some (ds, location, cache))

def getFailureHttpResponse (ds : DeliveryService) (request : HTTPRequest) : Routing (Option (RoutedUrl α)) := do
  let noBypass : Routing (Option (RoutedUrl α)) := do
    setResult .MISS
    setResultDetails .DS_NO_BYPASS
    return none
  match ds.bypassDestination with
  | none => noBypass
  | some bypassDestination =>
    setResult .DS_REDIRECT
    match bypassDestination.get "HTTP" with
    | none => noBypass
    | some httpJo =>
      match httpJo.get "fqdn" with
      | none => noBypass
      | some fqdn =>
        let port := match httpJo.get "port" with
          | some port => router.asInt port
          | none => if request.secure then 443 else 80
        return some (← router.newURL (ds.createURIString request fqdn.asText port none) none)

def updateRegionalTrack (result : RegionalGeoResult) : Routing Unit := do
  updateTrack fun track => { track with regionalGeoResult := some result }
  match result.type with
  | .DENIED =>
    setResult .RGDENY
    setResultDetails .REGIONAL_GEO_NO_RULE
  | .ALTERNATE_WITH_CACHE =>
    setResult .RGALT
    setResultDetails .REGIONAL_GEO_ALTERNATE_WITH_CACHE
  | .ALTERNATE_WITHOUT_CACHE =>
    setResult .RGALT
    setResultDetails .REGIONAL_GEO_ALTERNATE_WITHOUT_CACHE
  | .ALLOWED => return

def enforceRegionalGeo (request : HTTPRequest) (ds : DeliveryService) (location : LocationRef)
    (cache : Option (Cache α)) (routeResult : HTTPRouteResult α) : Routing (HTTPRouteResult α) := do
  let clientGeolocation ← orNull (router.getClientGeolocation request.clientIP ds)
  let postalCode := (clientGeolocation.bind (·.postalCode)).map fun postalCode =>
    String.ofList (postalCode.toList.take 3)
  let result ← nonNull (router.regionalGeo.enforce router.engine.matchesWhole router.fromString ds.id
    request.requestedUrl request.clientIP postalCode)
  updateRegionalTrack result
  match result.type with
  | .DENIED => return { routeResult with responseCode := result.httpResponseCode }
  | .ALLOWED => return routeResult.setUrl (some (← router.createCacheURL ds request location cache))
  | .ALTERNATE_WITH_CACHE =>
    let url ← nonNull result.url
    return routeResult.setUrl (some (← router.createAlternateURL ds request url location cache))
  | .ALTERNATE_WITHOUT_CACHE =>
    let url ← nonNull result.url
    return routeResult.setUrl (some (← router.newURL url none))

end Urls

section Steering

def XTC_STEERING_OPTION : String := "x-tc-steering-option"

def isTlsMismatch (request : HTTPRequest) (ds : DeliveryService) : Bool :=
  request.secure && !ds.sslEnabled || !request.secure && !ds.acceptHttp

def isMultiRouteRequest (request : HTTPRequest) : Bool :=
  match router.getDeliveryServiceFor request with
  | none => false
  | some deliveryService =>
    (router.steeringRegistry.lookup deliveryService.id).any fun steering => steering.clientSteering

def consistentHashMultiDeliveryService (deliveryService : DeliveryService) (requestPath : Option String) :
    Routing (List DeliveryService) := do
  match router.steeringRegistry.lookup deliveryService.id with
  | none => return [deliveryService]
  | some steering =>
    let s ← nonNull requestPath
    let draw := (← readState).draws
    let steeringTargets := ConsistentHasher.selectHashables router.arithmetic router.rebalanceTargets
      router.hashFunction (router.shuffleTargets draw) steering.targets none s
    return steeringTargets.filterMap fun steeringTarget => router.getDeliveryServiceById steeringTarget.deliveryService

def consistentHashDeliveryService (deliveryService : Option DeliveryService) (requestPath : Option String)
    (xtcSteeringOption : Option String) : Routing (Option DeliveryService) := do
  match deliveryService with
  | none => return none
  | some deliveryService =>
    match router.steeringRegistry.lookup deliveryService.id with
    | none => return some deliveryService
    | some steering =>
      match xtcSteeringOption.filter (· != "") with
      | some xtcSteeringOption =>
        return if steering.hasTarget xtcSteeringOption then router.getDeliveryServiceById xtcSteeringOption else none
      | none =>
        let path ← nonNull requestPath
        let bypassDeliveryServiceId := (steering.getBypassDestination router.matchesCase path).filter (· != "")
        match bypassDeliveryServiceId.bind router.getDeliveryServiceById with
        | some bypass => return some bypass
        | none =>
          let availableTargets := steering.targets.filter fun target =>
            (router.getDeliveryServiceById target.deliveryService).isSome
          let steeringTarget ← nonNull (← router.selectTarget availableTargets deliveryService.dispersion path)
          return router.getDeliveryServiceById steeringTarget.deliveryService

def missDeliveryService {β : Type} : Routing (Option β) := do
  setResult .DS_MISS
  setResultDetails .DS_NOT_FOUND
  return none

def refuseTls {β : Type} : Routing (Option β) := do
  setResult .ERROR
  setResultDetails .DS_TLS_MISMATCH
  return none

def getDeliveryServices (request : HTTPRequest) (entryDeliveryService : DeliveryService) :
    Routing (Option (List DeliveryService)) := do
  let deliveryServices ← router.consistentHashMultiDeliveryService entryDeliveryService request.path
  if deliveryServices.isEmpty then missDeliveryService
  else if deliveryServices.any (isTlsMismatch request) then refuseTls
  else return some deliveryServices

def getDeliveryService (request : HTTPRequest) : Routing (Option DeliveryService) := do
  let xtcSteeringOption := request.getHeaderValue XTC_STEERING_OPTION
  match ← router.consistentHashDeliveryService (router.getDeliveryServiceFor request) request.path
      xtcSteeringOption with
  | none => missDeliveryService
  | some deliveryService =>
    if isTlsMismatch request deliveryService then refuseTls else return some deliveryService

end Steering

section Routes

-- One round of the loop in `multiRoute`.
def addRoute (request : HTTPRequest) (routeResult : HTTPRouteResult α) (deliveryService : DeliveryService) :
    Routing (HTTPRouteResult α) := do
  if deliveryService.regionalGeoEnabled then return routeResult
  else if !deliveryService.isAvailable then return routeResult
  else
    match ← router.selectCaches request deliveryService with
    | none => return routeResult
    | some caches =>
      if caches.caches.isEmpty then return routeResult
      else
        let cache ← router.selectCache caches.caches deliveryService.dispersion request.path
        return routeResult.addUrl (some (← router.createCacheURL deliveryService request caches.location cache))

def multiRoute (request : HTTPRequest) : Routing (Option (HTTPRouteResult α)) := do
  let entryDeliveryService ← nonNull (router.getDeliveryServiceFor request)
  if isTlsMismatch request entryDeliveryService then refuseTls
  else
    match ← router.getDeliveryServices request entryDeliveryService with
    | none => return none
    | some deliveryServices =>
      let routeResult := (HTTPRouteResult.new true).setDeliveryService entryDeliveryService
      let routeResult ← deliveryServices.foldlM (router.addRoute request) routeResult
      if routeResult.urls.isEmpty then
        return some (routeResult.addUrl (← router.getFailureHttpResponse entryDeliveryService request))
      else return some routeResult

def singleRoute (request : HTTPRequest) : Routing (Option (HTTPRouteResult α)) := do
  match ← router.getDeliveryService request with
  | none => return none
  | some deliveryService =>
    let routeResult := HTTPRouteResult.new false
    if !deliveryService.isAvailable then
      return some (routeResult.setUrl (← router.getFailureHttpResponse deliveryService request))
    else
      let routeResult := routeResult.setDeliveryService deliveryService
      match (← router.selectCaches request deliveryService).filter (!·.caches.isEmpty) with
      | none =>
        if (← readState).track.result = .GEO_REDIRECT then
          match deliveryService.geoRedirectUrl with
          | none => throw .malformedURLException
          | some geoRedirectUrl => return some (routeResult.setUrl (some (← router.newURL geoRedirectUrl none)))
        else return some (routeResult.setUrl (← router.getFailureHttpResponse deliveryService request))
      | some caches =>
        let cache ← router.selectCache caches.caches deliveryService.dispersion request.path
        if deliveryService.regionalGeoEnabled then
          return some (← router.enforceRegionalGeo request deliveryService caches.location cache routeResult)
        else
          return some (routeResult.setUrl (some (← router.createCacheURL deliveryService request caches.location cache)))

def route (request : HTTPRequest) : Routing (Option (HTTPRouteResult α)) := do
  updateTrack fun track => { track with fqdn := request.hostname }
  if router.isMultiRouteRequest request then router.multiRoute request else router.singleRoute request

end Routes

end TrafficControl.TrafficRouter.TrafficRouter
