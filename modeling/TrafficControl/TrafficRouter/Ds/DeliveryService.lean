import TrafficControl.TrafficRouter.Cache.CacheLocation
import TrafficControl.TrafficRouter.DeliveryServiceMatcher

set_option autoImplicit false

namespace TrafficControl.TrafficRouter

inductive DeepCachingType where
  | NEVER
  | ALWAYS
deriving DecidableEq

-- `locationLimit` and `transInfoType` are what the props say; a transInfoType that is not text
-- is `none`.
structure DeliveryService where
  id : String
  coverageZoneOnly : Bool
  geoEnabled : Option JsonNode
  geoRedirectUrl : Option String
  geoRedirectUrlType : String
  bypassDestination : Option JsonNode
  shouldAppendQueryString : Bool
  missLocation : Option Geolocation
  dispersion : Dispersion
  regionalGeoEnabled : Bool
  geolocationProvider : String
  sslEnabled : Bool
  hasX509Cert : Bool
  acceptHttp : Bool
  acceptHttps : Bool
  redirectToHttps : Bool
  deepCache : DeepCachingType
  locationLimit : Int
  transInfoType : Option String
  isAvailable : Bool
  disabledLocations : Option JsonNode

namespace DeliveryService

def setState (this : DeliveryService) (state : Option JsonNode) : DeliveryService :=
  let isAvailable := JsonUtils.optBoolean state "isAvailable" true
  match state with
  | none => { this with isAvailable }
  | some state => { this with isAvailable, disabledLocations := state.get "disabledLocations" }

def isLocationAvailable (this : DeliveryService) (cl : CacheLocation) : Bool :=
  match this.disabledLocations with
  | none => true
  | some dls => !dls.elements.any fun curr => curr.asText == cl.id

def filterAvailableLocations (this : DeliveryService) (location : LocationRef → CacheLocation)
    (cacheLocations : List LocationRef) : List LocationRef :=
  cacheLocations.filter fun cl => this.isLocationAvailable (location cl)

section Location

-- What `equalsIgnoreCase` maps a character to before it compares.
variable (caseFold : Char → Char)

def equalsIgnoreCase (this other : String) : Bool :=
  this.toList.map caseFold == other.toList.map caseFold

def isLocationBlocked (this : DeliveryService) (clientLocation : Geolocation) : Bool :=
  match this.geoEnabled with
  | none => false
  | some geoEnabled =>
    !geoEnabled.elements.isEmpty && !geoEnabled.elements.any fun jsonConstraint =>
      jsonConstraint.fields.all fun (t, v) =>
        (clientLocation.getProperties t).any (equalsIgnoreCase caseFold v.asText)

def supportLocation (this : DeliveryService) (clientLocation : Option Geolocation) : Option Geolocation :=
  match clientLocation with
  | none => this.missLocation
  | some clientLocation => if this.isLocationBlocked caseFold clientLocation then none else some clientLocation

end Location

def isSslReady (this : DeliveryService) : Bool := this.sslEnabled && this.hasX509Cert

def useSecure (this : DeliveryService) (request : HTTPRequest) : Bool :=
  if request.secure then this.acceptHttps && this.isSslReady
  else this.redirectToHttps && this.acceptHttps && this.isSslReady

def getPortString (this : DeliveryService) (request : HTTPRequest) (port : Int) : String :=
  let standardPort := if this.useSecure request then 443 else 80
  if port = standardPort then "" else ":" ++ toString port

def scheme (this : DeliveryService) (request : HTTPRequest) : String :=
  if this.useSecure request then "https://" else "http://"

def createURIString (this : DeliveryService) (request : HTTPRequest) (fqdn : String) (port : Int)
    (tinfo : Option String) : String :=
  let queryString := if this.shouldAppendQueryString then request.queryString else none
  let separator := if queryString.isSome then "&" else "?"
  this.scheme request ++ fqdn ++ this.getPortString request port ++ request.uri.getD "null" ++
    (queryString.elim "" ("?" ++ ·)) ++ (tinfo.elim "" (separator ++ ·))

end DeliveryService

end TrafficControl.TrafficRouter
