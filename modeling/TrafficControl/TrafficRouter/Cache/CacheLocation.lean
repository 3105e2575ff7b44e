import Mathlib.Data.List.AList
import TrafficControl.TrafficRouter.Hash.ConsistentHasher
import TrafficControl.TrafficRouter.JsonUtils

set_option autoImplicit false

namespace TrafficControl.TrafficRouter

-- A coordinate is kept as the text `Double.toString` prints for it.
structure Geolocation where
  latitude : String
  longitude : String
  postalCode : Option String
  city : Option String
  countryCode : Option String
  countryName : Option String
deriving DecidableEq

def Geolocation.getProperties (this : Geolocation) (key : String) : Option String :=
  if key = "latitude" then some this.latitude
  else if key = "longitude" then some this.longitude
  else if key = "postalCode" then this.postalCode
  else if key = "city" then this.city
  else if key = "countryCode" then this.countryCode
  else if key = "countryName" then this.countryName
  else none

-- `deliveryServices` maps the id of each DeliveryServiceReference to its FQDN.
structure Cache (α : Type) [LinearOrder α] where
  id : String
  fqdn : String
  port : Int
  httpsPort : Int
  deliveryServices : AList fun _ : String => String
  hashable : DefaultHashable α
  hasAuthority : Bool
  isAvailable : Bool

namespace Cache

variable {α : Type} [LinearOrder α]

instance : Hashable α (Cache α) :=
  ⟨hashable, fun this o => if this.id < o.id then -1 else if o.id < this.id then 1 else 0⟩

def hasDeliveryService (this : Cache α) (deliveryServiceId : String) : Bool :=
  (this.deliveryServices.lookup deliveryServiceId).isSome

def setIsAvailable (this : Cache α) (isAvailable : Bool) : Cache α :=
  { this with hasAuthority := true, isAvailable }

def setState (this : Cache α) (state : Option JsonNode) : Cache α :=
  this.setIsAvailable (JsonUtils.optBoolean state "isAvailable" true)

end Cache

-- Objects that are shared or outlive a configuration are told apart by their addresses.
abbrev CacheRef := Nat
abbrev LocationRef := Nat
abbrev NodeRef := Nat

-- A CacheLocation's map of caches is kept apart from the rest of it: the deep one is filled late.
structure CacheLocation where
  id : String
  geolocation : Geolocation

abbrev CacheMap := AList fun _ : String => CacheRef

def CacheLocation.loadDeepCaches (idOf : CacheRef → String) (caches : CacheMap)
    (deepCacheNames : Option (List String)) (cacheMap : CacheMap) : CacheMap :=
  if caches.keys.isEmpty then
    (deepCacheNames.getD []).foldl (fun caches deepCacheName =>
      match cacheMap.lookup deepCacheName with
      | none => caches
      | some deepCache => caches.insert (idOf deepCache) deepCache) caches
  else caches

end TrafficControl.TrafficRouter
