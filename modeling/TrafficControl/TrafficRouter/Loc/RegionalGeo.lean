import Mathlib.Data.List.AList
import TrafficControl.TrafficRouter.DeliveryServiceMatcher
import TrafficControl.TrafficRouter.NetworkNode

set_option autoImplicit false

namespace TrafficControl.TrafficRouter

inductive PostalsType where
  | EXCLUDE
  | INCLUDE
  | UNDEFINED
deriving DecidableEq

-- The whitelist's nodes carry their `loc`.
structure RegionalGeoRule where
  pattern : String
  postalsType : PostalsType
  postals : List String
  whiteListRoot : Option (SuperNode (Option String))
  alternateUrl : String

inductive RegionalGeoResultType where
  | ALLOWED
  | ALTERNATE_WITH_CACHE
  | ALTERNATE_WITHOUT_CACHE
  | DENIED
deriving DecidableEq

structure RegionalGeoResult where
  url : Option String
  httpResponseCode : Int
  type : RegionalGeoResultType
  ruleType : Option PostalsType
  postal : Option String
  usingFallbackConfig : Bool
  allowedByWhiteList : Bool

namespace RegionalGeoRule

def WHITE_LIST_NODE_LOCATION : String := "w"

def isAllowedPostal (this : RegionalGeoRule) (postal : String) : Bool :=
  if this.postalsType = .INCLUDE then this.postals.contains postal else !this.postals.contains postal

-- `none` is the NullPointerException for an address outside the root.
def isIpInWhiteList (fromString : String → Option CidrAddress) (this : RegionalGeoRule) (ip : String) :
    Option Bool :=
  match this.whiteListRoot, fromString ip with
  | none, _ => some false
  | some _, none => some false
  | some whiteListRoot, some address =>
    (whiteListRoot.getNetwork address).map fun nn => nn.data == some WHITE_LIST_NODE_LOCATION

end RegionalGeoRule

structure RegionalGeo where
  fallback : Bool
  regionalGeoDsvcs : AList fun _ : String => List RegionalGeoRule

namespace RegionalGeo

variable (matchesWhole : String → String → Bool) (fromString : String → Option CidrAddress)

def HTTP_SCHEME : String := "http://"

def REGIONAL_GEO_DENIED_HTTP_CODE : Int := 520

def matchRule (this : RegionalGeo) (dsvcId url : String) : Option RegionalGeoRule :=
  (this.regionalGeoDsvcs.lookup dsvcId).bind fun urlRules => urlRules.find? fun rule => matchesWhole rule.pattern url

def enforce (currentConfig : RegionalGeo) (dsvcId url ip : String) (postalCode : Option String) :
    Option RegionalGeoResult :=
  let result : RegionalGeoResult :=
    { url := none, httpResponseCode := 0, type := .DENIED, ruleType := none, postal := postalCode,
      usingFallbackConfig := currentConfig.fallback, allowedByWhiteList := false }
  match currentConfig.matchRule matchesWhole dsvcId url with
  | none => some { result with httpResponseCode := REGIONAL_GEO_DENIED_HTTP_CODE }
  | some rule => do
    let allowedByWhiteList ← rule.isIpInWhiteList fromString ip
    let allowed := allowedByWhiteList || postalCode.any fun postal => postal != "" && rule.isAllowedPostal postal
    let result := { result with allowedByWhiteList, ruleType := some rule.postalsType }
    if allowed then some { result with url := some url, type := .ALLOWED }
    else if HTTP_SCHEME.toList.isPrefixOf (rule.alternateUrl.toList.map Char.toLower) then
      some { result with url := some rule.alternateUrl, type := .ALTERNATE_WITHOUT_CACHE }
    else
      let redirectUrl := if "/".toList.isPrefixOf rule.alternateUrl.toList then rule.alternateUrl
        else "/" ++ rule.alternateUrl
      some { result with url := some redirectUrl, type := .ALTERNATE_WITH_CACHE }

end RegionalGeo

end TrafficControl.TrafficRouter
