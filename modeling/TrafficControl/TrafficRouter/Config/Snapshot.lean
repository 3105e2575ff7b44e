import TrafficControl.TrafficRouter.MatchSets
import TrafficControl.TrafficRouter.Router.StatTracker

set_option autoImplicit false

namespace TrafficControl.TrafficRouter.ConfigHandler

inductive ProcessException where
  | configException (e : ConfigException)
  | parseException (message : String)
  | ioException (message : String)
  | runtimeException
deriving DecidableEq

-- Jackson and the Java library. `asLong`, `asInt` take the default for what is no number, and
-- `asDouble` gives the text `Double.toString` prints.
structure Java where
  readTree : String → Except String JsonNode
  print : JsonNode → String
  asLong : JsonNode → Int → Int
  asInt : JsonNode → Int → Int
  asDouble : JsonNode → String
  toLowerCase : String → String
  engine : PatternEngine
  rebalance : SearchTree.Rebalance Nat

-- A parsed snapshot.
structure Snapshot where
  jo : JsonNode
  config : JsonNode
  stats : JsonNode
  sts : Int

-- `props` is the document the object was made from.
structure ConfiguredService where
  id : String
  props : JsonNode
  routingName : String
  sslEnabled : Bool
  isDns : Bool

-- `deliveryServices` maps the id of each DeliveryServiceReference to its FQDN.
structure ConfiguredCache where
  id : String
  hashId : String
  hashCount : Int
  fqdn : String
  port : Int
  ip : String
  ip6 : String
  location : String
  deliveryServices : List (String × String)

abbrev StatMap := AList fun _ : String => List String

structure ConfiguredRegister where
  trafficRouters : JsonNode
  config : JsonNode
  stats : JsonNode
  deliveryServiceMap : List ConfiguredService
  matchSets : MatchSets
  configuredLocations : List (String × Geolocation)
  cacheMap : List ConfiguredCache

def fieldNames (jsonNode : JsonNode) : List String := jsonNode.fields.map Prod.fst

section Reading

variable (java : Java)

def getLong (jsonNode : JsonNode) (key : String) : Except ConfigException Int :=
  (JsonUtils.getJsonNode jsonNode key).map (java.asLong · 0)

def optLong (jsonNode : JsonNode) (key : String) : Int := (jsonNode.get key).elim 0 (java.asLong · 0)

def optInt (jsonNode : JsonNode) (key : String) (d : Int) : Int := (jsonNode.get key).elim d (java.asInt · d)

def getInt (jsonNode : JsonNode) (key : String) : Except ConfigException Int :=
  (JsonUtils.getJsonNode jsonNode key).map (java.asInt · 0)

def getDouble (jsonNode : JsonNode) (key : String) : Except ConfigException String :=
  (JsonUtils.getJsonNode jsonNode key).map java.asDouble

-- `optString` with the default null.
def optStringOrNull (jsonNode : JsonNode) (key : String) : Option String :=
  match jsonNode.get key with
  | none => none
  | some .null => none
  | some node => some node.asText

def getBoolean (jsonNode : JsonNode) (key : String) : Except ConfigException Bool :=
  (JsonUtils.getJsonNode jsonNode key).map (·.asBooleanOr false)

def readSnapshot (jsonStr : String) : Except ProcessException Snapshot :=
  ((java.readTree jsonStr).mapError .ioException).bind fun jo =>
    ((JsonUtils.getJsonNode jo "config").bind fun config =>
      (JsonUtils.getJsonNode jo "stats").bind fun stats =>
        (getLong java stats "date").map fun sts => ⟨jo, config, stats, sts⟩).mapError .configException

def newDeliveryService (id : String) (dsJo : JsonNode) : Except ConfigException ConfiguredService :=
  (getBoolean dsJo "coverageZoneOnly").bind fun _ =>
    (JsonUtils.getString dsJo "routingName").map fun routingName =>
      ⟨id, dsJo, java.toLowerCase routingName, JsonUtils.optBoolean dsJo "sslEnabled" false, false⟩

def parseDeliveryService (allDeliveryServices : JsonNode) (deliveryServiceId : String) :
    Except ConfigException ConfiguredService :=
  (JsonUtils.getJsonNode allDeliveryServices deliveryServiceId).bind fun deliveryServiceJson =>
    (newDeliveryService java deliveryServiceId deliveryServiceJson).bind fun deliveryService =>
      (JsonUtils.getJsonNode deliveryServiceJson "matchsets").bind fun matchsets =>
        (matchsets.elements.mapM (JsonUtils.getString · "protocol")).map fun protocols =>
          { deliveryService with isDns := protocols.contains "DNS" }

def parseDeliveryServiceConfig (allDeliveryServices : JsonNode) : Except ConfigException (List ConfiguredService) :=
  (fieldNames allDeliveryServices).mapM (parseDeliveryService java allDeliveryServices)

def parseDeliveryServiceMatchSets (allDeliveryServices : JsonNode) : Except ConfigException MatchSets :=
  (fieldNames allDeliveryServices).foldlM
    (MatchSets.parseDeliveryService java.engine java.rebalance allDeliveryServices) MatchSets.empty

-- A location without coordinates is left out.
def parseLocation (locationsJo : JsonNode) (loc : String) : Except ConfigException (Option (String × Geolocation)) :=
  (JsonUtils.getJsonNode locationsJo loc).map fun jo =>
    match getDouble java jo "latitude", getDouble java jo "longitude" with
    | .ok latitude, .ok longitude => some (loc, ⟨latitude, longitude, none, none, none, none⟩)
    | _, _ => none

def parseLocationConfig (locationsJo : JsonNode) : Except ConfigException (List (String × Geolocation)) :=
  ((fieldNames locationsJo).mapM (parseLocation java locationsJo)).map (·.filterMap id)

def newDeliveryServiceReference (deliveryServiceId fqdn : String) : Except ProcessException (String × String) :=
  if fqdn.toList.contains '.' then .ok (deliveryServiceId, fqdn)
  else .error (.parseException ("Invalid FQDN (" ++ fqdn ++ ") on delivery service " ++ deliveryServiceId ++
    "; please verify the HOST regex(es) in Traffic Ops"))

-- `replaceAll("^.*?\\.", "")`: `.` does not match a line terminator.
def dropFirstLabel (name : List Char) : List Char :=
  let label := name.takeWhile fun c => c != '.'
  if label.any RequestMatcher.lineTerminator then name
  else match name.dropWhile fun c => c != '.' with
    | [] => name
    | _ :: rest => rest

def addName (dsNames : List String) (name : String) : List String :=
  if dsNames.contains name then dsNames else dsNames ++ [name]

def statName (config : JsonNode) (name : String) : String :=
  let tld := java.toLowerCase (JsonUtils.optString config "domain_name" "")
  if tld.toList.isSuffixOf name.toList then String.ofList (dropFirstLabel name.toList) else name

-- One delivery service of a content server: its reference, and its names for the statistics.
def parseServerService (config : JsonNode) (state : List (String × String) × StatMap) (field : String × JsonNode) :
    Except ProcessException (List (String × String) × StatMap) :=
  let ds := field.1
  let dsNames := (state.2.lookup ds).getD []
  match field.2 with
  | .array [] => .ok (state.1, state.2.insert ds dsNames)
  | .array (first :: rest) =>
    let names := (first :: rest).map fun nameNode => java.toLowerCase nameNode.asText
    (newDeliveryServiceReference ds (java.toLowerCase first.asText)).map fun reference =>
      (state.1 ++ [reference], state.2.insert ds ((names.map (statName java config)).foldl addName dsNames))
  | dso =>
    (newDeliveryServiceReference ds (java.print dso)).map fun reference =>
      (state.1 ++ [reference], state.2.insert ds (addName dsNames (java.print dso)))

def hashIdOf (node : String) (jo : JsonNode) : String :=
  match jo.get "hashId" with
  | some (.text hashId) => hashId
  | _ => node

-- A server whose location is not configured is skipped.
def parseContentServer (config : JsonNode) (locations : List (String × Geolocation)) (contentServers : JsonNode)
    (state : List ConfiguredCache × StatMap) (node : String) :
    Except ProcessException (List ConfiguredCache × StatMap) :=
  let required (jo : JsonNode) (key : String) : Except ProcessException String :=
    (JsonUtils.getString jo key).mapError .configException
  ((JsonUtils.getJsonNode contentServers node).mapError .configException).bind fun jo =>
    (required jo "locationId").bind fun locationId =>
      if (locations.map Prod.fst).contains locationId then
        (required jo "fqdn").bind fun fqdn =>
          ((getInt java jo "port").mapError .configException).bind fun port =>
            (required jo "ip").bind fun ip =>
              let services := (jo.get "deliveryServices").elim [] JsonNode.fields
              (services.foldlM (parseServerService java config) ([], state.2)).map fun (references, statMap) =>
                (state.1 ++ [⟨node, hashIdOf node jo, optInt java jo "hashCount" 0, fqdn, port, ip,
                  JsonUtils.optString jo "ip6" "", locationId, references⟩], statMap)
      else .ok state

def parseCacheConfig (config : JsonNode) (locations : List (String × Geolocation)) (contentServers : JsonNode) :
    Except ProcessException (List ConfiguredCache × StatMap) :=
  (fieldNames contentServers).foldlM (parseContentServer java config locations contentServers) ([], ∅)

def parseMonitor (jo : JsonNode) : Except ConfigException (Option String) :=
  (JsonUtils.getString jo "fqdn").bind fun fqdn =>
    (JsonUtils.getString jo "status").map fun status =>
      if status = "ONLINE" then some (fqdn ++ ":" ++ toString (optInt java jo "port" 80)) else none

def parseMonitorConfig (monitors : JsonNode) : Except ProcessException (List String) :=
  ((monitors.elements.mapM (parseMonitor java)).mapError .configException).bind fun parsed =>
    match parsed.filterMap id with
    | [] => .error (.parseException ("Unable to locate any ONLINE monitors in the TrConfig: " ++ java.print monitors))
    | monitorList => .ok monitorList

end Reading

namespace Snapshot

variable (java : Java) (this : Snapshot)

def getSection (key : String) : Except ProcessException JsonNode :=
  (JsonUtils.getJsonNode this.jo key).mapError .configException

def deliveryServiceMap : Except ProcessException (List ConfiguredService) :=
  (this.getSection "deliveryServices").bind fun deliveryServices =>
    (parseDeliveryServiceConfig java deliveryServices).mapError .configException

def matchSets : Except ProcessException MatchSets :=
  (this.getSection "deliveryServices").bind fun deliveryServices =>
    (parseDeliveryServiceMatchSets java deliveryServices).mapError .configException

def locations : Except ProcessException (List (String × Geolocation)) :=
  (this.getSection "edgeLocations").bind fun locations =>
    (parseLocationConfig java locations).mapError .configException

def caches : Except ProcessException (List ConfiguredCache × StatMap) :=
  (this.locations java).bind fun locations =>
    (this.getSection "contentServers").bind (parseCacheConfig java this.config locations)

def onlineMonitors : Except ProcessException (List String) :=
  (this.getSection "monitors").bind (parseMonitorConfig java)

-- What the statements before `setCacheRegister` have put together.
def cacheRegister : Except ProcessException ConfiguredRegister :=
  (this.getSection "contentRouters").bind fun trafficRouters =>
    (this.deliveryServiceMap java).bind fun deliveryServiceMap =>
      (this.matchSets java).bind fun matchSets =>
        (this.locations java).bind fun locations =>
          (this.caches java).map fun (caches, _) =>
            ⟨trafficRouters, this.config, this.stats, deliveryServiceMap, matchSets, locations, caches⟩

def httpsDeliveryServices : List ConfiguredService :=
  match this.deliveryServiceMap java with
  | .ok deliveryServices => deliveryServices.filter fun ds => !ds.isDns && ds.sslEnabled
  | .error _ => []

end Snapshot

end TrafficControl.TrafficRouter.ConfigHandler
