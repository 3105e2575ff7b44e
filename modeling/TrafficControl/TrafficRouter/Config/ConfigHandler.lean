import TrafficControl.Lib.Runs
import TrafficControl.TrafficRouter.Config.CertificateChecker
import TrafficControl.TrafficRouter.Config.Snapshot

set_option autoImplicit false

namespace TrafficControl.TrafficRouter.ConfigHandler

-- A service updater. `scheduled` is the period of the schedule that runs.
structure Updater where
  dataBaseURL : Option String
  pollingInterval : Int
  loaded : Bool
  scheduled : Option Int
deriving DecidableEq

namespace Updater

def getPollingInterval (this : Updater) : Int := if this.pollingInterval = 0 then 10000 else this.pollingInterval

def stopServiceUpdater (this : Updater) : Updater := { this with scheduled := none }

def cancelServiceUpdater (this : Updater) : Updater :=
  { this.stopServiceUpdater with pollingInterval := 0, dataBaseURL := none }

def init (this : Updater) : Updater := { this with scheduled := some this.getPollingInterval }

def setDataBaseURL (this : Updater) (url : Option String) (refresh : Int) : Updater :=
  let restarted :=
    if refresh ≠ 0 ∧ refresh ≠ this.pollingInterval then
      ({ this with pollingInterval := refresh } : Updater).stopServiceUpdater.init
    else this
  if url ≠ none ∧ url ≠ restarted.dataBaseURL ∨ refresh ≠ 0 ∧ refresh ≠ restarted.pollingInterval then
    { restarted with dataBaseURL := url, loaded := false }
  else restarted

end Updater

structure TrafficOps where
  hostname : Option String
  cdnName : Option String
  config : Option JsonNode

structure Monitors where
  localConfig : Bool
  bootstrapped : Bool
  onlineMonitors : List String
  hosts : List String
deriving DecidableEq

namespace Monitors

def setHosts (hosts newHosts : List String) : List String :=
  if hosts.isEmpty then newHosts
  else if newHosts.all hosts.contains && hosts.all newHosts.contains then hosts
  else newHosts

def setOnlineMonitors (this : Monitors) (onlineMonitors : List String) : Monitors :=
  if this.localConfig then this
  else { this with onlineMonitors, bootstrapped := true, hosts := setHosts this.hosts onlineMonitors }

end Monitors

-- What the handler sets in its collaborators.
structure Settings where
  cacheRegister : Option ConfiguredRegister
  lastSnapshotTimestamp : Int
  deliveryServicesJson : Option JsonNode
  deliveryServices : List ConfiguredService
  statTracker : StatTracker.Tracker
  trafficOps : TrafficOps
  monitors : Monitors
  geolocation : Updater
  coverageZone : Updater
  deepCoverageZone : Updater
  regionalGeo : Updater
  systemProperties : String → Option String
  requestHeaders : List String

-- The statements between the timestamp check and the return, in order.
inductive Update where
  | parseGeolocationConfig
  | parseCoverageZoneNetworkConfig
  | parseDeepCoverageZoneNetworkConfig
  | parseRegionalGeoConfig
  | newCacheRegister
  | parseTrafficOpsConfig
  | parseDeliveryServiceConfig
  | parseCertificatesConfig
  | setDeliveryServicesJson
  | setDeliveryServices
  | restartCertificatesPoller
  | parseDeliveryServiceMatchSets
  | parseLocationConfig
  | parseCacheConfig
  | parseMonitorConfig
  | configureFederationsWatcher
  | configureSteeringWatcher
  | setCacheRegister
  | setRequestHeaders
  | configurationChanged
  | clearCacheLocations
  | setLastSnapshotTimestamp
deriving DecidableEq

namespace Update

-- The statements that call collaborators, which may throw on their own.
def calls : Update → Bool
  | parseGeolocationConfig => true
  | parseCoverageZoneNetworkConfig => true
  | parseDeepCoverageZoneNetworkConfig => true
  | parseRegionalGeoConfig => true
  | restartCertificatesPoller => true
  | configureFederationsWatcher => true
  | configureSteeringWatcher => true
  | setCacheRegister => true
  | setRequestHeaders => true
  | configurationChanged => true
  | clearCacheLocations => true
  | _ => false

def copyProperty (config : JsonNode) (key : String) (systemProperties : String → Option String) :
    String → Option String :=
  match config.get key with
  | none => systemProperties
  | some node => Function.update systemProperties key (some node.asText)

def geolocationUrlKey (config : JsonNode) : String :=
  if (config.get "alt.geolocation.polling.url").isSome then "alt.geolocation.polling.url"
  else "geolocation.polling.url"

def regionalGeoEnabled (jo : JsonNode) : Bool :=
  ((jo.get "deliveryServices").elim [] JsonNode.elements).any fun ds =>
    (ds.get "regionalGeoBlocking").elim false fun node => node.asText == "true"

def hostnameOf (stats : JsonNode) : Except ProcessException String :=
  if (stats.get "tm_host").isSome then (JsonUtils.getString stats "tm_host").mapError .configException
  else if (stats.get "to_host").isSome then (JsonUtils.getString stats "to_host").mapError .configException
  else .error (.configException (.jsonUtilsException
    "Unable to find to_host or tm_host in stats section of TrConfig; unable to build TrafficOps URLs"))

variable (java : Java) (clock : String → Nat → StatTracker.InitialClock) (snapshot : Snapshot)

def initializeTracker (deliveryServices : List ConfiguredService) (statMap : StatMap) (tracker : StatTracker.Tracker) :
    StatTracker.Tracker :=
  let getDeliveryService (dsId : String) : Option StatTracker.InitialService :=
    (deliveryServices.find? fun ds => ds.id = dsId).map fun ds => ⟨ds.isDns, ds.routingName⟩
  (tracker.initializeTracks (statMap.entries.map fun entry => (entry.1, entry.2)) getDeliveryService clock).getD tracker

-- What a statement sets, once what it reads of the snapshot is in order.
def effect : Update → Except ProcessException (Settings → Settings)
  | parseGeolocationConfig =>
    (JsonUtils.getString snapshot.config (geolocationUrlKey snapshot.config)).mapError .configException |>.map
      fun url settings => { settings with
        geolocation := settings.geolocation.setDataBaseURL (some url)
          (optLong java snapshot.config "geolocation.polling.interval")
        systemProperties := copyProperty snapshot.config "neustar.polling.interval"
          (copyProperty snapshot.config "neustar.polling.url" settings.systemProperties) }
  | parseCoverageZoneNetworkConfig =>
    (JsonUtils.getString snapshot.config "coveragezone.polling.url").mapError .configException |>.map
      fun url settings => { settings with
        coverageZone := settings.coverageZone.setDataBaseURL (some url)
          (optLong java snapshot.config "coveragezone.polling.interval") }
  | parseDeepCoverageZoneNetworkConfig => .ok fun settings => { settings with
      deepCoverageZone := settings.deepCoverageZone.setDataBaseURL
        (optStringOrNull snapshot.config "deepcoveragezone.polling.url")
        (optLong java snapshot.config "deepcoveragezone.polling.interval") }
  | parseRegionalGeoConfig => .ok fun settings => { settings with
      regionalGeo := match optStringOrNull snapshot.config "regional_geoblock.polling.url" with
        | none => settings.regionalGeo.stopServiceUpdater
        | some url =>
          if regionalGeoEnabled snapshot.jo then
            settings.regionalGeo.setDataBaseURL (some url)
              (optLong java snapshot.config "regional_geoblock.polling.interval")
          else settings.regionalGeo.cancelServiceUpdater }
  | newCacheRegister =>
    (snapshot.getSection "deliveryServices").bind fun _ =>
      (snapshot.getSection "contentRouters").map fun _ settings => settings
  | parseTrafficOpsConfig =>
    (hostnameOf snapshot.stats).map fun hostname settings => { settings with
      trafficOps := ⟨some hostname, optStringOrNull snapshot.stats "CDN_name", some snapshot.config⟩ }
  | parseDeliveryServiceConfig => (snapshot.deliveryServiceMap java).map fun _ settings => settings
  | parseCertificatesConfig => .ok fun settings => { settings with
      systemProperties := copyProperty snapshot.config "certificates.polling.interval" settings.systemProperties }
  | setDeliveryServicesJson =>
    (snapshot.getSection "deliveryServices").map fun deliveryServicesJson settings => { settings with
      deliveryServicesJson := some deliveryServicesJson }
  | setDeliveryServices =>
    (snapshot.deliveryServiceMap java).map fun deliveryServices settings =>
      if deliveryServices.isEmpty then settings else { settings with deliveryServices }
  | restartCertificatesPoller => .ok id
  | parseDeliveryServiceMatchSets => (snapshot.matchSets java).map fun _ settings => settings
  | parseLocationConfig => (snapshot.locations java).map fun _ settings => settings
  | parseCacheConfig =>
    (snapshot.deliveryServiceMap java).bind fun deliveryServices =>
      (snapshot.caches java).map fun (_, statMap) settings => { settings with
        statTracker := initializeTracker clock deliveryServices statMap settings.statTracker }
  | parseMonitorConfig =>
    (snapshot.onlineMonitors java).map fun monitorList settings => { settings with
      monitors := settings.monitors.setOnlineMonitors monitorList }
  | configureFederationsWatcher => .ok id
  | configureSteeringWatcher => .ok id
  | setCacheRegister =>
    (snapshot.cacheRegister java).map fun cacheRegister settings => { settings with cacheRegister := some cacheRegister }
  | setRequestHeaders => .ok fun settings => { settings with
      requestHeaders := ((snapshot.config.get "requestHeaders").elim [] JsonNode.elements).map JsonNode.asText }
  | configurationChanged => .ok id
  | clearCacheLocations => .ok id
  | setLastSnapshotTimestamp => .ok fun settings => { settings with lastSnapshotTimestamp := snapshot.sts }

end Update

-- The ways in which `processConfig` returns.
inductive Exit where
  | noData
  | olderSnapshot
  | wasCancelled
  | parseFailed
  | applied
deriving DecidableEq

inductive Ending where
  | returned (exit : Exit)
  | threw (e : ProcessException)
deriving DecidableEq

inductive Statement where
  | setIsProcessing (value : Bool)
  | setCancelled (value : Bool)
  | clearPublishStatusQueue
  | readSnapshot (jsonStr : String)
  | update (snapshot : Snapshot) (u : Update)
  | putPublishStatus
  | awaitCertificates
  | checkCancelled
  | exit (exit : Exit)

def exitStatements (exit : Exit) : List Statement :=
  match exit with
  | .parseFailed => [.setIsProcessing false, .setCancelled false, .clearPublishStatusQueue, .exit exit]
  | .applied => [.setIsProcessing false, .setCancelled false, .clearPublishStatusQueue, .exit exit]
  | _ => [.setCancelled false, .setIsProcessing false, .clearPublishStatusQueue, .exit exit]

def updatesBeforeWait : List Update :=
  [.parseGeolocationConfig, .parseCoverageZoneNetworkConfig, .parseDeepCoverageZoneNetworkConfig,
    .parseRegionalGeoConfig, .newCacheRegister, .parseTrafficOpsConfig, .parseDeliveryServiceConfig,
    .parseCertificatesConfig, .setDeliveryServicesJson, .setDeliveryServices, .restartCertificatesPoller]

def updatesAfterWait : List Update :=
  [.parseDeliveryServiceMatchSets, .parseLocationConfig, .parseCacheConfig, .parseMonitorConfig,
    .configureFederationsWatcher, .configureSteeringWatcher, .setCacheRegister, .setRequestHeaders,
    .configurationChanged, .clearCacheLocations, .setLastSnapshotTimestamp]

def applyStatements (snapshot : Snapshot) : List Statement :=
  updatesAfterWait.map (.update snapshot) ++ exitStatements .applied

def waitStatements (java : Java) (snapshot : Snapshot) : List Statement :=
  if (snapshot.httpsDeliveryServices java).isEmpty then [] else [.putPublishStatus, .awaitCertificates]

def statements (java : Java) (snapshot : Snapshot) : List Statement :=
  updatesBeforeWait.map (.update snapshot) ++ waitStatements java snapshot ++ .checkCancelled :: applyStatements snapshot

-- `setCacheRegister(null)` sets nothing.
def entryStatements : Option String → List Statement
  | none => .setIsProcessing true :: exitStatements .noData
  | some jsonStr => [.setIsProcessing true, .readSnapshot jsonStr]

structure Call where
  clock : String → Nat → StatTracker.InitialClock
  remaining : List Statement

-- The thread of the certificates publisher, with the list it has in hand.
inductive Worker where
  | taking
  | checking (certificateDataList : List CertificateData)
  | marking (certificateDataList : List CertificateData)
  | publishing (certificateDataList : List CertificateData)
  | polling (certificateDataList : List CertificateData)

-- `publishStatusQueue` has room for one token. `cancelling` counts the calls of
-- `cancelProcessConfig` that have found the handler processing, `hasX509Cert` is what the publisher
-- marked last, and `published` holds the lists it has published.
structure Handler where
  settings : Settings
  isProcessing : Bool
  cancelled : Bool
  publishStatusQueue : Bool
  call : Option Call
  ended : Option Ending
  cancelling : Nat
  worker : Worker
  hasX509Cert : List (String × Bool)
  published : List (List CertificateData)

inductive Event where
  | processConfig (jsonStr : Option String) (clock : String → Nat → StatTracker.InitialClock)
  | advance
  | fails (e : ProcessException)
  | interrupt
  | isProcessing
  | setCancelled
  | take (certificateDataList : List CertificateData)
  | certificatesAreValid
  | setHasX509Cert
  | publishCertificateList (succeeds : Bool)
  | poll
  | pollTimeout

def ProcessException.isParseException : ProcessException → Bool
  | .parseException _ => true
  | _ => false

namespace Handler

variable (java : Java)

def goOn (this : Handler) (call : Call) (remaining : List Statement) : Handler :=
  { this with call := some { call with remaining } }

def endCall (this : Handler) (ending : Ending) : Handler := { this with call := none, ended := some ending }

-- An exception out of the `try` block.
def raise (this : Handler) (call : Call) (e : ProcessException) : Handler :=
  if e.isParseException then this.goOn call (exitStatements .parseFailed) else this.endCall (.threw e)

def execute (this : Handler) (call : Call) (rest : List Statement) : Statement → Option Handler
  | .setIsProcessing value => some { this.goOn call rest with isProcessing := value }
  | .setCancelled value => some { this.goOn call rest with cancelled := value }
  | .clearPublishStatusQueue => some { this.goOn call rest with publishStatusQueue := false }
  | .readSnapshot jsonStr =>
    match readSnapshot java jsonStr with
    | .error e => some (this.endCall (.threw e))
    | .ok snapshot =>
      if snapshot.sts ≤ this.settings.lastSnapshotTimestamp then some (this.goOn call (exitStatements .olderSnapshot))
      else some (this.goOn call (statements java snapshot))
  | .update snapshot u =>
    match u.effect java call.clock snapshot with
    | .error e => some (this.raise call e)
    | .ok change => some { this.goOn call rest with settings := change this.settings }
  | .putPublishStatus => if this.publishStatusQueue then none else some { this.goOn call rest with publishStatusQueue := true }
  | .awaitCertificates => if !this.cancelled && this.publishStatusQueue then none else some (this.goOn call rest)
  | .checkCancelled => some (this.goOn call (if this.cancelled then exitStatements .wasCancelled else rest))
  | .exit exit => some (this.endCall (.returned exit))

def advance (this : Handler) : Option Handler :=
  match this.call with
  | none => none
  | some call =>
    match call.remaining with
    | [] => none
    | statement :: rest => this.execute java call rest statement

def fails (this : Handler) (e : ProcessException) : Option Handler :=
  match this.call with
  | some ⟨_, .update _ u :: _⟩ => if u.calls && !e.isParseException then some (this.endCall (.threw e)) else none
  | _ => none

-- Only the `put` gives up when it is interrupted.
def interrupt (this : Handler) : Option Handler :=
  match this.call with
  | some ⟨clock, .putPublishStatus :: rest⟩ => some (this.goOn ⟨clock, rest⟩ rest)
  | _ => none

def mark (this : Handler) (certificateDataList : List CertificateData) : Option (List (String × Bool)) :=
  this.settings.deliveryServices.mapM fun ds =>
    (CertificateChecker.hasCertificate ds.id certificateDataList).map fun hasX509Cert => (ds.id, hasX509Cert)

def workerStep (this : Handler) : Worker → Event → Option Handler
  | .taking, .take certificateDataList => some { this with worker := .checking certificateDataList }
  | .checking certificateDataList, .certificatesAreValid =>
    match this.settings.deliveryServicesJson.bind (CertificateChecker.certificatesAreValid certificateDataList) with
    | some true => some { this with worker := .marking certificateDataList }
    | _ => some { this with worker := .taking }
  | .marking certificateDataList, .setHasX509Cert =>
    match this.mark certificateDataList with
    | none => some { this with worker := .taking }
    | some hasX509Cert => some { this with worker := .publishing certificateDataList, hasX509Cert }
  | .publishing certificateDataList, .publishCertificateList succeeds => some { this with
      worker := .polling certificateDataList
      published := if succeeds then this.published ++ [certificateDataList] else this.published }
  | .polling _, .poll =>
    if this.publishStatusQueue then some { this with worker := .taking, publishStatusQueue := false } else none
  | .polling _, .pollTimeout => if this.publishStatusQueue then none else some { this with worker := .taking }
  | _, _ => none

-- One thread processes, one publishes, and any number cancel; each step is one access to what they share.
def step (this : Handler) : Event → Option Handler
  | .processConfig jsonStr clock =>
    match this.call with
    | none => some (this.goOn ⟨clock, []⟩ (entryStatements jsonStr))
    | some _ => none
  | .advance => this.advance java
  | .fails e => this.fails e
  | .interrupt => this.interrupt
  | .isProcessing => some (if this.isProcessing then { this with cancelling := this.cancelling + 1 } else this)
  | .setCancelled =>
    if this.cancelling = 0 then none else some { this with cancelled := true, cancelling := this.cancelling - 1 }
  | event => this.workerStep this.worker event

end Handler

-- Jackson on some documents.
def javaReading (documents : List (String × JsonNode)) : Java where
  readTree := fun jsonStr => match documents.lookup jsonStr with
    | some jo => .ok jo
    | none => .error "Unexpected end-of-input"
  print := JsonNode.asText
  asLong := fun node d => match node with
    | .number printed => printed.toList.foldl (fun n c => 10 * n + (c.toNat - '0'.toNat)) 0
    | _ => d
  asInt := fun node d => match node with
    | .number printed => printed.toList.foldl (fun n c => 10 * n + (c.toNat - '0'.toNat)) 0
    | _ => d
  asDouble := JsonNode.asText
  toLowerCase := fun text => String.ofList (text.toList.map Char.toLower)
  engine := ⟨fun _ => true, fun regex input => regex == input⟩
  rebalance := ⟨fun _ after => after, fun _ _ => rfl⟩

def Handler.new : Handler where
  settings := ⟨none, 0, none, [], .new, ⟨none, none, none⟩, ⟨false, false, [], []⟩, ⟨none, 0, false, none⟩,
    ⟨none, 0, false, none⟩, ⟨none, 0, false, none⟩, ⟨none, 0, false, none⟩, fun _ => none, []⟩
  isProcessing := false
  cancelled := false
  publishStatusQueue := false
  call := none
  ended := none
  cancelling := 0
  worker := .taking
  hasX509Cert := []
  published := []

def stoppedClock : String → Nat → StatTracker.InitialClock := fun _ _ => ⟨0, 0, 0⟩

end TrafficControl.TrafficRouter.ConfigHandler
