import TrafficControl.TrafficMonitor.Ds.Rates
import TrafficControl.TrafficMonitor.Peer.CRStates
import TrafficControl.TrafficMonitor.ToData.Data

set_option autoImplicit false

-- How the stats of the delivery services are put together from those of the caches. A map is listed in the order in which
-- loops visit it. The events and the states that the code writes next to its result are left out.
namespace TrafficControl.TrafficMonitor.Ds

open DsData MachineInt

structure TMDeliveryService where
  totalTpsThreshold : Int
  totalKbpsThreshold : Int

section Sums

variable {α : Type} (arith : Arith α)

def sumCacheStats (a b : StatCacheStats α) : StatCacheStats α where
  outBytes := wrap 64 (a.outBytes + b.outBytes)
  isAvailable := a.isAvailable || b.isAvailable
  status5xx := wrap 64 (a.status5xx + b.status5xx)
  status4xx := wrap 64 (a.status4xx + b.status4xx)
  status3xx := wrap 64 (a.status3xx + b.status3xx)
  status2xx := wrap 64 (a.status2xx + b.status2xx)
  inBytes := arith.add a.inBytes b.inBytes
  kbps := arith.add a.kbps b.kbps
  tps5xx := arith.add a.tps5xx b.tps5xx
  tps4xx := arith.add a.tps4xx b.tps4xx
  tps3xx := arith.add a.tps3xx b.tps3xx
  tps2xx := arith.add a.tps2xx b.tps2xx
  errorString := a.errorString ++ b.errorString
  tpsTotal := arith.add a.tpsTotal b.tpsTotal

/-- The sum has the zero time. -/
def sumLastStat (a b : DsData.LastStatData α) : DsData.LastStatData α where
  perSec := arith.add a.perSec b.perSec
  stat := wrap 64 (a.stat + b.stat)
  time := 0

def sumLastStats (a b : LastStatsData α) : LastStatsData α where
  bytes := sumLastStat arith a.bytes b.bytes
  status2xx := sumLastStat arith a.status2xx b.status2xx
  status3xx := sumLastStat arith a.status3xx b.status3xx
  status4xx := sumLastStat arith a.status4xx b.status4xx
  status5xx := sumLastStat arith a.status5xx b.status5xx

end Sums

section Merge

variable {α : Type} (arith : Arith α)

def setStat (dsStats : Stats α) (ds : String) (stat : Stat α) : Stats α :=
  { dsStats with deliveryService := dsStats.deliveryService.insert ds stat }

def statsAt {κ : Type} [DecidableEq κ] (table : AList fun _ : κ => StatCacheStats α) (key : κ) : StatCacheStats α :=
  (table.lookup key).getD (.empty arith)

def setStaticData (dsStats : Stats α) (dsServers : String → Option (List String)) : Stats α :=
  dsStats.deliveryService.entries.foldl (fun dsStats entry =>
    let cachesConfiguredNum := ((dsServers entry.1).getD []).length
    setStat dsStats entry.1 { entry.2 with commonStats := { entry.2.commonStats with cachesConfiguredNum } }) dsStats

def setAvailable (cacheGroup : String) (cacheType : CacheType) (stat : Stat α) : Stat α :=
  { stat with
    commonStats := { stat.commonStats with
      isAvailable := true
      isHealthy := true
      cachesAvailableNum := wrap 64 (stat.commonStats.cachesAvailableNum + 1) }
    cacheGroups := stat.cacheGroups.insert cacheGroup { statsAt arith stat.cacheGroups cacheGroup with isAvailable := true }
    totalStats := { stat.totalStats with isAvailable := true }
    types := stat.types.insert cacheType { statsAt arith stat.types cacheType with isAvailable := true } }

def setReporting (cache : String) (stat : Stat α) : Stat α :=
  { stat with commonStats := { stat.commonStats with cachesReporting := stat.commonStats.cachesReporting.insert cache true } }

def addAvailability (cache cacheGroup : String) (cacheType : CacheType) (available : Bool)
    (precomputed : AList fun _ : String => PrecomputedData α) (dsStats : Stats α) (deliveryService : String) : Stats α :=
  if deliveryService = "" then dsStats
  else
    match dsStats.deliveryService.lookup deliveryService with
    | none => dsStats
    | some stat =>
      let stat := if available then setAvailable arith cacheGroup cacheType stat else stat
      let stat := match precomputed.lookup cache with
        | some pc => if pc.reporting then setReporting cache stat else stat
        | none => stat
      setStat dsStats deliveryService stat

def setDisabled (dsStats : Stats α) (dsName : String) (ds : Peer.CRStatesDeliveryService) : Stats α :=
  match dsStats.deliveryService.lookup dsName with
  | none => dsStats
  | some stat =>
    let cachesDisabled := some ds.disabledLocations
    setStat dsStats dsName { stat with commonStats := { stat.commonStats with cachesDisabled } }

def addAvailableData (dsStats : Stats α) (crStates : Peer.CRStates) (serverCachegroups : String → Option String)
    (serverDs : String → Option (List String)) (serverTypes : String → Option CacheType)
    (precomputed : AList fun _ : String => PrecomputedData α) : Stats α :=
  let dsStats := crStates.caches.entries.foldl (fun dsStats entry =>
    match serverCachegroups entry.1, serverDs entry.1, serverTypes entry.1 with
    | some cacheGroup, some deliveryServices, some cacheType =>
      deliveryServices.foldl (addAvailability arith entry.1 cacheGroup cacheType entry.2 precomputed) dsStats
    | _, _, _ => dsStats) dsStats
  crStates.deliveryService.entries.foldl (fun dsStats entry => setDisabled dsStats entry.1 entry.2) dsStats

/-- The common stats stay. -/
def addResultStat (server cachegroup : String) (serverType : CacheType) (httpDsStat resultStat : Stat α) : Stat α :=
  { httpDsStat with
    totalStats := sumCacheStats arith httpDsStat.totalStats resultStat.totalStats
    cacheGroups := httpDsStat.cacheGroups.insert cachegroup
      (sumCacheStats arith (statsAt arith httpDsStat.cacheGroups cachegroup) (statsAt arith resultStat.cacheGroups cachegroup))
    types := httpDsStat.types.insert serverType
      (sumCacheStats arith (statsAt arith httpDsStat.types serverType) (statsAt arith resultStat.types serverType))
    caches := httpDsStat.caches.insert server
      (sumCacheStats arith (statsAt arith httpDsStat.caches server) (statsAt arith resultStat.caches server)) }

def addPrecomputedStat (server cachegroup : String) (serverType : CacheType) (dsStats : Stats α) (ds : String)
    (resultStat : Stat α) : Stats α :=
  if ds = "" then dsStats
  else
    match dsStats.deliveryService.lookup ds with
    | none => setStat dsStats ds resultStat
    | some httpDsStat => setStat dsStats ds (addResultStat arith server cachegroup serverType httpDsStat resultStat)

def addPrecomputed (serverCachegroups : String → Option String) (serverTypes : String → Option CacheType) (dsStats : Stats α)
    (server : String) (precomputedData : PrecomputedData α) : Stats α :=
  match serverCachegroups server with
  | none => dsStats
  | some cachegroup =>
    match serverTypes server with
    | none => dsStats
    | some serverType =>
      precomputedData.deliveryServiceStats.entries.foldl (fun dsStats entry =>
        addPrecomputedStat arith server cachegroup serverType dsStats entry.1 entry.2) dsStats

end Merge

section PerSec

variable {α : Type} (arith : Arith α)

def bytesPerKilobit : Int := 125

def newLastDSStat : LastDSStat α where
  caches := ∅
  cacheGroups := ∅
  type := ∅
  total := .empty arith
  available := false

def lastAt {κ : Type} [DecidableEq κ] (table : AList fun _ : κ => LastStatsData α) (key : κ) : LastStatsData α :=
  (table.lookup key).getD (.empty arith)

def addLastStatsToStatCacheStats (s : StatCacheStats α) (l : LastStatsData α) : StatCacheStats α :=
  { s with
    kbps := arith.div l.bytes.perSec (arith.ofInt bytesPerKilobit)
    tps2xx := l.status2xx.perSec
    tps3xx := l.status3xx.perSec
    tps4xx := l.status4xx.perSec
    tps5xx := l.status5xx.perSec
    tpsTotal := arith.add (arith.add (arith.add l.status2xx.perSec l.status3xx.perSec) l.status4xx.perSec) l.status5xx.perSec }

def addLastDSStatTotals (lastStat : LastDSStat α) (cachesReporting : AList fun _ : String => Bool)
    (serverCachegroups : String → Option String) (serverTypes : String → Option CacheType) : LastDSStat α :=
  let start := { lastStat with cacheGroups := ∅, type := ∅, total := .empty arith }
  lastStat.caches.entries.foldl (fun lastStat entry =>
    if (cachesReporting.lookup entry.1).getD false = false then lastStat
    else
      { lastStat with
        cacheGroups := match serverCachegroups entry.1 with
          | some cacheGroup =>
            lastStat.cacheGroups.insert cacheGroup (sumLastStats arith (lastAt arith lastStat.cacheGroups cacheGroup) entry.2)
          | none => lastStat.cacheGroups
        type := match serverTypes entry.1 with
          | some cacheType => lastStat.type.insert cacheType (sumLastStats arith (lastAt arith lastStat.type cacheType) entry.2)
          | none => lastStat.type
        total := sumLastStats arith lastStat.total entry.2 }) start

def getDSErr (dsName : String) (dsStats : StatCacheStats α) (mc : String → Option TMDeliveryService) : Option String :=
  let ds := (mc dsName).getD ⟨0, 0⟩
  if 0 < ds.totalTpsThreshold ∧ arith.less (arith.ofInt ds.totalTpsThreshold) dsStats.tpsTotal then
    some ("total.tps_total too high (" ++ arith.print2 dsStats.tpsTotal ++ " > " ++ toString ds.totalTpsThreshold ++ ")")
  else if 0 < ds.totalKbpsThreshold ∧ arith.less (arith.ofInt ds.totalKbpsThreshold) dsStats.kbps then
    some ("total.kbps too high (" ++ arith.print2 dsStats.kbps ++ " > " ++ toString ds.totalKbpsThreshold ++ ")")
  else none

/-- One turn of the loop over the caches of a delivery service. -/
def addCacheKbps (precomputed : AList fun _ : String => PrecomputedData α)
    (state : LastDSStat α × AList fun _ : String => StatCacheStats α) (cacheName : String) (cacheStats : StatCacheStats α) :
    LastDSStat α × AList fun _ : String => StatCacheStats α :=
  let withKbps (lastStat : LastDSStat α) :=
    state.2.insert cacheName
      { cacheStats with kbps := arith.div (lastAt arith lastStat.caches cacheName).bytes.perSec (arith.ofInt bytesPerKilobit) }
  match precomputed.lookup cacheName with
  | none => (state.1, withKbps state.1)
  | some data =>
    let (last, err) := addLastStats arith (lastAt arith state.1.caches cacheName) cacheStats data.time
    let lastStat := { state.1 with caches := state.1.caches.insert cacheName last }
    if err then (lastStat, state.2) else (lastStat, withKbps lastStat)

def addDSPerSecStats (dsName : String) (stat : Stat α) (lastStats : LastStats α) (dsStats : Stats α)
    (serverCachegroups : String → Option String) (serverTypes : String → Option CacheType)
    (mc : String → Option TMDeliveryService) (precomputed : AList fun _ : String => PrecomputedData α) :
    Stats α × LastStats α :=
  let lastStat := (lastStats.deliveryServices.lookup dsName).getD (newLastDSStat arith)
  let (lastStat, caches) := stat.caches.entries.foldl (fun state entry =>
    addCacheKbps arith precomputed state entry.1 entry.2) (lastStat, stat.caches)
  let lastStat := addLastDSStatTotals arith lastStat stat.commonStats.cachesReporting serverCachegroups serverTypes
  let cacheGroups := lastStat.cacheGroups.entries.foldl (fun groups entry =>
    groups.insert entry.1 (addLastStatsToStatCacheStats arith (statsAt arith groups entry.1) entry.2)) stat.cacheGroups
  let types := lastStat.type.entries.foldl (fun types entry =>
    types.insert entry.1 (addLastStatsToStatCacheStats arith (statsAt arith types entry.1) entry.2)) stat.types
  let totalStats := addLastStatsToStatCacheStats arith stat.totalStats lastStat.total
  let commonStats := match getDSErr arith dsName totalStats mc with
    | some err => { stat.commonStats with isAvailable := false, isHealthy := false, errorStr := err }
    | none => stat.commonStats
  let lastStat := { lastStat with available := commonStats.isAvailable }
  (setStat dsStats dsName { commonStats, cacheGroups, types, caches, totalStats },
    { lastStats with deliveryServices := lastStats.deliveryServices.insert dsName lastStat })

def addPerSecStats (precomputed : AList fun _ : String => PrecomputedData α) (dsStats : Stats α) (lastStats : LastStats α)
    (serverCachegroups : String → Option String) (serverTypes : String → Option CacheType)
    (mc : String → Option TMDeliveryService) : Stats α × LastStats α :=
  let (dsStats, lastStats) := dsStats.deliveryService.entries.foldl (fun state entry =>
    addDSPerSecStats arith entry.1 entry.2 state.2 state.1 serverCachegroups serverTypes mc precomputed) (dsStats, lastStats)
  (dsStats, precomputed.entries.foldl (fun lastStats entry => addCachePerSecStats arith entry.1 lastStats entry.2) lastStats)

end PerSec

/-- `deliveryServices` are the keys of `deliveryServiceServers`. -/
def createStats {α : Type} (arith : Arith α) {engine : Regexp.Engine} (precomputed : AList fun _ : String => PrecomputedData α)
    (toData : ToData.TOData engine) (deliveryServices : List String) (crStates : Peer.CRStates) (lastStats : LastStats α) (now : Int)
    (mc : String → Option TMDeliveryService) : Stats α × LastStats α :=
  let dsStats := deliveryServices.foldl (fun dsStats deliveryService =>
    if deliveryService = "" then dsStats else setStat dsStats deliveryService (newStat arith)) ⟨∅, 0⟩
  let dsStats := setStaticData dsStats toData.deliveryServiceServers
  let dsStats := addAvailableData arith dsStats crStates toData.serverCachegroups toData.serverDeliveryServices
    toData.serverTypes precomputed
  let dsStats := precomputed.entries.foldl (fun dsStats entry =>
    addPrecomputed arith toData.serverCachegroups toData.serverTypes dsStats entry.1 entry.2) dsStats
  let (perSecStats, lastStats) := addPerSecStats arith precomputed dsStats lastStats toData.serverCachegroups
    toData.serverTypes mc
  ({ perSecStats with time := now }, lastStats)

end TrafficControl.TrafficMonitor.Ds
