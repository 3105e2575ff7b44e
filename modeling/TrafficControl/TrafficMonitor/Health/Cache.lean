import Mathlib.Data.Finset.Basic
import Mathlib.Data.List.AList
import TrafficControl.Lib.MachineInt

set_option autoImplicit false

namespace TrafficControl.TrafficMonitor

open MachineInt

-- What the monitor does with a `float64`: conversion, comparisons and the verbs `%v` and `%.2f`.
structure Float64 (α : Type) where
  ofInt : Int → α
  equal : α → α → Bool
  less : α → α → Bool
  print : α → String
  print2 : α → String

-- An `interface{}` from a decoder or a computed stat; the integer kinds are one.
inductive Value (α : Type) where
  | int (value : Int)
  | float (value : α)
  | text (value : String)
  | bool (value : Bool)
  | other

inductive CacheStatus where
  | AdminDown
  | Online
  | Offline
  | Reported
  | Invalid
deriving DecidableEq

namespace CacheStatus

def string : CacheStatus → String
  | AdminDown => "ADMIN_DOWN"
  | Online => "ONLINE"
  | Offline => "OFFLINE"
  | Reported => "REPORTED"
  | Invalid => "INVALIDCACHESTATUS"

def fromString (s : String) : CacheStatus :=
  let s := s.toList.map Char.toLower
  if s = "admin_down".toList ∨ s = "admindown".toList then AdminDown
  else if s = "offline".toList then Offline
  else if s = "online".toList then Online
  else if s = "reported".toList then Reported
  else Invalid

end CacheStatus

structure HealthThreshold (α : Type) where
  val : α
  comparator : String

-- `thresholds` are in some order; a loop over the map visits them in another one each time.
structure TMProfile (α : Type) where
  healthPollingURL : String
  thresholds : List (String × HealthThreshold α)

structure TrafficServer where
  profile : String
  serverStatus : String

structure TrafficMonitorConfigMap (α : Type) where
  trafficServer : String → Option TrafficServer
  profile : String → Option (TMProfile α)

structure AstatsSystem where
  infName : String
  infSpeed : Int
  procNetDev : String
  procLoadavg : String
  configLoadRequest : Int
  lastReloadRequest : Int
  configReloads : Int
  lastReload : Int
  astatsLoad : Int
  notAvailable : Bool

structure Vitals (α : Type) where
  loadAvg : α
  kbpsOut : Int
  maxKbpsOut : Int

-- A result of a poll; `ToInfo` only leaves `ats` out. `range` is the order in which the evaluation
-- of this result visits the thresholds.
structure Result (α : Type) where
  id : String
  error : Option String
  requestTime : Int
  vitals : Vitals α
  system : AstatsSystem
  ats : AList fun _ : String => Value α
  available : Bool
  range : List (String × HealthThreshold α) → List (String × HealthThreshold α)
  range_perm : ∀ thresholds, (range thresholds).Perm thresholds

-- An evaluation may visit the thresholds as they are listed.
theorem listed_perm (thresholds : List (String × HealthThreshold Int)) : thresholds.Perm thresholds := .refl _

abbrev ResultStatValHistory (α : Type) := Option (String → Option (List (Value α)))

section Evaluation

variable {α : Type} (float64 : Float64 α)

-- The combined state that `EvalCache` passes on is the zero value.
def computedStats (stat : String) (info : Result α) (serverInfo : TrafficServer) (serverProfile : TMProfile α) :
    Option (Value α) :=
  match stat with
  | "availableBandwidthInKbps" => some (.int (wrap 64 (info.vitals.maxKbpsOut - info.vitals.kbpsOut)))
  | "availableBandwidthInMbps" =>
    some (.int ((wrap 64 (info.vitals.maxKbpsOut - info.vitals.kbpsOut)).tdiv 1000))
  | "bandwidth" => some (.int info.vitals.kbpsOut)
  | "error-string" => some (.text (info.error.getD "false"))
  | "isAvailable" => some (.bool false)
  | "isHealthy" => some (.bool (decide (CacheStatus.fromString serverInfo.serverStatus = .AdminDown)))
  | "kbps" => some (.int info.vitals.kbpsOut)
  | "loadavg" => some (.float info.vitals.loadAvg)
  | "maxKbps" => some (.int info.vitals.maxKbpsOut)
  | "queryTime" => some (.int (info.requestTime.tdiv 1000000))
  | "stateUrl" => some (.text serverProfile.healthPollingURL)
  | "status" => some (.text serverInfo.serverStatus)
  | "system.astatsLoad" => some (.int info.system.astatsLoad)
  | "system.configReloadRequests" => some (.int info.system.configLoadRequest)
  | "system.configReloads" => some (.int info.system.configReloads)
  | "system.inf.name" => some (.text info.system.infName)
  | "system.inf.speed" => some (.int info.system.infSpeed)
  | "system.lastReload" => some (.int info.system.lastReload)
  | "system.lastReloadRequest" => some (.int info.system.lastReloadRequest)
  | "system.notAvailable" => some (.bool info.system.notAvailable)
  | "system.proc.loadavg" => some (.text info.system.procLoadavg)
  | "system.proc.net.dev" => some (.text info.system.procNetDev)
  | _ => none

-- Which stats are computed does not depend on the arguments.
def Result.hasStat (result : Result α) (stat : String) : Bool :=
  (computedStats stat result ⟨"", ""⟩ ⟨"", []⟩).isSome || (result.ats.lookup stat).isSome

def toNumeric : Value α → Option α
  | .int value => some (float64.ofInt value)
  | .float value => some value
  | _ => none

def inThreshold (threshold : HealthThreshold α) (val : α) : Bool :=
  match threshold.comparator with
  | "=" => float64.equal val threshold.val
  | ">" => float64.less threshold.val val
  | "<" => float64.less val threshold.val
  | ">=" => float64.less threshold.val val || float64.equal val threshold.val
  | "<=" => float64.less val threshold.val || float64.equal val threshold.val
  | _ => true

def exceedsThresholdMsg (stat : String) (threshold : HealthThreshold α) (val : α) : String :=
  let message (text sign : String) : String :=
    stat ++ " " ++ text ++ " (" ++ float64.print2 val ++ " " ++ sign ++ " " ++ float64.print2 threshold.val ++ ")"
  match threshold.comparator with
  | "=" => message "not equal" "!="
  | ">" => message "too low" "<"
  | "<" => message "too high" ">"
  | ">=" => message "too low" "<="
  | "<=" => message "too high" ">="
  | comparator =>
    "ERROR: Invalid Threshold: \x7bVal:" ++ float64.print threshold.val ++ " Comparator:" ++ comparator ++ "\x7d"

def eventDesc (status : CacheStatus) (message : String) : String := status.string ++ " - " ++ message

/-- What `EvalCache` returns: whether the cache is available, why, and the stat that exceeded its
threshold. -/
structure Evaluation where
  isAvailable : Bool
  why : String
  unavailableStat : String
deriving DecidableEq

-- A stat that is not there or not a number is skipped.
def exceeded (result : Result α) (resultStats : ResultStatValHistory α) (serverInfo : TrafficServer)
    (serverProfile : TMProfile α) (status : CacheStatus) (entry : String × HealthThreshold α) : Option Evaluation := do
  let (stat, threshold) := entry
  let resultStat ← match computedStats stat result serverInfo serverProfile with
    | some value => some value
    | none => resultStats.bind fun resultStats => (resultStats stat).bind List.head?
  let resultStatNum ← toNumeric float64 resultStat
  if inThreshold float64 threshold resultStatNum then none
  else some ⟨false, eventDesc status (exceedsThresholdMsg float64 stat threshold resultStatNum), stat⟩

def evalCache (result : Result α) (resultStats : ResultStatValHistory α) (mc : TrafficMonitorConfigMap α) : Evaluation :=
  match mc.trafficServer result.id with
  | none => ⟨false, "ERROR - server missing in Traffic Ops monitor config", ""⟩
  | some serverInfo =>
    match mc.profile serverInfo.profile with
    | none => ⟨false, "ERROR - server profile missing in Traffic Ops monitor config", ""⟩
    | some serverProfile =>
      let status := CacheStatus.fromString serverInfo.serverStatus
      let availability := if result.available then "available" else "unavailable"
      match status, result.error with
      | .Invalid, _ => ⟨false, eventDesc status (availability ++ "; invalid status"), ""⟩
      | .AdminDown, _ => ⟨false, eventDesc status availability, ""⟩
      | .Offline, _ => ⟨false, eventDesc status availability, ""⟩
      | .Online, _ => ⟨true, eventDesc status availability, ""⟩
      | .Reported, some error => ⟨false, eventDesc status error, ""⟩
      | .Reported, none =>
        if result.system.notAvailable then ⟨false, eventDesc status "system.notAvailable == true", ""⟩
        else
          ((result.range serverProfile.thresholds).findSome?
            (exceeded float64 result resultStats serverInfo serverProfile status)).getD
              ⟨result.available, eventDesc status availability, ""⟩

end Evaluation

structure AvailableStatus where
  available : Bool
  status : String
  why : String
  unavailableStat : String
  poller : String
deriving DecidableEq

abbrev AvailableStatuses := String → Option AvailableStatus

inductive CacheType where
  | EDGE
  | MID
  | INVALIDCACHETYPE
deriving DecidableEq

structure TOData where
  deliveryServiceServers : String → Option (List String)
  serverTypes : String → Option CacheType
  serverCachegroups : String → Option String

-- The code lists the disabled locations in the order in which a loop visits a map.
structure CRStatesDeliveryService where
  disabledLocations : Finset String
  isAvailable : Bool
deriving DecidableEq

structure CRStates where
  caches : String → Option Bool
  deliveryService : String → Option CRStatesDeliveryService

namespace CRStates

def getCache (this : CRStates) (name : String) : Option Bool := this.caches name

def setCache (this : CRStates) (cacheName : String) (available : Bool) : CRStates :=
  match this.caches cacheName with
  | some _ => { this with caches := Function.update this.caches cacheName (some available) }
  | none => this

end CRStates

-- An event without its time.
structure Event where
  index : Nat
  description : String
  name : String
  hostname : String
  type : CacheType
  available : Bool
deriving DecidableEq

structure ThreadsafeEvents where
  events : List Event
  nextIndex : Nat
  max : Nat
deriving DecidableEq

-- `int(o.max)` is negative from 2^63 on. Slicing beyond the list is a panic, `none`.
def ThreadsafeEvents.add (this : ThreadsafeEvents) (e : Event) : Option ThreadsafeEvents :=
  let events := { e with index := this.nextIndex } :: this.events
  let nextIndex := (this.nextIndex + 1) % 2 ^ 64
  if wrap 64 this.max < events.length then
    if 0 < this.max ∧ this.max - 1 ≤ events.length then some { this with events := events.take (this.max - 1), nextIndex }
    else none
  else some { this with events, nextIndex }

end TrafficControl.TrafficMonitor
