import TrafficControl.TrafficMonitor.Health.Cache
import Mathlib.Data.List.AList

set_option autoImplicit false

-- What Traffic Monitor keeps of the delivery services; `α` are the `float64`. A stat has its value only: no code sets or
-- reads the time of its `StatMeta`.
namespace TrafficControl.TrafficMonitor

def CacheType.string : CacheType → String
  | .EDGE => "EDGE"
  | .MID => "MID"
  | .INVALIDCACHETYPE => "INVALIDCACHETYPE"

theorem CacheType.string_injective {t other : CacheType} (same : t.string = other.string) : t = other := by
  cases t <;> cases other <;> first | rfl | exact absurd same (by decide)

namespace DsData

structure StatCacheStats (α : Type) where
  outBytes : Int
  isAvailable : Bool
  status5xx : Int
  status4xx : Int
  status3xx : Int
  status2xx : Int
  inBytes : α
  kbps : α
  tps5xx : α
  tps4xx : α
  tps3xx : α
  tps2xx : α
  errorString : String
  tpsTotal : α

structure StatCommon where
  cachesConfiguredNum : Int
  cachesReporting : AList fun _ : String => Bool
  errorStr : String
  statusStr : String
  isHealthy : Bool
  isAvailable : Bool
  cachesAvailableNum : Int
  -- a nil slice is `none`
  cachesDisabled : Option (List String)

structure Stat (α : Type) where
  commonStats : StatCommon
  cacheGroups : AList fun _ : String => StatCacheStats α
  types : AList fun _ : CacheType => StatCacheStats α
  caches : AList fun _ : String => StatCacheStats α
  totalStats : StatCacheStats α

/-- `time` is in nanoseconds. -/
structure Stats (α : Type) where
  deliveryService : AList fun _ : String => Stat α
  time : Int

structure LastStatData (α : Type) where
  perSec : α
  stat : Int
  time : Int
  deriving DecidableEq

structure LastStatsData (α : Type) where
  bytes : LastStatData α
  status2xx : LastStatData α
  status3xx : LastStatData α
  status4xx : LastStatData α
  status5xx : LastStatData α

structure LastDSStat (α : Type) where
  caches : AList fun _ : String => LastStatsData α
  cacheGroups : AList fun _ : String => LastStatsData α
  type : AList fun _ : CacheType => LastStatsData α
  total : LastStatsData α
  available : Bool

structure LastStats (α : Type) where
  deliveryServices : AList fun _ : String => LastDSStat α
  caches : AList fun _ : String => LastStatsData α

/-- The errors of `astatsProcessStat`, with what their texts show. -/
inductive StatError (α : Type) where
  | noInitialPart
  | notProcessed
  | unknownInitialPart (stat part : String)
  | noPluginPart
  | unknownPluginPart (part : String)
  | fewParts
  | noMatch (fqdn stat : String)
  | emptyMatch (fqdn stat : String)
  | noCachegroup
  | noType
  | wrongType (name : String) (val : Value α)
  | unknownStat (name : String)

/-- The time is in nanoseconds after the zero time. -/
structure PrecomputedData (α : Type) where
  deliveryServiceStats : AList fun _ : String => Stat α
  outBytes : Int
  maxKbps : Int
  errors : List (StatError α)
  reporting : Bool
  time : Int

/-- What the code does with a `float64`; `seconds` is that of a `Duration`, `print2` the verb `%.2f`. -/
structure Arith (α : Type) where
  zero : α
  add : α → α → α
  div : α → α → α
  ofInt : Int → α
  toInt : α → Int
  seconds : Int → α
  less : α → α → Bool
  print2 : α → String

/-- Numbers without a fraction. -/
def wholeNumbers : Arith Int where
  zero := 0
  add := (· + ·)
  div := Int.tdiv
  ofInt := fun n => n
  toInt := fun n => n
  seconds := fun d => d / 10 ^ 9
  less := fun x y => x < y
  print2 := fun n => toString n ++ ".00"

section Zero

variable {α : Type} (arith : Arith α)

def StatCacheStats.empty : StatCacheStats α where
  outBytes := 0
  isAvailable := false
  status5xx := 0
  status4xx := 0
  status3xx := 0
  status2xx := 0
  inBytes := arith.zero
  kbps := arith.zero
  tps5xx := arith.zero
  tps4xx := arith.zero
  tps3xx := arith.zero
  tps2xx := arith.zero
  errorString := ""
  tpsTotal := arith.zero

def StatCommon.empty : StatCommon where
  cachesConfiguredNum := 0
  cachesReporting := ∅
  errorStr := ""
  statusStr := ""
  isHealthy := false
  isAvailable := false
  cachesAvailableNum := 0
  cachesDisabled := none

def newStat : Stat α where
  commonStats := .empty
  cacheGroups := ∅
  types := ∅
  caches := ∅
  totalStats := .empty arith

def LastStatData.empty : LastStatData α where
  perSec := arith.zero
  stat := 0
  time := 0

def LastStatsData.empty : LastStatsData α where
  bytes := .empty arith
  status2xx := .empty arith
  status3xx := .empty arith
  status4xx := .empty arith
  status5xx := .empty arith

end Zero

inductive Counter where
  | bytes
  | status2xx
  | status3xx
  | status4xx
  | status5xx
  deriving DecidableEq

namespace Counter

variable {α : Type}

def last : Counter → LastStatsData α → LastStatData α
  | bytes => LastStatsData.bytes
  | status2xx => LastStatsData.status2xx
  | status3xx => LastStatsData.status3xx
  | status4xx => LastStatsData.status4xx
  | status5xx => LastStatsData.status5xx

def value : Counter → StatCacheStats α → Int
  | bytes => StatCacheStats.outBytes
  | status2xx => StatCacheStats.status2xx
  | status3xx => StatCacheStats.status3xx
  | status4xx => StatCacheStats.status4xx
  | status5xx => StatCacheStats.status5xx

end Counter

end DsData

end TrafficControl.TrafficMonitor
