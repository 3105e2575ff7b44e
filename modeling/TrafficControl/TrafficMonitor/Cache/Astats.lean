import TrafficControl.Lib.CStrings
import TrafficControl.TrafficMonitor.DsData.Data
import TrafficControl.TrafficMonitor.Health.Vitals
import TrafficControl.TrafficMonitor.ToData.Data

set_option autoImplicit false

-- What a cache's answer is turned into: the stats of its delivery services and the bytes that it sent. A result `none` is a
-- panic.
namespace TrafficControl.TrafficMonitor.Astats

open DsData MachineInt ToData Regexp

def slice {β : Type} (s : List β) (lo hi : Nat) : Option (List β) :=
  if lo ≤ hi ∧ hi ≤ s.length then some ((s.take hi).drop lo) else none

def split (s : String) : List String := (s.toList.splitOn '.').map String.ofList

section OutBytes

/-- Behind the name and one more byte. What is left of a longer character is no part of a number. -/
def behindInterface (procNetDev iface : String) : Option (Option String) :=
  match CStrings.strstr iface.toList procNetDev.toList with
  | none => some none
  | some found =>
    match found.drop iface.toList.length with
    | [] => none
    | c :: rest => some (some (String.ofList (List.replicate (c.utf8Size - 1) '\ufffd' ++ rest)))

/-- The bytes, where there is no error. -/
def astatsOutBytes (procNetDev iface : String) : Option (Option Int) :=
  if procNetDev = "" then some none
  else if iface = "" then some none
  else do
    match ← behindInterface procNetDev iface with
    | none => some none
    | some procNetDevIfaceBytes =>
      let procNetDevIfaceBytesArr := fields procNetDevIfaceBytes
      if procNetDevIfaceBytesArr.length < 10 then some none
      else
        let (outBytes, err) := parseInt (← procNetDevIfaceBytesArr[8]?)
        some (if err.isNone then some outBytes else none)

end OutBytes

section Stats

variable {α : Type} (arith : Arith α)

def wantFloat {β : Type} (name : String) (val : Value α) (set : α → β) : Except (StatError α) β :=
  match val with
  | .float v => .ok (set v)
  | _ => .error (.wrongType name val)

def wantInt {β : Type} (name : String) (val : Value α) (set : Int → β) : Except (StatError α) β :=
  match val with
  | .int v => .ok (set v)
  | _ => .error (.wrongType name val)

def astatsAddCacheStat (stat : StatCacheStats α) (name : String) (val : Value α) : Except (StatError α) (StatCacheStats α) :=
  match name with
  | "status_2xx" => wantFloat name val fun v => { stat with status2xx := wrap 64 (stat.status2xx + arith.toInt v) }
  | "status_3xx" => wantFloat name val fun v => { stat with status3xx := wrap 64 (stat.status3xx + arith.toInt v) }
  | "status_4xx" => wantFloat name val fun v => { stat with status4xx := wrap 64 (stat.status4xx + arith.toInt v) }
  | "status_5xx" => wantFloat name val fun v => { stat with status5xx := wrap 64 (stat.status5xx + arith.toInt v) }
  | "out_bytes" => wantFloat name val fun v => { stat with outBytes := wrap 64 (stat.outBytes + arith.toInt v) }
  | "is_available" =>
    match val with
    | .bool v => .ok (if v then { stat with isAvailable := true } else stat)
    | _ => .error (.wrongType name val)
  | "in_bytes" => wantFloat name val fun v => { stat with inBytes := arith.add stat.inBytes v }
  | "tps_2xx" => wantInt name val fun v => { stat with tps2xx := arith.add stat.tps2xx (arith.ofInt v) }
  | "tps_3xx" => wantInt name val fun v => { stat with tps3xx := arith.add stat.tps3xx (arith.ofInt v) }
  | "tps_4xx" => wantInt name val fun v => { stat with tps4xx := arith.add stat.tps4xx (arith.ofInt v) }
  | "tps_5xx" => wantInt name val fun v => { stat with tps5xx := arith.add stat.tps5xx (arith.ofInt v) }
  | "error_string" =>
    match val with
    | .text v => .ok { stat with errorString := stat.errorString ++ (v ++ ", ") }
    | _ => .error (.wrongType name val)
  | "tps_total" => wantFloat name val fun v => { stat with tpsTotal := arith.add stat.tpsTotal v }
  | "status_unknown" => .error .notProcessed
  | _ => .error (.unknownStat name)

abbrev DsStats (α : Type) := AList fun _ : String => Stat α

-- `visit` is the order in which the lookup for a stat of the server goes through the map of expressions.
variable {engine : Engine} (toData : ToData.TOData engine) (visit : String → List (engine.Expr × String)) (server : String)

def putStat (stats : DsStats α) (ds statName : String) (value : Value α) : Except (StatError α) (DsStats α) := do
  let dsStat := (stats.lookup ds).getD (newStat arith)
  let totalStats ← astatsAddCacheStat arith dsStat.totalStats statName value
  match toData.serverCachegroups server with
  | none => .error .noCachegroup
  | some cachegroup =>
    match toData.serverTypes server with
    | none => .error .noType
    | some cacheType =>
      .ok (stats.insert ds
        { dsStat with
          totalStats := totalStats
          cacheGroups := dsStat.cacheGroups.insert cachegroup totalStats
          types := dsStat.types.insert cacheType totalStats
          caches := dsStat.caches.insert server totalStats })

def astatsProcessStatPluginRemapStats (stats : DsStats α) (stat : String) (statParts : List String) (value : Value α) :
    Option (Except (StatError α) (DsStats α)) :=
  if statParts.length < 3 then some (.error .fewParts)
  else do
    let subsubdomain ← statParts[0]?
    let subdomain ← statParts[1]?
    let domainParts ← slice statParts 2 (statParts.length - 1)
    let domain := String.intercalate "." domainParts
    let fqdn := subsubdomain ++ "." ++ subdomain ++ "." ++ domain
    let found := toData.deliveryServiceRegexes.deliveryService (visit stat) domain.toList subdomain.toList subsubdomain.toList
    match found with
    | none => some (.error (.noMatch fqdn (String.intercalate "." statParts)))
    | some ds =>
      if ds = "" then some (.error (.emptyMatch fqdn (String.intercalate "." statParts)))
      else
        let statName ← statParts[statParts.length - 1]?
        some (putStat arith toData server stats ds statName value)

def astatsProcessStatPlugin (stats : DsStats α) (stat : String) (statParts : List String) (value : Value α) :
    Option (Except (StatError α) (DsStats α)) :=
  if statParts.length < 1 then some (.error .noPluginPart)
  else do
    match ← statParts[0]? with
    | "remap_stats" =>
      astatsProcessStatPluginRemapStats arith toData visit server stats stat (← slice statParts 1 statParts.length) value
    | part => some (.error (.unknownPluginPart part))

def astatsProcessStat (stats : DsStats α) (stat : String) (value : Value α) : Option (Except (StatError α) (DsStats α)) :=
  let parts := split stat
  if parts.length < 1 then some (.error .noInitialPart)
  else do
    match ← parts[0]? with
    | "plugin" => astatsProcessStatPlugin arith toData visit server stats stat (← slice parts 1 parts.length) value
    | "proxy" => some (.error .notProcessed)
    | "server" => some (.error .notProcessed)
    | part => some (.error (.unknownInitialPart stat part))

/-- A stat that is not processed is no error. -/
def processed (state : DsStats α × List (StatError α)) (stat : String) (value : Value α) :
    Option (DsStats α × List (StatError α)) :=
  (astatsProcessStat arith toData visit server state.1 stat value).map fun
    | .ok stats => (stats, state.2)
    | .error .notProcessed => state
    | .error err => (state.1, state.2 ++ [err])

def astatsPrecompute (rawStats : AList fun _ : String => Value α) (system : AstatsSystem) : Option (PrecomputedData α) := do
  let outBytes ← astatsOutBytes system.procNetDev system.infName
  let (stats, errors) ← rawStats.entries.foldlM (fun state entry => processed arith toData visit server state entry.1 entry.2)
    (∅, [])
  some
    { deliveryServiceStats := stats
      outBytes := outBytes.getD 0
      maxKbps := wrap 64 (system.infSpeed * 1000)
      errors := errors
      reporting := false
      time := 0 }

end Stats

end TrafficControl.TrafficMonitor.Astats
