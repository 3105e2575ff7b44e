import Mathlib.Logic.Function.Basic
import TrafficControl.Lib.Runs
import TrafficControl.TrafficOps.Ort.ConfigFiles

set_option autoImplicit false

-- The update flags of Traffic Ops, and the script that applies and clears them on the caches.
namespace Ort

abbrev Text := List Char

structure Server where
  id : Nat
  hostName : String
  type : String
  cachegroup : Nat
  cdn : Nat
  profile : Nat
  status : String
  updPending : Bool
  revalPending : Bool
deriving DecidableEq

/-- A file as the API lists it. -/
structure ConfigFile where
  fnameOnDisk : String
  location : Option String
  url : Option String
deriving DecidableEq

/-- What Traffic Ops generates for the servers. -/
structure Generated where
  configFiles : String → List ConfigFile
  text : String → String → Option Text
  info : String → Info

structure TrafficOps where
  servers : List Server
  ids : (servers.map (·.id)).Nodup
  parentCachegroup : Nat → Option Nat
  -- The profiles that have a location of regex_revalidate.config.
  profiles : List Nat
  useRevalPending : Option String
  generated : Generated

section Files

namespace ConfigFile

variable (file : ConfigFile)

-- `m/front(.*)back$/`
def isBetween (front back : String) : Bool :=
  file.fnameOnDisk.toList.tails.any fun rest =>
    front.toList.isPrefixOf rest && back.toList.isSuffixOf (rest.drop front.length)

def isLocated (word : String) : Bool := file.location.any fun location => contains word.toList location.toList

def getFilenameOnDisk : String :=
  if "to_ext_".toList.isPrefixOf file.fnameOnDisk.toList && ".config".toList.isSuffixOf (file.fnameOnDisk.toList.drop 7) then
    String.ofList (file.fnameOnDisk.toList.drop 7)
  else file.fnameOnDisk

def onDisk : ConfigFile := { file with fnameOnDisk := file.getFilenameOnDisk }

/-- The files that are processed in the mode syncds. -/
def isSynced : Bool :=
  file.fnameOnDisk ∈ ["records.config", "remap.config", "parent.config", "cache.config", "hosting.config", "regex_revalidate.config",
    "astats.config", "logs_xml.config", "ssl_multicert.config"] ||
  ["url_sig_", "uri_signing_", "hdr_rw_", "cacheurl_", "regex_remap_"].any (file.isBetween · ".config") ||
  file.isBetween "" ".cer" || file.isBetween "" ".key" ||
  (contains "_facts".toList file.fnameOnDisk.toList && file.isLocated "/opt/ort") ||
  file.isLocated "cron" || (file.url.isSome && file.location.isSome)

/-- Whether `process_reload_restarts` sets the number of a successful update to that of a needed one. -/
def resetsSuccessful : Bool :=
  let name := file.fnameOnDisk.toList
  let between front := file.fnameOnDisk.toList.tails.any fun rest =>
    front.toList.isPrefixOf rest && contains ".config".toList (rest.drop front.length)
  !(between "url_sig_" || between "uri_signing_" || between "hdr_rw_" || file.fnameOnDisk ∈ ["plugin.config", "50-ats.rules"] ||
    (file.isLocated "ssl" && (file.isBetween "" ".cer" || file.isBetween "" ".key")) || file.isLocated "trafficserver" ||
    file.fnameOnDisk ∈ ["sysctl.conf", "ntpd.conf"]) &&
  (contains "_facts".toList name || contains "cron".toList name)

end ConfigFile

end Files

section Flags

/-- What a request for the status of the updates answers of a server. -/
structure UpdateStatus where
  updPending : Bool
  revalPending : Option Bool
  parentPending : Bool
  parentRevalPending : Bool
deriving DecidableEq

-- The cast of a text to a boolean in the database.
def boolean (value : String) : Option Bool :=
  let name := Trim.trim isSpace (value.toList.map Char.toLower)
  if ["t", "tr", "tru", "true", "y", "ye", "yes", "on", "1"].any (·.toList = name) then some true
  else if ["f", "fa", "fal", "fals", "false", "n", "no", "of", "off", "0"].any (·.toList = name) then some false
  else none

namespace TrafficOps

variable (ops : TrafficOps)

def host? (hostName : String) : Option Server := ops.servers.find? fun s => s.hostName = hostName

/-- The servers of the parent cache group. -/
def parents (s : Server) : List Server :=
  ops.servers.filter fun p => some p.cachegroup = ops.parentCachegroup s.cachegroup && p.cdn = s.cdn && p.status ≠ "OFFLINE"

-- The handler of the API fails where the parameter is no boolean.
def getServerUpdateStatus (hostName : String) : Option (List UpdateStatus) :=
  (ops.useRevalPending.elim (some false) boolean).map fun useReval =>
    if hostName = "all" then ops.servers.map fun s => ⟨s.updPending, some (s.revalPending && useReval), false, false⟩
    else (ops.servers.filter fun s => s.hostName = hostName).map fun s =>
      let parents := if s.type = "EDGE" then ops.parents s else []
      ⟨s.updPending, some (s.revalPending && useReval), parents.any (·.updPending), parents.any (·.revalPending)⟩

/-- The handler of the route that the script falls back to. -/
def readupdate (hostName : String) : List UpdateStatus :=
  let useReval := ops.useRevalPending.any fun value => value ≠ "" && value ≠ "0"
  let parents := if hostName = "all" then [] else
    (ops.host? hostName).elim [] fun s => if "EDGE".toList.isPrefixOf s.type.toList then ops.parents s else []
  (ops.servers.filter fun s => hostName = "all" || s.hostName = hostName).map fun s =>
    ⟨s.updPending, if useReval then some s.revalPending else none, parents.any (·.updPending), parents.any (·.revalPending)⟩

/-- Servers whose flags or status are changed. -/
def alter (f : Server → Server) (kept : ∀ s, (f s).id = s.id) : TrafficOps :=
  { ops with servers := ops.servers.map f, ids := by simpa [Function.comp_def, kept] using ops.ids }

def setFlags (rows : Server → Bool) (upd reval : Option Bool) : TrafficOps :=
  ops.alter (fun s => if rows s then { s with updPending := upd.getD s.updPending, revalPending := reval.getD s.revalPending } else s)
    fun s => by split <;> rfl

def setStatus (id : Nat) (status : String) : TrafficOps :=
  ops.alter (fun s => if s.id = id then { s with status := status } else s) fun s => by split <;> rfl

def separatesReval : Bool := ops.useRevalPending.any fun value => value ≠ "0"

-- What a server that is not known posts has no effect.
def postupdate (hostName : String) (updated : Bool) (revalUpdated : Option Bool) : TrafficOps :=
  (ops.host? hostName).elim ops fun server =>
    ops.setFlags (fun s => s.id = server.id) (some updated) (if ops.separatesReval then revalUpdated else none)

-- Invalidating content queues the servers of the CDN.
def setUpdateServerBits (cdn : Nat) : TrafficOps :=
  let applicable s := s.cdn = cdn && s.status ∉ ["OFFLINE", "PRE_PROD"] && s.profile ∈ ops.profiles
  if ops.separatesReval then ops.setFlags applicable none (some true) else ops.setFlags applicable (some true) none

end TrafficOps

/-- The servers whose updates are queued by one request. -/
inductive QueueTarget where
  | all
  | server (id : Nat)
  | children (id : Nat)
  | cachegroup (cachegroup cdn : Nat)
  | cdn (cdn : Nat)
deriving DecidableEq

def QueueTarget.selects (ops : TrafficOps) (target : QueueTarget) (s : Server) : Bool :=
  match target with
  | .all => true
  | .server id => s.id = id
  | .children id => ops.servers.any fun p => p.id = id && ops.parentCachegroup s.cachegroup = some p.cachegroup && s.cdn = p.cdn
  | .cachegroup group id => s.cachegroup = group && s.cdn = id
  | .cdn id => s.cdn = id

def TrafficOps.postupdatequeue (ops : TrafficOps) (target : QueueTarget) (setqueue : Bool) : TrafficOps :=
  ops.setFlags (target.selects ops) (some setqueue) none

end Flags

section Script

inductive Mode where
  | report
  | badass
  | syncds
  | revalidate
deriving DecidableEq

structure Settings where
  mode : Mode
  dispersion : Nat
  waitForParents : Bool
deriving DecidableEq

def updateTropsNotneeded : Nat := 0

def updateTropsNeeded : Nat := 1

-- The number that a successful update has until it is changed.
def updateTropsSuccessful : Nat := 2

def updateTropsFailed : Nat := 3

inductive Audit where
  | waiting
  | unchanged
  | needed (result : Text)
  | applied
deriving DecidableEq

structure Tracked where
  file : ConfigFile
  audit : Audit
  prereqFailed : Bool
  auditFailed : Bool
deriving DecidableEq

/-- What is the same for all caches, and for all of a run. -/
structure Fleet where
  comparison : Comparison
  fullName : String → String
  -- Whether Traffic Ops has the route of the API for the status of the updates.
  updateStatusRoute : Bool

def Fleet.host (fleet : Fleet) (hostName : String) : Host := ⟨hostName, fleet.fullName hostName⟩

def Fleet.updateStatus (fleet : Fleet) (ops : TrafficOps) (hostName : String) : Option (Option UpdateStatus) :=
  if fleet.updateStatusRoute then (ops.getServerUpdateStatus hostName).map List.head? else some (ops.readupdate hostName).head?

def getCfgFileList (mode : Mode) (revalInUse : Bool) (files : List ConfigFile) : List ConfigFile :=
  let chosen := if mode = .revalidate then files.filter fun file => file.fnameOnDisk = "regex_revalidate.config"
    else if revalInUse then files.filter fun file => file.fnameOnDisk ≠ "regex_revalidate.config"
    else files
  chosen.map ConfigFile.onDisk

-- Of the files with one name the last is tracked.
def track : List ConfigFile → List Tracked
  | [] => []
  | file :: files => if files.any fun other => other.fnameOnDisk = file.fnameOnDisk then track files else ⟨file, .waiting, false, false⟩ :: track files

namespace Tracked

variable (t : Tracked)

def name : String := t.file.fnameOnDisk

/-- The file after its audit, and whether its prerequisites failed. -/
def processCfgFile (comparison : Comparison) (fetched : Option Text) (fill : Text → Text) (prereqs readable : Bool) (disk : Option Text) :
    Tracked × Bool :=
  if t.audit ≠ .waiting then (t, false)
  else if t.name = "" then ({ t with auditFailed := true }, false)
  else match fetched.filter validateResult with
    | none => (t, false)
    | some text =>
      if t.name ∈ ["plugin.config", "remap.config"] ∧ (prereqs = false ∨ t.prereqFailed = true) then ({ t with prereqFailed := true }, true)
      else if disk.isSome ∧ readable = false then ({ t with auditFailed := true }, false)
      else if comparison.changeNeeded t.name (fill text) disk then ({ t with audit := .needed (fill text) }, false)
      else ({ t with audit := .unchanged }, false)

end Tracked

def isBlocked (tracker : List Tracked) (name : String) : Bool := tracker.any fun t => t.name = name && t.prereqFailed

/-- The text that the file is replaced with. -/
def Tracked.replacement (tracker : List Tracked) (t : Tracked) : Option Text :=
  match t.audit with
  | .needed result =>
    if t.prereqFailed || t.auditFailed || (t.name = "plugin.config" && isBlocked tracker "remap.config") ||
      (t.name = "remap.config" && isBlocked tracker "plugin.config") then none else some result
  | _ => none

def replaceCfgFiles (tracker : List Tracked) : List Tracked :=
  tracker.map fun t => if (t.replacement tracker).isSome then { t with audit := .applied } else t

def copied (tracker : List Tracked) (disk : String → Option Text) (name : String) : Option Text :=
  ((tracker.filter fun t => t.name = name).findSome? (Tracked.replacement tracker)).or (disk name)

/-- The part of a run that applies the configuration, from the list of the files on. -/
inductive Job where
  | list (syncdsUpdate : Nat)
  | files (info : Info) (again : Bool) (todo : List String) (tracker : List Tracked) (syncdsUpdate successful : Nat)
  | services (syncdsUpdate successful : Nat)
  | update
  | post (updated revalUpdated : Bool)
deriving DecidableEq

inductive JobEvent where
  | list (order : List String) (installed : Bool)
  | file (prereqs readable : Bool)
  | replace (order : List String)
  | services (reloaded : Bool)
  | read
  | post (delivered : Bool)
deriving DecidableEq

/-- What a step leaves: the rest of the job, Traffic Ops and the files of the cache. -/
structure Worked where
  job : Option Job
  ops : TrafficOps
  disk : String → Option Text

def updateTrops (syncdsUpdate successful : Nat) : Option Job :=
  if syncdsUpdate = updateTropsNotneeded then none
  else if syncdsUpdate = updateTropsFailed then none
  else if syncdsUpdate = successful then some .update
  else if syncdsUpdate = updateTropsNeeded then some .update
  else none

def sendUpdateToTrops (mode : Mode) (status : UpdateStatus) : Job :=
  if mode = .revalidate then .post status.updPending false else .post false (status.revalPending.getD false)

section Step

variable (fleet : Fleet) (ops : TrafficOps) (disk : String → Option Text) (hostName : String) (mode : Mode) (revalInUse : Bool)

def processConfigFile (info : Info) (name : String) (prereqs readable : Bool) (t : Tracked) : Tracked × Bool :=
  if t.name = name ∧ (mode ≠ .syncds ∨ t.file.isSynced) then
    t.processCfgFile fleet.comparison (ops.generated.text hostName name) (info.fill (fleet.host hostName)) prereqs readable (disk name)
  else (t, false)

def Job.step : Job → JobEvent → Option Worked
  | list syncdsUpdate, .list order installed =>
    let tracker := track (getCfgFileList mode revalInUse (ops.generated.configFiles hostName))
    let update := if mode = .badass ∧ installed then updateTropsSuccessful else syncdsUpdate
    if order.Perm (tracker.map Tracked.name) then
      some ⟨some (files (ops.generated.info hostName) false order tracker update updateTropsSuccessful), ops, disk⟩
    else none
  | files info again (name :: todo) tracker syncdsUpdate successful, .file prereqs readable =>
    let process := processConfigFile fleet ops disk hostName mode info name prereqs readable
    let update := if tracker.any fun t => (process t).2 then updateTropsFailed else syncdsUpdate
    some ⟨some (files info again todo (tracker.map fun t => (process t).1) update successful), ops, disk⟩
  | files info again [] tracker syncdsUpdate successful, .replace order =>
    let replaced := if mode = .report then tracker else replaceCfgFiles tracker
    let onDisk := if mode = .report then disk else copied tracker disk
    let number := if mode ≠ .report ∧ tracker.any (fun t => (t.replacement tracker).isSome && t.file.resetsSuccessful) then updateTropsNeeded
      else successful
    if again then some ⟨some (services syncdsUpdate number), ops, onDisk⟩
    else if order.Perm (tracker.map Tracked.name) then some ⟨some (files info true order replaced syncdsUpdate number), ops, onDisk⟩
    else none
  | services syncdsUpdate successful, .services reloaded =>
    let update := if syncdsUpdate = updateTropsNeeded ∧ reloaded then successful else syncdsUpdate
    some ⟨if mode = .report then none else updateTrops update successful, ops, disk⟩
  | update, .read => (fleet.updateStatus ops hostName).map fun status => ⟨status.map (sendUpdateToTrops mode), ops, disk⟩
  | post updated revalUpdated, .post delivered =>
    some ⟨none, if delivered then ops.postupdate hostName updated (some revalUpdated) else ops, disk⟩
  | _, _ => none

end Step

/-- The part of a run before the configuration is applied. -/
inductive Stage where
  | checkReval
  | checkUpdate
  | dispersing (status : UpdateStatus)
  | waiting (parentRevalPending : Bool)
  | recheck (parentRevalPending : Bool)
  | leaving
  | checkRevalidate
  | working (job : Job)
deriving DecidableEq

/-- A run of the script. While it sleeps, and before it leaves, it may revalidate. -/
structure Process where
  settings : Settings
  revalInUse : Bool
  stage : Stage
  revalidation : Option Job
deriving DecidableEq

def checkRevalidateState (status : Option UpdateStatus) : Nat :=
  if status.any fun status => status.revalPending = some true && !status.parentRevalPending then updateTropsNeeded else updateTropsNotneeded

namespace Process

variable (p : Process)

def work (syncdsUpdate : Nat) : Process := { p with stage := .working (.list syncdsUpdate) }

-- Only the mode syncds waits.
def checkParents (status : UpdateStatus) : Process :=
  if status.parentPending ∧ p.settings.waitForParents ∧ p.revalInUse = false ∧ p.settings.mode = .syncds then
    { p with stage := if 0 < p.settings.dispersion then .waiting status.parentRevalPending else .recheck status.parentRevalPending }
  else p.work updateTropsNeeded

/-- A run goes on after an answer, unless it exits. -/
def check (status : Option UpdateStatus) : Option (Option Process) :=
  match p.stage with
  | .checkReval => some (some { p with revalInUse := status.any (·.revalPending.isSome), stage := .checkUpdate })
  | .checkUpdate => some <|
    match status with
    | none => if p.settings.mode = .syncds then none else some (p.work updateTropsNotneeded)
    | some status =>
      if status.updPending then some (if 0 < p.settings.dispersion then { p with stage := .dispersing status } else p.checkParents status)
      else if p.settings.mode = .syncds then some { p with stage := .leaving }
      else some (p.work updateTropsNotneeded)
  | .recheck parentRevalPending => some <|
    if status.any (·.parentPending) || parentRevalPending then none else some (p.work updateTropsNeeded)
  | .checkRevalidate => some <|
    if checkRevalidateState status = updateTropsNeeded then some (p.work updateTropsNeeded) else none
  | _ => none

def wake : Option Process :=
  if p.revalidation.isSome then none
  else match p.stage with
    | .dispersing status => some (p.checkParents status)
    | .waiting parentRevalPending => some { p with stage := .recheck parentRevalPending }
    | _ => none

def isSleeping : Bool :=
  match p.stage with
  | .dispersing _ | .waiting _ => p.revalInUse && p.settings.mode ≠ .badass
  | _ => false

def revalidateWhileSleeping (status : Option UpdateStatus) : Option (Option Process) :=
  if p.revalidation.isSome ∨ (p.isSleeping = false ∧ p.stage ≠ .leaving) then none
  else if checkRevalidateState status = updateTropsNeeded then some (some { p with revalidation := some (.list updateTropsNeeded) })
  else some (if p.stage = .leaving then none else some p)

end Process

structure World where
  ops : TrafficOps
  disk : String → String → Option Text
  processes : String → Option Process

inductive Event where
  | edit (generated : Generated)
  | queue (target : QueueTarget) (setqueue : Bool)
  | invalidate (cdn : Nat)
  | setStatus (id : Nat) (status : String)
  | setUseReval (value : Option String)
  | start (hostName : String) (settings : Settings)
  | check (hostName : String)
  | wake (hostName : String)
  | revalidate (hostName : String)
  | job (hostName : String) (event : JobEvent)
  | exit (hostName : String)

namespace World

variable (fleet : Fleet) (w : World)

def become (hostName : String) (p : Option Process) : World := { w with processes := Function.update w.processes hostName p }

@[simp] theorem become_self (hostName : String) (p : Option Process) : (w.become hostName p).processes hostName = p :=
  Function.update_self ..

theorem become_of_ne {hostName other : String} (apart : hostName ≠ other) (p : Option Process) :
    (w.become other p).processes hostName = w.processes hostName :=
  Function.update_of_ne apart ..

def answered (hostName : String) (go : Option UpdateStatus → Option (Option Process)) : Option World :=
  (fleet.updateStatus w.ops hostName).bind fun status => (go status).map (w.become hostName)

/-- A step of the job that the run is at. -/
def workOn (hostName : String) (p : Process) (event : JobEvent) : Option World :=
  let take job mode := Job.step fleet w.ops (w.disk hostName) hostName mode p.revalInUse job event
  let leave (worked : Worked) q := some ⟨worked.ops, Function.update w.disk hostName worked.disk, Function.update w.processes hostName q⟩
  match p.revalidation with
  | some job => (take job .revalidate).bind fun worked =>
    leave worked (if worked.job = none ∧ p.stage = .leaving then none else some { p with revalidation := worked.job })
  | none =>
    match p.stage with
    | .working job => (take job p.settings.mode).bind fun worked => leave worked (worked.job.map fun job => { p with stage := .working job })
    | _ => none

def step : World → Event → Option World
  | w, .edit generated => some { w with ops := { w.ops with generated := generated } }
  | w, .queue target setqueue => some { w with ops := w.ops.postupdatequeue target setqueue }
  | w, .invalidate cdn => some { w with ops := w.ops.setUpdateServerBits cdn }
  | w, .setStatus id status => some { w with ops := w.ops.setStatus id status }
  | w, .setUseReval value => some { w with ops := { w.ops with useRevalPending := value } }
  | w, .start hostName settings =>
    if (w.processes hostName).isSome then none
    else some (w.become hostName (some ⟨settings, false, if settings.mode = .revalidate then .checkRevalidate else .checkReval, none⟩))
  | w, .check hostName => (w.processes hostName).bind fun p => w.answered fleet hostName p.check
  | w, .wake hostName => (w.processes hostName).bind fun p => p.wake.map fun q => w.become hostName (some q)
  | w, .revalidate hostName => (w.processes hostName).bind fun p => w.answered fleet hostName p.revalidateWhileSleeping
  | w, .job hostName event => (w.processes hostName).bind fun p => w.workOn fleet hostName p event
  | w, .exit hostName => some (w.become hostName none)

end World

end Script

section Sample

def sampleEdge : Server := ⟨1, "edge", "EDGE", 1, 1, 1, "REPORTED", false, false⟩

def sampleMid : Server := ⟨2, "mid", "MID", 2, 1, 1, "REPORTED", false, false⟩

def sampleGenerated : Generated where
  configFiles _ := [⟨"parent.config", some "/opt/trafficserver/etc/trafficserver", none⟩,
    ⟨"regex_revalidate.config", some "/opt/trafficserver/etc/trafficserver", none⟩]
  text _ f := some ("# DO NOT EDIT - Generated for __HOSTNAME__ by Traffic Ops\n" ++ f ++ "\n").toList
  info _ := ⟨"80".toList, "10.0.0.1".toList⟩

def sampleOps : TrafficOps where
  servers := [sampleEdge, sampleMid]
  ids := by decide
  parentCachegroup group := if group = 1 then some 2 else none
  profiles := [1]
  useRevalPending := none
  generated := sampleGenerated

def sampleFleet (route : Bool) : Fleet := ⟨sampleComparison, fun hostName => hostName ++ ".cdn.net", route⟩

/-- The updates of all servers are queued. -/
def sampleWorld : World := ⟨sampleOps.postupdatequeue .all true, fun _ _ => none, fun _ => none⟩

-- A run from the list of the files to the answer of Traffic Ops.
def sampleJob (hostName : String) (files : List String) : List Event :=
  [.job hostName (.list files false)] ++ List.replicate files.length (.job hostName (.file true true)) ++ [.job hostName (.replace files)] ++
    List.replicate files.length (.job hostName (.file true true)) ++
    [.job hostName (.replace []), .job hostName (.services true), .job hostName .read, .job hostName (.post true)]

def sampleRun (hostName : String) (files : List String) : List Event :=
  [.start hostName ⟨.syncds, 0, true⟩, .check hostName, .check hostName] ++ sampleJob hostName files

def sampleRuns : List Event :=
  sampleRun "mid" ["parent.config", "regex_revalidate.config"] ++ sampleRun "edge" ["regex_revalidate.config", "parent.config"]

example : (Runs.run (World.step (sampleFleet false)) sampleWorld sampleRuns).map (fun w => w.ops.servers.map (·.updPending)) =
    some [false, false] := by decide +kernel

/-- An update that is queued after the list was fetched is lost. -/
example : (Runs.run (World.step (sampleFleet false)) sampleWorld ((sampleRun "mid" ["parent.config", "regex_revalidate.config"]).dropLast ++
    [.edit { sampleGenerated with text := fun _ _ => some "another".toList }, .queue .all true, .job "mid" (.post true)])).map
      (fun w => (w.ops.servers.map (·.updPending), (w.disk "mid" "parent.config").map String.ofList)) =
    some ([true, false], some "# DO NOT EDIT - Generated for mid by Traffic Ops\nparent.config\n") := by decide +kernel

end Sample

end Ort
