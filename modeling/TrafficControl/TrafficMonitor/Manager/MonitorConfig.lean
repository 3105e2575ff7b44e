import TrafficControl.TrafficMonitor.Manager.StateCombiner
import TrafficControl.TrafficMonitor.Polling.HttpPoller
import TrafficControl.TrafficMonitor.ToData.Data

set_option autoImplicit false

namespace TrafficControl.TrafficMonitor.MonitorConfig

open KeyedLoop MachineInt Peer Polling

structure TrafficServer where
  hostName : String
  ip : String
  fqdn : String
  interfaceName : String
  profile : String
  serverStatus : String

structure TrafficMonitorServer where
  hostName : String
  ip : String
  fqdn : String
  port : Int
  serverStatus : String

structure TMParameters where
  healthConnectionTimeout : Int
  healthPollingURL : String
  healthPollingFormat : String

-- Servers and delivery services are listed under their own names.
structure TrafficMonitorConfigMap (α : Type) where
  trafficServer : AList fun _ : String => TrafficServer
  config : String → Option (Value α)
  trafficMonitor : AList fun _ : String => TrafficMonitorServer
  deliveryService : AList fun _ : String => String
  profile : String → Option TMParameters
  hostNames : ∀ name srv, trafficServer.lookup name = some srv → srv.hostName = name
  xmlIds : ∀ name xmlId, deliveryService.lookup name = some xmlId → xmlId = name

-- `int(f)`, `multiplyByRatio` and the verbs `'%v' type %T`.
structure IntervalFloat (α : Type) where
  toInt : α → Int
  ratio : Int → Int
  print : Value α → String

structure PollIntervals where
  health : Int
  healthNoKeepAlive : Bool
  peer : Int
  peerNoKeepAlive : Bool
  stat : Int
  statNoKeepAlive : Bool
  trafficOps : Int

-- What the listener is started with.
structure Config where
  monitorConfigPollingInterval : Int
  httpTimeout : Int
  hostname : String

def milliseconds (t : Int) : Int := wrap 64 (t * 1000000)

def trafficOpsHealthConnectionTimeoutToDuration : Int → Int := milliseconds

def trafficOpsPeerPollIntervalToDuration : Int → Int := milliseconds

def trafficOpsStatPollIntervalToDuration : Int → Int := milliseconds

def trafficOpsHealthPollIntervalToDuration : Int → Int := milliseconds

def trafficOpsTOPollIntervalToDuration : Int → Int := milliseconds

def defaultHealthConnectionTimeout : Int := 2000000000

def defaultStatsType : String := "astats"

section Intervals

variable {α : Type} (float64 : IntervalFloat α) (config : String → Option (Value α))

def required (param : String) : Except String α :=
  match config param with
  | none => .error ("Traffic Ops Monitor config missing '" ++ param ++ "', not setting config changes.\n")
  | some (.float value) => .ok value
  | some value => .error ("Traffic Ops Monitor config '" ++ param ++ "' value " ++ float64.print value ++
      " is not an integer, not setting config changes.\n")

def optional (param : String) : Option α :=
  match config param with
  | some (.float value) => some value
  | _ => none

def getNoKeepAlive (param : String) : Bool :=
  match config param with
  | some (.text keepAliveStr) => !(List.isPrefixOf ['t'] (keepAliveStr.toList.map Char.toLower))
  | _ => false

-- Without a heartbeat interval that of the health is used.
def getIntervals (cfg : Config) : Except String PollIntervals := do
  let peerPollIntervalInt ← required float64 config "peers.polling.interval"
  let statPollIntervalInt ← required float64 config "health.polling.interval"
  let healthPollIntervalInt := (optional config "heartbeat.polling.interval").getD statPollIntervalInt
  let trafficOps := (optional config "tm.polling.interval").elim cfg.monitorConfigPollingInterval fun toPollIntervalInt =>
    trafficOpsTOPollIntervalToDuration (float64.toInt toPollIntervalInt)
  return {
    trafficOps := float64.ratio trafficOps
    health := float64.ratio (trafficOpsHealthPollIntervalToDuration (float64.toInt healthPollIntervalInt))
    peer := float64.ratio (trafficOpsPeerPollIntervalToDuration (float64.toInt peerPollIntervalInt))
    stat := float64.ratio (trafficOpsStatPollIntervalToDuration (float64.toInt statPollIntervalInt))
    peerNoKeepAlive := getNoKeepAlive config "peer.polling.keepalive"
    healthNoKeepAlive := getNoKeepAlive config "health.polling.keepalive"
    statNoKeepAlive := getNoKeepAlive config "stat.polling.keepalive" }

/-- The parameters without which no config is set. -/
def IntervalsGiven : Prop :=
  (∃ value, config "peers.polling.interval" = some (.float value)) ∧
    ∃ value, config "health.polling.interval" = some (.float value)

end Intervals

/-- A `strings.Replacer`: what is replaced is skipped, and of two old texts the first one listed is. -/
def replaceFrom (pairs : List (List Char × List Char)) : Nat → List Char → List Char
  | _, [] => []
  | skip + 1, _ :: s => replaceFrom pairs skip s
  | 0, c :: s =>
    match pairs.find? fun pair => pair.1.isPrefixOf (c :: s) with
    | some pair => pair.2 ++ replaceFrom pairs (pair.1.length - 1) s
    | none => c :: replaceFrom pairs 0 s

def replace (pairs : List (String × String)) (s : String) : String :=
  String.ofList (replaceFrom (pairs.map fun pair => (pair.1.toList, pair.2.toList)) 0 s.toList)

-- What the loop over the servers sets.
structure Servers where
  localStates : Peer.CRStates
  healthURLs : AList fun _ : String => PollConfig
  statURLs : AList fun _ : String => PollConfig

-- What the listener writes; a list of polls is the last config that was sent to its poller.
structure Stores (α : Type) (engine : Regexp.Engine) where
  monitorConfig : TrafficMonitorConfigMap α
  toData : ToData.TOData engine
  localStates : Peer.CRStates
  peerStates : CRStatesPeers
  statURLs : HttpPollerConfig
  healthURLs : HttpPollerConfig
  peerURLs : HttpPollerConfig
  toInterval : Int

-- A config that is received, what the session has for the delivery services, and the orders of the loops.
structure Received (α : Type) where
  cfg : TrafficMonitorConfigMap α
  last : Except String (Except String ToData.CRConfig)
  visit : ToData.Visit
  trafficServers : RangeOrder
  trafficMonitors : RangeOrder
  caches : RangeOrder
  deliveryServices : RangeOrder
  localDeliveryServices : RangeOrder

section Listen

variable {α : Type} {engine : Regexp.Engine}

-- One turn of the loop over the servers.
def addServer (monitorConfig : TrafficMonitorConfigMap α) (this : Servers) (srv : TrafficServer) : Servers :=
  match CacheStatus.fromString srv.serverStatus with
  | .Online => { this with localStates := this.localStates.addCache srv.hostName true }
  | .Offline => this
  | _ =>
    let localStates :=
      if srv.hostName ∈ this.localStates.caches then this.localStates else this.localStates.addCache srv.hostName false
    let this := { this with localStates }
    let parameters := (monitorConfig.profile srv.profile).getD ⟨0, "", ""⟩
    if parameters.healthPollingURL = "" then this
    else
      let format := if parameters.healthPollingFormat = "" then defaultStatsType else parameters.healthPollingFormat
      let url := replace [("$\x7bhostname\x7d", srv.ip), ("$\x7binterface_name\x7d", srv.interfaceName),
        ("application=plugin.remap", "application=system"), ("application=", "application=system")]
        parameters.healthPollingURL
      let timeout := trafficOpsHealthConnectionTimeoutToDuration parameters.healthConnectionTimeout
      let connTimeout := if timeout = 0 then defaultHealthConnectionTimeout else timeout
      let statURL := replace [("application=system", "application=")] url
      { this with healthURLs := this.healthURLs.insert srv.hostName ⟨url, srv.fqdn, connTimeout, format⟩
                  statURLs := this.statURLs.insert srv.hostName ⟨statURL, srv.fqdn, connTimeout, format⟩ }

-- One turn of the loop over the monitors.
def addPeer (cfg : Config) (peerURLs : AList fun _ : String => PollConfig) (srv : TrafficMonitorServer) :
    AList fun _ : String => PollConfig :=
  if srv.hostName = cfg.hostname then peerURLs
  else if CacheStatus.fromString srv.serverStatus ≠ .Online then peerURLs
  else
    peerURLs.insert srv.hostName
      ⟨"http://" ++ srv.ip ++ ":" ++ toString srv.port ++ "/publish/CrStates?raw", srv.fqdn, 0, ""⟩

def deleteCaches (monitorConfig : TrafficMonitorConfigMap α) (order : RangeOrder) (localStates : Peer.CRStates) :
    Peer.CRStates :=
  (order.order localStates.getCaches.keys).foldl (fun localStates cacheName =>
    if cacheName ∈ monitorConfig.trafficServer then localStates else localStates.deleteCache cacheName) localStates

def addDeliveryService (localStates : Peer.CRStates) (xmlId : String) : Peer.CRStates :=
  if xmlId ∈ localStates.deliveryService then localStates else localStates.setDeliveryService xmlId ⟨[], false⟩

def deleteDeliveryService (localStates : Peer.CRStates) (name : String) : Peer.CRStates :=
  { localStates with deliveryService := localStates.deliveryService.erase name }

def deleteDeliveryServices (monitorConfig : TrafficMonitorConfigMap α) (order : RangeOrder) (localStates : Peer.CRStates) :
    Peer.CRStates :=
  (order.order localStates.deliveryService.keys).foldl (fun localStates ds =>
    if ds ∈ monitorConfig.deliveryService then localStates else deleteDeliveryService localStates ds) localStates

-- What is done with a config whose intervals could be read.
def apply (cfg : Config) (received : Received α) (intervals : PollIntervals) (this : Stores α engine) : Stores α engine :=
  let monitorConfig := received.cfg
  let servers := (inOrder received.trafficServers.order monitorConfig.trafficServer).foldl
    (fun servers entry => addServer monitorConfig servers entry.2) ⟨this.localStates, ∅, ∅⟩
  let peerURLs := (inOrder received.trafficMonitors.order monitorConfig.trafficMonitor).foldl
    (fun peerURLs entry => addPeer cfg peerURLs entry.2) ∅
  let localStates := deleteCaches monitorConfig received.caches servers.localStates
  let localStates := (inOrder received.deliveryServices.order monitorConfig.deliveryService).foldl
    (fun localStates entry => addDeliveryService localStates entry.2) localStates
  { this with
    statURLs := ⟨servers.statURLs, intervals.stat, intervals.statNoKeepAlive⟩
    healthURLs := ⟨servers.healthURLs, intervals.health, intervals.healthNoKeepAlive⟩
    peerURLs := ⟨peerURLs, intervals.peer, intervals.peerNoKeepAlive⟩
    toInterval := intervals.trafficOps
    peerStates :=
      (this.peerStates.setTimeout (wrap 64 (wrap 64 (intervals.peer + cfg.httpTimeout) * 2))).setPeers peerURLs.keys
    localStates := deleteDeliveryServices monitorConfig received.localDeliveryServices localStates }

/-- One turn of the loop of the listener. A panic ends the process. -/
def monitorConfigListen (float64 : IntervalFloat α) (cfg : Config) (this : Stores α engine) (received : Received α) :
    Option (Stores α engine) :=
  let stored (toData : ToData.TOData engine) : Stores α engine :=
    let this := { this with monitorConfig := received.cfg, toData }
    match getIntervals float64 received.cfg.config cfg with
    | .error _ => this
    | .ok intervals => apply cfg received intervals this
  match ToData.update engine received.visit received.last with
  | .error .panic => none
  | .error (.error _) => some (stored this.toData)
  | .ok toData => some (stored toData)

end Listen

theorem required_iff {α : Type} (float64 : IntervalFloat α) {config : String → Option (Value α)} {param : String} :
    (∃ value, required float64 config param = .ok value) ↔ ∃ value, config param = some (.float value) := by
  unfold required
  split
  next missing => simp [missing]
  next value found => simp [found]
  next value other found =>
    refine iff_of_false (fun ⟨_, impossible⟩ => nomatch impossible) ?_
    rintro ⟨value', same⟩
    exact other value' (Option.some.inj (found.symm.trans same))

/-- The intervals can be read just when the two that are needed are numbers. -/
theorem getIntervals_iff {α : Type} (float64 : IntervalFloat α) {config : String → Option (Value α)} (cfg : Config) :
    (∃ intervals, getIntervals float64 config cfg = .ok intervals) ↔ IntervalsGiven config := by
  unfold IntervalsGiven
  rw [← required_iff float64, ← required_iff float64]
  constructor
  · rintro ⟨intervals, got⟩
    obtain ⟨peer, first, rest⟩ := ExceptList.bind_ok got
    obtain ⟨stat, second, -⟩ := ExceptList.bind_ok rest
    exact ⟨⟨peer, first⟩, stat, second⟩
  · rintro ⟨⟨peer, first⟩, stat, second⟩
    rw [getIntervals, first, second]
    exact ⟨_, rfl⟩

section States

variable {α : Type} {monitorConfig : TrafficMonitorConfigMap α}

/-- What the loop over the servers makes of the entry of a server. -/
def seed (srv : TrafficServer) (entry : Option Bool) : Option Bool :=
  match CacheStatus.fromString srv.serverStatus with
  | .Online => some true
  | .Offline => entry
  | _ => some (entry.getD false)

theorem addServer_services (this : Servers) (srv : TrafficServer) :
    (addServer monitorConfig this srv).localStates.deliveryService = this.localStates.deliveryService := by
  unfold addServer
  dsimp only
  split
  · rfl
  · rfl
  · split_ifs <;> rfl

theorem addServer_caches (this : Servers) (srv : TrafficServer) (name : String) :
    (addServer monitorConfig this srv).localStates.caches.lookup name =
      if name = srv.hostName then seed srv (this.localStates.caches.lookup name)
      else this.localStates.caches.lookup name := by
  have added : ∀ available, (this.localStates.addCache srv.hostName available).caches.lookup name =
      if name = srv.hostName then some available else this.localStates.caches.lookup name := by
    intro available
    split_ifs with same
    · rw [same]
      exact AList.lookup_insert _
    · exact AList.lookup_insert_ne same
  have seeded : (if srv.hostName ∈ this.localStates.caches then this.localStates
      else this.localStates.addCache srv.hostName false).caches.lookup name =
      if name = srv.hostName then some ((this.localStates.caches.lookup name).getD false)
      else this.localStates.caches.lookup name := by
    split_ifs with present same same
    · subst same
      obtain ⟨available, found⟩ := Option.isSome_iff_exists.mp (AList.lookup_isSome.mpr present)
      rw [found]
      rfl
    · rfl
    · subst same
      rw [added, if_pos rfl, AList.lookup_eq_none.mpr present]
      rfl
    · rw [added, if_neg same]
  unfold addServer seed
  dsimp only
  split
  next => exact added true
  next => rw [ite_self]
  next =>
    rw [← seeded]
    split_ifs <;> rfl

section Named

variable {β : Type} {order : List String → List String} (perm : ∀ keys, (order keys).Perm keys)
  {map : AList fun _ : String => β} {name : β → String}
  (named : ∀ key value, map.lookup key = some value → name value = key)

include perm named

theorem inOrder_names : (inOrder order map).map (fun entry => name entry.2) = (inOrder order map).map Prod.fst :=
  List.map_congr_left fun entry member => named entry.1 entry.2 ((mem_inOrder perm map).mp member)

/-- A loop over a map that is listed under the names of its values. -/
theorem foldl_named {σ ω : Type} {step : σ → β → σ} (view : σ → ω) (f : β → ω → ω) (key : String)
    (frame : ∀ s value, name value ≠ key → view (step s value) = view s)
    (turn : ∀ s value, name value = key → view (step s value) = f value (view s)) (s : σ) :
    view ((inOrder order map).foldl (fun s entry => step s entry.2) s) =
      (map.lookup key).elim (view s) fun value => f value (view s) := by
  cases found : map.lookup key with
  | none =>
    refine foldl_other (fun entry => name entry.2) view (fun s entry apart => frame s entry.2 apart)
      (fun entry member same => ?_) s
    have listed := (mem_inOrder perm map).mp (show (entry.1, entry.2) ∈ inOrder order map from member)
    rw [← named _ _ listed, same, found] at listed
    cases listed
  | some value =>
    have own := named key value found
    have member : (key, value) ∈ inOrder order map := (mem_inOrder perm map).mpr found
    refine foldl_own (fun entry : String × β => name entry.2) view (f value) ?_ member
      (fun s entry apart => frame s entry.2 (own ▸ apart)) (fun s => turn s value own) s
    rw [inOrder_names perm named]
    exact nodup_inOrder perm map

end Named

theorem addServers_caches (order : RangeOrder) (this : Servers) (name : String) :
    ((inOrder order.order monitorConfig.trafficServer).foldl
      (fun this entry => addServer monitorConfig this entry.2) this).localStates.caches.lookup
      name = (monitorConfig.trafficServer.lookup name).elim (this.localStates.caches.lookup name) fun srv =>
        seed srv (this.localStates.caches.lookup name) := by
  refine foldl_named order.perm monitorConfig.hostNames
    (fun this : Servers => this.localStates.caches.lookup name) seed name ?_ ?_ this
  · intro this srv apart
    rw [addServer_caches, if_neg (Ne.symm apart)]
  · intro this srv own
    rw [addServer_caches, if_pos own.symm]

theorem addServers_services (order : RangeOrder) (this : Servers) :
    ((inOrder order.order monitorConfig.trafficServer).foldl (fun this entry => addServer monitorConfig this entry.2)
      this).localStates.deliveryService = this.localStates.deliveryService := by
  generalize inOrder order.order monitorConfig.trafficServer = entries
  induction entries generalizing this with
  | nil => rfl
  | cons entry entries ih => exact (ih _).trans (addServer_services this entry.2)

/-- A loop over the keys of a map that erases those that are not kept. -/
theorem erase_lookup {β : Type} {keep : String → Prop} [DecidablePred keep] (order : RangeOrder)
    (view : Peer.CRStates → AList fun _ : String => β)
    {erase : Peer.CRStates → String → Peer.CRStates}
    (erased : ∀ states name, view (erase states name) = (view states).erase name)
    (states : Peer.CRStates) (name : String) :
    (view ((order.order (view states).keys).foldl
      (fun states key => if keep key then states else erase states key) states)).lookup name =
      if keep name then (view states).lookup name else none := by
  have turn : ∀ s : Peer.CRStates, (view (if keep name then s else erase s name)).lookup name =
      if keep name then (view s).lookup name else none := by
    intro s
    split_ifs
    · rfl
    · rw [erased]
      exact AList.lookup_erase _ _
  have frame : ∀ (s : Peer.CRStates) (key : String), key ≠ name →
      (view (if keep key then s else erase s key)).lookup name = (view s).lookup name := by
    intro s key apart
    split_ifs
    · rfl
    · rw [erased]
      exact AList.lookup_erase_ne (Ne.symm apart)
  by_cases present : name ∈ view states
  · refine foldl_own id (fun s => (view s).lookup name) (fun entry => if keep name then entry else none)
      ?_ ?_ frame turn states
    · rw [List.map_id]
      exact (order.perm _).nodup_iff.mpr (view states).keys_nodup
    · exact (order.perm _).mem_iff.mpr (AList.mem_keys.mp present)
  · rw [foldl_other id (fun s => (view s).lookup name) frame]
    · rw [AList.lookup_eq_none.mpr present, ite_self]
    · rintro key member rfl
      exact present (AList.mem_keys.mpr ((order.perm _).mem_iff.mp member))

theorem addDeliveryService_lookup (localStates : Peer.CRStates) (xmlId name : String) :
    (addDeliveryService localStates xmlId).deliveryService.lookup name =
      if name = xmlId then some ((localStates.deliveryService.lookup name).getD ⟨[], false⟩)
      else localStates.deliveryService.lookup name := by
  unfold addDeliveryService
  split_ifs with present same same
  · subst same
    obtain ⟨ds, found⟩ := Option.isSome_iff_exists.mp (AList.lookup_isSome.mpr present)
    rw [found]
    rfl
  · rfl
  · subst same
    rw [AList.lookup_eq_none.mpr present]
    exact AList.lookup_insert _
  · exact AList.lookup_insert_ne same

theorem foldl_caches {ε : Type} {step : Peer.CRStates → ε → Peer.CRStates}
    (kept : ∀ states entry, (step states entry).caches = states.caches)
    (entries : List ε) (states : Peer.CRStates) : (entries.foldl step states).caches = states.caches := by
  induction entries generalizing states with
  | nil => rfl
  | cons entry entries ih => exact (ih _).trans (kept states entry)

theorem foldl_services {ε : Type} {step : Peer.CRStates → ε → Peer.CRStates}
    (kept : ∀ states entry, (step states entry).deliveryService = states.deliveryService)
    (entries : List ε) (states : Peer.CRStates) : (entries.foldl step states).deliveryService = states.deliveryService := by
  induction entries generalizing states with
  | nil => rfl
  | cons entry entries ih => exact (ih _).trans (kept states entry)

variable {engine : Regexp.Engine} (cfg : Config) (received : Received α) (intervals : PollIntervals)
  (this : Stores α engine)

theorem apply_caches (name : String) : (apply cfg received intervals this).localStates.caches.lookup name =
    (received.cfg.trafficServer.lookup name).elim none fun srv => seed srv (this.localStates.caches.lookup name) := by
  unfold apply
  dsimp only
  unfold deleteDeliveryServices
  rw [foldl_caches, foldl_caches]
  · refine (erase_lookup received.caches Peer.CRStates.caches (fun _ _ => rfl) _ name).trans ?_
    rw [addServers_caches]
    cases found : received.cfg.trafficServer.lookup name with
    | none => exact if_neg (AList.lookup_eq_none.mp found)
    | some srv => exact if_pos (AList.lookup_isSome.mp (Option.isSome_of_eq_some found))
  · intro states entry
    unfold addDeliveryService
    split_ifs <;> rfl
  · intro states ds
    split_ifs <;> rfl

theorem apply_services (name : String) : (apply cfg received intervals this).localStates.deliveryService.lookup name =
    if name ∈ received.cfg.deliveryService then some ((this.localStates.deliveryService.lookup name).getD ⟨[], false⟩)
    else none := by
  unfold apply
  dsimp only
  refine (erase_lookup received.localDeliveryServices Peer.CRStates.deliveryService (fun _ _ => rfl) _ name).trans ?_
  split_ifs with present
  · obtain ⟨xmlId, found⟩ := Option.isSome_iff_exists.mp (AList.lookup_isSome.mpr present)
    rw [foldl_named received.deliveryServices.perm received.cfg.xmlIds
      (fun states : Peer.CRStates => states.deliveryService.lookup name)
      (fun _ ds => some (ds.getD ⟨[], false⟩)) name, found]
    · unfold deleteCaches
      rw [foldl_services, addServers_services]
      · rfl
      · intro states cacheName
        split_ifs <;> rfl
    · intro states value apart
      rw [addDeliveryService_lookup, if_neg (Ne.symm apart)]
    · intro states value own
      rw [addDeliveryService_lookup, if_pos own.symm]
  · rfl

end States

/-- The local states agree with the config that was applied to them. -/
structure Faithful {α : Type} (monitorConfig : TrafficMonitorConfigMap α) (before after : Peer.CRStates) : Prop where
  present : ∀ name srv, monitorConfig.trafficServer.lookup name = some srv →
    CacheStatus.fromString srv.serverStatus ≠ .Offline → name ∈ after.caches
  named : ∀ name ∈ after.caches, name ∈ monitorConfig.trafficServer
  online : ∀ name srv, monitorConfig.trafficServer.lookup name = some srv →
    CacheStatus.fromString srv.serverStatus = .Online → after.caches.lookup name = some true
  offline : ∀ name srv, monitorConfig.trafficServer.lookup name = some srv →
    CacheStatus.fromString srv.serverStatus = .Offline → after.caches.lookup name ≠ some true
  seeded : ∀ name srv, monitorConfig.trafficServer.lookup name = some srv → name ∉ before.caches →
    CacheStatus.fromString srv.serverStatus ≠ .Online → CacheStatus.fromString srv.serverStatus ≠ .Offline →
    after.caches.lookup name = some false
  services : ∀ name, name ∈ after.deliveryService ↔ name ∈ monitorConfig.deliveryService

structure Unchanged {α : Type} {engine : Regexp.Engine} (before after : Stores α engine) : Prop where
  monitorConfig : after.monitorConfig = before.monitorConfig
  toData : after.toData = before.toData
  localStates : after.localStates = before.localStates
  polls : (after.statURLs, after.healthURLs, after.peerURLs) = (before.statURLs, before.healthURLs, before.peerURLs)

section Application

variable {α : Type} {engine : Regexp.Engine} (float64 : IntervalFloat α) (cfg : Config)

/-- A config is applied to the local states, or rejected without a change. -/
structure Applied (received : Received α) (before after : Stores α engine) : Prop where
  accepted : ∀ intervals, getIntervals float64 received.cfg.config cfg = .ok intervals →
    Faithful received.cfg before.localStates after.localStates
  rejected : ∀ err, getIntervals float64 received.cfg.config cfg = .error err → Unchanged before after

/-- No server that goes offline was recorded available, and a config that is rejected has nothing new. -/
structure Harmless (received : Received α) (before : Stores α engine) : Prop where
  accepted : IntervalsGiven received.cfg.config → ∀ name srv, received.cfg.trafficServer.lookup name = some srv →
    CacheStatus.fromString srv.serverStatus = .Offline → before.localStates.caches.lookup name ≠ some true
  rejected : ¬IntervalsGiven received.cfg.config → received.cfg = before.monitorConfig ∧
    ∀ toData, ToData.update engine received.visit received.last = .ok toData → toData = before.toData

variable {float64 cfg}

theorem apply_faithful_iff (cfg : Config) (received : Received α) (intervals : PollIntervals) (this : Stores α engine) :
    Faithful received.cfg this.localStates (apply cfg received intervals this).localStates ↔
      ∀ name srv, received.cfg.trafficServer.lookup name = some srv → CacheStatus.fromString srv.serverStatus = .Offline →
        this.localStates.caches.lookup name ≠ some true := by
  have entry : ∀ name srv, received.cfg.trafficServer.lookup name = some srv →
      (apply cfg received intervals this).localStates.caches.lookup name =
        seed srv (this.localStates.caches.lookup name) := by
    intro name srv found
    rw [apply_caches, found]
    rfl
  constructor
  · intro faithful name srv found offline
    have kept := faithful.offline name srv found offline
    rwa [entry name srv found, seed, offline] at kept
  · intro clear
    constructor
    case present =>
      intro name srv found polled
      apply AList.lookup_isSome.mp
      rw [entry name srv found, seed]
      split
      next => rfl
      next offline => exact absurd offline polled
      next => rfl
    case named =>
      intro name member
      obtain ⟨available, found⟩ := Option.isSome_iff_exists.mp (AList.lookup_isSome.mpr member)
      rw [apply_caches] at found
      cases listed : received.cfg.trafficServer.lookup name with
      | none =>
        rw [listed] at found
        cases found
      | some srv => exact AList.lookup_isSome.mp (Option.isSome_of_eq_some listed)
    case online =>
      intro name srv found online
      rw [entry name srv found, seed, online]
    case offline =>
      intro name srv found offline
      rw [entry name srv found, seed, offline]
      exact clear name srv found offline
    case seeded =>
      intro name srv found unknown notOnline notOffline
      rw [entry name srv found, seed, AList.lookup_eq_none.mpr unknown]
      split
      next online => exact absurd online notOnline
      next offline => exact absurd offline notOffline
      next => rfl
    case services =>
      intro name
      rw [← AList.lookup_isSome, apply_services]
      split_ifs with present <;> simp [present]

theorem monitorConfigListen_ok {received : Received α} {before after : Stores α engine}
    (listened : monitorConfigListen float64 cfg before received = some after) :
    ∃ toData, (ToData.update engine received.visit received.last = .ok toData ∨
        toData = before.toData ∧ ∃ text, ToData.update engine received.visit received.last = .error (.error text)) ∧
      after = match getIntervals float64 received.cfg.config cfg with
        | .error _ => { before with monitorConfig := received.cfg, toData }
        | .ok intervals => apply cfg received intervals { before with monitorConfig := received.cfg, toData } := by
  unfold monitorConfigListen at listened
  dsimp only at listened
  split at listened
  next => cases listened
  next text failed => exact ⟨before.toData, Or.inr ⟨rfl, text, failed⟩, (Option.some.inj listened).symm⟩
  next toData updated => exact ⟨toData, Or.inl updated, (Option.some.inj listened).symm⟩

/-- A config is applied as it should be just when no server that goes offline was recorded available and,
where it is rejected, neither it nor the data of Traffic Ops are new. -/
theorem monitorConfigListen_applied_iff {received : Received α} {before after : Stores α engine}
    (listened : monitorConfigListen float64 cfg before received = some after) :
    Applied float64 cfg received before after ↔ Harmless received before := by
  obtain ⟨toData, updated, rfl⟩ := monitorConfigListen_ok listened
  cases got : getIntervals float64 received.cfg.config cfg with
  | ok intervals =>
    have given : IntervalsGiven received.cfg.config := (getIntervals_iff float64 cfg).mp ⟨intervals, got⟩
    have faithful := apply_faithful_iff cfg received intervals { before with monitorConfig := received.cfg, toData }
    constructor
    · intro applied
      exact ⟨fun _ => faithful.mp (applied.accepted intervals got), fun missing => absurd given missing⟩
    · intro harmless
      refine ⟨fun other again => ?_, fun err failed => ?_⟩
      · exact faithful.mpr (harmless.accepted given)
      · rw [got] at failed
        cases failed
  | error err =>
    have missing : ¬IntervalsGiven received.cfg.config := by
      intro given
      obtain ⟨intervals, again⟩ := (getIntervals_iff float64 cfg).mpr given
      rw [got] at again
      cases again
    constructor
    · intro applied
      have unchanged := applied.rejected err got
      refine ⟨fun given => absurd given missing, fun _ => ⟨unchanged.monitorConfig, fun fetched again => ?_⟩⟩
      obtain found | ⟨-, text, failed⟩ := updated
      · exact (Except.ok.inj (again.symm.trans found)).trans unchanged.toData
      · rw [failed] at again
        cases again
    · intro harmless
      obtain ⟨same, data⟩ := harmless.rejected missing
      refine ⟨fun intervals again => ?_, fun _ _ => ⟨same, ?_, rfl, rfl⟩⟩
      · rw [got] at again
        cases again
      · obtain found | ⟨kept, -⟩ := updated
        · exact data toData found
        · exact kept

end Application

section Edge

def wholeIntervals : IntervalFloat Int := ⟨fun i => i, fun i => i * 97 / 100, fun _ => "'' type int"⟩

def listener : Config := ⟨5000000000, 2000000000, "monitor1"⟩

theorem single_name (srv : TrafficServer) (name : String) (other : TrafficServer)
    (found : ((∅ : AList fun _ : String => TrafficServer).insert srv.hostName srv).lookup name = some other) :
    other.hostName = name := by
  by_cases same : name = srv.hostName
  · subst same
    rw [AList.lookup_insert] at found
    exact congrArg TrafficServer.hostName (Option.some.inj found).symm
  · rw [AList.lookup_insert_ne same] at found
    cases found

theorem no_name (name xmlId : String) (found : (∅ : AList fun _ : String => String).lookup name = some xmlId) :
    xmlId = name := by
  cases found

def monitoring (status : String) (config : String → Option (Value Int)) : TrafficMonitorConfigMap Int where
  trafficServer := (∅ : AList fun _ : String => TrafficServer).insert "edge1"
    ⟨"edge1", "10.0.0.1", "edge1.cdn.net", "bond0", "EDGE", status⟩
  config := config
  trafficMonitor := ∅
  deliveryService := ∅
  profile := fun _ => some ⟨0, "http://${hostname}/_astats?application=&inf.name=${interface_name}", ""⟩
  hostNames := single_name ⟨"edge1", "10.0.0.1", "edge1.cdn.net", "bond0", "EDGE", status⟩
  xmlIds := no_name

def intervalsGiven (param : String) : Option (Value Int) :=
  if param ∈ ["peers.polling.interval", "health.polling.interval"] then some (.float 5000) else none

def inListedOrder : RangeOrder := ⟨fun keys => keys, listed_keys⟩

def receive (status : String) (config : String → Option (Value Int)) : Received Int :=
  ⟨monitoring status config, .error "nil session", ToData.listed,
    inListedOrder, inListedOrder, inListedOrder, inListedOrder, inListedOrder⟩

-- The stores while a cache is reported, and available or not.
def reported (available : Bool) : Stores Int Regexp.pieceEngine where
  monitorConfig := monitoring "REPORTED" intervalsGiven
  toData := ⟨fun _ => none, fun _ => none, fun _ => none, fun _ => none, ToData.Regexes.new, fun _ => none⟩
  localStates := Peer.CRStates.new.addCache "edge1" available
  peerStates := CRStatesPeers.new
  statURLs := ⟨∅, 0, false⟩
  healthURLs := ⟨∅, 0, false⟩
  peerURLs := ⟨∅, 0, false⟩
  toInterval := 0

example : (monitorConfigListen wholeIntervals listener (reported true) (receive "REPORTED" intervalsGiven)).map
    (fun this => (this.healthURLs.urls.lookup "edge1", this.statURLs.urls.lookup "edge1")) =
      some (some ⟨"http://10.0.0.1/_astats?application=system&inf.name=bond0", "edge1.cdn.net", 2000000000, "astats"⟩,
        some ⟨"http://10.0.0.1/_astats?application=&inf.name=bond0", "edge1.cdn.net", 2000000000, "astats"⟩) := by decide

/-- A cache that was unavailable goes offline. -/
theorem monitorConfigListen_applied_offline : ∃ after,
    monitorConfigListen wholeIntervals listener (reported false) (receive "OFFLINE" intervalsGiven) = some after ∧
      Applied wholeIntervals listener (receive "OFFLINE" intervalsGiven) (reported false) after := by
  refine ⟨_, rfl, (monitorConfigListen_applied_iff rfl).mpr ⟨fun _ name _ _ _ recorded => ?_, fun missing => ?_⟩⟩
  · by_cases same : name = "edge1"
    · rw [same] at recorded
      cases (AList.lookup_insert _).symm.trans recorded
    · cases (AList.lookup_insert_ne same).symm.trans recorded
  · exact absurd ⟨⟨5000, rfl⟩, 5000, rfl⟩ missing

/-- A cache stays available as it goes offline, and a config without intervals is stored. -/
theorem monitorConfigListen_stale :
    (∃ after, monitorConfigListen wholeIntervals listener (reported true) (receive "OFFLINE" intervalsGiven) = some after ∧
      ¬Applied wholeIntervals listener (receive "OFFLINE" intervalsGiven) (reported true) after) ∧
    ∃ after, monitorConfigListen wholeIntervals listener (reported true) (receive "REPORTED" fun _ => none) = some after ∧
      ¬Applied wholeIntervals listener (receive "REPORTED" fun _ => none) (reported true) after := by
  refine ⟨⟨_, rfl, fun applied => ?_⟩, _, rfl, fun applied => ?_⟩
  · exact (applied.accepted _ rfl).offline "edge1" _ rfl (by decide) (by decide)
  · have stored := (applied.rejected _ rfl).monitorConfig
    have param := congrFun (congrArg TrafficMonitorConfigMap.config stored) "peers.polling.interval"
    cases param

end Edge

end TrafficControl.TrafficMonitor.MonitorConfig
