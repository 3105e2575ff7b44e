import Mathlib.Data.Finset.Image
import TrafficControl.TrafficMonitor.Health.Cache

set_option autoImplicit false

namespace TrafficControl.TrafficMonitor

def getDeliveryServiceCacheAvailability (cacheStates : String → Option Bool) (deliveryServiceServers : List String) :
    AList fun _ : String => Bool :=
  deliveryServiceServers.foldl (fun dsCacheStates server =>
    dsCacheStates.insert server ((cacheStates server).getD false)) ∅

def getDeliveryServiceCachegroupAvailability (dsCacheStates : AList fun _ : String => Bool)
    (serverCachegroups : String → Option String) : AList fun _ : String => Bool :=
  dsCacheStates.entries.foldl (fun cgAvail entry =>
    match serverCachegroups entry.1 with
    | none => cgAvail
    | some cg => if (cgAvail.lookup cg).isNone || entry.2 then cgAvail.insert cg entry.2 else cgAvail) ∅

def getDisabledLocations (deliveryServiceServers : List String) (cacheStates : String → Option Bool)
    (serverCachegroups : String → Option String) : Finset String :=
  let dsCacheStates := getDeliveryServiceCacheAvailability cacheStates deliveryServiceServers
  let dsCachegroupsAvailable := getDeliveryServiceCachegroupAvailability dsCacheStates serverCachegroups
  ((dsCachegroupsAvailable.entries.filter fun entry => !entry.2).map (·.1)).toFinset

def calculateDeliveryServiceState (toData : TOData) (states : CRStates) : CRStates :=
  { states with deliveryService := fun deliveryServiceName =>
      (states.deliveryService deliveryServiceName).map fun deliveryServiceState =>
        match toData.deliveryServiceServers deliveryServiceName with
        | none => deliveryServiceState
        | some servers => { deliveryServiceState with
            disabledLocations := getDisabledLocations servers states.caches toData.serverCachegroups } }

-- What `CalcAvailability` reads and writes.
structure Monitor where
  localCacheStatus : AvailableStatuses
  localStates : CRStates
  events : ThreadsafeEvents

-- The arguments of `CalcAvailability` besides the results and the stores.
structure Poller (α : Type) where
  float64 : Float64 α
  pollerName : String
  statResultHistory : Option (String → ResultStatValHistory α)
  mc : TrafficMonitorConfigMap α

namespace Poller

variable {α : Type} (this : Poller α) (toData : TOData)

def evaluate (result : Result α) : Evaluation :=
  evalCache this.float64 result (this.statResultHistory.bind fun history => history result.id) this.mc

def status (result : Result α) : AvailableStatus where
  available := (this.evaluate result).isAvailable
  status := ((this.mc.trafficServer result.id).map (·.serverStatus)).getD ""
  why := (this.evaluate result).why
  unavailableStat := (this.evaluate result).unavailableStat
  poller := this.pollerName

/-- The cache is available now and was not because of a stat that the result lacks. -/
def lacksStat (statuses : AvailableStatuses) (result : Result α) : Bool :=
  (this.evaluate result).isAvailable && (statuses result.id).any fun previousStatus =>
    !previousStatus.available && previousStatus.unavailableStat != "" && !result.hasStat previousStatus.unavailableStat

def event (result : Result α) : Event where
  index := 0
  description := (this.evaluate result).why ++ " (" ++ this.pollerName ++ ")"
  name := result.id
  hostname := result.id
  type := (toData.serverTypes result.id).getD .INVALIDCACHETYPE
  available := (this.evaluate result).isAvailable

-- One turn of the loop of `CalcAvailability` on its copy of the statuses and the shared stores.
def takeEffect (monitor : Monitor) (result : Result α) : Option Monitor :=
  let isAvailable := (this.evaluate result).isAvailable
  let events := if monitor.localStates.getCache result.id = some isAvailable then some monitor.events
    else monitor.events.add (this.event toData result)
  events.map fun events => {
    localCacheStatus := Function.update monitor.localCacheStatus result.id (some (this.status result))
    localStates := monitor.localStates.setCache result.id isAvailable
    events }

-- The loop, and whether it returned from `CalcAvailability`.
def loop (monitor : Monitor) : List (Result α) → Option (Bool × Monitor)
  | [] => some (false, monitor)
  | result :: results =>
    if this.lacksStat monitor.localCacheStatus result then some (true, monitor)
    else (this.takeEffect toData monitor result).bind fun monitor => loop monitor results

def calcAvailability (monitor : Monitor) (results : List (Result α)) : Option Monitor := do
  let (returned, looped) ← this.loop toData monitor results
  if returned then return { looped with localCacheStatus := monitor.localCacheStatus }
  else return { looped with localStates := calculateDeliveryServiceState toData looped.localStates }

/-- No result of the batch makes a cache available that was not because of a stat the result lacks. -/
def HasStats (statuses : AvailableStatuses) : List (Result α) → Prop
  | [] => True
  | result :: results => this.lacksStat statuses result = false ∧
      HasStats (Function.update statuses result.id (some (this.status result))) results

/-- However the batch is split, its parts one after the other do what the batch does. -/
def BatchLaw (monitor : Monitor) (results : List (Result α)) : Prop :=
  ∀ rs1 rs2, results = rs1 ++ rs2 →
    this.calcAvailability toData monitor results =
      (this.calcAvailability toData monitor rs1).bind fun monitor => this.calcAvailability toData monitor rs2

def recalculate (monitor : Monitor) : Monitor :=
  { monitor with localStates := calculateDeliveryServiceState toData monitor.localStates }

/-- The loop does not look at the states of the delivery services. -/
def withServices (services : String → Option CRStatesDeliveryService) (monitor : Monitor) : Monitor :=
  { monitor with localStates := { monitor.localStates with deliveryService := services } }

variable {toData}

theorem recalculate_withServices {before after : Monitor}
    (same : after.localStates.deliveryService = before.localStates.deliveryService) :
    recalculate toData (withServices (recalculate toData before).localStates.deliveryService after) =
      recalculate toData after := by
  unfold recalculate withServices calculateDeliveryServiceState
  simp only [same, Option.map_map, Monitor.mk.injEq, CRStates.mk.injEq, true_and, and_true]
  funext name
  refine congrFun (congrArg Option.map (funext fun state => ?_)) _
  simp only [Function.comp_apply]
  split <;> rfl

theorem setCache_withServices (states : CRStates) (services : String → Option CRStatesDeliveryService)
    (cacheName : String) (available : Bool) :
    { states with deliveryService := services }.setCache cacheName available =
      { states.setCache cacheName available with deliveryService := services } := by
  unfold CRStates.setCache
  dsimp only
  split <;> rfl

theorem setCache_services (states : CRStates) (cacheName : String) (available : Bool) :
    (states.setCache cacheName available).deliveryService = states.deliveryService := by
  unfold CRStates.setCache
  split <;> rfl

theorem takeEffect_some {monitor next : Monitor} {result : Result α}
    (taken : this.takeEffect toData monitor result = some next) :
    next.localCacheStatus = Function.update monitor.localCacheStatus result.id (some (this.status result)) ∧
      next.localStates.deliveryService = monitor.localStates.deliveryService := by
  obtain ⟨events, _, same⟩ := Option.map_eq_some_iff.mp taken
  cases same
  exact ⟨rfl, setCache_services _ _ _⟩

theorem takeEffect_withServices (services : String → Option CRStatesDeliveryService) (monitor : Monitor)
    (result : Result α) : this.takeEffect toData (withServices services monitor) result =
      (this.takeEffect toData monitor result).map (withServices services) := by
  unfold takeEffect
  rw [Option.map_map]
  simp only [withServices, setCache_withServices, CRStates.getCache]
  rfl

theorem foldlM_withServices (services : String → Option CRStatesDeliveryService) (monitor : Monitor)
    (results : List (Result α)) : results.foldlM (this.takeEffect toData) (withServices services monitor) =
      (results.foldlM (this.takeEffect toData) monitor).map (withServices services) := by
  induction results generalizing monitor with
  | nil => rfl
  | cons result results ih =>
    rw [List.foldlM_cons, List.foldlM_cons, takeEffect_withServices]
    cases this.takeEffect toData monitor result with
    | none => rfl
    | some next => exact ih next

theorem foldlM_services {monitor last : Monitor} {results : List (Result α)}
    (folded : results.foldlM (this.takeEffect toData) monitor = some last) :
    last.localStates.deliveryService = monitor.localStates.deliveryService := by
  induction results generalizing monitor with
  | nil => exact Option.some.inj folded ▸ rfl
  | cons result results ih =>
    obtain ⟨next, taken, rest⟩ := Option.bind_eq_some_iff.mp folded
    exact (ih rest).trans (this.takeEffect_some taken).2

theorem hasStats_split {first second : List (Result α)} {monitor middle : Monitor}
    (stats : this.HasStats monitor.localCacheStatus (first ++ second))
    (folded : first.foldlM (this.takeEffect toData) monitor = some middle) :
    this.HasStats middle.localCacheStatus second := by
  induction first generalizing monitor with
  | nil => exact Option.some.inj folded ▸ stats
  | cons result results ih =>
    obtain ⟨next, taken, rest⟩ := Option.bind_eq_some_iff.mp folded
    refine ih ?_ rest
    rw [(this.takeEffect_some taken).1]
    exact stats.2

theorem hasStats_first {first second : List (Result α)} {statuses : AvailableStatuses}
    (stats : this.HasStats statuses (first ++ second)) : this.HasStats statuses first := by
  induction first generalizing statuses with
  | nil => trivial
  | cons result results ih => exact ⟨stats.1, ih stats.2⟩

theorem loop_hasStats {monitor : Monitor} {results : List (Result α)}
    (stats : this.HasStats monitor.localCacheStatus results) :
    this.loop toData monitor results = (results.foldlM (this.takeEffect toData) monitor).map (false, ·) := by
  induction results generalizing monitor with
  | nil => rfl
  | cons result results ih =>
    rw [loop, stats.1, List.foldlM_cons]
    cases taken : this.takeEffect toData monitor result with
    | none => rfl
    | some next =>
      refine ih ?_
      rw [(this.takeEffect_some taken).1]
      exact stats.2

theorem calcAvailability_hasStats {monitor : Monitor} {results : List (Result α)}
    (stats : this.HasStats monitor.localCacheStatus results) : this.calcAvailability toData monitor results =
      (results.foldlM (this.takeEffect toData) monitor).map (recalculate toData) := by
  rw [calcAvailability, this.loop_hasStats stats]
  cases results.foldlM (this.takeEffect toData) monitor <;> rfl

/-- A batch of one result is left out or takes effect. -/
theorem calcAvailability_singleton {monitor next : Monitor} {result : Result α}
    (calculated : this.calcAvailability toData monitor [result] = some next) :
    (this.lacksStat monitor.localCacheStatus result = true ∧ next.localCacheStatus = monitor.localCacheStatus) ∨
      (this.lacksStat monitor.localCacheStatus result = false ∧ next.localCacheStatus =
        Function.update monitor.localCacheStatus result.id (some (this.status result))) := by
  cases lacks : this.lacksStat monitor.localCacheStatus result with
  | true =>
    simp only [calcAvailability, loop, lacks, if_true] at calculated
    obtain rfl := Option.some.inj calculated
    exact Or.inl ⟨rfl, rfl⟩
  | false =>
    have stats : this.HasStats monitor.localCacheStatus [result] := ⟨lacks, trivial⟩
    rw [this.calcAvailability_hasStats stats, List.foldlM_cons] at calculated
    obtain ⟨looped, folded, rfl⟩ := Option.map_eq_some_iff.mp calculated
    obtain ⟨taken, effect, rest⟩ := Option.bind_eq_some_iff.mp folded
    obtain rfl := Option.some.inj rest
    exact Or.inr ⟨rfl, (this.takeEffect_some effect).1⟩

theorem batchLaw_hasStats {monitor : Monitor} {results : List (Result α)}
    (stats : this.HasStats monitor.localCacheStatus results) : this.BatchLaw toData monitor results := by
  rintro rs1 rs2 rfl
  rw [this.calcAvailability_hasStats stats, this.calcAvailability_hasStats (this.hasStats_first stats),
    List.foldlM_append]
  cases folded : rs1.foldlM (this.takeEffect toData) monitor with
  | none => rfl
  | some middle =>
    have later : this.HasStats middle.localCacheStatus rs2 := this.hasStats_split stats folded
    change (rs2.foldlM (this.takeEffect toData) middle).map (recalculate toData) =
      this.calcAvailability toData (recalculate toData middle) rs2
    rw [this.calcAvailability_hasStats (show this.HasStats (recalculate toData middle).localCacheStatus rs2 from later)]
    change _ = (rs2.foldlM (this.takeEffect toData)
      (withServices (recalculate toData middle).localStates.deliveryService middle)).map (recalculate toData)
    rw [foldlM_withServices, Option.map_map]
    cases rest : rs2.foldlM (this.takeEffect toData) middle with
    | none => rfl
    | some last => exact congrArg some (recalculate_withServices (this.foldlM_services rest)).symm

/-- The events take another one without a panic. -/
def Roomy (events : ThreadsafeEvents) : Prop := 0 < events.max ∧ events.max < 2 ^ 63

theorem add_roomy {events : ThreadsafeEvents} (roomy : Roomy events) (e : Event) :
    ∃ added, events.add e = some added ∧ Roomy added := by
  have fits : MachineInt.wrap 64 events.max = events.max := by
    apply MachineInt.wrap_eq
    have bound := roomy.2
    unfold MachineInt.Fits
    omega
  unfold ThreadsafeEvents.add
  rw [fits]
  dsimp only
  split
  next full =>
    have inside : 0 < events.max ∧ events.max - 1 ≤ ({ e with index := events.nextIndex } :: events.events).length :=
      ⟨roomy.1, by omega⟩
    exact ⟨_, if_pos inside, roomy⟩
  · exact ⟨_, rfl, roomy⟩

variable (toData)

theorem takeEffect_roomy {monitor : Monitor} (roomy : Roomy monitor.events) (result : Result α) :
    ∃ next, this.takeEffect toData monitor result = some next ∧ Roomy next.events := by
  unfold takeEffect
  dsimp only
  split
  · exact ⟨_, rfl, roomy⟩
  · obtain ⟨events, added, still⟩ := add_roomy roomy (this.event toData result)
    exact ⟨_, by rw [added]; rfl, still⟩

theorem loop_lacksStat {monitor : Monitor} {results : List (Result α)} (roomy : Roomy monitor.events)
    (lacks : ¬this.HasStats monitor.localCacheStatus results) :
    ∃ last, this.loop toData monitor results = some (true, last) ∧
      last.localStates.deliveryService = monitor.localStates.deliveryService := by
  induction results generalizing monitor with
  | nil => exact absurd trivial lacks
  | cons result results ih =>
    rw [loop]
    cases stat : this.lacksStat monitor.localCacheStatus result with
    | true => exact ⟨monitor, rfl, rfl⟩
    | false =>
      obtain ⟨next, taken, still⟩ := this.takeEffect_roomy toData roomy result
      have effect := this.takeEffect_some taken
      obtain ⟨last, looped, same⟩ := ih still fun stats => lacks ⟨stat, effect.1 ▸ stats⟩
      refine ⟨last, ?_, same.trans effect.2⟩
      rw [if_neg (by simp), taken]
      exact looped

/-- A batch that `CalcAvailability` returns from leaves the delivery services alone. -/
theorem calcAvailability_lacksStat {monitor : Monitor} {results : List (Result α)} (roomy : Roomy monitor.events)
    (lacks : ¬this.HasStats monitor.localCacheStatus results) :
    ∃ last, this.calcAvailability toData monitor results = some last ∧
      last.localStates.deliveryService = monitor.localStates.deliveryService := by
  obtain ⟨last, looped, same⟩ := this.loop_lacksStat toData roomy lacks
  exact ⟨{ last with localCacheStatus := monitor.localCacheStatus }, by rw [calcAvailability, looped]; rfl, same⟩

/-- The batch law holds of a batch for all delivery services and stores if and only if no result of
the batch makes a cache available that was not because of a stat the result lacks. -/
theorem batchLaw_iff (statuses : AvailableStatuses) (results : List (Result α)) :
    (∀ toData localStates events, this.BatchLaw toData ⟨statuses, localStates, events⟩ results) ↔
      this.HasStats statuses results := by
  constructor
  · intro law
    by_contra lacks
    -- A delivery service without servers whose disabled locations are out of date.
    let toData : TOData := ⟨fun _ => some [], fun _ => none, fun _ => none⟩
    let localStates : CRStates := ⟨fun _ => none, fun _ => some ⟨{"denver"}, true⟩⟩
    have roomy : Roomy ⟨[], 0, 1⟩ := ⟨by decide, by decide⟩
    have split := law toData localStates ⟨[], 0, 1⟩ [] results rfl
    change this.calcAvailability toData _ results =
      this.calcAvailability toData (recalculate toData ⟨statuses, localStates, ⟨[], 0, 1⟩⟩) results at split
    obtain ⟨batch, whole, stale⟩ := this.calcAvailability_lacksStat toData
      (show Roomy (Monitor.mk statuses localStates ⟨[], 0, 1⟩).events from roomy) lacks
    obtain ⟨last, parts, fresh⟩ := this.calcAvailability_lacksStat toData
      (show Roomy (recalculate toData ⟨statuses, localStates, ⟨[], 0, 1⟩⟩).events from roomy) lacks
    rw [whole, parts, Option.some.injEq] at split
    have same : some (⟨{"denver"}, true⟩ : CRStatesDeliveryService) = some ⟨∅, true⟩ :=
      congrFun (stale.symm.trans ((congrArg (·.localStates.deliveryService) split).trans fresh)) "video"
    simp at same
  · exact fun stats toData localStates events => this.batchLaw_hasStats stats

section TwoEdges

def edgeConfig : TrafficMonitorConfigMap Int where
  trafficServer _ := some ⟨"EDGE", "REPORTED"⟩
  profile _ := some ⟨"", [("current_client_connections", ⟨1000, "<"⟩)]⟩

-- The health poller polls no stats of the proxy.
def healthPoller : Poller Int :=
  ⟨⟨id, fun a b => a == b, fun a b => decide (a < b), toString, toString⟩, "health", none, edgeConfig⟩

def healthResult (id : String) (error : Option String) : Result Int :=
  { id, error, requestTime := 1000000, vitals := ⟨0, 0, 10000000⟩
    system := ⟨"bond0", 10000, "", "", 0, 0, 0, 0, 0, false⟩
    ats := ∅, available := error.isNone, range := fun thresholds => thresholds, range_perm := fun _ => .refl _ }

-- The stat poller has found too many connections on the first edge.
def edgeMonitor : Monitor where
  localCacheStatus := Function.update (fun _ => none) "edge1"
    (some ⟨false, "REPORTED", "REPORTED - current_client_connections too high", "current_client_connections", "stat"⟩)
  localStates := ⟨Function.update (fun _ => some true) "edge1" (some false), fun _ => none⟩
  events := ⟨[], 0, 200⟩

def edgeData : TOData := ⟨fun _ => none, fun _ => some .EDGE, fun _ => none⟩

def edgeResults : List (Result Int) := [healthResult "edge1" none, healthResult "edge2" (some "timeout")]

/-- The first result ends the batch, and the second edge, which does not answer, stays available. -/
theorem batchLaw_fails :
    (healthPoller.calcAvailability edgeData edgeMonitor edgeResults).map (·.localStates.caches "edge2") =
      some (some true) ∧ ¬healthPoller.BatchLaw edgeData edgeMonitor edgeResults := by
  have whole : (healthPoller.calcAvailability edgeData edgeMonitor edgeResults).map
      (·.localStates.caches "edge2") = some (some true) := by rfl
  refine ⟨whole, fun law => ?_⟩
  rw [law [healthResult "edge1" none] [healthResult "edge2" (some "timeout")] rfl] at whole
  have parts : ((healthPoller.calcAvailability edgeData edgeMonitor [healthResult "edge1" none]).bind fun monitor =>
      healthPoller.calcAvailability edgeData monitor [healthResult "edge2" (some "timeout")]).map
        (·.localStates.caches "edge2") = some (some false) := by rfl
  rw [parts] at whole
  cases whole

end TwoEdges

end Poller

end TrafficControl.TrafficMonitor
