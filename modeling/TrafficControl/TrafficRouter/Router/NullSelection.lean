import TrafficControl.TrafficRouter.Router.RoutingSafety

set_option autoImplicit false
set_option linter.dupNamespace false

namespace TrafficControl.TrafficRouter

section Parsing

-- Jackson's `asInt` with the value for what is no number.
variable (asInt : JsonNode → Int → Int)

def JsonUtils.optInt (jsonNode : JsonNode) (key : String) (d : Int) : Int :=
  match jsonNode.get key with
  | none => d
  | some node => asInt node d

namespace Dispersion

def DEFAULT_LIMIT : Int := 1

def DEFAULT_SHUFFLED : Bool := true

def ofJson (dsJo : JsonNode) : Dispersion :=
  match dsJo.get "dispersion" with
  | some jo =>
    let limit := JsonUtils.optInt asInt jo "limit" DEFAULT_LIMIT
    ⟨if limit ≠ 0 then limit else DEFAULT_LIMIT, JsonUtils.optBoolean (some jo) "shuffled" DEFAULT_SHUFFLED⟩
  | none =>
    match dsJo.get "maxDnsIpsForLocation" with
    | some node => ⟨asInt node DEFAULT_LIMIT, DEFAULT_SHUFFLED⟩
    | none => ⟨DEFAULT_LIMIT, DEFAULT_SHUFFLED⟩

/-- A dispersion without a limit has the default, but no default stands for a limit of 0 in place of one. -/
theorem ofJson_limit_iff (dsJo : JsonNode) : (ofJson asInt dsJo).limit ≤ 0 ↔
    (∃ jo, dsJo.get "dispersion" = some jo ∧ JsonUtils.optInt asInt jo "limit" DEFAULT_LIMIT < 0) ∨
      dsJo.get "dispersion" = none ∧ ∃ node, dsJo.get "maxDnsIpsForLocation" = some node ∧ asInt node DEFAULT_LIMIT ≤ 0 := by
  have default : ¬DEFAULT_LIMIT ≤ 0 := by decide
  unfold ofJson
  cases dispersion : dsJo.get "dispersion" with
  | some jo =>
    by_cases zero : JsonUtils.optInt asInt jo "limit" DEFAULT_LIMIT = 0
    · simp [zero, default]
    · simp only [ne_eq, zero, not_false_eq_true, if_true, Option.some.injEq, exists_eq_left', reduceCtorEq, false_and, or_false]
      omega
  | none => cases maximum : dsJo.get "maxDnsIpsForLocation" <;> simp [default]

end Dispersion

end Parsing

namespace TrafficRouter

open Routine

variable {α : Type} [LinearOrder α] (router : TrafficRouter α)

section Calls

/-- The targets in the register, of which `consistentHashDeliveryService` selects one. -/
def availableTargets (steering : Steering α) : List (SteeringTarget α) :=
  steering.targets.filter fun target => (router.getDeliveryServiceById target.deliveryService).isSome

/-- Routing comes to the selection in `consistentHashDeliveryService`. -/
structure ComesToTarget (request : HTTPRequest) (deliveryService : DeliveryService) (steering : Steering α) (path : String) : Prop where
  single : router.isMultiRouteRequest request = false
  found : router.getDeliveryServiceFor request = some deliveryService
  steered : router.steeringRegistry.lookup deliveryService.id = some steering
  unnamed : (request.getHeaderValue XTC_STEERING_OPTION).filter (· != "") = none
  pathGiven : request.path = some path
  unbypassed : ((steering.getBypassDestination router.matchesCase path).filter (· != "")).bind router.getDeliveryServiceById = none

-- The memory after the first statement of `route`.
def begun (request : HTTPRequest) (memory : Memory) : Memory :=
  { memory with track := { memory.track with fqdn := request.hostname } }

-- The memory after a shuffle was drawn.
def drawn (memory : Memory) : Memory := { memory with draws := memory.draws + 1 }

/-- `RegionalGeo.enforce` makes a URL of the cache. -/
structure RegionalUse (request : HTTPRequest) (deliveryService : DeliveryService) (memory : Memory) : Prop where
  uses : ∃ clientGeolocation memory' result,
    outcome (orNull (router.getClientGeolocation request.clientIP deliveryService)) memory = (.ok clientGeolocation, memory') ∧
    router.regionalGeo.enforce router.engine.matchesWhole router.fromString deliveryService.id request.requestedUrl request.clientIP
      ((clientGeolocation.bind (·.postalCode)).map fun postalCode => String.ofList (postalCode.toList.take 3)) = some result ∧
    (result.type = .ALLOWED ∨ result.type = .ALTERNATE_WITH_CACHE ∧ result.url.isSome = true)

/-- Routing comes to the selection in `singleRoute` or to one in `multiRoute`, and uses the result. -/
inductive ComesToCache (request : HTTPRequest) (memory : Memory) (path : String) : DeliveryService → Selection α → Memory → Prop
  | single {deliveryService : DeliveryService} {caches : Selection α} {before after : Memory}
    (multi : router.isMultiRouteRequest request = false)
    (found : outcome (router.getDeliveryService request) (begun request memory) = (.ok (some deliveryService), before))
    (available : deliveryService.isAvailable = true)
    (selected : outcome (router.selectCaches request deliveryService) before = (.ok (some caches), after))
    (nonempty : caches.caches.isEmpty = false) (pathGiven : request.path = some path)
    (used : deliveryService.regionalGeoEnabled = true → router.RegionalUse request deliveryService (drawn after)) :
    ComesToCache request memory path deliveryService caches after
  | multi {entry deliveryService : DeliveryService} {earlier later : List DeliveryService} {routeResult : HTTPRouteResult α}
    {caches : Selection α} {start before after : Memory}
    (multi : router.isMultiRouteRequest request = true)
    (entered : router.getDeliveryServiceFor request = some entry) (secure : isTlsMismatch request entry = false)
    (found : outcome (router.getDeliveryServices request entry) (begun request memory) =
      (.ok (some (earlier ++ deliveryService :: later)), start))
    (reached : outcome (earlier.foldlM (router.addRoute request) ((HTTPRouteResult.new true).setDeliveryService entry)) start =
      (.ok routeResult, before))
    (unrestricted : deliveryService.regionalGeoEnabled = false) (available : deliveryService.isAvailable = true)
    (selected : outcome (router.selectCaches request deliveryService) before = (.ok (some caches), after))
    (nonempty : caches.caches.isEmpty = false) (pathGiven : request.path = some path) :
    ComesToCache request memory path deliveryService caches after

/-- What routing selects and uses is not null. -/
structure SelectsNonNull (request : HTTPRequest) (memory : Memory) : Prop where
  target : ∀ deliveryService steering path, router.ComesToTarget request deliveryService steering path →
    ∀ memory', (outcome (router.selectTarget (router.availableTargets steering) deliveryService.dispersion path) memory').1 ≠ .ok none
  cache : ∀ path deliveryService caches memory', router.ComesToCache request memory path deliveryService caches memory' →
    (outcome (router.selectCache caches.caches deliveryService.dispersion request.path) memory').1 ≠ .ok none

/-- A steering delivery service has a target in the register, and the limits leave something to select. -/
structure Selectable (request : HTTPRequest) (memory : Memory) : Prop where
  target : ∀ deliveryService steering path, router.ComesToTarget request deliveryService steering path →
    (∃ target ∈ steering.targets, target.deliveryService ∈ router.cacheRegister.dsMap) ∧ 0 < deliveryService.dispersion.limit
  cache : ∀ path deliveryService caches memory', router.ComesToCache request memory path deliveryService caches memory' →
    0 < deliveryService.dispersion.limit

end Calls

section Selections

variable {router} {request : HTTPRequest} {memory : Memory}

theorem outcome_selectTarget (targets : List (SteeringTarget α)) (dispersion : Dispersion) (path : String) :
    outcome (router.selectTarget targets dispersion path) memory =
      (.ok (ConsistentHasher.selectHashable router.arithmetic router.rebalanceTargets router.hashFunction
        (router.shuffleTargets memory.draws) targets (some dispersion) path), drawn memory) := rfl

theorem outcome_selectCache (caches : List (Cache α)) (dispersion : Dispersion) (path : String) :
    outcome (router.selectCache caches dispersion (some path)) memory =
      (.ok (ConsistentHasher.selectHashable router.arithmetic router.rebalanceCaches router.hashFunction
        (router.shuffleCaches memory.draws) caches (some dispersion) path), drawn memory) := rfl

theorem availableTargets_nil_iff (steering : Steering α) :
    router.availableTargets steering = [] ↔ ¬∃ target ∈ steering.targets, target.deliveryService ∈ router.cacheRegister.dsMap := by
  have registered : ∀ id, (router.getDeliveryServiceById id).isSome = true ↔ id ∈ router.cacheRegister.dsMap := fun id => by
    unfold getDeliveryServiceById
    split_ifs with member <;> simp [member]
  rw [availableTargets, List.filter_eq_nil_iff]
  simp [registered]

theorem selectTarget_null_iff (steering : Steering α) (dispersion : Dispersion) (path : String) :
    (outcome (router.selectTarget (router.availableTargets steering) dispersion path) memory).1 = .ok none ↔
      ¬((∃ target ∈ steering.targets, target.deliveryService ∈ router.cacheRegister.dsMap) ∧ 0 < dispersion.limit) := by
  rw [outcome_selectTarget, Except.ok.injEq, ConsistentHasher.selectHashable_none_iff, availableTargets_nil_iff, not_and_or, not_lt]

theorem ComesToCache.null_iff {path : String} {deliveryService : DeliveryService} {caches : Selection α} {memory' : Memory}
    (comes : router.ComesToCache request memory path deliveryService caches memory') :
    (outcome (router.selectCache caches.caches deliveryService.dispersion request.path) memory').1 = .ok none ↔
      ¬0 < deliveryService.dispersion.limit := by
  have given : request.path = some path ∧ caches.caches ≠ [] := by
    cases comes with
    | single _ _ _ _ nonempty pathGiven => exact ⟨pathGiven, fun empty => by simp [empty] at nonempty⟩
    | multi _ _ _ _ _ _ _ _ nonempty pathGiven => exact ⟨pathGiven, fun empty => by simp [empty] at nonempty⟩
  rw [given.1, outcome_selectCache, Except.ok.injEq, ConsistentHasher.selectHashable_none_iff, not_lt]
  exact or_iff_right given.2

end Selections

section Outcomes

variable {router} {request : HTTPRequest} {memory memory' : Memory} {deliveryService : DeliveryService}

theorem nonNull_null {β : Type} : outcome (nonNull (none : Option β)) memory = (.error .nullPointerException, memory) := rfl

theorem nonNull_given {β : Type} (value : β) : outcome (nonNull (some value)) memory = (.ok value, memory) := rfl

theorem outcome_updateTrack (change : Track → Track) :
    outcome (updateTrack change) memory = (.ok (), { memory with track := change memory.track }) := rfl

theorem consistentHashDeliveryService_null {steering : Steering α} {path : String}
    (comes : router.ComesToTarget request deliveryService steering path)
    (empty : (outcome (router.selectTarget (router.availableTargets steering) deliveryService.dispersion path) memory).1 = .ok none) :
    outcome (router.consistentHashDeliveryService (some deliveryService) request.path (request.getHeaderValue XTC_STEERING_OPTION)) memory =
      (.error .nullPointerException, drawn memory) := by
  have selected : outcome (router.selectTarget (router.availableTargets steering) deliveryService.dispersion path) memory =
      (.ok none, drawn memory) := by
    rw [outcome_selectTarget] at empty ⊢
    rw [Except.ok.inj empty]
  unfold consistentHashDeliveryService
  simp only [comes.steered, comes.unnamed, comes.pathGiven]
  rw [outcome_bind_ok (nonNull_given path)]
  simp only [comes.unbypassed]
  exact (outcome_bind_ok selected).trans (outcome_bind_error nonNull_null)

theorem createCacheURL_null (location : LocationRef) :
    outcome (router.createCacheURL deliveryService request location none) memory = (.error .nullPointerException, memory) :=
  outcome_bind_error nonNull_null

theorem createAlternateURL_null (alternatePath : String) (location : LocationRef) :
    outcome (router.createAlternateURL deliveryService request alternatePath location none) memory =
      (.error .nullPointerException, memory) :=
  outcome_bind_error nonNull_null

theorem updateRegionalTrack_returns (result : RegionalGeoResult) :
    ∃ memory', outcome (updateRegionalTrack result) memory = (.ok (), memory') := by
  unfold updateRegionalTrack
  rw [outcome_bind_ok (outcome_updateTrack _)]
  cases result.type
  all_goals exact ⟨_, rfl⟩

theorem enforceRegionalGeo_null (location : LocationRef) (routeResult : HTTPRouteResult α)
    (used : router.RegionalUse request deliveryService memory) :
    ∃ memory', outcome (router.enforceRegionalGeo request deliveryService location none routeResult) memory =
      (.error .nullPointerException, memory') := by
  obtain ⟨clientGeolocation, after, result, queried, enforced, use⟩ := used.uses
  obtain ⟨tracked, updated⟩ := @updateRegionalTrack_returns after result
  refine ⟨tracked, ?_⟩
  unfold enforceRegionalGeo
  rw [outcome_bind_ok queried]
  dsimp only
  rw [enforced, outcome_bind_ok (nonNull_given result), outcome_bind_ok updated]
  rcases use with allowed | ⟨alternate, given⟩
  · rw [allowed]
    exact outcome_bind_error (createCacheURL_null location)
  · obtain ⟨url, same⟩ := Option.isSome_iff_exists.mp given
    rw [alternate, same]
    exact (outcome_bind_ok (nonNull_given url)).trans (outcome_bind_error (createAlternateURL_null url location))

theorem selectCache_null {caches : List (Cache α)} {dispersion : Dispersion} {path : String}
    (empty : (outcome (router.selectCache caches dispersion (some path)) memory).1 = .ok none) :
    outcome (router.selectCache caches dispersion (some path)) memory = (.ok none, drawn memory) := by
  rw [outcome_selectCache] at empty ⊢
  rw [Except.ok.inj empty]

theorem outcome_route : outcome (router.route request) memory =
    outcome (if router.isMultiRouteRequest request then router.multiRoute request else router.singleRoute request)
      (begun request memory) :=
  outcome_bind_ok (outcome_updateTrack _)

/-- A null target ends routing in an exception. -/
theorem ComesToTarget.throws {steering : Steering α} {path : String}
    (comes : router.ComesToTarget request deliveryService steering path)
    (empty : (outcome (router.selectTarget (router.availableTargets steering) deliveryService.dispersion path)
      (begun request memory)).1 = .ok none) :
    (outcome (router.route request) memory).1 = .error .nullPointerException := by
  have null := consistentHashDeliveryService_null comes empty
  rw [← comes.found] at null
  rw [outcome_route, if_neg (by rw [comes.single]; exact Bool.false_ne_true)]
  have thrown : outcome (router.getDeliveryService request) (begun request memory) =
      (.error .nullPointerException, drawn (begun request memory)) := outcome_bind_error null
  rw [singleRoute, outcome_bind_error thrown]

/-- A null cache that is used ends routing in an exception. -/
theorem ComesToCache.throws {path : String} {caches : Selection α}
    (comes : router.ComesToCache request memory path deliveryService caches memory')
    (empty : (outcome (router.selectCache caches.caches deliveryService.dispersion request.path) memory').1 = .ok none) :
    (outcome (router.route request) memory).1 = .error .nullPointerException := by
  cases comes with
  | @single _ _ before _ multi found available selected nonempty pathGiven used =>
    rw [pathGiven] at empty
    have null := selectCache_null empty
    rw [outcome_route, if_neg (by rw [multi]; exact Bool.false_ne_true), singleRoute, outcome_bind_ok found]
    simp only [available, Bool.not_true, Bool.false_eq_true, if_false]
    rw [outcome_bind_ok selected]
    simp only [Option.filter_some, nonempty, Bool.not_false, if_true, pathGiven]
    rw [outcome_bind_ok null]
    cases regional : deliveryService.regionalGeoEnabled with
    | false =>
      simp only [Bool.false_eq_true, if_false]
      rw [outcome_bind_error (createCacheURL_null caches.location)]
    | true =>
      simp only [if_true]
      obtain ⟨thrown, enforced⟩ := enforceRegionalGeo_null caches.location ((HTTPRouteResult.new false).setDeliveryService deliveryService)
        (used regional)
      rw [outcome_bind_error enforced]
  | @multi entry _ earlier later routeResult _ start before _ multi entered secure found reached unrestricted available selected nonempty pathGiven =>
    rw [pathGiven] at empty
    have null := selectCache_null empty
    have thrown : outcome (router.addRoute request routeResult deliveryService) before = (.error .nullPointerException, drawn memory') := by
      unfold addRoute
      simp only [unrestricted, available, Bool.not_true, Bool.false_eq_true, if_false]
      rw [outcome_bind_ok selected]
      simp only [nonempty, Bool.false_eq_true, if_false, pathGiven]
      rw [outcome_bind_ok null, outcome_bind_error (createCacheURL_null caches.location)]
    rw [outcome_route, if_pos multi, multiRoute, entered, outcome_bind_ok (nonNull_given entry)]
    simp only [secure, Bool.false_eq_true, if_false]
    rw [outcome_bind_ok found]
    have looped : outcome ((earlier ++ deliveryService :: later).foldlM (router.addRoute request)
        ((HTTPRouteResult.new true).setDeliveryService entry)) start = (.error .nullPointerException, drawn memory') := by
      rw [List.foldlM_append, outcome_bind_ok reached, List.foldlM_cons]
      exact outcome_bind_error thrown
    dsimp only
    rw [outcome_bind_error looped]

end Outcomes

-- The only target is not in the register.
def absentTarget : Steering Int := ⟨"video", false, [⟨(oneCacheRouter.cache 0).hashable, "absent", 2⟩], []⟩

def absentTargetRouter : TrafficRouter Int :=
  { oneCacheRouter with steeringRegistry := oneCacheRouter.steeringRegistry.insert "video" absentTarget }

end TrafficRouter

end TrafficControl.TrafficRouter
