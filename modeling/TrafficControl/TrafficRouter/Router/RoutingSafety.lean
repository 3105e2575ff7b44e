import TrafficControl.TrafficRouter.Router.Route

set_option autoImplicit false
set_option linter.dupNamespace false

namespace TrafficControl.TrafficRouter.TrafficRouter

open Routine

variable {α : Type} [LinearOrder α] (router : TrafficRouter α)

-- Routing only ever fills a location that has no caches.
def Grows (before after : Memory) : Prop :=
  ∀ location, (before.caches location).entries = [] ∨ after.caches location = before.caches location

instance : Std.Refl Grows := ⟨fun _ _ => Or.inr rfl⟩

instance : Trans Grows Grows Grows where
  trans {before middle after} first second location := by
    rcases first location with empty | same
    · exact Or.inl empty
    · rw [← same]
      exact second location

/-- A cache of a location may serve a delivery service. -/
structure Eligible (ds : DeliveryService) (location : LocationRef) (cache : Cache α) (memory : Memory) : Prop where
  assigned : ds.id ∈ cache.deliveryServices
  online : cache.hasAuthority → cache.isAvailable
  enabled : ∀ disabled ∈ ds.disabledLocations, ∀ id ∈ disabled.elements, id.asText ≠ (router.location location).id
  held : ∃ entry ∈ (memory.caches location).entries, router.cache entry.2 = cache

variable {router}

theorem Eligible.grows {ds : DeliveryService} {location : LocationRef} {cache : Cache α} {before after : Memory}
    (eligible : router.Eligible ds location cache before) (grew : Grows before after) :
    router.Eligible ds location cache after := by
  obtain ⟨entry, member, same⟩ := eligible.held
  refine ⟨eligible.assigned, eligible.online, eligible.enabled, ⟨entry, ?_, same⟩⟩
  rcases grew location with empty | kept
  · exact absurd (empty ▸ member) List.not_mem_nil
  · exact kept ▸ member

variable (router) {memory : Memory}

def Sound (ds : DeliveryService) (selection : Option (Selection α)) (memory : Memory) : Prop :=
  ∀ caches ∈ selection, ∀ cache ∈ caches.caches, router.Eligible ds caches.location cache memory

def Safe (url : RoutedUrl α) (memory : Memory) : Prop :=
  ∀ ds location cache, url.origin = some (ds, location, cache) → router.Eligible ds location cache memory

variable {router} in
theorem Sound.grows {ds : DeliveryService} {selection : Option (Selection α)} {before after : Memory}
    (sound : router.Sound ds selection before) (grew : Grows before after) : router.Sound ds selection after :=
  fun caches member cache inCaches => (sound caches member cache inCaches).grows grew

theorem sound_none (ds : DeliveryService) : router.Sound ds none memory := by simp [Sound]

abbrev Keeps {β : Type} (routine : Routing β) : Prop :=
  ∀ memory, Yields Grows routine memory fun _ _ => True

theorem updateTrack_keeps (change : Track → Track) : Keeps (updateTrack change) :=
  fun _ => yields_modifyState (fun _ => Or.inr rfl) trivial

theorem readState_keeps : Keeps readState := fun _ => yields_readState trivial

theorem setCacheLocation_keeps (networkNode : NodeData) (location : LocationRef) :
    Keeps (setCacheLocation networkNode location) :=
  fun _ => yields_modifyState (fun _ => Or.inr rfl) trivial

theorem nonNull_yields {β : Type} (value : Option β) :
    Yields Grows (nonNull value) memory fun result _ => value = some result := by
  cases value with
  | none => exact yields_throw _
  | some value => exact yields_pure rfl

theorem isLocationAvailable_enabled {ds : DeliveryService} {cl : CacheLocation}
    (available : ds.isLocationAvailable cl) :
    ∀ disabled ∈ ds.disabledLocations, ∀ id ∈ disabled.elements, id.asText ≠ cl.id := by
  intro disabled given id member same
  simp only [DeliveryService.isLocationAvailable, Option.mem_def.mp given, Bool.not_eq_true', List.any_eq_false] at available
  exact available id member (by simp [same])

section Locations

theorem getCaches_yields (location : LocationRef) :
    Yields Grows (router.getCaches location) memory fun caches memory =>
      caches = (memory.caches location).entries.map fun entry => router.cache entry.2 :=
  yields_bind (yields_readState rfl) fun _ _ _ read => yields_pure (read ▸ rfl)

theorem selectCachesAt_sound (location : LocationRef) (ds : DeliveryService)
    (available : ds.isLocationAvailable (router.location location)) :
    Yields Grows (router.selectCachesAt location ds) memory (router.Sound ds) := by
  refine yields_bind (router.getCaches_yields location) fun caches memory _ read => yields_pure ?_
  split_ifs
  · exact router.sound_none ds
  · rintro _ ⟨⟩ cache member
    obtain ⟨inLocation, supporting⟩ := List.mem_filter.mp member
    rw [read] at inLocation
    obtain ⟨entry, inMap, same⟩ := List.mem_map.mp inLocation
    rw [Bool.and_eq_true] at supporting
    refine ⟨?_, fun authority => ?_, isLocationAvailable_enabled available, entry, inMap, same⟩
    · exact AList.lookup_isSome.mp supporting.1
    · simpa [authority] using supporting.2

theorem getCachesByGeoFrom_sound (ds : DeliveryService) (locationLimit : Int) (locations : List LocationRef)
    (available : ∀ location ∈ locations, ds.isLocationAvailable (router.location location)) (tested : Int) :
    Yields Grows (router.getCachesByGeoFrom ds locationLimit locations tested) memory (router.Sound ds) := by
  induction locations generalizing memory tested with
  | nil => exact yields_pure (router.sound_none ds)
  | cons location rest ih =>
    have here := available location (by simp)
    refine yields_bind (router.selectCachesAt_sound location ds here) fun selection memory _ sound => ?_
    cases selection with
    | some caches =>
      refine yields_bind (updateTrack_keeps _ memory) fun _ _ grew _ => yields_pure (sound.grows grew)
    | none =>
      dsimp only
      split_ifs
      · exact yields_pure (router.sound_none ds)
      · exact ih (fun other member => available other (List.mem_cons_of_mem _ member)) _

theorem getCachesByGeo_sound (ds : DeliveryService) (clientLocation : Geolocation) :
    Yields Grows (router.getCachesByGeo ds clientLocation) memory (router.Sound ds) := by
  refine router.getCachesByGeoFrom_sound ds _ _ (fun location member => ?_) 0
  exact (List.mem_filter.mp ((List.mem_insertionSort _).mp member)).2

theorem hasSupportingCaches_keeps (location : LocationRef) (ds : Option DeliveryService) :
    Keeps (router.hasSupportingCaches location ds) := by
  refine fun memory => yields_bind (router.getCaches_yields location) fun caches memory _ _ => ?_
  cases ds with
  | some ds => exact yields_pure trivial
  | none =>
    dsimp only
    split_ifs
    · exact yields_pure trivial
    · exact yields_throw _

theorem getClosestCacheLocationFrom_keeps (ds : Option DeliveryService) (locations : List LocationRef) :
    Keeps (router.getClosestCacheLocationFrom ds locations) := by
  induction locations with
  | nil => exact fun memory => yields_pure trivial
  | cons location rest ih =>
    refine fun memory => yields_bind (router.hasSupportingCaches_keeps location ds memory) fun supported memory _ _ => ?_
    split_ifs
    · exact yields_pure trivial
    · exact ih memory

theorem getClosestCacheLocation_keeps (locations : Option (List LocationRef)) (clientLocation : Option Geolocation)
    (ds : Option DeliveryService) : Keeps (router.getClosestCacheLocation locations clientLocation ds) := by
  intro memory
  cases clientLocation with
  | none => exact yields_pure trivial
  | some clientLocation =>
    exact yields_bind (nonNull_yields locations) fun _ memory _ _ =>
      router.getClosestCacheLocationFrom_keeps ds _ memory

theorem loadDeepCaches_keeps (location : LocationRef) (deepCacheNames : Option (List String)) :
    Keeps (router.loadDeepCaches location deepCacheNames) := by
  refine fun memory => yields_modifyState (fun other => ?_) trivial
  by_cases loaded : other = location
  next =>
    subst loaded
    by_cases filled : (memory.caches other).entries = []
    next => exact Or.inl filled
    next =>
      have keys : ¬(memory.caches other).keys.isEmpty := by
        simpa [AList.keys, List.isEmpty_iff, List.keys] using filled
      exact Or.inr (by simp [CacheLocation.loadDeepCaches, keys])
  next => exact Or.inr (by simp [loaded])

theorem findCacheLocation_keeps (networkNode : NodeData) (deliveryServiceId : String) :
    Keeps (router.findCacheLocation networkNode deliveryServiceId) := by
  intro memory
  unfold findCacheLocation
  dsimp only
  split
  next => exact yields_pure trivial
  next =>
    split
    next =>
      refine yields_bind (router.hasSupportingCaches_keeps _ _ memory) fun supported memory _ _ => ?_
      split_ifs
      · exact yields_bind (setCacheLocation_keeps _ _ memory) fun _ _ _ _ => yields_pure trivial
      · exact router.getClosestCacheLocation_keeps _ _ _ memory
    next => exact router.getClosestCacheLocation_keeps _ _ _ memory

theorem getCoverageZoneCacheLocation_keeps (ip deliveryServiceId : String) (useDeep : Bool) :
    Keeps (router.getCoverageZoneCacheLocation ip deliveryServiceId useDeep) := by
  intro memory
  unfold getCoverageZoneCacheLocation
  dsimp only
  split
  next => exact yields_pure trivial
  next networkNode _ =>
    refine yields_bind (readState_keeps memory) fun read memory _ _ => ?_
    split
    next location _ =>
      split
      next =>
        refine yields_bind (router.loadDeepCaches_keeps _ _ memory) fun _ memory _ _ => ?_
        refine yields_bind (router.hasSupportingCaches_keeps location _ memory) fun _ memory _ _ => ?_
        split_ifs <;> exact yields_pure trivial
      next =>
        refine yields_bind (router.hasSupportingCaches_keeps location _ memory) fun _ memory _ _ => ?_
        split_ifs
        · exact yields_pure trivial
        · exact router.findCacheLocation_keeps _ _ memory
    next =>
      split_ifs
      · exact yields_pure trivial
      · exact router.findCacheLocation_keeps _ _ memory

end Locations

section Selecting

theorem selectCachesByCZ_sound (ds : DeliveryService) (location : Option LocationRef) (result : ResultType) :
    Yields Grows (router.selectCachesByCZ ds location result) memory (router.Sound ds) := by
  unfold selectCachesByCZ
  cases location with
  | none => exact yields_pure (router.sound_none ds)
  | some location =>
    dsimp only
    split_ifs with disabled
    · exact yields_pure (router.sound_none ds)
    · have available : ds.isLocationAvailable (router.location location) := by simpa using disabled
      refine yields_bind (router.selectCachesAt_sound location ds available) fun selection memory _ sound => ?_
      cases selection with
      | none => exact yields_pure sound
      | some caches =>
        refine yields_bind (updateTrack_keeps _ memory) fun _ memory grew _ => ?_
        refine yields_bind (updateTrack_keeps _ memory) fun _ memory grewOn _ => yields_pure ?_
        exact (sound.grows grew).grows grewOn

-- Results that only say why nothing was selected.
theorem giveUp_sound (ds : DeliveryService) (result : ResultType) (details : ResultDetails) :
    Yields Grows (do setResult result; setResultDetails details; return none) memory (router.Sound ds) :=
  yields_bind (updateTrack_keeps _ memory) fun _ memory _ _ =>
    yields_bind (updateTrack_keeps _ memory) fun _ _ _ _ => yields_pure (router.sound_none ds)

theorem getLocation_keeps (clientIP : String) (ds : DeliveryService) : Keeps (router.getLocation clientIP ds) := by
  intro memory
  unfold getLocation
  dsimp only
  split
  · exact yields_pure trivial
  · exact yields_throw _

theorem orNull_keeps {lookup : Routing (Option Geolocation)} (kept : Keeps lookup) : Keeps (orNull lookup) :=
  fun memory => yields_recover _ _ (kept memory) fun _ _ => yields_pure trivial

theorem getClientGeolocation_keeps (clientIp : String) (ds : DeliveryService) :
    Keeps (router.getClientGeolocation clientIp ds) := by
  refine fun memory => yields_bind (readState_keeps memory) fun read memory _ _ => ?_
  dsimp only
  split_ifs
  · exact yields_pure trivial
  · exact yields_bind (router.getLocation_keeps clientIp ds memory) fun _ memory _ _ =>
      yields_bind (updateTrack_keeps _ memory) fun _ _ _ _ => yields_pure trivial

theorem getClientLocation_keeps (clientIp : String) (ds : DeliveryService) (location : Option LocationRef) :
    Keeps (router.getClientLocation clientIp ds location) := by
  intro memory
  unfold getClientLocation
  cases location with
  | some location => exact yields_pure trivial
  | none =>
    exact yields_bind (router.getClientGeolocation_keeps clientIp ds memory) fun _ _ _ _ => yields_pure trivial

theorem redirectLocation_keeps (ds : DeliveryService) (clientIp : String) (queried : Option Geolocation) :
    Keeps (router.redirectLocation ds clientIp queried) := by
  intro memory
  cases queried with
  | some location => exact yields_pure trivial
  | none =>
    exact yields_bind (orNull_keeps (router.getLocation_keeps clientIp ds) memory) fun _ _ _ _ => yields_pure trivial

theorem enforceGeoRedirect_sound (ds : DeliveryService) (clientIp : String) (queried : Option Geolocation) :
    Yields Grows (router.enforceGeoRedirect ds clientIp queried) memory (router.Sound ds) := by
  refine yields_bind (updateTrack_keeps _ memory) fun _ memory _ _ => ?_
  split_ifs
  · exact yields_pure (router.sound_none ds)
  · exact router.giveUp_sound ds _ _
  · refine yields_bind (router.redirectLocation_keeps ds clientIp queried memory) fun clientLocation memory _ _ => ?_
    cases clientLocation with
    | none => exact router.giveUp_sound ds _ _
    | some clientLocation =>
      refine yields_bind (router.getCachesByGeo_sound ds clientLocation) fun selection memory _ sound => ?_
      cases selection with
      | some caches => exact yields_pure sound
      | none => exact router.giveUp_sound ds _ _

theorem selectCachesByGeo_sound (clientIp : String) (ds : DeliveryService) (location : Option LocationRef) :
    Yields Grows (router.selectCachesByGeo clientIp ds location) memory (router.Sound ds) := by
  refine yields_bind (orNull_keeps (router.getClientLocation_keeps clientIp ds location) memory)
    fun clientLocation memory _ _ => ?_
  cases clientLocation with
  | none =>
    dsimp only
    split_ifs
    · exact yields_bind (readState_keeps memory) fun _ memory _ _ => router.enforceGeoRedirect_sound ds clientIp _
    · exact yields_bind (updateTrack_keeps _ memory) fun _ _ _ _ => yields_pure (router.sound_none ds)
  | some clientLocation =>
    refine yields_bind (router.getCachesByGeo_sound ds clientLocation) fun selection memory _ sound => ?_
    dsimp only
    split_ifs
    · refine yields_bind (updateTrack_keeps _ memory) fun _ memory grew _ => ?_
      refine yields_bind (updateTrack_keeps _ memory) fun _ _ grewOn _ => yields_pure ?_
      exact (sound.grows grew).grows grewOn
    · exact yields_bind (updateTrack_keeps _ memory) fun _ _ grew _ => yields_pure (sound.grows grew)

theorem selectCoverageZone_keeps (request : HTTPRequest) (ds : DeliveryService) :
    Keeps (router.selectCoverageZone request ds) := by
  have regular (memory : Memory) : Yields Grows (do
      return (← router.getCoverageZoneCacheLocation request.clientIP ds.id false, ResultType.CZ))
      memory fun _ _ => True :=
    yields_bind (router.getCoverageZoneCacheLocation_keeps _ _ _ memory) fun _ _ _ _ => yields_pure trivial
  intro memory
  unfold selectCoverageZone
  dsimp only
  split_ifs
  · refine yields_bind (router.getCoverageZoneCacheLocation_keeps _ _ _ memory) fun deep memory _ _ => ?_
    cases deep with
    | none => exact regular memory
    | some location =>
      refine yields_bind (router.getCaches_yields location) fun caches memory _ _ => ?_
      split_ifs
      · exact regular memory
      · exact yields_pure trivial
  · exact regular memory

theorem selectCaches_sound (request : HTTPRequest) (ds : DeliveryService) :
    Yields Grows (router.selectCaches request ds) memory (router.Sound ds) := by
  refine yields_bind (router.selectCoverageZone_keeps request ds memory) fun zone memory _ _ => ?_
  refine yields_bind (router.selectCachesByCZ_sound ds zone.1 zone.2) fun selection memory _ sound => ?_
  cases selection with
  | some caches => exact yields_pure sound
  | none =>
    dsimp only
    split_ifs
    · exact router.enforceGeoRedirect_sound ds _ _
    · exact router.giveUp_sound ds _ _
    · exact router.selectCachesByGeo_sound _ ds _

theorem selectCache_mem (caches : List (Cache α)) (dispersion : Dispersion) (path : Option String) :
    Yields Grows (router.selectCache caches dispersion path) memory fun selected _ =>
      ∀ cache ∈ selected, cache ∈ caches := by
  refine yields_bind (nonNull_yields path) fun s memory _ _ => ?_
  refine yields_bind (readState_keeps memory) fun read memory _ _ => ?_
  have drawn : Keeps (modifyState fun memory => { memory with draws := read.draws + 1 }) :=
    fun _ => yields_modifyState (fun _ => Or.inr rfl) trivial
  refine yields_bind (drawn memory) fun _ _ _ _ => yields_pure fun cache selected => ?_
  exact ConsistentHasher.selectHashable_mem _ _ _ _ selected

end Selecting

section Urls

def EligibleIfAny (ds : DeliveryService) (location : LocationRef) (cache : Option (Cache α)) (memory : Memory) : Prop :=
  ∀ chosen ∈ cache, router.Eligible ds location chosen memory

theorem newURL_safe (text : String) {origin : Option (DeliveryService × LocationRef × Cache α)}
    (safe : router.Safe ⟨text, origin⟩ memory) : Yields Grows (router.newURL text origin) memory router.Safe := by
  unfold newURL
  split_ifs
  · exact yields_pure safe
  · exact yields_throw _

theorem newURL_plain (text : String) : Yields Grows (router.newURL text none) memory router.Safe :=
  router.newURL_safe text fun _ _ _ fromCache => nomatch fromCache

theorem getFQDN_keeps (ds : DeliveryService) (cache : Cache α) (request : HTTPRequest) :
    Keeps (getFQDN ds cache request) := by
  intro memory
  unfold getFQDN
  split
  · exact yields_pure trivial
  · refine yields_bind (nonNull_yields request.hostname) fun hostname memory _ _ => ?_
    split
    · exact yields_throw _
    · exact yields_pure trivial

theorem getTransInfoStr_keeps (ds : DeliveryService) (request : HTTPRequest) :
    Keeps (router.getTransInfoStr ds request) := by
  refine fun memory => yields_bind (nonNull_yields ds.transInfoType) fun type memory _ _ => ?_
  split_ifs
  · exact yields_pure trivial
  · exact yields_pure trivial
  · exact yields_throw _

theorem createCacheURL_safe {ds : DeliveryService} (request : HTTPRequest) {location : LocationRef}
    {cache : Option (Cache α)} (eligible : router.EligibleIfAny ds location cache memory) :
    Yields Grows (router.createCacheURL ds request location cache) memory router.Safe := by
  refine yields_bind (nonNull_yields cache) fun chosen memory grew given => ?_
  refine yields_bind (getFQDN_keeps ds chosen request memory) fun fqdn memory grewOn _ => ?_
  refine yields_bind (router.getTransInfoStr_keeps ds request memory) fun tinfo memory grewMore _ => ?_
  refine router.newURL_safe _ ?_
  rintro _ _ _ ⟨⟩
  exact (((eligible chosen given).grows grew).grows grewOn).grows grewMore

theorem createAlternateURL_safe {ds : DeliveryService} (request : HTTPRequest) (alternatePath : String)
    {location : LocationRef} {cache : Option (Cache α)} (eligible : router.EligibleIfAny ds location cache memory) :
    Yields Grows (router.createAlternateURL ds request alternatePath location cache) memory router.Safe := by
  refine yields_bind (nonNull_yields cache) fun chosen memory grew given => ?_
  refine yields_bind (getFQDN_keeps ds chosen request memory) fun fqdn memory grewOn _ => ?_
  refine router.newURL_safe _ ?_
  rintro _ _ _ ⟨⟩
  exact ((eligible chosen given).grows grew).grows grewOn

def AllSafe (urls : List (Option (RoutedUrl α))) (memory : Memory) : Prop :=
  ∀ url ∈ urls, ∀ routed ∈ url, router.Safe routed memory

variable {router} in
theorem AllSafe.grows {urls : List (Option (RoutedUrl α))} {before after : Memory}
    (safe : router.AllSafe urls before) (grew : Grows before after) : router.AllSafe urls after :=
  fun url member routed given ds location cache origin =>
    (safe url member routed given ds location cache origin).grows grew

theorem allSafe_single {url : RoutedUrl α} (safe : router.Safe url memory) :
    router.AllSafe [some url] memory := by
  rintro _ (_ | ⟨_, ⟨⟩⟩) _ ⟨⟩
  exact safe

theorem getFailureHttpResponse_safe (ds : DeliveryService) (request : HTTPRequest) :
    Yields Grows (router.getFailureHttpResponse ds request) memory fun url memory => router.AllSafe [url] memory := by
  have noBypass (memory : Memory) : Yields Grows (do setResult .MISS; setResultDetails .DS_NO_BYPASS; return none)
      memory fun url memory => router.AllSafe [url] memory :=
    yields_bind (updateTrack_keeps _ memory) fun _ memory _ _ =>
      yields_bind (updateTrack_keeps _ memory) fun _ _ _ _ => yields_pure (by simp [AllSafe])
  unfold getFailureHttpResponse
  dsimp only
  split
  · exact noBypass memory
  · refine yields_bind (updateTrack_keeps _ memory) fun _ memory _ _ => ?_
    split
    · exact noBypass memory
    · split
      · exact noBypass memory
      · exact yields_bind (router.newURL_plain _) fun _ _ _ safe => yields_pure (router.allSafe_single safe)

theorem updateRegionalTrack_keeps (result : RegionalGeoResult) : Keeps (updateRegionalTrack result) := by
  refine fun memory => yields_bind (updateTrack_keeps _ memory) fun _ memory _ _ => ?_
  split
  case h_4 => exact yields_pure trivial
  all_goals exact yields_bind (updateTrack_keeps _ memory) fun _ memory _ _ => updateTrack_keeps _ memory

theorem enforceRegionalGeo_safe {ds : DeliveryService} (request : HTTPRequest) {location : LocationRef}
    {cache : Option (Cache α)} (eligible : router.EligibleIfAny ds location cache memory)
    (routeResult : HTTPRouteResult α) (empty : routeResult.urls = []) :
    Yields Grows (router.enforceRegionalGeo request ds location cache routeResult) memory
      fun routeResult memory => router.AllSafe routeResult.urls memory := by
  refine yields_bind (orNull_keeps (router.getClientGeolocation_keeps _ ds) memory) fun _ memory grew _ => ?_
  refine yields_bind (nonNull_yields _) fun result memory grewOn _ => ?_
  refine yields_bind (updateRegionalTrack_keeps result memory) fun _ memory grewMore _ => ?_
  have still : router.EligibleIfAny ds location cache memory := fun chosen given =>
    (((eligible chosen given).grows grew).grows grewOn).grows grewMore
  split
  · exact yields_pure (by simp [AllSafe, empty])
  · exact yields_bind (router.createCacheURL_safe request still) fun _ _ _ safe =>
      yields_pure (router.allSafe_single safe)
  · refine yields_bind (nonNull_yields _) fun url memory grewLast _ => ?_
    exact yields_bind (router.createAlternateURL_safe request url fun chosen given => (still chosen given).grows grewLast)
      fun _ _ _ safe => yields_pure (router.allSafe_single safe)
  · refine yields_bind (nonNull_yields _) fun url memory _ _ => ?_
    exact yields_bind (router.newURL_plain url) fun _ _ _ safe => yields_pure (router.allSafe_single safe)

end Urls

section Steering

theorem missDeliveryService_none {β : Type} :
    Yields Grows (missDeliveryService : Routing (Option β)) memory fun result _ => result = none :=
  yields_bind (updateTrack_keeps _ memory) fun _ memory _ _ =>
    yields_bind (updateTrack_keeps _ memory) fun _ _ _ _ => yields_pure rfl

theorem refuseTls_none {β : Type} :
    Yields Grows (refuseTls : Routing (Option β)) memory fun result _ => result = none :=
  yields_bind (updateTrack_keeps _ memory) fun _ memory _ _ =>
    yields_bind (updateTrack_keeps _ memory) fun _ _ _ _ => yields_pure rfl

theorem consistentHashMultiDeliveryService_keeps (ds : DeliveryService) (requestPath : Option String) :
    Keeps (router.consistentHashMultiDeliveryService ds requestPath) := by
  intro memory
  unfold consistentHashMultiDeliveryService
  split
  · exact yields_pure trivial
  · exact yields_bind (nonNull_yields requestPath) fun _ memory _ _ =>
      yields_bind (readState_keeps memory) fun _ _ _ _ => yields_pure trivial

theorem selectTarget_keeps (targets : List (SteeringTarget α)) (dispersion : Dispersion) (path : String) :
    Keeps (router.selectTarget targets dispersion path) := by
  refine fun memory => yields_bind (readState_keeps memory) fun read memory _ _ => ?_
  have drawn : Keeps (modifyState fun memory => { memory with draws := read.draws + 1 }) :=
    fun _ => yields_modifyState (fun _ => Or.inr rfl) trivial
  exact yields_bind (drawn memory) fun _ _ _ _ => yields_pure trivial

theorem consistentHashDeliveryService_keeps (ds : Option DeliveryService) (requestPath option : Option String) :
    Keeps (router.consistentHashDeliveryService ds requestPath option) := by
  intro memory
  unfold consistentHashDeliveryService
  split
  · exact yields_pure trivial
  · split
    · exact yields_pure trivial
    · split
      · exact yields_pure trivial
      · refine yields_bind (nonNull_yields requestPath) fun path memory _ _ => ?_
        dsimp only
        split
        · exact yields_pure trivial
        · refine yields_bind (router.selectTarget_keeps _ _ path memory) fun target memory _ _ => ?_
          exact yields_bind (nonNull_yields target) fun _ _ _ _ => yields_pure trivial

theorem getDeliveryServices_keeps (request : HTTPRequest) (entry : DeliveryService) :
    Keeps (router.getDeliveryServices request entry) := by
  refine fun memory => yields_bind (router.consistentHashMultiDeliveryService_keeps entry _ memory)
    fun services memory _ _ => ?_
  split_ifs
  · exact missDeliveryService_none.mono fun _ _ _ _ => trivial
  · exact refuseTls_none.mono fun _ _ _ _ => trivial
  · exact yields_pure trivial

theorem getDeliveryService_keeps (request : HTTPRequest) : Keeps (router.getDeliveryService request) := by
  refine fun memory => yields_bind (router.consistentHashDeliveryService_keeps _ _ _ memory) fun ds memory _ _ => ?_
  split
  · exact missDeliveryService_none.mono fun _ _ _ _ => trivial
  · split_ifs
    · exact refuseTls_none.mono fun _ _ _ _ => trivial
    · exact yields_pure trivial

end Steering

section Routes

def SafeResult (result : Option (HTTPRouteResult α)) (memory : Memory) : Prop :=
  ∀ routeResult ∈ result, router.AllSafe routeResult.urls memory

theorem selected_eligible {ds : DeliveryService} {caches : Selection α} {cache : Option (Cache α)}
    (sound : router.Sound ds (some caches) memory) (member : ∀ chosen ∈ cache, chosen ∈ caches.caches) :
    router.EligibleIfAny ds caches.location cache memory :=
  fun chosen given => sound caches rfl chosen (member chosen given)

theorem addRoute_safe (request : HTTPRequest) (ds : DeliveryService) {routeResult : HTTPRouteResult α}
    (safe : router.AllSafe routeResult.urls memory) :
    Yields Grows (router.addRoute request routeResult ds) memory
      fun routeResult memory => router.AllSafe routeResult.urls memory := by
  unfold addRoute
  split_ifs
  · exact yields_pure safe
  · exact yields_pure safe
  · refine yields_bind (router.selectCaches_sound request ds) fun selection memory grew sound => ?_
    have before := safe.grows grew
    cases selection with
    | none => exact yields_pure before
    | some caches =>
      dsimp only
      split_ifs
      · exact yields_pure before
      · refine yields_bind (router.selectCache_mem _ _ _) fun cache memory chose member => ?_
        have eligible := router.selected_eligible (sound.grows chose) member
        refine yields_bind (router.createCacheURL_safe request eligible) fun url memory created urlSafe => ?_
        refine yields_pure fun other inUrls => ?_
        rcases List.mem_append.mp inUrls with old | new
        · exact (before.grows chose).grows created other old
        · exact router.allSafe_single urlSafe other new

theorem multiRoute_safe (request : HTTPRequest) :
    Yields Grows (router.multiRoute request) memory router.SafeResult := by
  refine yields_bind (nonNull_yields _) fun entry memory _ _ => ?_
  split_ifs
  · exact refuseTls_none.mono fun result _ _ none => by simp [SafeResult, none]
  · refine yields_bind (router.getDeliveryServices_keeps request entry memory) fun services memory _ _ => ?_
    split
    · exact yields_pure (by simp [SafeResult])
    · refine yields_bind (yields_foldlM (by simp [AllSafe, HTTPRouteResult.new, HTTPRouteResult.setDeliveryService])
        fun ds _ _ memory safe => router.addRoute_safe request ds safe) fun routeResult memory _ safe => ?_
      split_ifs with empty
      · refine yields_bind (router.getFailureHttpResponse_safe entry request) fun url memory _ urlSafe => ?_
        refine yields_pure ?_
        rintro _ ⟨⟩
        simpa [HTTPRouteResult.addUrl, List.isEmpty_iff.mp empty] using urlSafe
      · refine yields_pure ?_
        rintro _ ⟨⟩
        exact safe

theorem singleRoute_safe (request : HTTPRequest) :
    Yields Grows (router.singleRoute request) memory router.SafeResult := by
  have failure (routeResult : HTTPRouteResult α) (ds : DeliveryService) (memory : Memory) :
      Yields Grows (do return some (routeResult.setUrl (← router.getFailureHttpResponse ds request))) memory
        router.SafeResult := by
    refine yields_bind (router.getFailureHttpResponse_safe ds request) fun url memory _ safe => yields_pure ?_
    rintro _ ⟨⟩
    exact safe
  refine yields_bind (router.getDeliveryService_keeps request memory) fun ds memory _ _ => ?_
  split
  · exact yields_pure (by simp [SafeResult])
  · dsimp only
    split
    · exact failure _ _ memory
    · refine yields_bind (router.selectCaches_sound request _) fun selection memory _ sound => ?_
      split
      · refine yields_bind (readState_keeps memory) fun _ memory _ _ => ?_
        split_ifs
        · split
          · exact yields_throw _
          · refine yields_bind (router.newURL_plain _) fun url memory _ safe => yields_pure ?_
            rintro _ ⟨⟩
            exact router.allSafe_single safe
        · exact failure _ _ memory
      next caches chosen =>
        obtain ⟨rfl, _⟩ := Option.filter_eq_some_iff.mp chosen
        refine yields_bind (router.selectCache_mem _ _ _) fun cache memory chose member => ?_
        have eligible := router.selected_eligible (sound.grows chose) member
        split_ifs
        · refine yields_bind (router.enforceRegionalGeo_safe request eligible _ rfl) fun _ _ _ safe => yields_pure ?_
          rintro _ ⟨⟩
          exact safe
        · refine yields_bind (router.createCacheURL_safe request eligible) fun url memory _ safe => yields_pure ?_
          rintro _ ⟨⟩
          exact router.allSafe_single safe

theorem route_safe (request : HTTPRequest) : Yields Grows (router.route request) memory router.SafeResult := by
  refine yields_bind (updateTrack_keeps _ memory) fun _ memory _ _ => ?_
  split_ifs
  · exact router.multiRoute_safe request
  · exact router.singleRoute_safe request

-- One cache at one location, found through the client's geolocation.
def oneCacheRouter : TrafficRouter Int where
  cacheRegister := {
    configuredLocations := (∅ : AList fun _ : String => LocationRef).insert "denver" 0
    allCaches := (∅ : CacheMap).insert "edge" 0
    dsMap := ["video"]
    matchSets := ⟨[⟨"video", [⟨.PATH, "/video", "", []⟩]⟩], .leaf, .node 0 .leaf 0 .leaf⟩ }
  cache _ := {
    id := "edge", fqdn := "edge.cdn.example", port := 80, httpsPort := 443
    deliveryServices := (∅ : AList fun _ : String => String).insert "video" "edge.video.cdn.example"
    hashable := ⟨[3, 8], by decide, 0⟩, hasAuthority := true, isAvailable := true }
  service id := {
    id, coverageZoneOnly := false, geoEnabled := none, geoRedirectUrl := none, geoRedirectUrlType := "INVALID_URL"
    bypassDestination := none, shouldAppendQueryString := true, missLocation := none, dispersion := ⟨1, true⟩
    regionalGeoEnabled := false, geolocationProvider := "", sslEnabled := false, hasX509Cert := false
    acceptHttp := true, acceptHttps := false, redirectToHttps := false, deepCache := .NEVER, locationLimit := 0
    transInfoType := some "NONE", isAvailable := true, disabledLocations := some (.array [.text "boston"]) }
  location _ := ⟨"denver", ⟨"39.7", "-105.0", none, none, none, none⟩⟩
  coverageZone := .new ⟨0, none, none, none⟩
  deepCoverageZone := .new ⟨0, none, none, none⟩
  steeringRegistry := ∅
  regionalGeo := ⟨true, ∅⟩
  geolocationService _ := .ok (some ⟨"40.0", "-105.3", none, none, some "US", none⟩)
  geolocationService6 _ := .error ()
  applicationContext := none
  arithmetic := ⟨0, fun a b => (a - b).natAbs, fun a b => a < b, (· + 1), (· - 1)⟩
  hashFunction _ := 5
  rebalanceCaches := .none
  rebalanceTargets := .none
  shuffleCaches _ := ⟨id, fun _ => .refl _⟩
  shuffleTargets _ := ⟨id, fun _ => .refl _⟩
  engine := ⟨fun _ => true, fun pattern target => pattern == target⟩
  matchesCase _ _ := false
  caseFold := Char.toLower
  notFarther _ _ _ := true
  fromString _ := none
  acceptsUrl _ := true
  encryptedTrans _ _ := none
  asInt _ := 0

def videoRequest : HTTPRequest :=
  ⟨"198.51.100.7", some "edge.video.cdn.example", "http://edge.video.cdn.example/video", some "/video", some "/video",
    none, none, false⟩

def freshMemory : Memory where
  caches location := if location = 0 then (∅ : CacheMap).insert "edge" 0 else ∅
  cacheLocation _ := none
  track := ⟨none, .ERROR, none, none, none, false, none⟩
  draws := 0

end Routes

section State

variable (cacheStates : JsonNode)

theorem foldl_markCache_absent (entries : List ((_ : String) × CacheRef)) (cache : CacheRef → Cache α) {ref : CacheRef}
    (absent : ref ∉ entries.map (·.2)) : entries.foldl (markCache cacheStates) cache ref = cache ref := by
  induction entries generalizing cache with
  | nil => rfl
  | cons first rest ih =>
    rw [List.map_cons, List.mem_cons, not_or] at absent
    rw [List.foldl_cons, ih _ absent.2, markCache, Function.update_of_ne absent.1]

theorem foldl_markCache_present (entries : List ((_ : String) × CacheRef)) (cache : CacheRef → Cache α)
    (apart : (entries.map (·.2)).Nodup) {entry : (_ : String) × CacheRef} (member : entry ∈ entries) :
    entries.foldl (markCache cacheStates) cache entry.2 =
      (cache entry.2).setState (cacheStates.get (monitorCacheName entry.1)) := by
  induction entries generalizing cache with
  | nil => exact absurd member List.not_mem_nil
  | cons first rest ih =>
    rw [List.map_cons, List.nodup_cons] at apart
    rw [List.foldl_cons]
    rcases List.mem_cons.mp member with rfl | later
    · rw [foldl_markCache_absent cacheStates rest _ apart.1, markCache, Function.update_self]
    · have different : entry.2 ≠ first.2 := fun same => apart.1 (same ▸ List.mem_map_of_mem later)
      rw [ih _ apart.2 later, markCache, Function.update_of_ne different]

variable {cacheStates}

/-- After a state document arrived, an eligible cache of the register is one that the document does
not report as unavailable. -/
theorem Eligible.reported {states : JsonNode} (given : states.get "caches" = some cacheStates)
    (apart : (router.cacheRegister.allCaches.entries.map (·.2)).Nodup) {entry : (_ : String) × CacheRef}
    (registered : entry ∈ router.cacheRegister.allCaches.entries) {ds : DeliveryService} {location : LocationRef}
    (eligible : (router.setState states).Eligible ds location ((router.setState states).cache entry.2) memory) :
    JsonUtils.optBoolean (cacheStates.get (monitorCacheName entry.1)) "isAvailable" true = true := by
  have cacheEq : (router.setState states).cache =
      router.cacheRegister.allCaches.entries.foldl (markCache cacheStates) router.cache := by
    unfold setState setDsStates setCacheStates
    rw [given]
    cases states.get "deliveryServices" <;> rfl
  have online := eligible.online
  rw [cacheEq, foldl_markCache_present cacheStates _ _ apart registered] at online
  exact online rfl

end State

end TrafficControl.TrafficRouter.TrafficRouter
