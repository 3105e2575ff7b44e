import TrafficControl.Lib.Runs
import TrafficControl.TrafficMonitor.Health.BatchLaw
import TrafficControl.TrafficMonitor.Manager.StateCombiner

set_option autoImplicit false

namespace TrafficControl.TrafficMonitor

open Runs KeyedLoop

namespace Interleaving

inductive Manager where
  | health
  | stat
deriving DecidableEq

def Manager.other : Manager → Manager
  | health => stat
  | stat => health

-- What both managers read and write, under a lock for each access. The events are left out.
structure Stores where
  localCacheStatus : AvailableStatuses
  caches : String → Option Bool
  deliveryServices : AList fun _ : String => CRStatesDeliveryService

namespace Stores

def setCache (this : Stores) (cacheName : String) (available : Bool) : Stores :=
  match this.caches cacheName with
  | some _ => { this with caches := Function.update this.caches cacheName (some available) }
  | none => this

def setDeliveryService (this : Stores) (name : String) (ds : CRStatesDeliveryService) : Stores :=
  { this with deliveryServices := this.deliveryServices.insert name ds }

-- The states as a batch sees them.
def states (this : Stores) : CRStates := ⟨this.caches, fun name => this.deliveryServices.lookup name⟩

theorem states_setCache (this : Stores) (cacheName : String) (available : Bool) :
    (this.setCache cacheName available).states = this.states.setCache cacheName available := by
  cases present : this.caches cacheName <;> simp [setCache, CRStates.setCache, states, present]

end Stores

/-- Where a manager is between two accesses, with the copies that it holds. -/
inductive Phase (α : Type) where
  | services (todo : List (String × Bool))
  | service (name : String) (isAvailable : Bool) (dsState : CRStatesDeliveryService) (todo : List (String × Bool))
  | results (localCacheStatuses : AvailableStatuses) (todo : List (Result α))
  | result (localCacheStatuses : AvailableStatuses) (id : String) (isAvailable : Bool) (todo : List (Result α))
  | caches (localCacheStatuses : AvailableStatuses) (cacheStates : String → Option Bool)
  | deliveryServices (localCacheStatuses : AvailableStatuses) (cacheStates : String → Option Bool)
      (todo : List (String × CRStatesDeliveryService))
  | returned
  | finished

namespace Phase

variable {α : Type}

def localCacheStatuses : Phase α → Option AvailableStatuses
  | results statuses _ => some statuses
  | result statuses _ _ _ => some statuses
  | caches statuses _ => some statuses
  | deliveryServices statuses _ _ => some statuses
  | _ => none

def cacheStates : Phase α → Option (String → Option Bool)
  | caches _ cacheStates => some cacheStates
  | deliveryServices _ cacheStates _ => some cacheStates
  | _ => none

-- The copies of the delivery services that are still to be written back.
def copies : Phase α → List (String × CRStatesDeliveryService)
  | deliveryServices _ _ todo => todo
  | _ => []

-- Whether the disabled locations of the delivery service are still to be stored, if there is one.
def willStore (name : String) : Phase α → Bool
  | deliveryServices _ _ todo => name ∈ todo.map (·.1)
  | returned => false
  | finished => false
  | _ => true

end Phase

/-- A call of `CalcAvailability`. -/
structure AvailabilityCall (α : Type) where
  poller : Poller α
  results : List (Result α)
  deliveryServices : RangeOrder

-- `services` are the delivery services in the order in which `addPerSecStats` visits their stats,
-- each with the availability it has found.
structure Managers (α : Type) where
  health : AvailabilityCall α
  stat : AvailabilityCall α
  services : List (String × Bool)
  toData : TOData

/-- Both managers at work, with the status that was computed last for each cache and the availability that was written
last for each delivery service. -/
structure Session (α : Type) where
  stores : Stores
  phase : Manager → Phase α
  evaluated : AvailableStatuses
  written : String → Option Bool

namespace Managers

variable {α : Type} (this : Managers α)

def call : Manager → AvailabilityCall α
  | .health => this.health
  | .stat => this.stat

def disabledLocations (servers : List String) (cacheStates : String → Option Bool) : Finset String :=
  getDisabledLocations servers cacheStates this.toData.serverCachegroups

-- The next access of a manager, and where it is then. A missing delivery service is the zero one.
def advance (manager : Manager) (stores : Stores) : Phase α → Option (Stores × Phase α)
  | .services [] => some (stores, .results stores.localCacheStatus (this.call manager).results)
  | .services ((name, isAvailable) :: todo) =>
    some (stores, .service name isAvailable ((stores.deliveryServices.lookup name).getD ⟨∅, false⟩) todo)
  | .service name isAvailable dsState todo =>
    some (stores.setDeliveryService name { dsState with isAvailable }, .services todo)
  | .results statuses [] => some (stores, .caches statuses stores.caches)
  | .results statuses (result :: todo) =>
    if (this.call manager).poller.lacksStat statuses result then some (stores, .returned)
    else some (stores, .result (Function.update statuses result.id (some ((this.call manager).poller.status result)))
      result.id ((this.call manager).poller.evaluate result).isAvailable todo)
  | .result statuses id isAvailable todo => some (stores.setCache id isAvailable, .results statuses todo)
  | .caches statuses cacheStates =>
    some (stores, .deliveryServices statuses cacheStates
      (inOrder (this.call manager).deliveryServices.order stores.deliveryServices))
  | .deliveryServices statuses _ [] => some ({ stores with localCacheStatus := statuses }, .finished)
  | .deliveryServices statuses cacheStates ((name, dsState) :: todo) =>
    match this.toData.deliveryServiceServers name with
    | none => some (stores, .deliveryServices statuses cacheStates todo)
    | some servers =>
      some (stores.setDeliveryService name { dsState with disabledLocations := this.disabledLocations servers cacheStates },
        .deliveryServices statuses cacheStates todo)
  | .returned => none
  | .finished => none

def recordEvaluated (evaluated : AvailableStatuses) : Phase α → AvailableStatuses
  | .result statuses id _ _ => Function.update evaluated id (statuses id)
  | _ => evaluated

def recordWritten (written : String → Option Bool) : Phase α → String → Option Bool
  | .service name isAvailable _ _ => Function.update written name (some isAvailable)
  | _ => written

def step (s : Session α) (manager : Manager) : Option (Session α) :=
  (this.advance manager s.stores (s.phase manager)).map fun next => {
    stores := next.1
    phase := Function.update s.phase manager next.2
    evaluated := recordEvaluated s.evaluated next.2
    written := recordWritten s.written (s.phase manager) }

def start (stores : Stores) : Session α where
  stores
  phase
    | .health => .services []
    | .stat => .services this.services
  evaluated := stores.localCacheStatus
  written _ := none

@[simp] theorem other_other (manager : Manager) : manager.other.other = manager := by
  cases manager <;> rfl

theorem other_ne (manager : Manager) : manager.other ≠ manager := by
  cases manager <;> decide

theorem forall_of_both {motive : Manager → Prop} (manager : Manager) (own : motive manager)
    (other : motive manager.other) (m : Manager) : motive m := by
  cases manager <;> cases m <;> assumption

/-- The manager goes on to another phase. -/
def enter (s : Session α) (manager : Manager) (phase : Phase α) : Session α :=
  { s with phase := Function.update s.phase manager phase }

@[simp] theorem enter_own (s : Session α) (manager : Manager) (phase : Phase α) :
    (enter s manager phase).phase manager = phase := Function.update_self _ _ _

@[simp] theorem enter_other (s : Session α) (manager : Manager) (phase : Phase α) :
    (enter s manager phase).phase manager.other = s.phase manager.other :=
  Function.update_of_ne (other_ne manager) _ _

/-- What one access of a manager does. -/
inductive Effect (s : Session α) (manager : Manager) : Session α → Prop where
  | getStatuses (phase : s.phase manager = .services []) :
    Effect s manager (enter s manager (.results s.stores.localCacheStatus (this.call manager).results))
  | getService {name : String} {isAvailable : Bool} {todo : List (String × Bool)}
    (phase : s.phase manager = .services ((name, isAvailable) :: todo)) : Effect s manager (enter s manager
      (.service name isAvailable ((s.stores.deliveryServices.lookup name).getD ⟨∅, false⟩) todo))
  | setService {name : String} {isAvailable : Bool} {dsState : CRStatesDeliveryService} {todo : List (String × Bool)}
    (phase : s.phase manager = .service name isAvailable dsState todo) : Effect s manager (enter { s with
      stores := s.stores.setDeliveryService name { dsState with isAvailable }
      written := Function.update s.written name (some isAvailable) } manager (.services todo))
  | returns {statuses : AvailableStatuses} {result : Result α} {todo : List (Result α)}
    (phase : s.phase manager = .results statuses (result :: todo))
    (lacks : (this.call manager).poller.lacksStat statuses result = true) : Effect s manager (enter s manager .returned)
  | evaluate {statuses : AvailableStatuses} {result : Result α} {todo : List (Result α)}
    (phase : s.phase manager = .results statuses (result :: todo)) : Effect s manager (enter { s with
      evaluated := Function.update s.evaluated result.id (some ((this.call manager).poller.status result)) } manager
        (.result (Function.update statuses result.id (some ((this.call manager).poller.status result))) result.id
          ((this.call manager).poller.evaluate result).isAvailable todo))
  | setCache {statuses : AvailableStatuses} {id : String} {isAvailable : Bool} {todo : List (Result α)}
    (phase : s.phase manager = .result statuses id isAvailable todo) : Effect s manager (enter { s with
      stores := s.stores.setCache id isAvailable } manager (.results statuses todo))
  | getCaches {statuses : AvailableStatuses} (phase : s.phase manager = .results statuses []) :
    Effect s manager (enter s manager (.caches statuses s.stores.caches))
  | getServices {statuses : AvailableStatuses} {cacheStates : String → Option Bool}
    (phase : s.phase manager = .caches statuses cacheStates) : Effect s manager (enter s manager
      (.deliveryServices statuses cacheStates
        (inOrder (this.call manager).deliveryServices.order s.stores.deliveryServices)))
  | skip {statuses : AvailableStatuses} {cacheStates : String → Option Bool} {name : String}
    {dsState : CRStatesDeliveryService} {todo : List (String × CRStatesDeliveryService)}
    (phase : s.phase manager = .deliveryServices statuses cacheStates ((name, dsState) :: todo))
    (unknown : this.toData.deliveryServiceServers name = none) :
    Effect s manager (enter s manager (.deliveryServices statuses cacheStates todo))
  | setLocations {statuses : AvailableStatuses} {cacheStates : String → Option Bool} {name : String}
    {dsState : CRStatesDeliveryService} {todo : List (String × CRStatesDeliveryService)} {servers : List String}
    (phase : s.phase manager = .deliveryServices statuses cacheStates ((name, dsState) :: todo))
    (known : this.toData.deliveryServiceServers name = some servers) : Effect s manager (enter { s with
      stores := s.stores.setDeliveryService name
        { dsState with disabledLocations := this.disabledLocations servers cacheStates } } manager
          (.deliveryServices statuses cacheStates todo))
  | setStatuses {statuses : AvailableStatuses} {cacheStates : String → Option Bool}
    (phase : s.phase manager = .deliveryServices statuses cacheStates []) : Effect s manager (enter { s with
      stores := { s.stores with localCacheStatus := statuses } } manager .finished)

theorem effect_of_step {s t : Session α} {manager : Manager} (stepped : this.step s manager = some t) :
    this.Effect s manager t := by
  obtain ⟨next, advanced, rfl⟩ := Option.map_eq_some_iff.mp stepped
  cases phase : s.phase manager with
  | services todo =>
    cases todo with
    | nil =>
      rw [phase] at advanced
      obtain rfl := Option.some.inj advanced
      exact .getStatuses phase
    | cons service todo =>
      rw [phase] at advanced
      obtain rfl := Option.some.inj advanced
      exact .getService phase
  | service name isAvailable dsState todo =>
    rw [phase] at advanced
    obtain rfl := Option.some.inj advanced
    exact .setService phase
  | results statuses todo =>
    cases todo with
    | nil =>
      rw [phase] at advanced
      obtain rfl := Option.some.inj advanced
      exact .getCaches phase
    | cons result todo =>
      rw [phase, advance] at advanced
      split at advanced
      next lacks =>
        obtain rfl := Option.some.inj advanced
        exact .returns phase lacks
      next =>
        obtain rfl := Option.some.inj advanced
        simp only [recordEvaluated, recordWritten, Function.update_self]
        exact .evaluate phase
  | result statuses id isAvailable todo =>
    rw [phase] at advanced
    obtain rfl := Option.some.inj advanced
    exact .setCache phase
  | caches statuses cacheStates =>
    rw [phase] at advanced
    obtain rfl := Option.some.inj advanced
    exact .getServices phase
  | deliveryServices statuses cacheStates todo =>
    cases todo with
    | nil =>
      rw [phase] at advanced
      obtain rfl := Option.some.inj advanced
      exact .setStatuses phase
    | cons entry todo =>
      rw [phase, advance] at advanced
      split at advanced
      next unknown =>
        obtain rfl := Option.some.inj advanced
        exact .skip phase unknown
      next servers known =>
        obtain rfl := Option.some.inj advanced
        exact .setLocations phase known
  | returned =>
    rw [phase] at advanced
    cases advanced
  | finished =>
    rw [phase] at advanced
    cases advanced

section Alone

variable (manager : Manager)

/-- The manager gets from one state to the other while the other manager waits. -/
def Alone (s t : Session α) : Prop := ∃ accesses, run this.step s (List.replicate accesses manager) = some t

variable {this manager}

theorem alone_refl (s : Session α) : this.Alone manager s s := ⟨0, rfl⟩

theorem alone_step {s t u : Session α} (stepped : this.step s manager = some t) (rest : this.Alone manager t u) :
    this.Alone manager s u := by
  obtain ⟨accesses, ran⟩ := rest
  refine ⟨accesses + 1, ?_⟩
  rw [List.replicate_succ, run, stepped]
  exact ran

theorem alone_trans {s t u : Session α} (before : this.Alone manager s t) (after : this.Alone manager t u) :
    this.Alone manager s u := by
  obtain ⟨first, ran⟩ := before
  obtain ⟨second, rest⟩ := after
  refine ⟨first + second, ?_⟩
  rw [List.replicate_add, run_append, ran]
  exact rest

theorem step_evaluate {s : Session α} {statuses : AvailableStatuses} {result : Result α} {results : List (Result α)}
    (phase : s.phase manager = .results statuses (result :: results))
    (has : (this.call manager).poller.lacksStat statuses result = false) :
    ∃ t, this.step s manager = some t ∧ t.stores = s.stores ∧ t.phase manager =
      .result (Function.update statuses result.id (some ((this.call manager).poller.status result))) result.id
        ((this.call manager).poller.evaluate result).isAvailable results := by
  simp [step, advance, phase, has]

theorem step_setCache {s : Session α} {statuses : AvailableStatuses} {id : String} {isAvailable : Bool}
    {results : List (Result α)} (phase : s.phase manager = .result statuses id isAvailable results) :
    ∃ t, this.step s manager = some t ∧ t.stores = s.stores.setCache id isAvailable ∧
      t.phase manager = .results statuses results := by
  simp [step, advance, phase]

/-- The loop over the results does what the loop of the batch does. -/
theorem alone_results {s : Session α} (monitor : Monitor) {last : Monitor} {results : List (Result α)}
    (phase : s.phase manager = .results monitor.localCacheStatus results) (states : s.stores.states = monitor.localStates)
    (stats : (this.call manager).poller.HasStats monitor.localCacheStatus results)
    (folded : results.foldlM ((this.call manager).poller.takeEffect this.toData) monitor = some last) :
    ∃ t, this.Alone manager s t ∧ t.phase manager = .results last.localCacheStatus [] ∧
      t.stores.states = last.localStates := by
  induction results generalizing s monitor with
  | nil =>
    obtain rfl := Option.some.inj folded
    exact ⟨s, alone_refl s, phase, states⟩
  | cons result results ih =>
    obtain ⟨next, taken, rest⟩ := Option.bind_eq_some_iff.mp folded
    obtain ⟨updated, -⟩ := Poller.takeEffect_some _ taken
    have effect : next.localStates = monitor.localStates.setCache result.id
        ((this.call manager).poller.evaluate result).isAvailable := by
      obtain ⟨events, -, rfl⟩ := Option.map_eq_some_iff.mp taken
      rfl
    obtain ⟨evaluated, first, kept, phase⟩ := step_evaluate phase stats.1
    obtain ⟨stored, second, changed, phase⟩ := step_setCache phase
    rw [← updated] at phase
    have same : stored.stores.states = next.localStates := by
      rw [changed, Stores.states_setCache, kept, states, effect]
    obtain ⟨t, alone, done, same⟩ := ih next phase same (updated ▸ stats.2) rest
    exact ⟨t, alone_step first (alone_step second alone), done, same⟩

-- One turn of the loop of `calculateDeliveryServiceState`.
def visit (this : Managers α) (cacheStates : String → Option Bool) (stores : Stores)
    (entry : String × CRStatesDeliveryService) : Stores :=
  match this.toData.deliveryServiceServers entry.1 with
  | none => stores
  | some servers => stores.setDeliveryService entry.1
    { entry.2 with disabledLocations := this.disabledLocations servers cacheStates }

theorem step_visit {s : Session α} {statuses : AvailableStatuses} {cacheStates : String → Option Bool}
    {entry : String × CRStatesDeliveryService} {todo : List (String × CRStatesDeliveryService)}
    (phase : s.phase manager = .deliveryServices statuses cacheStates (entry :: todo)) :
    ∃ t, this.step s manager = some t ∧ t.stores = this.visit cacheStates s.stores entry ∧
      t.phase manager = .deliveryServices statuses cacheStates todo := by
  unfold visit
  cases known : this.toData.deliveryServiceServers entry.1 <;> simp [step, advance, phase, known]

theorem alone_visit {s : Session α} {statuses : AvailableStatuses} {cacheStates : String → Option Bool}
    {todo : List (String × CRStatesDeliveryService)} (phase : s.phase manager = .deliveryServices statuses cacheStates todo) :
    ∃ t, this.Alone manager s t ∧ t.phase manager = .deliveryServices statuses cacheStates [] ∧
      t.stores = todo.foldl (this.visit cacheStates) s.stores := by
  induction todo generalizing s with
  | nil => exact ⟨s, alone_refl s, phase, rfl⟩
  | cons entry todo ih =>
    obtain ⟨visited, first, stores, phase⟩ := step_visit phase
    obtain ⟨t, alone, done, same⟩ := ih phase
    refine ⟨t, alone_step first alone, done, ?_⟩
    rw [same, stores, List.foldl_cons]

theorem foldl_visit_caches (cacheStates : String → Option Bool) (todo : List (String × CRStatesDeliveryService))
    (stores : Stores) : (todo.foldl (this.visit cacheStates) stores).caches = stores.caches := by
  induction todo generalizing stores with
  | nil => rfl
  | cons entry todo ih =>
    rw [List.foldl_cons, ih]
    unfold visit
    split <;> rfl

/-- The loop over the delivery services stores what the batch calculates. -/
theorem states_visited (manager : Manager) (stores : Stores) :
    ((inOrder (this.call manager).deliveryServices.order stores.deliveryServices).foldl
      (this.visit stores.caches) stores).states = calculateDeliveryServiceState this.toData stores.states := by
  have services : ∀ name, ((inOrder (this.call manager).deliveryServices.order stores.deliveryServices).foldl
      (this.visit stores.caches) stores).deliveryServices.lookup name =
        (calculateDeliveryServiceState this.toData stores.states).deliveryService name := by
    intro name
    let stored (dsState : CRStatesDeliveryService) (before : Option CRStatesDeliveryService) :=
      (this.toData.deliveryServiceServers name).elim before fun servers =>
        some { dsState with disabledLocations := this.disabledLocations servers stores.caches }
    rw [foldl_inOrder (fun stores : Stores => stores.deliveryServices.lookup name)
      (this.call manager).deliveryServices.perm stores.deliveryServices stored]
    · simp only [calculateDeliveryServiceState, Stores.states, stored]
      cases stores.deliveryServices.lookup name with
      | none => rfl
      | some dsState => cases this.toData.deliveryServiceServers name <;> rfl
    · intro stores' entry apart
      unfold visit
      split
      · rfl
      · exact AList.lookup_insert_ne apart.symm
    · intro stores' dsState
      unfold visit
      simp only [stored]
      cases this.toData.deliveryServiceServers name with
      | none => rfl
      | some servers => exact AList.lookup_insert _
  simp only [Stores.states, foldl_visit_caches, services]
  rfl

/-- A manager that is not interrupted does what `CalcAvailability` does with a batch that it does not return from. -/
theorem alone_calcAvailability {s : Session α} (phase : s.phase manager = .services [])
    (stats : (this.call manager).poller.HasStats s.stores.localCacheStatus (this.call manager).results)
    {events : ThreadsafeEvents} {last : Monitor} (calculated : (this.call manager).poller.calcAvailability this.toData
      ⟨s.stores.localCacheStatus, s.stores.states, events⟩ (this.call manager).results = some last) :
    ∃ t, this.Alone manager s t ∧ t.phase manager = .finished ∧ t.stores.localCacheStatus = last.localCacheStatus ∧
      t.stores.states = last.localStates := by
  rw [Poller.calcAvailability_hasStats _ stats] at calculated
  obtain ⟨last, folded, rfl⟩ := Option.map_eq_some_iff.mp calculated
  obtain ⟨copied, first, kept, phase⟩ : ∃ t, this.step s manager = some t ∧ t.stores = s.stores ∧
      t.phase manager = .results s.stores.localCacheStatus (this.call manager).results := by
    simp [step, advance, phase]
  obtain ⟨looped, loop, phase, states⟩ := alone_results ⟨s.stores.localCacheStatus, s.stores.states, events⟩ phase
    (by rw [kept]) stats folded
  obtain ⟨read, second, sameCaches, phase⟩ : ∃ t, this.step looped manager = some t ∧ t.stores = looped.stores ∧
      t.phase manager = .caches last.localCacheStatus looped.stores.caches := by
    simp [step, advance, phase]
  obtain ⟨taken, third, sameServices, phase⟩ : ∃ t, this.step read manager = some t ∧ t.stores = looped.stores ∧
      t.phase manager = .deliveryServices last.localCacheStatus looped.stores.caches
        (inOrder (this.call manager).deliveryServices.order looped.stores.deliveryServices) := by
    simp [step, advance, phase, sameCaches]
  obtain ⟨visited, visits, phase, stores⟩ := alone_visit phase
  obtain ⟨t, fourth, done, finished⟩ : ∃ t, this.step visited manager = some t ∧
      t.stores = { visited.stores with localCacheStatus := last.localCacheStatus } ∧ t.phase manager = .finished := by
    simp [step, advance, phase]
  refine ⟨t, alone_step first (alone_trans loop (alone_step second (alone_step third (alone_trans visits
    (alone_step fourth (alone_refl t)))))), finished, by rw [done]; rfl, ?_⟩
  have calculatedStates : visited.stores.states = calculateDeliveryServiceState this.toData last.localStates := by
    rw [stores, sameServices, states_visited, states]
  rw [done]
  exact calculatedStates

end Alone

end Managers

end Interleaving

end TrafficControl.TrafficMonitor
