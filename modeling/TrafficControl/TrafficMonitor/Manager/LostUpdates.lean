import TrafficControl.TrafficMonitor.Manager.Interleaving

set_option autoImplicit false

namespace TrafficControl.TrafficMonitor.Interleaving

open Runs KeyedLoop

namespace Managers

variable {α : Type} (this : Managers α)

/-- The statuses are the ones that were computed last, the disabled locations those of the cache states, and the
availability of a delivery service the one that was written last. -/
structure NothingLost (s : Session α) : Prop where
  statuses : s.stores.localCacheStatus = s.evaluated
  locations : ∀ name servers dsState, this.toData.deliveryServiceServers name = some servers →
    s.stores.deliveryServices.lookup name = some dsState →
      dsState.disabledLocations = this.disabledLocations servers s.stores.caches
  availability : ∀ name isAvailable, s.written name = some isAvailable →
    ∃ dsState, s.stores.deliveryServices.lookup name = some dsState ∧ dsState.isAvailable = isAvailable

/-- The next access of a manager does not end its call early, and does not make a copy stale that the other manager
is going to write back. -/
def Exclusive (s : Session α) (manager : Manager) : Prop :=
  match s.phase manager with
  | .results statuses (result :: _) => (this.call manager).poller.lacksStat statuses result = false
  | .service name isAvailable _ _ => (this.toData.deliveryServiceServers name).isSome = true →
    ∀ copy ∈ (s.phase manager.other).copies, copy.1 = name → copy.2.isAvailable = isAvailable
  | .deliveryServices _ _ ((name, _) :: _) => (s.phase manager.other).willStore name = true →
    ∀ servers ∈ this.toData.deliveryServiceServers name, ∀ cacheStates ∈ (s.phase manager.other).cacheStates,
      this.disabledLocations servers cacheStates = this.disabledLocations servers s.stores.caches
  | .deliveryServices _ _ [] => (s.phase manager.other).localCacheStatuses.isNone = true
  | _ => True

instance decidableExclusive (s : Session α) (manager : Manager) : Decidable (this.Exclusive s manager) :=
  match phase : s.phase manager with
  | .results statuses (result :: _) =>
    decidable_of_iff ((this.call manager).poller.lacksStat statuses result = false) (by rw [Exclusive, phase])
  | .service name isAvailable _ _ =>
    decidable_of_iff ((this.toData.deliveryServiceServers name).isSome = true →
      ∀ copy ∈ (s.phase manager.other).copies, copy.1 = name → copy.2.isAvailable = isAvailable) (by rw [Exclusive, phase])
  | .deliveryServices _ _ ((name, _) :: _) =>
    decidable_of_iff ((s.phase manager.other).willStore name = true →
      ∀ servers ∈ this.toData.deliveryServiceServers name, ∀ cacheStates ∈ (s.phase manager.other).cacheStates,
        this.disabledLocations servers cacheStates = this.disabledLocations servers s.stores.caches)
          (by rw [Exclusive, phase])
  | .deliveryServices _ _ [] =>
    decidable_of_iff ((s.phase manager.other).localCacheStatuses.isNone = true) (by rw [Exclusive, phase])
  | .services _ => .isTrue (by rw [Exclusive, phase]; trivial)
  | .results _ [] => .isTrue (by rw [Exclusive, phase]; trivial)
  | .result _ _ _ _ => .isTrue (by rw [Exclusive, phase]; trivial)
  | .caches _ _ => .isTrue (by rw [Exclusive, phase]; trivial)
  | .returned => .isTrue (by rw [Exclusive, phase]; trivial)
  | .finished => .isTrue (by rw [Exclusive, phase]; trivial)

variable {this} in
theorem not_returns {s : Session α} {manager : Manager} (exclusive : this.Exclusive s manager)
    {statuses : AvailableStatuses} {result : Result α} {todo : List (Result α)}
    (phase : s.phase manager = .results statuses (result :: todo)) :
    (this.call manager).poller.lacksStat statuses result ≠ true := by
  rw [Exclusive, phase] at exclusive
  exact Bool.eq_false_iff.mp exclusive

section Statuses

/-- A copy of the statuses that is the only one has what was computed last, and so has the store when there is none. -/
structure Recorded (s : Session α) : Prop where
  stored : (∀ manager, (s.phase manager).localCacheStatuses = none) → s.stores.localCacheStatus = s.evaluated
  held : ∀ manager statuses, (s.phase manager).localCacheStatuses = some statuses →
    (s.phase manager.other).localCacheStatuses = none → statuses = s.evaluated

variable {this}

theorem setCache_statuses (stores : Stores) (cacheName : String) (available : Bool) :
    (stores.setCache cacheName available).localCacheStatus = stores.localCacheStatus := by
  unfold Stores.setCache
  split <;> rfl

theorem setCache_services (stores : Stores) (cacheName : String) (available : Bool) :
    (stores.setCache cacheName available).deliveryServices = stores.deliveryServices := by
  unfold Stores.setCache
  split <;> rfl

theorem lookup_own (stores : Stores) (name : String) (ds : CRStatesDeliveryService) :
    (stores.setDeliveryService name ds).deliveryServices.lookup name = some ds := AList.lookup_insert _

theorem lookup_other (stores : Stores) {name other : String} (ds : CRStatesDeliveryService) (apart : other ≠ name) :
    (stores.setDeliveryService name ds).deliveryServices.lookup other = stores.deliveryServices.lookup other :=
  AList.lookup_insert_ne apart

-- Most accesses leave the copies of the statuses alone.
theorem recorded_enter {s t : Session α} (recorded : Recorded s) {manager : Manager} {phase : Phase α}
    (same : phase.localCacheStatuses = (s.phase manager).localCacheStatuses) (phases : t.phase = s.phase)
    (store : t.stores.localCacheStatus = s.stores.localCacheStatus) (evaluated : t.evaluated = s.evaluated) :
    Recorded (enter t manager phase) := by
  have copies : ∀ m, ((enter t manager phase).phase m).localCacheStatuses = (s.phase m).localCacheStatuses := by
    refine forall_of_both manager ?_ ?_
    · rw [enter_own, same]
    · rw [enter_other, phases]
  constructor
  · intro none
    exact store.trans ((recorded.stored fun m => (copies m).symm.trans (none m)).trans evaluated.symm)
  · intro m statuses own other
    rw [copies] at own other
    exact (recorded.held m statuses own other).trans evaluated.symm

-- A manager that takes or changes its copy.
theorem recorded_copy {s : Session α} {manager : Manager} {phase : Phase α} {statuses : AvailableStatuses}
    (copy : phase.localCacheStatuses = some statuses)
    (own : (s.phase manager.other).localCacheStatuses = none → statuses = s.evaluated) :
    Recorded (enter s manager phase) := by
  constructor
  · intro none
    have absent := none manager
    rw [enter_own, copy] at absent
    cases absent
  · refine forall_of_both manager (fun held present other => ?_) (fun held _ other => ?_)
    · rw [enter_own, copy] at present
      rw [enter_other] at other
      exact (Option.some.inj present).symm.trans (own other)
    · rw [other_other, enter_own, copy] at other
      cases other

theorem recorded_step {s t : Session α} {manager : Manager} (recorded : Recorded s)
    (exclusive : this.Exclusive s manager) (stepped : this.step s manager = some t) : Recorded t := by
  cases this.effect_of_step stepped with
  | getStatuses phase =>
    refine recorded_copy rfl fun other => recorded.stored (forall_of_both manager ?_ other)
    rw [phase]
    rfl
  | getService phase => exact recorded_enter recorded (by rw [phase]; rfl) rfl rfl rfl
  | setService phase => exact recorded_enter recorded (by rw [phase]; rfl) rfl rfl rfl
  | returns phase lacks => exact absurd lacks (not_returns exclusive phase)
  | @evaluate statuses result todo phase =>
    refine recorded_copy rfl fun other => ?_
    have current : statuses = s.evaluated := recorded.held manager statuses (by rw [phase]; rfl) other
    rw [current]
  | setCache phase => exact recorded_enter recorded (by rw [phase]; rfl) rfl (setCache_statuses _ _ _) rfl
  | getCaches phase => exact recorded_enter recorded (by rw [phase]; rfl) rfl rfl rfl
  | getServices phase => exact recorded_enter recorded (by rw [phase]; rfl) rfl rfl rfl
  | skip phase unknown => exact recorded_enter recorded (by rw [phase]; rfl) rfl rfl rfl
  | setLocations phase known => exact recorded_enter recorded (by rw [phase]; rfl) rfl rfl rfl
  | setStatuses phase =>
    rw [Exclusive, phase] at exclusive
    have other := Option.isNone_iff_eq_none.mp exclusive
    constructor
    · intro _
      exact recorded.held manager _ (by rw [phase]; rfl) other
    · refine forall_of_both manager (fun statuses own _ => ?_) (fun statuses own _ => ?_)
      · rw [enter_own] at own
        cases own
      · rw [enter_other] at own
        cases other.symm.trans own

end Statuses

section Availability

/-- Copies that are going to be written back have the availability that the store has, and the store has the one
that was written last. -/
structure Available (s : Session α) : Prop where
  copies : ∀ manager, ∀ copy ∈ (s.phase manager).copies, (this.toData.deliveryServiceServers copy.1).isSome = true →
    ∃ dsState, s.stores.deliveryServices.lookup copy.1 = some dsState ∧ dsState.isAvailable = copy.2.isAvailable
  written : ∀ name isAvailable, s.written name = some isAvailable →
    ∃ dsState, s.stores.deliveryServices.lookup name = some dsState ∧ dsState.isAvailable = isAvailable

variable {this}

-- Most accesses leave the delivery services alone and do not take copies.
theorem available_enter {s t : Session α} (available : this.Available s) {manager : Manager} {phase : Phase α}
    (fewer : phase.copies ⊆ (s.phase manager).copies) (phases : t.phase = s.phase)
    (store : t.stores.deliveryServices = s.stores.deliveryServices) (written : t.written = s.written) :
    this.Available (enter t manager phase) := by
  constructor
  · refine forall_of_both manager (fun copy listed known => ?_) (fun copy listed known => ?_)
    · rw [enter_own] at listed
      obtain ⟨dsState, present, same⟩ := available.copies manager copy (fewer listed) known
      exact ⟨dsState, (congrArg (AList.lookup copy.1) store).trans present, same⟩
    · rw [enter_other, phases] at listed
      obtain ⟨dsState, present, same⟩ := available.copies manager.other copy listed known
      exact ⟨dsState, (congrArg (AList.lookup copy.1) store).trans present, same⟩
  · intro name isAvailable last
    obtain ⟨dsState, present, same⟩ := available.written name isAvailable ((congrFun written name).symm.trans last)
    exact ⟨dsState, (congrArg (AList.lookup name) store).trans present, same⟩

theorem available_step {s t : Session α} {manager : Manager} (available : this.Available s)
    (exclusive : this.Exclusive s manager) (stepped : this.step s manager = some t) : this.Available t := by
  cases this.effect_of_step stepped with
  | getStatuses phase => exact available_enter available (List.nil_subset _) rfl rfl rfl
  | getService phase => exact available_enter available (List.nil_subset _) rfl rfl rfl
  | @setService name isAvailable dsState todo phase =>
    rw [Exclusive, phase] at exclusive
    constructor
    · refine forall_of_both manager (fun copy listed _ => ?_) (fun copy listed known => ?_)
      · rw [enter_own] at listed
        cases listed
      · rw [enter_other] at listed
        by_cases own : copy.1 = name
        · subst own
          exact ⟨_, lookup_own _ _ _, (exclusive known copy listed rfl).symm⟩
        · obtain ⟨state, present, same⟩ := available.copies manager.other copy listed known
          exact ⟨state, (lookup_other _ _ own).trans present, same⟩
    · intro service last written
      change Function.update s.written name (some isAvailable) service = some last at written
      by_cases own : service = name
      · subst own
        rw [Function.update_self] at written
        exact ⟨_, lookup_own _ _ _, Option.some.inj written⟩
      · rw [Function.update_of_ne own] at written
        obtain ⟨state, present, same⟩ := available.written service last written
        exact ⟨state, (lookup_other _ _ own).trans present, same⟩
  | returns phase lacks => exact available_enter available (List.nil_subset _) rfl rfl rfl
  | evaluate phase => exact available_enter available (List.nil_subset _) rfl rfl rfl
  | setCache phase => exact available_enter available (List.nil_subset _) rfl (setCache_services _ _ _) rfl
  | getCaches phase => exact available_enter available (List.nil_subset _) rfl rfl rfl
  | @getServices statuses cacheStates phase =>
    constructor
    · refine forall_of_both manager (fun copy listed _ => ?_) (fun copy listed known => ?_)
      · rw [enter_own] at listed
        exact ⟨copy.2, (mem_inOrder (this.call manager).deliveryServices.perm _).mp listed, rfl⟩
      · rw [enter_other] at listed
        exact available.copies manager.other copy listed known
    · exact available.written
  | skip phase unknown =>
    refine available_enter available ?_ rfl rfl rfl
    rw [phase]
    exact List.subset_cons_self _ _
  | @setLocations statuses cacheStates name dsState todo servers phase known =>
    have pending : (name, dsState) ∈ (s.phase manager).copies := by
      rw [phase]
      exact List.mem_cons_self
    obtain ⟨stored, present, same⟩ := available.copies manager _ pending (by rw [known]; rfl)
    -- The availability that is written back is the one in the store.
    have kept : ∀ service isAvailable, (∃ state, s.stores.deliveryServices.lookup service = some state ∧
        state.isAvailable = isAvailable) → ∃ state, (s.stores.setDeliveryService name { dsState with
          disabledLocations := this.disabledLocations servers cacheStates }).deliveryServices.lookup service = some state ∧
            state.isAvailable = isAvailable := by
      rintro service isAvailable ⟨state, found, holds⟩
      by_cases own : service = name
      · subst own
        obtain rfl := Option.some.inj (present.symm.trans found)
        exact ⟨_, lookup_own _ _ _, same.symm.trans holds⟩
      · exact ⟨state, (lookup_other _ _ own).trans found, holds⟩
    constructor
    · refine forall_of_both manager (fun copy listed known => ?_) (fun copy listed known => ?_)
      · rw [enter_own] at listed
        refine kept _ _ (available.copies manager copy ?_ known)
        rw [phase]
        exact List.mem_cons_of_mem _ listed
      · rw [enter_other] at listed
        exact kept _ _ (available.copies manager.other copy listed known)
    · exact fun service isAvailable written => kept _ _ (available.written service isAvailable written)
  | setStatuses phase => exact available_enter available (List.nil_subset _) rfl rfl rfl

end Availability

section Locations

/-- A copy of the cache states from which disabled locations are going to be stored last gives those of the current
ones, and so does the store when none are going to be stored. -/
structure Located (s : Session α) : Prop where
  pending : ∀ manager name servers dsState cacheStates, this.toData.deliveryServiceServers name = some servers →
    s.stores.deliveryServices.lookup name = some dsState → (s.phase manager).cacheStates = some cacheStates →
      (s.phase manager).willStore name = true → (s.phase manager.other).willStore name = false →
        this.disabledLocations servers cacheStates = this.disabledLocations servers s.stores.caches
  stored : ∀ name servers dsState, this.toData.deliveryServiceServers name = some servers →
    s.stores.deliveryServices.lookup name = some dsState → (∀ manager, (s.phase manager).willStore name = false) →
      dsState.disabledLocations = this.disabledLocations servers s.stores.caches

variable {this}

theorem willStore_head (statuses : AvailableStatuses) (cacheStates : String → Option Bool) (name : String)
    (dsState : CRStatesDeliveryService) (todo : List (String × CRStatesDeliveryService)) :
    (Phase.deliveryServices statuses cacheStates ((name, dsState) :: todo) : Phase α).willStore name = true :=
  decide_eq_true List.mem_cons_self

theorem willStore_tail (statuses : AvailableStatuses) (cacheStates : String → Option Bool) {name other : String}
    (dsState : CRStatesDeliveryService) (todo : List (String × CRStatesDeliveryService)) (apart : other ≠ name) :
    (Phase.deliveryServices statuses cacheStates ((name, dsState) :: todo) : Phase α).willStore other =
      (Phase.deliveryServices statuses cacheStates todo : Phase α).willStore other := by
  simp [Phase.willStore, apart]

-- A manager that is going to store all the disabled locations, from cache states that it has not read yet.
theorem located_early {s : Session α} {manager : Manager} {phase : Phase α} (unread : phase.cacheStates = none)
    (all : ∀ name, phase.willStore name = true) : this.Located (enter s manager phase) := by
  constructor
  · refine forall_of_both manager ?_ ?_
    · intro name servers dsState cacheStates _ _ read
      rw [enter_own, unread] at read
      cases read
    · intro name servers dsState cacheStates _ _ _ _ other
      rw [other_other, enter_own, all] at other
      cases other
  · intro name servers dsState _ _ none
    have own := none manager
    rw [enter_own, all] at own
    cases own

theorem located_late {s t : Session α} {manager : Manager} {phase : Phase α} (phases : t.phase = s.phase)
    (own : ∀ name servers dsState cacheStates, this.toData.deliveryServiceServers name = some servers →
      t.stores.deliveryServices.lookup name = some dsState → phase.cacheStates = some cacheStates →
        phase.willStore name = true → (s.phase manager.other).willStore name = false →
          this.disabledLocations servers cacheStates = this.disabledLocations servers t.stores.caches)
    (other : ∀ name servers dsState cacheStates, this.toData.deliveryServiceServers name = some servers →
      t.stores.deliveryServices.lookup name = some dsState → (s.phase manager.other).cacheStates = some cacheStates →
        (s.phase manager.other).willStore name = true → phase.willStore name = false →
          this.disabledLocations servers cacheStates = this.disabledLocations servers t.stores.caches)
    (stored : ∀ name servers dsState, this.toData.deliveryServiceServers name = some servers →
      t.stores.deliveryServices.lookup name = some dsState → phase.willStore name = false →
        (s.phase manager.other).willStore name = false →
          dsState.disabledLocations = this.disabledLocations servers t.stores.caches) :
    this.Located (enter t manager phase) := by
  constructor
  · refine forall_of_both manager ?_ ?_
    · rw [enter_own, enter_other, phases]
      exact own
    · rw [other_other, enter_own, enter_other, phases]
      exact other
  · intro name servers dsState known present none
    have here := none manager
    have there := none manager.other
    rw [enter_own] at here
    rw [enter_other, phases] at there
    exact stored name servers dsState known present here there

theorem located_step {s t : Session α} {manager : Manager} (located : this.Located s) (available : this.Available s)
    (exclusive : this.Exclusive s manager) (stepped : this.step s manager = some t) : this.Located t := by
  cases this.effect_of_step stepped with
  | getStatuses phase => exact located_early rfl fun _ => rfl
  | getService phase => exact located_early rfl fun _ => rfl
  | setService phase => exact located_early rfl fun _ => rfl
  | returns phase lacks => exact absurd lacks (not_returns exclusive phase)
  | evaluate phase => exact located_early rfl fun _ => rfl
  | setCache phase => exact located_early rfl fun _ => rfl
  | getCaches phase =>
    refine located_late rfl ?_ (fun _ _ _ _ _ _ _ _ done => nomatch done) fun _ _ _ _ _ done => nomatch done
    rintro name servers dsState cacheStates - - read - -
    rw [← Option.some.inj read]
  | @getServices statuses cacheStates phase =>
    -- Every delivery service that there is will be visited.
    have all : ∀ name dsState, s.stores.deliveryServices.lookup name = some dsState →
        (Phase.deliveryServices statuses cacheStates (inOrder (this.call manager).deliveryServices.order
          s.stores.deliveryServices) : Phase α).willStore name = true := by
      intro name dsState present
      have listed := (mem_inOrder (this.call manager).deliveryServices.perm s.stores.deliveryServices).mpr present
      exact decide_eq_true (List.mem_map.mpr ⟨_, listed, rfl⟩)
    refine located_late rfl ?_ ?_ ?_
    · rintro name servers dsState read known present same - other
      obtain rfl := Option.some.inj same
      exact located.pending manager name servers dsState _ known present (by rw [phase]; rfl) (by rw [phase]; rfl) other
    · intro name servers dsState _ _ present _ _ done
      exact absurd (done.symm.trans (all name dsState present)) Bool.false_ne_true
    · intro name servers dsState _ present done
      exact absurd (done.symm.trans (all name dsState present)) Bool.false_ne_true
  | @skip statuses cacheStates name dsState todo phase unknown =>
    have same : ∀ service servers, this.toData.deliveryServiceServers service = some servers →
        (s.phase manager).willStore service =
          (Phase.deliveryServices statuses cacheStates todo : Phase α).willStore service := by
      intro service servers known
      rw [phase]
      refine willStore_tail _ _ _ _ ?_
      rintro rfl
      cases unknown.symm.trans known
    refine located_late rfl ?_ ?_ ?_
    · intro service servers state read known present taken will other
      rw [← same service servers known] at will
      exact located.pending manager service servers state read known present (by rw [phase]; exact taken) will other
    · intro service servers state read known present taken will done
      rw [← same service servers known] at done
      exact located.pending manager.other service servers state read known present taken will (by rw [other_other]; exact done)
    · intro service servers state known present done other
      rw [← same service servers known] at done
      exact located.stored service servers state known present (forall_of_both manager done other)
  | @setLocations statuses cacheStates name dsState todo servers phase known =>
    have head : (s.phase manager).willStore name = true := by
      rw [phase]
      exact willStore_head _ _ _ _ _
    have tail : ∀ service, service ≠ name → (s.phase manager).willStore service =
        (Phase.deliveryServices statuses cacheStates todo : Phase α).willStore service := by
      intro service apart
      rw [phase]
      exact willStore_tail _ _ _ _ apart
    have read : (s.phase manager).cacheStates = some cacheStates := by
      rw [phase]
      rfl
    rw [Exclusive, phase] at exclusive
    obtain ⟨before, stored, -⟩ := available.copies manager (name, dsState) (by rw [phase]; exact List.mem_cons_self)
      (by rw [known]; rfl)
    refine located_late rfl ?_ ?_ ?_
    · intro service servers' state taken known' present same will other
      obtain rfl := Option.some.inj same
      by_cases own : service = name
      · subst own
        exact located.pending manager service servers' before _ known' stored read head other
      · exact located.pending manager service servers' state _ known' ((lookup_other _ _ own).symm.trans present) read
          ((tail service own).trans will) other
    · intro service servers' state taken known' present same will done
      by_cases own : service = name
      · subst own
        exact exclusive will servers' known' taken same
      · exact located.pending manager.other service servers' state taken known'
          ((lookup_other _ _ own).symm.trans present) same will (by rw [other_other, tail service own]; exact done)
    · intro service servers' state known' present done other
      by_cases own : service = name
      · subst own
        obtain rfl := Option.some.inj (known.symm.trans known')
        obtain rfl := Option.some.inj ((lookup_own _ _ _).symm.trans present)
        exact located.pending manager service servers before cacheStates known stored read head other
      · exact located.stored service servers' state known' ((lookup_other _ _ own).symm.trans present)
          (forall_of_both manager ((tail service own).trans done) other)
  | @setStatuses statuses cacheStates phase =>
    refine located_late rfl (fun _ _ _ _ _ _ read => nomatch read) ?_ ?_
    · intro name servers dsState read known present same will _
      exact located.pending manager.other name servers dsState read known present same will
        (by rw [other_other, phase]; rfl)
    · intro name servers dsState known present _ other
      refine located.stored name servers dsState known present (forall_of_both manager ?_ other)
      rw [phase]
      rfl

end Locations

/-- What holds while no update has been lost. -/
structure Kept (s : Session α) : Prop where
  recorded : Recorded s
  available : this.Available s
  located : this.Located s

theorem kept_start (stores : Stores) : this.Kept (this.start stores) := by
  have phases : ∀ manager, ∃ todo, (this.start stores).phase manager = .services todo := by
    intro manager
    cases manager
    · exact ⟨[], rfl⟩
    · exact ⟨this.services, rfl⟩
  refine ⟨⟨fun _ => rfl, ?_⟩, ⟨?_, fun _ _ written => nomatch written⟩, ⟨?_, ?_⟩⟩
  · intro manager statuses own
    obtain ⟨todo, phase⟩ := phases manager
    rw [phase] at own
    cases own
  · intro manager copy listed
    obtain ⟨todo, phase⟩ := phases manager
    rw [phase] at listed
    cases listed
  · intro manager name servers dsState cacheStates _ _ read
    obtain ⟨todo, phase⟩ := phases manager
    rw [phase] at read
    cases read
  · intro name servers dsState _ _ none
    cases none .health

theorem kept_step {s t : Session α} {manager : Manager} (kept : this.Kept s) (exclusive : this.Exclusive s manager)
    (stepped : this.step s manager = some t) : this.Kept t where
  recorded := recorded_step kept.recorded exclusive stepped
  available := available_step kept.available exclusive stepped
  located := located_step kept.located kept.available exclusive stepped

/-- In every interleaving whose accesses are exclusive no update is lost when both managers have finished. -/
theorem nothingLost_of_exclusive (stores : Stores) (schedule : List Manager) {t : Session α}
    (exclusive : Throughout this.step this.Exclusive (this.start stores) schedule)
    (ran : run this.step (this.start stores) schedule = some t) (finished : ∀ manager, t.phase manager = .finished) :
    this.NothingLost t := by
  have kept : this.Kept t := run_invariant (fun _ _ _ kept here stepped => this.kept_step kept here stepped)
    (this.kept_start stores) exclusive ran
  refine ⟨?_, ?_, kept.available.written⟩
  · refine kept.recorded.stored fun manager => ?_
    rw [finished]
    rfl
  · intro name servers dsState known present
    refine kept.located.stored name servers dsState known present fun manager => ?_
    rw [finished]
    rfl

end Managers

section OneDeliveryService

open Managers

def inMapOrder : RangeOrder := ⟨id, fun _ => .refl _⟩

-- Neither edge answers; the health manager finds that of the first one and the stat manager of the second.
def managers : Managers Int where
  health := ⟨Poller.healthPoller, [Poller.healthResult "edge1" (some "timeout")], inMapOrder⟩
  stat := ⟨{ Poller.healthPoller with pollerName := "stat", statResultHistory := some fun _ => none },
    [Poller.healthResult "edge2" (some "timeout")], inMapOrder⟩
  services := [("video", true)]
  toData := ⟨fun _ => some ["edge1", "edge2"], fun _ => some .EDGE,
    fun cache => some (if cache = "edge1" then "denver" else "boulder")⟩

def edges : Stores := ⟨fun _ => none, fun _ => some true, AList.singleton "video" ⟨∅, false⟩⟩

-- The stat manager waits for the health manager.
def oneByOne : List Manager := List.replicate 7 .health ++ List.replicate 9 .stat

-- The stat manager works while the health manager holds its copies.
def interrupted : List Manager := List.replicate 5 .health ++ List.replicate 9 .stat ++ List.replicate 2 .health

theorem nothingLost_oneByOne : ∃ t, run managers.step (managers.start edges) oneByOne = some t ∧ managers.NothingLost t := by
  refine ⟨_, rfl, managers.nothingLost_of_exclusive edges oneByOne (by decide) rfl ?_⟩
  intro manager
  cases manager <;> rfl

/-- The status of the second edge, its location and the availability of the delivery service are lost. -/
theorem interrupted_loses : ∃ t, run managers.step (managers.start edges) interrupted = some t ∧
    (∀ manager, t.phase manager = .finished) ∧ t.stores.localCacheStatus "edge2" = none ∧
      t.stores.caches "edge2" = some false ∧ t.stores.deliveryServices.lookup "video" = some ⟨{"denver"}, false⟩ ∧
        t.written "video" = some true ∧ ¬managers.NothingLost t := by
  refine ⟨_, rfl, fun manager => ?_, rfl, rfl, rfl, rfl, fun nothing => ?_⟩
  · cases manager <;> rfl
  · obtain ⟨dsState, present, available⟩ := nothing.availability "video" true rfl
    obtain rfl := Option.some.inj present
    cases available

end OneDeliveryService

end TrafficControl.TrafficMonitor.Interleaving
