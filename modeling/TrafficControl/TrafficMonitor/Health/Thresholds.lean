import TrafficControl.Lib.Runs
import TrafficControl.TrafficMonitor.Cache.StatHistory
import TrafficControl.TrafficMonitor.Health.BatchLaw

set_option autoImplicit false

namespace TrafficControl.TrafficMonitor

open Runs

-- The values of the stats of one cache, newest first, as `EvalCache` gets them.
def ResultStatHistory.vals {α : Type} (this : ResultStatHistory α) (id : String) : ResultStatValHistory α :=
  (this id).map fun stats statName => (stats statName).map fun statHistory => statHistory.map (·.val)

def ResultStatHistory.newest {α : Type} (this : ResultStatHistory α) (id statName : String) : Option (Value α) :=
  ((this.statHistory id statName).bind List.head?).map (·.val)

/-- A cache of status REPORTED, with its server and its profile. -/
structure ReportedCache {α : Type} (mc : TrafficMonitorConfigMap α) where
  name : String
  serverInfo : TrafficServer
  serverProfile : TMProfile α
  server_eq : mc.trafficServer name = some serverInfo
  profile_eq : mc.profile serverInfo.profile = some serverProfile
  reported : CacheStatus.fromString serverInfo.serverStatus = .Reported

namespace Thresholds

variable {α : Type}

-- A call of `CalcAvailability` for one result. The stat manager has added the result to its history.
inductive Call (α : Type) where
  | health (result : Result α) (noStats : result.ats = ∅)
  | stat (result : PolledResult α) (limit : Nat)

def Call.result : Call α → Result α
  | .health result _ => result
  | .stat result _ => result.toResult

structure Session (α : Type) where
  monitor : Monitor
  statResultHistory : ResultStatHistory α

-- What both managers start with.
def Session.new (localStates : CRStates) (events : ThreadsafeEvents) : Session α :=
  ⟨⟨fun _ => none, localStates, events⟩, fun _ => none⟩

/-- What both managers are given. -/
structure Managers (α : Type) where
  float64 : Float64 α
  typeName : Value α → String
  mc : TrafficMonitorConfigMap α
  toData : TOData

/-- A polled stat is not among the computed ones. -/
def Polled (α : Type) (stat : String) : Prop :=
  ∀ (result : Result α) (serverInfo : TrafficServer) (serverProfile : TMProfile α),
    computedStats stat result serverInfo serverProfile = none

theorem computedStats_isSome (stat : String) (result other : Result α) (serverInfo otherInfo : TrafficServer)
    (serverProfile otherProfile : TMProfile α) : (computedStats stat result serverInfo serverProfile).isSome =
      (computedStats stat other otherInfo otherProfile).isSome := by
  unfold computedStats
  split <;> rfl

theorem polled_of_none {stat : String} {result : Result α} {serverInfo : TrafficServer} {serverProfile : TMProfile α}
    (absent : computedStats stat result serverInfo serverProfile = none) : Polled α stat := by
  intro other otherInfo otherProfile
  rw [← Option.isNone_iff_eq_none, ← Option.not_isSome,
    computedStats_isSome stat other result otherInfo serverInfo otherProfile serverProfile, absent]
  rfl

-- A result without stats only has the computed ones.
theorem hasStat_polled {stat : String} (polled : Polled α stat) {result : Result α} (noStats : result.ats = ∅) :
    result.hasStat stat = false := by
  simp [Result.hasStat, polled result, noStats]

theorem hasStat_computed {stat : String} (computed : ¬Polled α stat) (result : Result α) : result.hasStat stat = true := by
  unfold Result.hasStat
  rw [Bool.or_eq_true]
  refine Or.inl (Option.isSome_iff_ne_none.mpr fun absent => computed (polled_of_none absent))

theorem newest_vals (history : ResultStatHistory α) (id statName : String) :
    ((history.vals id).bind fun resultStats => (resultStats statName).bind List.head?) = history.newest id statName := by
  unfold ResultStatHistory.vals ResultStatHistory.newest ResultStatHistory.statHistory
  cases history id with
  | none => rfl
  | some stats =>
    rw [Option.map_some, Option.bind_some, Option.bind_some, Option.bind_map]
    cases stats statName with
    | none => rfl
    | some statHistory => exact List.head?_map

theorem findSome?_eq_find? {β γ : Type} (f : β → Option γ) (entries : List β) :
    entries.findSome? f = (entries.find? fun entry => (f entry).isSome).bind f := by
  induction entries with
  | nil => rfl
  | cons entry entries ih =>
    rw [List.findSome?_cons, List.find?_cons]
    cases found : f entry with
    | none => simpa [found] using ih
    | some result => simp [found]

namespace Managers

variable (this : Managers α) (cache : ReportedCache this.mc)

/-- The value is a number and the number is not in the threshold. -/
def Exceeds (threshold : HealthThreshold α) (value : Value α) : Prop :=
  ∃ number, toNumeric this.float64 value = some number ∧ inThreshold this.float64 threshold number = false

-- The result of the cache that was evaluated last.
def latest (past : List (Call α)) : Option (Result α) :=
  ((past.map Call.result).filter fun result => result.id = cache.name).getLast?

/-- What is known of a stat: what the latest result computes, or else what the stat manager polled last. -/
def latestValue (past : List (Call α)) (s : Session α) (stat : String) : Option (Value α) :=
  (this.latest cache past).bind fun result =>
    (computedStats stat result cache.serverInfo cache.serverProfile).or (s.statResultHistory.newest cache.name stat)

/-- If the cache is available, no known value of a stat exceeds its threshold. -/
def InThresholds (past : List (Call α)) (s : Session α) : Prop :=
  ∀ status, s.monitor.localCacheStatus cache.name = some status → status.available = true →
    ∀ entry ∈ cache.serverProfile.thresholds, ∀ value, this.latestValue cache past s entry.1 = some value →
      ¬this.Exceeds entry.2 value

/-- Some polled stat of the cache exceeds its threshold. -/
def PolledExceeds (statResultHistory : ResultStatHistory α) : Prop :=
  ∃ entry ∈ cache.serverProfile.thresholds, Polled α entry.1 ∧
    ∃ value, statResultHistory.newest cache.name entry.1 = some value ∧ this.Exceeds entry.2 value

/-- What the evaluation of a result takes as the value of a stat. -/
def Evaluated (result : Result α) (resultStats : ResultStatValHistory α) (stat : String) (value : Value α) : Prop :=
  computedStats stat result cache.serverInfo cache.serverProfile = some value ∨
    (Polled α stat ∧ (resultStats.bind fun resultStats => (resultStats stat).bind List.head?) = some value)

theorem exceeded_evaluated {result : Result α} {resultStats : ResultStatValHistory α}
    {entry : String × HealthThreshold α} {value : Value α} (known : this.Evaluated cache result resultStats entry.1 value) :
    exceeded this.float64 result resultStats cache.serverInfo cache.serverProfile .Reported entry =
      (toNumeric this.float64 value).bind fun number => if inThreshold this.float64 entry.2 number then none
        else some ⟨false, eventDesc .Reported (exceedsThresholdMsg this.float64 entry.1 entry.2 number), entry.1⟩ := by
  unfold exceeded
  rcases known with computed | ⟨polled, newest⟩
  · simp [computed]
  · simp [polled result, newest]

theorem evaluated_of_exceeded {result : Result α} {resultStats : ResultStatValHistory α}
    {entry : String × HealthThreshold α} {evaluation : Evaluation} (stopped : exceeded this.float64 result resultStats
      cache.serverInfo cache.serverProfile .Reported entry = some evaluation) :
    ∃ value, this.Evaluated cache result resultStats entry.1 value := by
  cases computed : computedStats entry.1 result cache.serverInfo cache.serverProfile with
  | some value => exact ⟨value, Or.inl computed⟩
  | none =>
    simp only [exceeded, computed, Option.bind_eq_bind] at stopped
    obtain ⟨value, newest, -⟩ := Option.bind_eq_some_iff.mp stopped
    exact ⟨value, Or.inr ⟨polled_of_none computed, newest⟩⟩

theorem exceeded_unavailable {result : Result α} {resultStats : ResultStatValHistory α}
    {entry : String × HealthThreshold α} {evaluation : Evaluation} (stopped : exceeded this.float64 result resultStats
      cache.serverInfo cache.serverProfile .Reported entry = some evaluation) :
    evaluation.isAvailable = false ∧ evaluation.unavailableStat = entry.1 ∧
      ∃ value, this.Evaluated cache result resultStats entry.1 value ∧ this.Exceeds entry.2 value := by
  obtain ⟨value, known⟩ := this.evaluated_of_exceeded cache stopped
  rw [this.exceeded_evaluated cache known] at stopped
  obtain ⟨number, numeric, out⟩ := Option.bind_eq_some_iff.mp stopped
  split at out
  next => cases out
  next apart =>
    obtain rfl := Option.some.inj out
    exact ⟨rfl, rfl, value, known, number, numeric, by simpa using apart⟩

theorem exceeded_isSome {result : Result α} {resultStats : ResultStatValHistory α} {entry : String × HealthThreshold α} :
    (exceeded this.float64 result resultStats cache.serverInfo cache.serverProfile .Reported entry).isSome = true ↔
      ∃ value, this.Evaluated cache result resultStats entry.1 value ∧ this.Exceeds entry.2 value := by
  constructor
  · intro stopped
    obtain ⟨evaluation, found⟩ := Option.isSome_iff_exists.mp stopped
    exact (this.exceeded_unavailable cache found).2.2
  · rintro ⟨value, known, number, numeric, out⟩
    simp [this.exceeded_evaluated cache known, numeric, out]

/-- The part of the evaluation that a cache of status REPORTED reaches. -/
theorem evalCache_reported {result : Result α} (resultStats : ResultStatValHistory α) (named : result.id = cache.name) :
    evalCache this.float64 result resultStats this.mc = result.error.elim
      (if result.system.notAvailable then ⟨false, eventDesc .Reported "system.notAvailable == true", ""⟩
        else ((result.range cache.serverProfile.thresholds).findSome?
          (exceeded this.float64 result resultStats cache.serverInfo cache.serverProfile .Reported)).getD
            ⟨result.available, eventDesc .Reported (if result.available then "available" else "unavailable"), ""⟩)
      fun error => ⟨false, eventDesc .Reported error, ""⟩ := by
  rw [evalCache, named, cache.server_eq]
  dsimp only
  rw [cache.profile_eq]
  dsimp only
  rw [cache.reported]
  cases result.error <;> rfl

theorem latest_other (past : List (Call α)) {call : Call α} (other : call.result.id ≠ cache.name) :
    this.latest cache (past ++ [call]) = this.latest cache past := by
  simp [latest, other]

theorem latest_own (past : List (Call α)) {call : Call α} (named : call.result.id = cache.name) :
    this.latest cache (past ++ [call]) = some call.result := by
  simp [latest, named]

/-- Available means that the latest result computes no value out of its threshold, and a polled stat that is out of
its threshold is remembered by name, so that only the stat manager can make the cache available again. -/
structure Guarded (past : List (Call α)) (s : Session α) : Prop where
  computed : ∀ status, s.monitor.localCacheStatus cache.name = some status → status.available = true →
    ∀ result, this.latest cache past = some result → ∀ entry ∈ cache.serverProfile.thresholds, ∀ value,
      computedStats entry.1 result cache.serverInfo cache.serverProfile = some value → ¬this.Exceeds entry.2 value
  remembered : this.PolledExceeds cache s.statResultHistory → ∃ status,
    s.monitor.localCacheStatus cache.name = some status ∧ status.available = false ∧
      Polled α status.unavailableStat ∧ status.unavailableStat ≠ ""

theorem inThresholds_of_guarded {past : List (Call α)} {s : Session α} (guarded : this.Guarded cache past s) :
    this.InThresholds cache past s := by
  intro status present available entry listed value known
  obtain ⟨result, latest, known⟩ := Option.bind_eq_some_iff.mp known
  rcases Option.or_eq_some_iff.mp known with computed | ⟨absent, newest⟩
  · exact guarded.computed status present available result latest entry listed value computed
  · intro exceeds
    obtain ⟨other, same, unavailable, -⟩ := guarded.remembered ⟨entry, listed, polled_of_none absent, value, newest, exceeds⟩
    obtain rfl := Option.some.inj (present.symm.trans same)
    exact Bool.false_ne_true (unavailable.symm.trans available)

theorem guarded_new (localStates : CRStates) (events : ThreadsafeEvents) :
    this.Guarded cache [] (.new localStates events) := by
  refine ⟨fun status present => absurd present nofun, ?_⟩
  rintro ⟨entry, -, -, value, newest, -⟩
  cases newest

variable [DecidableEq α]

-- The history of the stat manager when it evaluates the result.
def added (s : Session α) : Call α → ResultStatHistory α
  | .health _ _ => s.statResultHistory
  | .stat result limit => (s.statResultHistory.add this.typeName result limit).1

-- The health manager passes no history of stats on.
def poller (s : Session α) : Call α → Poller α
  | .health _ _ => ⟨this.float64, "health", none, this.mc⟩
  | .stat result limit => ⟨this.float64, "stat", some (this.added s (.stat result limit)).vals, this.mc⟩

def resultStats (s : Session α) : Call α → ResultStatValHistory α
  | .health _ _ => none
  | .stat result limit => (this.added s (.stat result limit)).vals result.id

def step (s : Session α) (call : Call α) : Option (Session α) :=
  ((this.poller s call).calcAvailability this.toData s.monitor [call.result]).map (⟨·, this.added s call⟩)

-- The first threshold in the order of the loop that the result exceeds.
def firstExceeded (s : Session α) (call : Call α) : Option (String × HealthThreshold α) :=
  (call.result.range cache.serverProfile.thresholds).find? fun entry =>
    (exceeded this.float64 call.result (this.resultStats s call) cache.serverInfo cache.serverProfile .Reported entry).isSome

/-- While a polled stat of the cache exceeds its threshold, its result gives no other reason to make it unavailable. -/
structure Remembers (s : Session α) (call : Call α) : Prop where
  error : call.result.error = none
  up : call.result.system.notAvailable = false
  available : this.firstExceeded cache s call = none → call.result.available = true
  polled : ∀ entry, this.firstExceeded cache s call = some entry → Polled α entry.1 ∧ entry.1 ≠ ""

def RemembersExceeded (s : Session α) (call : Call α) : Prop :=
  call.result.id = cache.name → this.PolledExceeds cache (this.added s call) → this.Remembers cache s call

theorem step_cases {s t : Session α} {call : Call α} (stepped : this.step s call = some t) :
    t.statResultHistory = this.added s call ∧
      (((this.poller s call).lacksStat s.monitor.localCacheStatus call.result = true ∧
        t.monitor.localCacheStatus = s.monitor.localCacheStatus) ∨
      ((this.poller s call).lacksStat s.monitor.localCacheStatus call.result = false ∧
        t.monitor.localCacheStatus = Function.update s.monitor.localCacheStatus call.result.id
          (some ((this.poller s call).status call.result)))) := by
  obtain ⟨monitor, calculated, rfl⟩ := Option.map_eq_some_iff.mp stepped
  exact ⟨rfl, Poller.calcAvailability_singleton _ calculated⟩

theorem poller_stats (s : Session α) (call : Call α) :
    (this.poller s call).float64 = this.float64 ∧ (this.poller s call).mc = this.mc ∧
      ((this.poller s call).statResultHistory.bind fun history => history call.result.id) = this.resultStats s call := by
  cases call with
  | health => exact ⟨rfl, rfl, rfl⟩
  | stat => exact ⟨rfl, rfl, rfl⟩

theorem evaluate_eq (s : Session α) (call : Call α) : (this.poller s call).evaluate call.result =
    evalCache this.float64 call.result (this.resultStats s call) this.mc := by
  obtain ⟨sameFloat, sameConfig, sameStats⟩ := this.poller_stats s call
  rw [Poller.evaluate, sameFloat, sameConfig, sameStats]

theorem evaluate_up (s : Session α) {call : Call α} (named : call.result.id = cache.name)
    (error : call.result.error = none) (up : call.result.system.notAvailable = false) :
    (this.poller s call).evaluate call.result = ((this.firstExceeded cache s call).bind fun entry =>
      exceeded this.float64 call.result (this.resultStats s call) cache.serverInfo cache.serverProfile .Reported entry).getD
        ⟨call.result.available, eventDesc .Reported (if call.result.available then "available" else "unavailable"), ""⟩ := by
  rw [this.evaluate_eq, this.evalCache_reported cache _ named, error, up, firstExceeded, ← findSome?_eq_find?]
  rfl

theorem evaluate_down (s : Session α) {call : Call α} (named : call.result.id = cache.name)
    (down : ¬(call.result.error = none ∧ call.result.system.notAvailable = false)) :
    ((this.poller s call).evaluate call.result).isAvailable = false ∧
      ((this.poller s call).evaluate call.result).unavailableStat = "" := by
  rw [this.evaluate_eq, this.evalCache_reported cache _ named]
  cases error : call.result.error with
  | some error => exact ⟨rfl, rfl⟩
  | none =>
    have notAvailable : call.result.system.notAvailable = true := by simpa [error] using down
    rw [notAvailable]
    exact ⟨rfl, rfl⟩

theorem firstExceeded_isSome {s : Session α} {call : Call α} {entry : String × HealthThreshold α}
    (first : this.firstExceeded cache s call = some entry) : (exceeded this.float64 call.result (this.resultStats s call)
      cache.serverInfo cache.serverProfile .Reported entry).isSome = true := by
  unfold firstExceeded at first
  have stopped := List.find?_some first
  exact stopped

theorem firstExceeded_none {s : Session α} {call : Call α} (inside : this.firstExceeded cache s call = none)
    {entry : String × HealthThreshold α} (listed : entry ∈ cache.serverProfile.thresholds) {value : Value α}
    (known : this.Evaluated cache call.result (this.resultStats s call) entry.1 value) : ¬this.Exceeds entry.2 value :=
  fun exceeds => List.find?_eq_none.mp inside entry ((call.result.range_perm _).mem_iff.mpr listed)
    ((this.exceeded_isSome cache).mpr ⟨value, known, exceeds⟩)

theorem evaluate_exceeded {s : Session α} {call : Call α} (named : call.result.id = cache.name)
    (error : call.result.error = none) (up : call.result.system.notAvailable = false)
    {entry : String × HealthThreshold α} (first : this.firstExceeded cache s call = some entry) :
    ((this.poller s call).evaluate call.result).isAvailable = false ∧
      ((this.poller s call).evaluate call.result).unavailableStat = entry.1 := by
  obtain ⟨evaluation, found⟩ := Option.isSome_iff_exists.mp (this.firstExceeded_isSome cache first)
  obtain ⟨unavailable, stat, -⟩ := this.exceeded_unavailable cache found
  rw [this.evaluate_up cache s named error up, first, Option.bind_some, found]
  exact ⟨unavailable, stat⟩

theorem evaluate_available (s : Session α) {call : Call α} (named : call.result.id = cache.name) :
    ((this.poller s call).evaluate call.result).isAvailable = true ↔ call.result.error = none ∧
      call.result.system.notAvailable = false ∧ this.firstExceeded cache s call = none ∧ call.result.available = true := by
  by_cases up : call.result.error = none ∧ call.result.system.notAvailable = false
  · cases first : this.firstExceeded cache s call with
    | some entry => simp [(this.evaluate_exceeded cache named up.1 up.2 first).1]
    | none => simp [this.evaluate_up cache s named up.1 up.2, first, up.1, up.2]
  · rw [(this.evaluate_down cache s named up).1]
    refine iff_of_false Bool.false_ne_true ?_
    rintro ⟨error, notAvailable, -⟩
    exact up ⟨error, notAvailable⟩

-- The stat manager only adds to the history of the cache of the result.
theorem added_other (s : Session α) {call : Call α} (other : call.result.id ≠ cache.name) (stat : String) :
    (this.added s call).newest cache.name stat = s.statResultHistory.newest cache.name stat := by
  cases call with
  | health => rfl
  | stat result limit =>
    have apart : result.id ≠ cache.name := other
    unfold added ResultStatHistory.newest
    rw [ResultStatHistory.add_statHistory, if_neg apart]

theorem guarded_other {past : List (Call α)} {s t : Session α} {call : Call α} (guarded : this.Guarded cache past s)
    (other : call.result.id ≠ cache.name) (stepped : this.step s call = some t) :
    this.Guarded cache (past ++ [call]) t := by
  obtain ⟨history, effect⟩ := this.step_cases stepped
  have status : t.monitor.localCacheStatus cache.name = s.monitor.localCacheStatus cache.name := by
    obtain ⟨-, same⟩ | ⟨-, updated⟩ := effect
    · rw [same]
    · rw [updated, Function.update_of_ne other.symm]
  constructor
  · rw [status, this.latest_other cache past other]
    exact guarded.computed
  · rw [status, history]
    rintro ⟨entry, listed, polled, value, newest, exceeds⟩
    rw [this.added_other cache s other] at newest
    exact guarded.remembered ⟨entry, listed, polled, value, newest, exceeds⟩

omit [DecidableEq α] in
theorem unavailable_of_lacksStat {poller : Poller α} {statuses : AvailableStatuses} {result : Result α}
    (lacks : poller.lacksStat statuses result = true) : (poller.evaluate result).isAvailable = true ∧
      ∃ status, statuses result.id = some status ∧ status.available = false ∧ status.unavailableStat ≠ "" ∧
        result.hasStat status.unavailableStat = false := by
  simp only [Poller.lacksStat, Bool.and_eq_true, Option.any_eq_true, Bool.not_eq_true', bne_iff_ne] at lacks
  obtain ⟨available, status, present, ⟨unavailable, nonempty⟩, absent⟩ := lacks
  exact ⟨available, status, present, unavailable, nonempty, absent⟩

theorem status_own {s t : Session α} {call : Call α} (named : call.result.id = cache.name)
    (stepped : this.step s call = some t) :
    ((this.poller s call).lacksStat s.monitor.localCacheStatus call.result = true ∧
      t.monitor.localCacheStatus cache.name = s.monitor.localCacheStatus cache.name) ∨
    ((this.poller s call).lacksStat s.monitor.localCacheStatus call.result = false ∧
      t.monitor.localCacheStatus cache.name = some ((this.poller s call).status call.result)) := by
  obtain ⟨-, ⟨lacks, same⟩ | ⟨has, updated⟩⟩ := this.step_cases stepped
  · exact Or.inl ⟨lacks, by rw [same]⟩
  · exact Or.inr ⟨has, by rw [updated, named, Function.update_self]⟩

-- A polled stat that the stat manager knows is part of its evaluation.
theorem exceeded_added {s : Session α} {result : PolledResult α} {limit : Nat} (named : result.id = cache.name)
    (exceeds : this.PolledExceeds cache (this.added s (.stat result limit))) :
    this.firstExceeded cache s (.stat result limit) ≠ none := by
  obtain ⟨entry, listed, polled, value, newest, out⟩ := exceeds
  intro inside
  refine this.firstExceeded_none cache inside listed (Or.inr ⟨polled, ?_⟩) out
  unfold resultStats
  rw [newest_vals, named, newest]

theorem guarded_own {past : List (Call α)} {s t : Session α} {call : Call α} (guarded : this.Guarded cache past s)
    (named : call.result.id = cache.name) (remembers : this.RemembersExceeded cache s call)
    (stepped : this.step s call = some t) : this.Guarded cache (past ++ [call]) t := by
  have history := (this.step_cases stepped).1
  have effect := this.status_own cache named stepped
  constructor
  · intro status present available result latest entry listed value computed
    rw [this.latest_own cache past named] at latest
    obtain rfl := Option.some.inj latest
    obtain ⟨lacks, same⟩ | ⟨-, updated⟩ := effect
    · obtain ⟨-, old, before, unavailable, -⟩ := unavailable_of_lacksStat lacks
      rw [same, ← named, before] at present
      obtain rfl := Option.some.inj present
      exact absurd available (Bool.eq_false_iff.mp unavailable)
    · obtain rfl := Option.some.inj (updated.symm.trans present)
      obtain ⟨-, -, inside, -⟩ := (this.evaluate_available cache s named).mp available
      exact this.firstExceeded_none cache inside listed (Or.inl computed)
  · rw [history]
    intro exceeds
    have reasons := remembers named exceeds
    cases first : this.firstExceeded cache s call with
    | some entry =>
      obtain ⟨unavailable, stat⟩ := this.evaluate_exceeded cache named reasons.error reasons.up first
      obtain ⟨lacks, -⟩ | ⟨-, updated⟩ := effect
      · exact absurd (unavailable_of_lacksStat lacks).1 (Bool.eq_false_iff.mp unavailable)
      · refine ⟨_, updated, unavailable, ?_⟩
        change Polled α ((this.poller s call).evaluate call.result).unavailableStat ∧
          ((this.poller s call).evaluate call.result).unavailableStat ≠ ""
        rw [stat]
        exact reasons.polled entry first
    | none =>
      -- The health manager finds nothing wrong, and what is remembered keeps it from changing the status.
      cases call with
      | stat result limit => exact absurd first (this.exceeded_added cache named exceeds)
      | health result noStats =>
        obtain ⟨status, present, unavailable, polled, nonempty⟩ := guarded.remembered exceeds
        obtain ⟨-, same⟩ | ⟨has, -⟩ := effect
        · exact ⟨status, same.trans present, unavailable, polled, nonempty⟩
        · have available := (this.evaluate_available cache s named).mpr
            ⟨reasons.error, reasons.up, first, reasons.available first⟩
          have lacks : (this.poller s (.health result noStats)).lacksStat s.monitor.localCacheStatus result = true := by
            have own : result.id = cache.name := named
            have healthy : ((this.poller s (.health result noStats)).evaluate result).isAvailable = true := available
            simp [Poller.lacksStat, own, present, healthy, unavailable, nonempty, hasStat_polled polled noStats]
          exact absurd (has.symm.trans lacks) Bool.false_ne_true

theorem guarded_step {past : List (Call α)} {s t : Session α} {call : Call α} (guarded : this.Guarded cache past s)
    (remembers : this.RemembersExceeded cache s call) (stepped : this.step s call = some t) :
    this.Guarded cache (past ++ [call]) t := by
  by_cases named : call.result.id = cache.name
  · exact this.guarded_own cache guarded named remembers stepped
  · exact this.guarded_other cache guarded named stepped

/-- In every run whose results give no other reason to make the cache unavailable while one of its polled stats exceeds
its threshold, the cache is not available while a known threshold is exceeded. -/
theorem inThresholds_of_remembers (localStates : CRStates) (events : ThreadsafeEvents) {calls : List (Call α)}
    (remembers : Throughout this.step (this.RemembersExceeded cache) (.new localStates events) calls) {t : Session α}
    (ran : run this.step (.new localStates events) calls = some t) : this.InThresholds cache calls t :=
  this.inThresholds_of_guarded cache (run_history (fun _ _ _ _ guarded here stepped =>
    this.guarded_step cache guarded here stepped) (this.guarded_new cache localStates events) remembers ran)

theorem evaluate_forgets {s : Session α} {call : Call α} (named : call.result.id = cache.name)
    (forgets : ¬this.Remembers cache s call) : ((this.poller s call).evaluate call.result).isAvailable = false ∧
      (((this.poller s call).evaluate call.result).unavailableStat = "" ∨
        ¬Polled α ((this.poller s call).evaluate call.result).unavailableStat) := by
  by_cases up : call.result.error = none ∧ call.result.system.notAvailable = false
  · cases first : this.firstExceeded cache s call with
    | some entry =>
      obtain ⟨unavailable, stat⟩ := this.evaluate_exceeded cache named up.1 up.2 first
      refine ⟨unavailable, ?_⟩
      rw [stat]
      by_contra both
      obtain ⟨nonempty, polled⟩ := not_or.mp both
      refine forgets ⟨up.1, up.2, fun inside => absurd inside (by simp [first]), fun other same => ?_⟩
      obtain rfl := Option.some.inj (first.symm.trans same)
      exact ⟨not_not.mp polled, nonempty⟩
    | none =>
      have unavailable : call.result.available = false := Bool.eq_false_iff.mpr fun available =>
        forgets ⟨up.1, up.2, fun _ => available, fun entry other => absurd other (by simp [first])⟩
      simp [this.evaluate_up cache s named up.1 up.2, first, unavailable]
  · obtain ⟨unavailable, stat⟩ := this.evaluate_down cache s named up
    exact ⟨unavailable, Or.inl stat⟩

/-- A result with another reason makes the managers forget the polled stat, and the next result of the health manager
that finds nothing wrong makes the cache available. -/
theorem available_of_forgotten {past : List (Call α)} {s t u : Session α} {call : Call α}
    (forgets : ¬this.RemembersExceeded cache s call) (stepped : this.step s call = some t) {result : Result α}
    (noStats : result.ats = ∅) (named : result.id = cache.name) (error : result.error = none)
    (up : result.system.notAvailable = false) (available : result.available = true)
    (inside : this.firstExceeded cache t (.health result noStats) = none)
    (next : this.step t (.health result noStats) = some u) :
    ¬this.InThresholds cache (past ++ [call] ++ [.health result noStats]) u := by
  simp only [RemembersExceeded, Classical.not_imp] at forgets
  obtain ⟨own, ⟨entry, listed, polled, value, newest, exceeds⟩, forgets⟩ := forgets
  obtain ⟨unavailable, stat⟩ := this.evaluate_forgets cache own forgets
  have before : t.monitor.localCacheStatus cache.name = some ((this.poller s call).status call.result) := by
    obtain ⟨lacks, -⟩ | ⟨-, updated⟩ := this.status_own cache own stepped
    · exact absurd (unavailable_of_lacksStat lacks).1 (Bool.eq_false_iff.mp unavailable)
    · exact updated
  have named : (Call.health result noStats).result.id = cache.name := named
  have after : u.monitor.localCacheStatus cache.name =
      some ((this.poller t (.health result noStats)).status result) := by
    obtain ⟨lacks, -⟩ | ⟨-, updated⟩ := this.status_own cache named next
    · obtain ⟨-, status, present, -, nonempty, absent⟩ := unavailable_of_lacksStat lacks
      obtain rfl := Option.some.inj (before.symm.trans (named ▸ present))
      rcases stat with empty | computed
      · exact absurd empty nonempty
      · exact absurd (absent.symm.trans (hasStat_computed computed _)) Bool.false_ne_true
    · exact updated
  have healthy : ((this.poller t (.health result noStats)).evaluate result).isAvailable = true :=
    (this.evaluate_available cache t named).mpr ⟨error, up, inside, available⟩
  refine fun kept => kept _ after healthy entry listed value ?_ exceeds
  have history : u.statResultHistory = t.statResultHistory := (this.step_cases next).1
  rw [latestValue, this.latest_own cache _ named, Option.bind_some, polled, Option.none_or,
    history, (this.step_cases stepped).1, newest]

end Managers

section OneEdge

open Managers

def managers : Managers Int where
  float64 := ⟨id, fun a b => a == b, fun a b => decide (a < b), toString, toString⟩
  typeName _ := ""
  mc := Poller.edgeConfig
  toData := Poller.edgeData

def edge : ReportedCache managers.mc where
  name := "edge1"
  serverInfo := ⟨"EDGE", "REPORTED"⟩
  serverProfile := ⟨"", [("current_client_connections", ⟨1000, "<"⟩)]⟩
  server_eq := rfl
  profile_eq := rfl
  reported := by decide

-- The stat manager polls so many connections.
def connections (count : Int) : Call Int :=
  .stat { Poller.healthResult "edge1" none with
    ats := AList.insert "current_client_connections" (.float count) ∅, time := 0, pollID := 0, bytesOut := 0, bytesIn := 0 } 1

def poll (error : Option String) : Call Int := .health (Poller.healthResult "edge1" error) rfl

def start : Session Int := .new ⟨fun _ => some true, fun _ => none⟩ ⟨[], 0, 200⟩

theorem polled_connections : Polled Int "current_client_connections" := by
  intro result serverInfo serverProfile
  rfl

/-- The health manager does not make the edge available after the stat manager has polled too many connections. -/
theorem inThresholds_polled : ∃ t, run managers.step start [connections 2000, poll none] = some t ∧
    managers.InThresholds edge [connections 2000, poll none] t := by
  refine ⟨_, rfl, managers.inThresholds_of_remembers edge start.monitor.localStates start.monitor.events ?_ rfl⟩
  refine ⟨fun _ _ => ⟨rfl, rfl, nofun, ?_⟩, fun s stepped => ?_⟩
  · rintro entry first
    obtain rfl := Option.some.inj first
    exact ⟨polled_connections, by decide⟩
  · obtain rfl := Option.some.inj stepped
    exact ⟨fun _ _ => ⟨rfl, rfl, fun _ => rfl, nofun⟩, fun _ _ => trivial⟩

/-- A failed poll of the health manager comes between, and the edge is available with too many connections. -/
theorem available_exceeded : ∃ t, run managers.step start [connections 2000, poll (some "timeout"), poll none] = some t ∧
    ¬managers.InThresholds edge [connections 2000, poll (some "timeout"), poll none] t := by
  refine ⟨_, rfl, fun kept => ?_⟩
  exact kept _ rfl rfl _ (List.mem_singleton.mpr rfl) _ rfl ⟨2000, rfl, rfl⟩

end OneEdge

end Thresholds

end TrafficControl.TrafficMonitor
