import TrafficControl.Lib.Runs
import TrafficControl.TrafficMonitor.Health.BatchLaw
import TrafficControl.TrafficMonitor.Manager.Histories

set_option autoImplicit false

namespace TrafficControl.TrafficMonitor

open Runs

section Base

variable {α : Type} (float64 : FloatText α)

/-- What a result has for the rate of the next one. -/
def base (prevResult : Option (PolledResult α)) : Option (Int × Int) :=
  prevResult.bind fun prevResult => if prevResult.bytesOut = 0 then none else some (prevResult.bytesOut, prevResult.time)

theorem visits_all (own : PolledResult α) (thresholds : List (String × HealthThreshold α)) :
    (own.range thresholds).Perm thresholds := own.range_perm thresholds

def withKbps (prevResult : Option (PolledResult α)) (own : PolledResult α) : PolledResult α :=
  prevResult.elim own fun prevResult =>
    if prevResult.bytesOut = 0 then own
    else { own with
      vitals := { own.vitals with kbpsOut := kbpsOut float64 own prevResult }
      range_perm := visits_all own }

theorem withKbps_base {first second : Option (PolledResult α)} (same : base first = base second) (own : PolledResult α) :
    withKbps float64 first own = withKbps float64 second own := by
  have bases : ∀ prevResult : Option (PolledResult α), withKbps float64 prevResult own =
      (base prevResult).elim own fun stamp =>
        withKbps float64 (some { own with bytesOut := stamp.1, time := stamp.2 }) own := by
    intro prevResult
    cases prevResult with
    | none => rfl
    | some prev =>
      by_cases zero : prev.bytesOut = 0
      · simp [withKbps, base, zero]
      · simp [withKbps, base, zero, kbpsOut]
  rw [bases first, bases second, same]

theorem withKbps_rest (prevResult : Option (PolledResult α)) (own : PolledResult α) :
    (withKbps float64 prevResult own).error = own.error ∧ (withKbps float64 prevResult own).bytesOut = own.bytesOut ∧
      (withKbps float64 prevResult own).time = own.time := by
  unfold withKbps
  cases prevResult with
  | none => exact ⟨rfl, rfl, rfl⟩
  | some prev => by_cases zero : prev.bytesOut = 0 <;> simp [zero]

/-- The previous result matters for the rate alone, and for that only without an error. -/
theorem getNetVitals_eq {newResult : PolledResult α} (fine : newResult.error = none)
    (prevResult : Option (PolledResult α)) :
    getNetVitals float64 newResult prevResult = (getNetVitals float64 newResult none).map fun own =>
      if own.error = none then withKbps float64 prevResult own else own := by
  unfold getNetVitals
  split
  next part rest split =>
    dsimp only
    cases (fields part)[8]? with
    | none => rfl
    | some bytes =>
      simp only [Option.bind_eq_bind, Option.bind_some]
      cases (parseInt bytes).2 with
      | some err => rfl
      | none =>
        cases (fields part)[0]? with
        | none => rfl
        | some bytes =>
          simp only [Option.bind_some]
          cases (parseInt bytes).2 with
          | some err => rfl
          | none =>
            simp only [Option.pure_def, Option.map_some, fine, if_true, withKbps]
            cases prevResult with
            | none => rfl
            | some prev => by_cases zero : prev.bytesOut = 0 <;> simp [zero, kbpsOut]
  next => rfl

theorem getVitals_eq {newResult : PolledResult α} (fine : newResult.error = none) (prevResult : Option (PolledResult α)) :
    getVitals float64 newResult prevResult = (getVitals float64 newResult none).map fun own =>
      if own.error = none then withKbps float64 prevResult own else own := by
  unfold getVitals
  dsimp only
  split
  next errored =>
    rw [fine] at errored
    cases errored
  next => rfl
  next oneMin rest _ _ =>
    cases float64.parseFloat oneMin with
    | error err => rfl
    | ok oneMinAvg =>
      apply getNetVitals_eq
      exact fine

end Base

-- A list of results and what the monitor has as it is processed. The health manager has no stats.
structure Batch (α : Type) where
  historyCount : String → Int
  mc : TrafficMonitorConfigMap α
  statResultHistory : Option (String → ResultStatValHistory α)
  results : List (PolledResult α)

/-- A result as it was received and as it was evaluated. -/
structure Judged (α : Type) where
  received : PolledResult α
  evaluated : PolledResult α
  available : Bool

def judge {α : Type} (poller : Poller α) (received evaluated : List (PolledResult α)) : List (Judged α) :=
  List.zipWith (fun r e => ⟨r, e, (poller.evaluate e.toResult).isAvailable⟩) received evaluated

structure HealthManager (α : Type) where
  healthHistory : ResultHistory α
  log : List (Judged α)

structure StatManager (α : Type) where
  lastResults : String → Option (PolledResult α)
  log : List (Judged α)

section Managers

variable {α : Type} (float64 : FloatText α) (compare : Float64 α)

-- One turn of the loop of `processStatResults`. An error of the vitals is kept for the next result only.
def addStatResult (state : (String → Option (PolledResult α)) × List (PolledResult α)) (result : PolledResult α) :
    Option ((String → Option (PolledResult α)) × List (PolledResult α)) :=
  let withVitals :=
    if result.error = none ∧ (state.1 result.id).isSome then getVitals float64 result (state.1 result.id) else some result
  withVitals.map fun vitals =>
    let evaluated := if vitals.error = none then vitals else result
    (Function.update state.1 result.id (some vitals), state.2 ++ [evaluated])

def processStatResults (lastResults : String → Option (PolledResult α)) (results : List (PolledResult α)) :
    Option ((String → Option (PolledResult α)) × List (PolledResult α)) :=
  results.foldlM (addStatResult float64) (lastResults, [])

def HealthManager.process (this : HealthManager α) (batch : Batch α) : Option (HealthManager α) := do
  let (healthHistory, results) ← processHealthResult float64 batch.historyCount batch.mc this.healthHistory batch.results
  return ⟨healthHistory, this.log ++ judge ⟨compare, "health", none, batch.mc⟩ batch.results results⟩

def StatManager.process (this : StatManager α) (batch : Batch α) : Option (StatManager α) := do
  let (lastResults, results) ← processStatResults float64 this.lastResults batch.results
  return ⟨lastResults, this.log ++ judge ⟨compare, "stat", batch.statResultHistory, batch.mc⟩ batch.results results⟩

/-- A result with the bytes of its own astats. -/
def counted (received : PolledResult α) : PolledResult α := (getVitals float64 received none).getD received

def preceding (past : List (PolledResult α)) (id : String) : Option (PolledResult α) :=
  (past.filter fun received => received.id = id).getLast?.map (counted float64)

/-- The vitals of a result without an error are its own, with the rate since the result before it, and a
result whose vitals are an error is unavailable. -/
structure Faithful (past : List (PolledResult α)) (judged : Judged α) : Prop where
  vitals : judged.evaluated.error = none →
    getVitals float64 judged.received (preceding float64 past judged.received.id) = some judged.evaluated
  unavailable : judged.received.error = none → ∀ own, getVitals float64 judged.received none = some own →
    own.error ≠ none → judged.available = false

def EachFaithful : List (PolledResult α) → List (Judged α) → Prop
  | _, [] => True
  | past, judged :: rest => Faithful float64 past judged ∧ EachFaithful (past ++ [judged.received]) rest

def Readable (received : PolledResult α) : Prop := ∀ own, getVitals float64 received none = some own → own.error = none

def NotOnline (mc : TrafficMonitorConfigMap α) (id : String) : Prop :=
  ∀ srv, mc.trafficServer id = some srv → CacheStatus.fromString srv.serverStatus ≠ .Online

-- The history of the cache ends with the result before this one, or with one that gives the same rate.
structure HealthCurrent (mc : TrafficMonitorConfigMap α) (state : ResultHistory α × List (PolledResult α))
    (received : PolledResult α) : Prop where
  base : received.error = none → base (state.1 received.id).getLast? = base (preceding float64 state.2 received.id)
  readable : received.error = none → Readable float64 received ∨ NotOnline mc received.id

structure StatCurrent (state : (String → Option (PolledResult α)) × List (PolledResult α))
    (received : PolledResult α) : Prop where
  polled : received.error = none → (state.1 received.id).isSome
  readable : received.error = none → Readable float64 received

-- The loops, with the results that were received so far.
def receiveHealth (historyCount : String → Int) (mc : TrafficMonitorConfigMap α)
    (state : ResultHistory α × List (PolledResult α)) (received : PolledResult α) :
    Option (ResultHistory α × List (PolledResult α)) :=
  (addHealthResult float64 historyCount mc (state.1, []) received).map fun after => (after.1, state.2 ++ [received])

def receiveStat (state : (String → Option (PolledResult α)) × List (PolledResult α)) (received : PolledResult α) :
    Option ((String → Option (PolledResult α)) × List (PolledResult α)) :=
  (addStatResult float64 (state.1, []) received).map fun after => (after.1, state.2 ++ [received])

def receivedOf (log : List (Judged α)) : List (PolledResult α) := log.map fun judged => judged.received

/-- Each result of the batch without an error finds the result before it as the oldest one of its cache,
and it has vitals or is not of a cache that is always available. -/
def HealthManager.Current (this : HealthManager α) (batch : Batch α) : Prop :=
  Throughout (receiveHealth float64 batch.historyCount batch.mc) (HealthCurrent float64 batch.mc)
    (this.healthHistory, receivedOf this.log) batch.results

/-- Each result of the batch without an error has vitals and is not the first one of its cache. -/
def StatManager.Current (this : StatManager α) (batch : Batch α) : Prop :=
  Throughout (receiveStat float64) (StatCurrent float64) (this.lastResults, receivedOf this.log) batch.results

variable {float64}

theorem eachFaithful_append {past : List (PolledResult α)} {first second : List (Judged α)} :
    EachFaithful float64 past (first ++ second) ↔
      EachFaithful float64 past first ∧ EachFaithful float64 (past ++ receivedOf first) second := by
  induction first generalizing past with
  | nil => simp [EachFaithful, receivedOf]
  | cons judged first ih =>
    simp only [List.cons_append, EachFaithful, ih, and_assoc, receivedOf, List.map_cons, List.append_assoc, List.nil_append]

theorem preceding_append (past : List (PolledResult α)) (received : PolledResult α) (id : String) :
    preceding float64 (past ++ [received]) id =
      if received.id = id then some (counted float64 received) else preceding float64 past id := by
  unfold preceding
  rw [List.filter_append]
  split_ifs with same
  · rw [List.filter_cons_of_pos (by simpa using same)]
    simp
  · rw [List.filter_cons_of_neg (by simpa using same)]
    simp

theorem receivedOf_judge (poller : Poller α) {received evaluated : List (PolledResult α)}
    (length : evaluated.length = received.length) :
    receivedOf (judge poller received evaluated) = received := by
  induction received generalizing evaluated with
  | nil => rfl
  | cons r received ih =>
    cases evaluated with
    | nil => cases length
    | cons e evaluated => exact congrArg (r :: ·) (ih (Nat.succ.inj length))

/-- Only caches that are always available are so with an error. -/
theorem evaluate_error (poller : Poller α) {result : PolledResult α} (errored : result.error ≠ none)
    (notOnline : NotOnline poller.mc result.id) : (poller.evaluate result.toResult).isAvailable = false := by
  unfold Poller.evaluate evalCache
  cases found : poller.mc.trafficServer result.id with
  | none => rfl
  | some serverInfo =>
    have status := notOnline serverInfo found
    dsimp only
    cases profile : poller.mc.profile serverInfo.profile with
    | none => rfl
    | some serverProfile =>
      dsimp only
      split
      next => rfl
      next => rfl
      next => rfl
      next online => exact absurd online status
      next => rfl
      next fine => exact absurd fine errored

/-- Vitals that come from a result with the bytes and the time of the preceding one are those of the claim. -/
theorem faithful_of_base {past : List (PolledResult α)} {received evaluated : PolledResult α}
    {prevResult : Option (PolledResult α)}
    (same : base prevResult = base (preceding float64 past received.id)) (fine : received.error = none)
    (got : getVitals float64 received prevResult = some evaluated) :
    getVitals float64 received (preceding float64 past received.id) = some evaluated := by
  rw [getVitals_eq float64 fine] at got ⊢
  rw [← got]
  refine congrFun (congrArg Option.map (funext fun own => ?_)) _
  rw [withKbps_base float64 same]

theorem getVitals_error {received evaluated own : PolledResult α} {prevResult : Option (PolledResult α)}
    (fine : received.error = none)
    (got : getVitals float64 received prevResult = some evaluated) (read : getVitals float64 received none = some own) :
    evaluated.error = own.error ∧ evaluated.bytesOut = own.bytesOut ∧ evaluated.time = own.time := by
  rw [getVitals_eq float64 fine, read] at got
  obtain rfl := Option.some.inj got
  dsimp only
  split_ifs
  · exact withKbps_rest float64 prevResult own
  · exact ⟨rfl, rfl, rfl⟩

section Health

variable {historyCount : String → Int} {mc : TrafficMonitorConfigMap α}

theorem addHealthResult_split {state after : ResultHistory α × List (PolledResult α)} {received : PolledResult α}
    (added : addHealthResult float64 historyCount mc state received = some after) :
    ∃ evaluated, (if received.error = none then getVitals float64 received (state.1 received.id).getLast?
        else some received) = some evaluated ∧
      after.2 = state.2 ++ [evaluated] ∧
      ∀ past, receiveHealth float64 historyCount mc (state.1, past) received = some (after.1, past ++ [received]) := by
  unfold addHealthResult at added
  obtain ⟨evaluated, got, rfl⟩ := Option.map_eq_some_iff.mp added
  refine ⟨evaluated, got, rfl, fun past => ?_⟩
  simp only [receiveHealth, addHealthResult, got, Option.map_some]

theorem health_faithful {state : ResultHistory α × List (PolledResult α)} {past : List (PolledResult α)}
    {received evaluated : PolledResult α}
    (current : HealthCurrent float64 mc (state.1, past) received)
    (got : (if received.error = none then getVitals float64 received (state.1 received.id).getLast?
      else some received) = some evaluated)
    (poller : Poller α) (own : poller.mc = mc) :
    Faithful float64 past ⟨received, evaluated, (poller.evaluate evaluated.toResult).isAvailable⟩ := by
  split_ifs at got with fine
  · constructor
    case vitals => exact fun _ => faithful_of_base (current.base fine) fine got
    case unavailable =>
      intro _ result read errored
      obtain readable | notOnline := current.readable fine
      · exact absurd (readable result read) errored
      · refine evaluate_error poller ?_ ?_
        · rw [(getVitals_error fine got read).1]
          exact errored
        · rw [own, getVitals_id float64 got]
          exact notOnline
  · obtain rfl := Option.some.inj got
    exact ⟨fun none => absurd none fine, fun none => absurd none fine⟩

theorem healthBatch_faithful {state last : ResultHistory α × List (PolledResult α)} {past results : List (PolledResult α)}
    (poller : Poller α) (own : poller.mc = mc)
    (ran : results.foldlM (addHealthResult float64 historyCount mc) state = some last)
    (current : Throughout (receiveHealth float64 historyCount mc) (HealthCurrent float64 mc) (state.1, past) results) :
    ∃ evaluated, last.2 = state.2 ++ evaluated ∧ evaluated.length = results.length ∧
      EachFaithful float64 past (judge poller results evaluated) := by
  induction results generalizing state past with
  | nil =>
    obtain rfl := Option.some.inj ran
    exact ⟨[], by rw [List.append_nil], rfl, trivial⟩
  | cons received results ih =>
    obtain ⟨after, added, rest⟩ := Option.bind_eq_some_iff.mp ran
    obtain ⟨first, got, appended, stepped⟩ := addHealthResult_split added
    obtain ⟨evaluated, rest, length, faithful⟩ := ih rest (current.2 _ (stepped past))
    refine ⟨first :: evaluated, ?_, congrArg Nat.succ length, health_faithful current.1 got poller own, faithful⟩
    rw [rest, appended, List.append_assoc]
    rfl

theorem HealthManager.process_faithful {compare : Float64 α} {this next : HealthManager α} {batch : Batch α}
    (faithful : EachFaithful float64 [] this.log) (current : this.Current float64 batch)
    (processed : this.process float64 compare batch = some next) : EachFaithful float64 [] next.log := by
  obtain ⟨⟨healthHistory, results⟩, ran, returned⟩ := Option.bind_eq_some_iff.mp processed
  obtain rfl := Option.some.inj returned
  obtain ⟨evaluated, same, -, each⟩ := healthBatch_faithful ⟨compare, "health", none, batch.mc⟩ rfl ran current
  rw [List.nil_append] at same
  obtain rfl : results = evaluated := same
  exact eachFaithful_append.mpr ⟨faithful, each⟩

end Health

section Stat

/-- The last results have the bytes and the times of the preceding ones. -/
def Tracks (float64 : FloatText α) (lastResults : String → Option (PolledResult α)) (past : List (PolledResult α)) : Prop :=
  ∀ id, (lastResults id).map (fun result => (result.bytesOut, result.time)) =
    (preceding float64 past id).map fun result => (result.bytesOut, result.time)

theorem Tracks.base {lastResults : String → Option (PolledResult α)} {past : List (PolledResult α)}
    (tracks : Tracks float64 lastResults past) (id : String) :
    base (lastResults id) = base (preceding float64 past id) := by
  have stamped : ∀ result : Option (PolledResult α), TrafficMonitor.base result =
      (result.map fun result => (result.bytesOut, result.time)).bind fun stamp =>
        if stamp.1 = 0 then none else some stamp := by
    intro result
    cases result <;> rfl
  rw [stamped, stamped, tracks id]

theorem addStatResult_split {state after : (String → Option (PolledResult α)) × List (PolledResult α)}
    {received : PolledResult α}
    (added : addStatResult float64 state received = some after) :
    ∃ vitals, (if received.error = none ∧ (state.1 received.id).isSome then getVitals float64 received (state.1 received.id)
        else some received) = some vitals ∧
      after.1 = Function.update state.1 received.id (some vitals) ∧
      after.2 = state.2 ++ [if vitals.error = none then vitals else received] ∧
      ∀ past, receiveStat float64 (state.1, past) received = some (after.1, past ++ [received]) := by
  unfold addStatResult at added
  obtain ⟨vitals, got, rfl⟩ := Option.map_eq_some_iff.mp added
  refine ⟨vitals, got, rfl, rfl, fun past => ?_⟩
  simp only [receiveStat, addStatResult, got, Option.map_some]

theorem stat_faithful {state : (String → Option (PolledResult α)) × List (PolledResult α)} {past : List (PolledResult α)}
    {received vitals : PolledResult α} (tracks : Tracks float64 state.1 past)
    (current : StatCurrent float64 (state.1, past) received)
    (got : (if received.error = none ∧ (state.1 received.id).isSome then getVitals float64 received (state.1 received.id)
      else some received) = some vitals) (available : Bool) :
    Faithful float64 past ⟨received, if vitals.error = none then vitals else received, available⟩ ∧
      Tracks float64 (Function.update state.1 received.id (some vitals)) (past ++ [received]) := by
  by_cases fine : received.error = none
  · rw [if_pos ⟨fine, current.polled fine⟩] at got
    have readable := current.readable fine
    obtain ⟨own, read⟩ : ∃ own, getVitals float64 received none = some own := by
      rw [getVitals_eq float64 fine] at got
      obtain ⟨own, read, -⟩ := Option.map_eq_some_iff.mp got
      exact ⟨own, read⟩
    obtain ⟨error, stamp⟩ := getVitals_error fine got read
    constructor
    · rw [if_pos (error.trans (readable own read))]
      exact ⟨fun _ => faithful_of_base (tracks.base received.id) fine got,
        fun _ result again errored => absurd (readable result again) errored⟩
    · intro id
      rw [preceding_append]
      by_cases same : received.id = id
      · subst same
        rw [Function.update_self, if_pos rfl, counted, read]
        simp [stamp]
      · rw [Function.update_of_ne (Ne.symm same), if_neg same]
        exact tracks id
  · rw [if_neg fun both => fine both.1] at got
    obtain rfl := Option.some.inj got
    constructor
    · rw [if_neg fine]
      exact ⟨fun none => absurd none fine, fun none => absurd none fine⟩
    · have own : counted float64 received = received := by
        obtain ⟨err, errored⟩ := Option.ne_none_iff_exists'.mp fine
        simp [counted, getVitals, errored]
      intro id
      rw [preceding_append]
      by_cases same : received.id = id
      · subst same
        rw [Function.update_self, if_pos rfl, own]
      · rw [Function.update_of_ne (Ne.symm same), if_neg same]
        exact tracks id

theorem statBatch_faithful {state last : (String → Option (PolledResult α)) × List (PolledResult α)}
    {past results : List (PolledResult α)} (poller : Poller α) (tracks : Tracks float64 state.1 past)
    (ran : results.foldlM (addStatResult float64) state = some last)
    (current : Throughout (receiveStat float64) (StatCurrent float64) (state.1, past) results) :
    ∃ evaluated, last.2 = state.2 ++ evaluated ∧ evaluated.length = results.length ∧
      EachFaithful float64 past (judge poller results evaluated) ∧ Tracks float64 last.1 (past ++ results) := by
  induction results generalizing state past with
  | nil =>
    obtain rfl := Option.some.inj ran
    exact ⟨[], by rw [List.append_nil], rfl, trivial, by rwa [List.append_nil]⟩
  | cons received results ih =>
    obtain ⟨after, added, rest⟩ := Option.bind_eq_some_iff.mp ran
    obtain ⟨vitals, got, updated, appended, stepped⟩ := addStatResult_split added
    obtain ⟨here, next⟩ := stat_faithful tracks current.1 got
      (poller.evaluate (if vitals.error = none then vitals else received).toResult).isAvailable
    rw [← updated] at next
    obtain ⟨evaluated, rest, length, faithful, later⟩ := ih next rest (current.2 _ (stepped past))
    refine ⟨_ :: evaluated, ?_, congrArg Nat.succ length, ⟨here, faithful⟩, ?_⟩
    · rw [rest, appended, List.append_assoc]
      rfl
    · rw [List.append_assoc] at later
      exact later

structure StatManager.Sound (float64 : FloatText α) (this : StatManager α) : Prop where
  faithful : EachFaithful float64 [] this.log
  tracks : Tracks float64 this.lastResults (receivedOf this.log)

theorem StatManager.process_sound {compare : Float64 α} {this next : StatManager α} {batch : Batch α}
    (sound : this.Sound float64) (current : this.Current float64 batch)
    (processed : this.process float64 compare batch = some next) : next.Sound float64 := by
  obtain ⟨⟨lastResults, results⟩, ran, returned⟩ := Option.bind_eq_some_iff.mp processed
  obtain rfl := Option.some.inj returned
  obtain ⟨evaluated, same, length, each, tracks⟩ :=
    statBatch_faithful ⟨compare, "stat", batch.statResultHistory, batch.mc⟩ sound.tracks ran current
  rw [List.nil_append] at same
  obtain rfl : results = evaluated := same
  constructor
  case faithful => exact eachFaithful_append.mpr ⟨sound.faithful, each⟩
  case tracks =>
    have received := receivedOf_judge ⟨compare, "stat", batch.statResultHistory, batch.mc⟩ length
    simp only [receivedOf, List.map_append] at received ⊢
    rw [received]
    exact tracks

end Stat

end Managers

def HealthManager.new {α : Type} : HealthManager α := ⟨fun _ => [], []⟩

def StatManager.new {α : Type} : StatManager α := ⟨fun _ => none, []⟩

/-- In runs whose results all find the preceding result of their cache, and read as vitals, each result is
evaluated with its own vitals. -/
theorem vitals_own {α : Type} (float64 : FloatText α) (compare : Float64 α) (batches : List (Batch α)) :
    (∀ last, run (HealthManager.process float64 compare) .new batches = some last →
      Throughout (HealthManager.process float64 compare) (HealthManager.Current float64) .new batches →
      EachFaithful float64 [] last.log) ∧
    ∀ last, run (StatManager.process float64 compare) .new batches = some last →
      Throughout (StatManager.process float64 compare) (StatManager.Current float64) .new batches →
      EachFaithful float64 [] last.log := by
  constructor
  · intro last ran throughout
    have kept : ∀ (this : HealthManager α) (batch : Batch α) (next : HealthManager α), EachFaithful float64 [] this.log →
        this.Current float64 batch → this.process float64 compare batch = some next → EachFaithful float64 [] next.log :=
      fun _ _ _ => HealthManager.process_faithful
    have start : EachFaithful float64 [] (HealthManager.new : HealthManager α).log := trivial
    exact run_invariant kept start throughout ran
  · intro last ran throughout
    have sound : StatManager.Sound float64 last := by
      have start : StatManager.Sound float64 (StatManager.new : StatManager α) := ⟨trivial, fun _ => rfl⟩
      exact run_invariant (fun _ _ _ => StatManager.process_sound) start throughout ran
    exact sound.faithful

section Edge

def wholeCompare : Float64 Int :=
  { ofInt := fun n => n, equal := fun a b => a == b, less := fun a b => decide (a < b)
    print := toString, print2 := toString }

def netPoll (second : Int) (loadavg bytesOut : String) : PolledResult Int :=
  { healthPoll 0 with
    time := second * 1000000000
    system := ⟨"bond0", 10000, "bond0:9 1 0 0 0 0 0 0 " ++ bytesOut ++ " 1", loadavg, 0, 0, 0, 0, 0, false⟩ }

def edgeBatch (results : List (PolledResult Int)) : Batch Int where
  historyCount := fun _ => 10
  mc := ⟨fun _ => some ⟨"EDGE", "REPORTED"⟩, fun _ => some ⟨"", []⟩⟩
  statResultHistory := none
  results := results

def growing : List (PolledResult Int) := [netPoll 1 "1" "8000000", netPoll 2 "1" "16000000", netPoll 3 "1" "32000000"]

-- The rates that the polls are evaluated with.
example : (run (HealthManager.process wholeText wholeCompare) .new [edgeBatch growing]).map
    (fun last => last.log.map fun judged => judged.evaluated.vitals.kbpsOut) = some [0, 64000, 96000] := by decide +kernel

def failed : PolledResult Int := { netPoll 1 "" "0" with error := some "bad status: 500", available := false }

theorem edgeBatch_notOnline (results : List (PolledResult Int)) (id : String) : NotOnline (edgeBatch results).mc id := by
  rintro srv found
  obtain rfl := Option.some.inj found
  decide

/-- Two health polls, and a stat poll after one that failed. -/
theorem vitals_own_two :
    (∃ last, run (HealthManager.process wholeText wholeCompare) .new [edgeBatch (growing.take 2)] = some last ∧
      EachFaithful wholeText [] last.log) ∧
    ∃ last, run (StatManager.process wholeText wholeCompare) .new
        [edgeBatch [failed, netPoll 2 "1" "16000000"]] = some last ∧
      EachFaithful wholeText [] last.log := by
  obtain ⟨health, -⟩ := vitals_own wholeText wholeCompare [edgeBatch (growing.take 2)]
  obtain ⟨-, stat⟩ := vitals_own wholeText wholeCompare [edgeBatch [failed, netPoll 2 "1" "16000000"]]
  refine ⟨⟨_, rfl, health _ rfl ⟨?_, fun _ _ => trivial⟩⟩, _, rfl, stat _ rfl ⟨?_, fun _ _ => trivial⟩⟩
  · have notOnline := edgeBatch_notOnline (growing.take 2)
    refine ⟨⟨fun _ => by decide, fun _ => Or.inr (notOnline _)⟩, fun middle stepped => ?_⟩
    have first : receiveHealth wholeText (fun _ => 10) (edgeBatch (growing.take 2)).mc (fun _ => [], [])
        (netPoll 1 "1" "8000000") =
      some _ := rfl
    obtain rfl := Option.some.inj (first.symm.trans stepped)
    exact ⟨⟨fun _ => by decide, fun _ => Or.inr (notOnline _)⟩, fun _ _ => trivial⟩
  · refine ⟨⟨(fun fine => nomatch fine), (fun fine => nomatch fine)⟩, fun middle stepped => ?_⟩
    have first : receiveStat wholeText (fun _ => none, []) failed = some _ := rfl
    obtain rfl := Option.some.inj (first.symm.trans stepped)
    refine ⟨⟨fun _ => by decide, fun _ own read => ?_⟩, fun _ _ => trivial⟩
    have readable : getVitals wholeText (netPoll 2 "1" "16000000") none = some _ := rfl
    obtain rfl := Option.some.inj (readable.symm.trans read)
    rfl

/-- The third poll has the rate since the first one, a first stat poll has none, and a stat poll without a
load average is available. -/
theorem vitals_stale :
    (∃ last, run (HealthManager.process wholeText wholeCompare) .new [edgeBatch growing] = some last ∧
      ¬EachFaithful wholeText [] last.log) ∧
    (∃ last, run (StatManager.process wholeText wholeCompare) .new [edgeBatch [netPoll 1 "1" "8000000"]] = some last ∧
      ¬EachFaithful wholeText [] last.log) ∧
    ∃ last, run (StatManager.process wholeText wholeCompare) .new
        [edgeBatch [netPoll 1 "1" "8000000", netPoll 2 "" "16000000"]] = some last ∧
      (last.log.map fun judged => judged.available) = [true, true] := by
  refine ⟨⟨_, rfl, ?_⟩, ⟨_, rfl, ?_⟩, _, rfl, by decide +kernel⟩
  · rintro ⟨-, -, third, -⟩
    have rate := congrArg (Option.map fun result => result.vitals.kbpsOut) (third.vitals rfl)
    exact absurd rate (by decide +kernel)
  · rintro ⟨first, -⟩
    have speed := congrArg (Option.map fun result => result.vitals.maxKbpsOut) (first.vitals rfl)
    exact absurd speed (by decide +kernel)

end Edge

end TrafficControl.TrafficMonitor
