import Mathlib.Data.List.Basic
import TrafficControl.TrafficRouter.Config.ProcessingSteps

set_option autoImplicit false

namespace TrafficControl.TrafficRouter.ConfigHandler

open Runs

def updates : List Update := updatesBeforeWait ++ updatesAfterWait

def Statement.updateOf : Statement → Option Update
  | .update _ u => some u
  | _ => none

namespace Update

variable {java : Java} {clock : String → Nat → StatTracker.InitialClock} {snapshot : Snapshot} {u : Update}

-- The statements have been executed one after another.
inductive Made (java : Java) (clock : String → Nat → StatTracker.InitialClock) (snapshot : Snapshot) :
    List Update → Settings → Settings → Prop where
  | nothing (settings : Settings) : Made java clock snapshot [] settings settings
  | more {done : List Update} {before middle : Settings} {u : Update} {change : Settings → Settings}
    (made : Made java clock snapshot done before middle) (effected : u.effect java clock snapshot = .ok change) :
    Made java clock snapshot (done ++ [u]) before (change middle)

variable {done : List Update} {before after : Settings}

theorem Made.unchanged (made : Made java clock snapshot done before after) : Unchanged done before after := by
  induction made with
  | nothing settings => exact .refl settings
  | more made effected ih => exact ih.trans (effect_unchanged effected _)

theorem Made.succeeded (made : Made java clock snapshot done before after) :
    ∀ u ∈ done, ∃ change, u.effect java clock snapshot = .ok change := by
  induction made with
  | nothing settings => simp
  | more made effected ih =>
    intro u member
    rcases List.mem_append.mp member with earlier | last
    · exact ih u earlier
    · exact ⟨_, List.mem_singleton.mp last ▸ effected⟩

section ParseException

def NeverParse {α : Type} (result : Except ProcessException α) : Prop :=
  ∀ e, result = .error e → e.isParseException = false

theorem neverParse_mapError {α : Type} (result : Except ConfigException α) :
    NeverParse (result.mapError .configException) := by
  intro e failed
  cases result <;> cases failed
  rfl

theorem NeverParse.bind {α β : Type} {result : Except ProcessException α} {next : α → Except ProcessException β}
    (first : NeverParse result) (rest : ∀ a, NeverParse (next a)) : NeverParse (result.bind next) := by
  cases result with
  | error e => exact fun _ failed => Except.error.inj failed ▸ first e rfl
  | ok a => exact rest a

theorem NeverParse.map {α β : Type} {result : Except ProcessException α} {change : α → β}
    (first : NeverParse result) : NeverParse (result.map change) := by
  cases result with
  | error e => exact fun _ failed => Except.error.inj failed ▸ first e rfl
  | ok a =>
    intro e failed
    cases failed

theorem deliveryServiceMap_neverParse (java : Java) (snapshot : Snapshot) :
    NeverParse (snapshot.deliveryServiceMap java) :=
  (neverParse_mapError _).bind fun _ => neverParse_mapError _

theorem effect_neverParse (other : u ≠ .parseCacheConfig ∧ u ≠ .parseMonitorConfig ∧ u ≠ .setCacheRegister) :
    NeverParse (u.effect java clock snapshot) := by
  cases u with
  | parseCacheConfig => exact absurd rfl other.1
  | parseMonitorConfig => exact absurd rfl other.2.1
  | setCacheRegister => exact absurd rfl other.2.2
  | parseGeolocationConfig | parseCoverageZoneNetworkConfig | setDeliveryServicesJson =>
    exact (neverParse_mapError _).map
  | newCacheRegister => exact (neverParse_mapError _).bind fun _ => (neverParse_mapError _).map
  | parseTrafficOpsConfig =>
    refine NeverParse.map ?_
    unfold hostnameOf
    split_ifs
    · exact neverParse_mapError _
    · exact neverParse_mapError _
    · exact fun e failed => Except.error.inj failed ▸ rfl
  | parseDeliveryServiceConfig | setDeliveryServices => exact (deliveryServiceMap_neverParse java snapshot).map
  | parseDeliveryServiceMatchSets | parseLocationConfig =>
    exact ((neverParse_mapError _).bind fun _ => neverParse_mapError _).map
  | _ =>
    intro e failed
    cases failed

/-- What `setCacheRegister` installs has been read by the statements before it. -/
theorem cacheRegister_ok (succeeded : ∀ u ∈ [newCacheRegister, parseDeliveryServiceConfig, parseDeliveryServiceMatchSets,
      parseLocationConfig, parseCacheConfig], ∃ change, u.effect java clock snapshot = .ok change) :
    ∃ cacheRegister, snapshot.cacheRegister java = .ok cacheRegister := by
  obtain ⟨_, effected⟩ := succeeded newCacheRegister (by simp)
  obtain ⟨_, _, effected⟩ := ExceptList.bind_ok effected
  obtain ⟨_, trafficRouters, _⟩ := ExceptList.map_ok effected
  obtain ⟨_, effected⟩ := succeeded parseDeliveryServiceConfig (by simp)
  obtain ⟨_, deliveryServiceMap, _⟩ := ExceptList.map_ok effected
  obtain ⟨_, effected⟩ := succeeded parseDeliveryServiceMatchSets (by simp)
  obtain ⟨_, matchSets, _⟩ := ExceptList.map_ok effected
  obtain ⟨_, effected⟩ := succeeded parseLocationConfig (by simp)
  obtain ⟨_, locations, _⟩ := ExceptList.map_ok effected
  obtain ⟨_, effected⟩ := succeeded parseCacheConfig (by simp)
  obtain ⟨_, _, effected⟩ := ExceptList.bind_ok effected
  obtain ⟨_, caches, _⟩ := ExceptList.map_ok effected
  rw [Snapshot.cacheRegister, trafficRouters, deliveryServiceMap, matchSets, locations, caches]
  exact ⟨_, rfl⟩

end ParseException

end Update

theorem updates_nodup : updates.Nodup := by decide

/-- Where a statement stands in the order says what comes before it. -/
theorem done_eq_takeWhile {done rest : List Update} {u : Update} (split : updates = done ++ u :: rest) :
    done = updates.takeWhile fun other => other ≠ u := by
  have apart : ∀ other ∈ done, other ≠ u := by
    rintro other member rfl
    have nodup := split ▸ updates_nodup
    exact (List.nodup_append.mp nodup).2.2 other member other List.mem_cons_self rfl
  rw [split, List.takeWhile_append_of_pos fun other member => decide_eq_true (apart other member)]
  simp

namespace Update

variable {java : Java} {clock : String → Nat → StatTracker.InitialClock} {snapshot : Snapshot} {u : Update}
  {done rest : List Update} {before after : Settings}

theorem Made.parseException {e : ProcessException} (made : Made java clock snapshot done before after)
    (split : updates = done ++ u :: rest) (failed : u.effect java clock snapshot = .error e)
    (parse : e.isParseException = true) : u = .parseCacheConfig ∨ u = .parseMonitorConfig := by
  by_contra neither
  rw [not_or] at neither
  by_cases register : u = .setCacheRegister
  · subst register
    have position := done_eq_takeWhile split
    obtain ⟨_, installed⟩ := cacheRegister_ok fun u member => made.succeeded u (by
      rw [position]
      revert u
      decide)
    rw [effect, installed] at failed
    cases failed
  · simp [effect_neverParse ⟨neither.1, neither.2, register⟩ e failed] at parse

end Update

def Event.Continues : Event → Prop
  | .processConfig _ _ => False
  | _ => True

namespace Handler

variable {java : Java} {this next : Handler} {jsonStr : Option String}
  {clock : String → Nat → StatTracker.InitialClock} {before : Settings}

def Reads (java : Java) (jsonStr : Option String) (before : Settings) (snapshot : Snapshot) : Prop :=
  ∃ text, jsonStr = some text ∧ readSnapshot java text = .ok snapshot ∧ before.lastSnapshotTimestamp < snapshot.sts

-- How far a call has come when it ends.
inductive Came (java : Java) (jsonStr : Option String) (clock : String → Nat → StatTracker.InitialClock)
    (before : Settings) : Ending → List Update → Settings → Prop where
  | noData : Came java jsonStr clock before (.returned .noData) [] before
  | unread (text : String) (e : ProcessException) (given : jsonStr = some text)
    (unread : readSnapshot java text = .error e) : Came java jsonStr clock before (.threw e) [] before
  | olderSnapshot : Came java jsonStr clock before (.returned .olderSnapshot) [] before
  | wasCancelled (snapshot : Snapshot) (after : Settings) (reads : Reads java jsonStr before snapshot)
    (made : Update.Made java clock snapshot updatesBeforeWait before after) :
    Came java jsonStr clock before (.returned .wasCancelled) updatesBeforeWait after
  | parseFailed (snapshot : Snapshot) (done rest : List Update) (u : Update) (after : Settings)
    (reads : Reads java jsonStr before snapshot) (split : updates = done ++ u :: rest)
    (thrower : u = .parseCacheConfig ∨ u = .parseMonitorConfig)
    (made : Update.Made java clock snapshot done before after) :
    Came java jsonStr clock before (.returned .parseFailed) done after
  | threw (snapshot : Snapshot) (done rest : List Update) (u : Update) (e : ProcessException) (after : Settings)
    (reads : Reads java jsonStr before snapshot) (split : updates = done ++ u :: rest)
    (thrown : u.effect java clock snapshot = .error e ∨ u.calls = true)
    (made : Update.Made java clock snapshot done before after) :
    Came java jsonStr clock before (.threw e) done after
  | applied (snapshot : Snapshot) (after : Settings) (reads : Reads java jsonStr before snapshot)
    (made : Update.Made java clock snapshot updates before after) :
    Came java jsonStr clock before (.returned .applied) updates after

-- Where a call is, and what it has set so far.
inductive Progress (java : Java) (jsonStr : Option String) (clock : String → Nat → StatTracker.InitialClock)
    (before : Settings) (this : Handler) : Prop where
  | entering (remaining : List Statement) (called : this.call = some ⟨clock, remaining⟩)
    (suffix : remaining <:+ entryStatements jsonStr) (same : this.settings = before)
  | updating (snapshot : Snapshot) (remaining : List Statement) (done : List Update)
    (called : this.call = some ⟨clock, remaining⟩) (suffix : remaining <:+ statements java snapshot)
    (reads : Reads java jsonStr before snapshot) (split : updates = done ++ remaining.filterMap Statement.updateOf)
    (made : Update.Made java clock snapshot done before this.settings)
  | exiting (exit : Exit) (remaining : List Statement) (done : List Update)
    (called : this.call = some ⟨clock, remaining⟩) (suffix : remaining <:+ exitStatements exit)
    (came : Came java jsonStr clock before (.returned exit) done this.settings)
  | ended (ending : Ending) (done : List Update) (finished : this.call = none) (ended : this.ended = some ending)
    (came : Came java jsonStr clock before ending done this.settings)

theorem execute_exits {call : Call} {rest : List Statement} {statement : Statement}
    (exits : statement.exits = true ∨ statement = .setIsProcessing true)
    (executed : this.execute java call rest statement = some next) :
    next.settings = this.settings ∧ ((∃ exit, statement = .exit exit ∧ next.call = none ∧
      next.ended = some (.returned exit)) ∨ next.call = some ⟨call.clock, rest⟩) := by
  cases statement with
  | setIsProcessing value =>
    cases executed
    exact ⟨rfl, Or.inr rfl⟩
  | setCancelled value =>
    cases executed
    exact ⟨rfl, Or.inr rfl⟩
  | clearPublishStatusQueue =>
    cases executed
    exact ⟨rfl, Or.inr rfl⟩
  | exit exit =>
    cases executed
    exact ⟨rfl, Or.inl ⟨exit, rfl, rfl, rfl⟩⟩
  | _ => simp [Statement.exits] at exits

theorem filterMap_updates (snapshot : Snapshot) (us : List Update) :
    (us.map (Statement.update snapshot)).filterMap Statement.updateOf = us := by
  induction us with
  | nil => rfl
  | cons u us ih => simp [Statement.updateOf, ih]

theorem filterMap_applyStatements (snapshot : Snapshot) :
    (applyStatements snapshot).filterMap Statement.updateOf = updatesAfterWait := by
  have exits : (exitStatements .applied).filterMap Statement.updateOf = [] := rfl
  rw [applyStatements, List.filterMap_append, filterMap_updates, exits, List.append_nil]

theorem filterMap_statements (java : Java) (snapshot : Snapshot) :
    (statements java snapshot).filterMap Statement.updateOf = updates := by
  have waits : (waitStatements java snapshot).filterMap Statement.updateOf = [] := by
    unfold waitStatements
    split_ifs <;> rfl
  have check : Statement.updateOf .checkCancelled = none := rfl
  simp only [statements, List.filterMap_append, List.filterMap_cons, check, filterMap_updates, waits,
    filterMap_applyStatements, List.append_nil, updates]

theorem exit_of_mem {exit other : Exit} (member : .exit other ∈ exitStatements exit) : other = exit := by
  cases exit <;> simpa [exitStatements] using member

/-- After the check of `cancelled` come the statements that apply the snapshot. -/
theorem rest_of_checkCancelled {snapshot : Snapshot} {rest : List Statement}
    (suffix : .checkCancelled :: rest <:+ statements java snapshot) : rest = applyStatements snapshot := by
  obtain ⟨before, split⟩ := suffix
  have absent : .checkCancelled ∉ updatesBeforeWait.map (Statement.update snapshot) ++ waitStatements java snapshot := by
    unfold waitStatements
    split_ifs <;> simp
  have absent' : .checkCancelled ∉ applyStatements snapshot := by simp [applyStatements, exitStatements]
  rw [statements] at split
  exact ((List.append_cons_inj_of_notMem absent absent').mp split.symm).2.2.symm

theorem reads_snapshot {text : String} {snapshot : Snapshot} (given : jsonStr = some text)
    (read : readSnapshot java text = .ok snapshot) (newer : ¬snapshot.sts ≤ before.lastSnapshotTimestamp) :
    Reads java jsonStr before snapshot :=
  ⟨text, given, read, Int.not_le.mp newer⟩

theorem enters {statement : Statement} {rest : List Statement} (suffix : statement :: rest <:+ entryStatements jsonStr)
    (same : this.settings = before)
    (executed : this.execute java ⟨clock, statement :: rest⟩ rest statement = some next) :
    Progress java jsonStr clock before next := by
  have tail : rest <:+ entryStatements jsonStr := (List.suffix_cons _ _).trans suffix
  have member := suffix.subset List.mem_cons_self
  cases jsonStr with
  | none =>
    have exits : statement.exits = true ∨ statement = .setIsProcessing true := by
      rcases List.mem_cons.mp member with rfl | exits
      · exact Or.inr rfl
      · exact Or.inl (exits_of_mem exits)
    obtain ⟨kept, ⟨exit, rfl, finished, ended⟩ | passed⟩ := execute_exits exits executed
    · obtain rfl : exit = .noData := exit_of_mem ((List.mem_cons.mp member).resolve_left (by simp))
      exact .ended _ [] finished ended ((kept.trans same).symm ▸ .noData)
    · exact .entering rest passed tail (kept.trans same)
  | some text =>
    simp only [entryStatements, List.mem_cons, List.not_mem_nil, or_false] at member
    rcases member with rfl | rfl
    · cases executed
      exact .entering rest rfl tail same
    · cases execute_executed executed with
      | unread _ e unread => exact .ended (.threw e) [] rfl rfl (same ▸ .unread text e rfl unread)
      | older => exact .exiting .olderSnapshot _ [] rfl (List.suffix_refl _) (same ▸ .olderSnapshot)
      | reads _ snapshot read newer =>
        exact .updating snapshot _ [] rfl (List.suffix_refl _) (reads_snapshot rfl read (same ▸ newer))
          (filterMap_statements java snapshot).symm (same ▸ .nothing _)

theorem Progress.executes {call : Call} {statement : Statement} {rest : List Statement}
    (progress : Progress java jsonStr clock before this) (called : this.call = some call)
    (remaining : call.remaining = statement :: rest) (executed : this.execute java call rest statement = some next) :
    Progress java jsonStr clock before next := by
  cases progress with
  | entering remaining' called' suffix same =>
    obtain rfl := Option.some.inj (called.symm.trans called')
    obtain rfl : remaining' = statement :: rest := remaining
    exact enters suffix same executed
  | updating snapshot remaining' done called' suffix reads split made =>
    obtain rfl := Option.some.inj (called.symm.trans called')
    obtain rfl : remaining' = statement :: rest := remaining
    have tail : rest <:+ statements java snapshot := (List.suffix_cons _ _).trans suffix
    rcases mem_statements (suffix.subset List.mem_cons_self) with ⟨u, rfl⟩ | rfl | rfl | rfl | exits
    · have split' : updates = done ++ u :: rest.filterMap Statement.updateOf := split
      cases execute_executed executed with
      | parseFails _ _ e failed parse =>
        exact .exiting .parseFailed _ done rfl (List.suffix_refl _)
          (.parseFailed snapshot done _ u _ reads split' (made.parseException split' failed parse) made)
      | throws _ _ e failed =>
        exact .ended (.threw e) done rfl rfl (.threw snapshot done _ u e _ reads split' (Or.inl failed) made)
      | updates _ _ change effected =>
        exact .updating snapshot rest (done ++ [u]) rfl tail reads (by simpa using split') (made.more effected)
    · cases execute_executed executed
      exact .updating snapshot rest done rfl tail reads split made
    · cases execute_executed executed
      exact .updating snapshot rest done rfl tail reads split made
    · obtain rfl := rest_of_checkCancelled suffix
      have split' : updates = done ++ (applyStatements snapshot).filterMap Statement.updateOf := split
      cases execute_executed executed with
      | wasCancelled cancelled =>
        obtain rfl : done = updatesBeforeWait := by
          rw [filterMap_applyStatements] at split'
          exact (List.append_cancel_right split').symm
        exact .exiting .wasCancelled _ updatesBeforeWait rfl (List.suffix_refl _) (.wasCancelled snapshot _ reads made)
      | passes uncancelled => exact .updating snapshot _ done rfl tail reads split' made
    · obtain ⟨same, ⟨exit, rfl, finished, ended⟩ | passed⟩ := execute_exits (Or.inl (exits_of_mem exits)) executed
      · obtain rfl := exit_of_mem exits
        obtain rfl := (IsProgram.snapshot snapshot).exit_last suffix
        obtain rfl : done = updates := (split.trans (List.append_nil done)).symm
        exact .ended _ updates finished ended (same ▸ .applied snapshot _ reads made)
      · have sets : statement.updateOf = none := by
          cases statement <;> first | rfl | cases exits_of_mem exits
        refine .updating snapshot rest done passed tail reads ?_ (same ▸ made)
        rwa [List.filterMap_cons_none sets] at split
  | exiting exit remaining' done called' suffix came =>
    obtain rfl := Option.some.inj (called.symm.trans called')
    obtain rfl : remaining' = statement :: rest := remaining
    have member := suffix.subset List.mem_cons_self
    obtain ⟨same, ⟨other, rfl, finished, ended⟩ | passed⟩ := execute_exits (Or.inl (exits_of_mem member)) executed
    · exact .ended (.returned exit) done finished (exit_of_mem member ▸ ended) (same ▸ came)
    · exact .exiting exit rest done passed ((List.suffix_cons _ _).trans suffix) (same ▸ came)
  | ended ending done finished ended came => simp [finished] at called

theorem Progress.keeps (progress : Progress java jsonStr clock before this) (keeps : KeepsCall this next) :
    Progress java jsonStr clock before next := by
  cases progress with
  | entering remaining called suffix same =>
    exact .entering remaining (keeps.call.trans called) suffix (keeps.settings.trans same)
  | updating snapshot remaining done called suffix reads split made =>
    exact .updating snapshot remaining done (keeps.call.trans called) suffix reads split (keeps.settings.symm ▸ made)
  | exiting exit remaining done called suffix came =>
    exact .exiting exit remaining done (keeps.call.trans called) suffix (keeps.settings.symm ▸ came)
  | ended ending done finished ended came =>
    exact .ended ending done (keeps.call.trans finished) (keeps.ended.trans ended) (keeps.settings.symm ▸ came)

/-- Between the timestamp check and the return a call is updating. -/
theorem Progress.inside {clock' : String → Nat → StatTracker.InitialClock} {statement : Statement}
    {rest : List Statement} (progress : Progress java jsonStr clock before this)
    (called : this.call = some ⟨clock', statement :: rest⟩) (inside : statement.exits = false)
    (within : (∃ snapshot u, statement = .update snapshot u) ∨ statement = .putPublishStatus) :
    clock' = clock ∧ ∃ snapshot done, statement :: rest <:+ statements java snapshot ∧
      Reads java jsonStr before snapshot ∧
      updates = done ++ (statement :: rest).filterMap Statement.updateOf ∧
      Update.Made java clock snapshot done before this.settings := by
  cases progress with
  | entering remaining called' suffix same =>
    cases Option.some.inj (called.symm.trans called')
    exact absurd (suffix.subset List.mem_cons_self) (not_mem_entry inside within)
  | updating snapshot remaining done called' suffix reads split made =>
    cases Option.some.inj (called.symm.trans called')
    exact ⟨rfl, snapshot, done, suffix, reads, split, made⟩
  | exiting exit remaining done called' suffix came =>
    cases Option.some.inj (called.symm.trans called')
    simp [exits_of_mem (suffix.subset List.mem_cons_self)] at inside
  | ended ending done finished ended came => simp [finished] at called

theorem Progress.step {event : Event} (progress : Progress java jsonStr clock before this) (continues : event.Continues)
    (steps : this.step java event = some next) : Progress java jsonStr clock before next := by
  cases stepped steps with
  | begins jsonStr clock idle => exact absurd continues id
  | executes call statement rest next called remaining executed => exact progress.executes called remaining executed
  | fails e clock' snapshot' u rest called calls other =>
    obtain ⟨rfl, snapshot, done, suffix, reads, split, made⟩ := progress.inside called rfl (Or.inl ⟨snapshot', u, rfl⟩)
    exact .ended (.threw e) done rfl rfl (.threw snapshot done _ u e _ reads split (Or.inr calls) made)
  | interrupted clock' rest called =>
    obtain ⟨rfl, snapshot, done, suffix, reads, split, made⟩ := progress.inside called rfl (Or.inr rfl)
    exact .updating snapshot rest done rfl ((List.suffix_cons _ _).trans suffix) reads split made
  | other event next keeps cancelled => exact progress.keeps keeps

theorem Came.unchanged {ending : Ending} {done : List Update} {after : Settings}
    (came : Came java jsonStr clock before ending done after) : Update.Unchanged done before after := by
  cases came with
  | noData | unread | olderSnapshot => exact .refl before
  | wasCancelled snapshot after reads made => exact made.unchanged
  | parseFailed snapshot done rest u after reads split thrower made => exact made.unchanged
  | threw snapshot done rest u e after reads split thrown made => exact made.unchanged
  | applied snapshot after reads made => exact made.unchanged

theorem Came.timestamp_notMem {ending : Ending} {done : List Update} {after : Settings}
    (came : Came java jsonStr clock before ending done after) (rejected : ending ≠ .returned .applied) :
    .setLastSnapshotTimestamp ∉ done := by
  have last : ∀ u ∈ updates, Update.setLastSnapshotTimestamp ∉ updates.takeWhile fun other => other ≠ u := by decide
  cases came with
  | noData | unread | olderSnapshot => simp
  | wasCancelled snapshot after reads made => decide
  | parseFailed snapshot done rest u after reads split thrower made =>
    rw [done_eq_takeWhile split]
    exact last u (split ▸ by simp)
  | threw snapshot done rest u e after reads split thrown made =>
    rw [done_eq_takeWhile split]
    exact last u (split ▸ by simp)
  | applied snapshot after reads made => exact absurd rfl rejected

/-- What a call that returns false has not reached. -/
theorem Came.returned_notMem {exit : Exit} {done : List Update} {after : Settings}
    (came : Came java jsonStr clock before (.returned exit) done after) (rejected : exit ≠ .applied) :
    .setCacheRegister ∉ done ∧ .parseMonitorConfig ∉ done ∧ (exit ≠ .parseFailed → .parseCacheConfig ∉ done) := by
  cases came with
  | noData | olderSnapshot => simp
  | wasCancelled snapshot after reads made => decide
  | parseFailed snapshot done rest u after reads split thrower made =>
    rw [done_eq_takeWhile split]
    rcases thrower with rfl | rfl <;> decide
  | applied snapshot after reads made => exact absurd rfl rejected

theorem progress_of_run {events : List Event} {last : Handler} (idle : this.call = none)
    (continues : ∀ event ∈ events, event.Continues)
    (ran : run (step java) this (.processConfig jsonStr clock :: events) = some last) :
    Progress java jsonStr clock this.settings last := by
  obtain ⟨entered, steps, rest⟩ := run_cons ran
  have begun : Progress java jsonStr clock this.settings entered := by
    simp only [step, idle] at steps
    cases steps
    exact .entering _ rfl (List.suffix_refl _) rfl
  exact run_invariant (fun _ _ _ => Progress.step) begun (throughout_of_forall continues entered) rest

-- A snapshot of one delivery service and one cache, with the given monitors.
def smallSnapshot (monitors : JsonNode) : JsonNode := .object
  [("config", .object [("geolocation.polling.url", .text "geo"), ("coveragezone.polling.url", .text "czf")]),
    ("stats", .object [("date", .number "2"), ("tm_host", .text "ops")]),
    ("deliveryServices", .object [("ds", .object [("coverageZoneOnly", .bool false), ("routingName", .text "edge"),
      ("matchsets", .array [])])]),
    ("contentRouters", .object []),
    ("edgeLocations", .object [("loc", .object [("latitude", .number "1"), ("longitude", .number "1")])]),
    ("contentServers", .object [("cache", .object [("locationId", .text "loc"), ("fqdn", .text "cache.loc"),
      ("port", .number "80"), ("ip", .text "127.0.0.1"), ("deliveryServices", .object [("ds", .array [.text "ds.cdn"])])])]),
    ("monitors", monitors)]

def monitored : Java :=
  javaReading [("snapshot", smallSnapshot (.object
    [("tm", .object [("fqdn", .text "tm.cdn"), ("status", .text "ONLINE")])]))]

def unmonitored : Java := javaReading [("snapshot", smallSnapshot (.object []))]

-- A cancellation that comes once the call has set its flag.
def cancelsCall : List Event := [.advance, .isProcessing, .setCancelled]

end Handler

end TrafficControl.TrafficRouter.ConfigHandler
