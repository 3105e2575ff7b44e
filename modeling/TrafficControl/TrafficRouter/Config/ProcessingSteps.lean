import TrafficControl.Lib.ExceptList
import TrafficControl.TrafficRouter.Config.ConfigHandler

set_option autoImplicit false

namespace TrafficControl.TrafficRouter.ConfigHandler

open Runs

variable {java : Java} {this next : Handler}

theorem suffix_of_cons_suffix {x : Statement} {rest : List Statement} (first last : List Statement)
    (suffix : x :: rest <:+ first ++ last) (absent : x ∉ last) : last <:+ rest := by
  rcases List.suffix_or_suffix_of_suffix suffix (List.suffix_append first last) with inside | outside
  · exact absurd (inside.subset List.mem_cons_self) absent
  · rcases List.suffix_cons_iff.mp outside with same | within
    · exact absurd (same ▸ List.mem_cons_self) absent
    · exact within

-- The lists a call works through.
inductive IsProgram (java : Java) : List Statement → Prop where
  | entry (jsonStr : Option String) : IsProgram java (entryStatements jsonStr)
  | snapshot (snapshot : Snapshot) : IsProgram java (statements java snapshot)
  | exit (exit : Exit) : IsProgram java (exitStatements exit)

/-- Whatever the rest of a call leaves set, it clears. -/
def Clears (rest : List Statement) : Prop :=
  (∃ exit, exitStatements exit <:+ rest) ∨ ∃ jsonStr, .readSnapshot jsonStr ∈ rest

-- The statements a call ends with.
def Statement.exits : Statement → Bool
  | .setIsProcessing value => !value
  | .setCancelled value => !value
  | .clearPublishStatusQueue => true
  | .exit _ => true
  | _ => false

theorem exits_of_mem {exit : Exit} {statement : Statement} (member : statement ∈ exitStatements exit) :
    statement.exits = true := by
  have all : ∀ statement ∈ exitStatements exit, statement.exits = true := by
    cases exit <;> simp [exitStatements, Statement.exits]
  exact all statement member

theorem statements_eq (java : Java) (snapshot : Snapshot) : statements java snapshot =
    (updatesBeforeWait.map (.update snapshot) ++ waitStatements java snapshot ++
      .checkCancelled :: updatesAfterWait.map (.update snapshot)) ++ exitStatements .applied := by
  simp [statements, applyStatements]

theorem clears_exit (exit : Exit) : Clears (exitStatements exit) := Or.inl ⟨exit, List.suffix_refl _⟩

theorem clears_statements (java : Java) (snapshot : Snapshot) : Clears (statements java snapshot) :=
  Or.inl ⟨.applied, statements_eq java snapshot ▸ List.suffix_append _ _⟩

-- What escapes the `catch` of `processConfig`.
def Statement.Throws (java : Java) (clock : String → Nat → StatTracker.InitialClock) : Statement → Prop
  | .readSnapshot jsonStr => ∃ e, ConfigHandler.readSnapshot java jsonStr = .error e
  | .update snapshot u => ∃ e, u.effect java clock snapshot = .error e ∧ e.isParseException = false
  | _ => False

theorem mem_statements {snapshot : Snapshot} {statement : Statement} (member : statement ∈ statements java snapshot) :
    (∃ u, statement = .update snapshot u) ∨ statement = .putPublishStatus ∨ statement = .awaitCertificates ∨
      statement = .checkCancelled ∨ statement ∈ exitStatements .applied := by
  simp only [statements, applyStatements, List.mem_append, List.mem_cons, List.mem_map] at member
  rcases member with (⟨u, _, rfl⟩ | waits) | rfl | ⟨u, _, rfl⟩ | exits
  · exact Or.inl ⟨u, rfl⟩
  · unfold waitStatements at waits
    split_ifs at waits
    · cases waits
    · rcases List.mem_cons.mp waits with rfl | waits
      · exact Or.inr (Or.inl rfl)
      · exact Or.inr (Or.inr (Or.inl (List.mem_singleton.mp waits)))
  · exact Or.inr (Or.inr (Or.inr (Or.inl rfl)))
  · exact Or.inl ⟨u, rfl⟩
  · exact Or.inr (Or.inr (Or.inr (Or.inr exits)))

theorem not_mem_entry {jsonStr : Option String} {statement : Statement} (inside : statement.exits = false)
    (within : (∃ snapshot u, statement = .update snapshot u) ∨ statement = .putPublishStatus) :
    statement ∉ entryStatements jsonStr := by
  intro member
  cases jsonStr with
  | none =>
    rcases List.mem_cons.mp member with rfl | exits
    · simp at within
    · simp [exits_of_mem exits] at inside
  | some text =>
    simp only [entryStatements, List.mem_cons, List.not_mem_nil, or_false] at member
    rcases member with rfl | rfl <;> simp at within

theorem IsProgram.clears {program rest : List Statement} {statement : Statement} (isProgram : IsProgram java program)
    (suffix : statement :: rest <:+ program) (inside : statement.exits = false)
    (unread : ∀ jsonStr, statement ≠ .readSnapshot jsonStr) : Clears rest := by
  have absent : ∀ exit, statement ∉ exitStatements exit := by
    intro exit member
    simp [exits_of_mem member] at inside
  cases isProgram with
  | entry jsonStr =>
    cases jsonStr with
    | none => exact Or.inl ⟨.noData, suffix_of_cons_suffix [.setIsProcessing true] _ suffix (absent _)⟩
    | some jsonStr =>
      have reads := suffix_of_cons_suffix [.setIsProcessing true] [.readSnapshot jsonStr] suffix
        (by simpa using unread jsonStr)
      exact Or.inr ⟨jsonStr, reads.subset List.mem_cons_self⟩
  | snapshot snapshot =>
    rw [statements_eq] at suffix
    exact Or.inl ⟨.applied, suffix_of_cons_suffix _ _ suffix (absent _)⟩
  | exit exit => exact absurd (suffix.subset List.mem_cons_self) (absent exit)

theorem IsProgram.exit_last {program rest : List Statement} {exit : Exit} (isProgram : IsProgram java program)
    (suffix : .exit exit :: rest <:+ program) : rest = [] := by
  have last : ∀ statement ∈ program.dropLast, statement ≠ .exit exit := by
    cases isProgram with
    | entry jsonStr => cases jsonStr <;> simp [entryStatements, exitStatements]
    | snapshot snapshot =>
      have split : statements java snapshot = (updatesBeforeWait.map (.update snapshot) ++
          waitStatements java snapshot ++ .checkCancelled :: updatesAfterWait.map (.update snapshot) ++
          [.setIsProcessing false, .setCancelled false, .clearPublishStatusQueue]) ++ [.exit .applied] := by
        simp [statements, applyStatements, exitStatements]
      rw [split, List.dropLast_concat]
      unfold waitStatements
      split_ifs <;> simp [updatesBeforeWait, updatesAfterWait]
    | exit exit => cases exit <;> simp [exitStatements]
  obtain ⟨before, rfl⟩ := suffix
  by_contra nonempty
  have inside : .exit exit ∈ (before ++ .exit exit :: rest).dropLast := by
    rw [List.dropLast_append_of_ne_nil (List.cons_ne_nil _ _), List.dropLast_cons_of_ne_nil nonempty]
    simp
  exact last _ inside rfl

namespace Update

variable {clock : String → Nat → StatTracker.InitialClock} {snapshot : Snapshot} {u : Update}

-- What is still as before when these statements have been executed.
structure Unchanged (done : List Update) (before after : Settings) : Prop where
  cacheRegister : .setCacheRegister ∉ done → after.cacheRegister = before.cacheRegister
  lastSnapshotTimestamp :
    .setLastSnapshotTimestamp ∉ done → after.lastSnapshotTimestamp = before.lastSnapshotTimestamp
  deliveryServicesJson : .setDeliveryServicesJson ∉ done → after.deliveryServicesJson = before.deliveryServicesJson
  deliveryServices : .setDeliveryServices ∉ done → after.deliveryServices = before.deliveryServices
  statTracker : .parseCacheConfig ∉ done → after.statTracker = before.statTracker
  trafficOps : .parseTrafficOpsConfig ∉ done → after.trafficOps = before.trafficOps
  monitors : .parseMonitorConfig ∉ done → after.monitors = before.monitors
  geolocation : .parseGeolocationConfig ∉ done → after.geolocation = before.geolocation
  coverageZone : .parseCoverageZoneNetworkConfig ∉ done → after.coverageZone = before.coverageZone
  deepCoverageZone : .parseDeepCoverageZoneNetworkConfig ∉ done → after.deepCoverageZone = before.deepCoverageZone
  regionalGeo : .parseRegionalGeoConfig ∉ done → after.regionalGeo = before.regionalGeo

theorem Unchanged.refl (settings : Settings) : Unchanged [] settings settings := by
  constructor <;> intro _ <;> rfl

theorem Unchanged.trans {first second : List Update} {a b c : Settings} (ab : Unchanged first a b)
    (bc : Unchanged second b c) : Unchanged (first ++ second) a c := by
  constructor <;> intro absent <;> rw [List.mem_append, not_or] at absent
  · exact (bc.cacheRegister absent.2).trans (ab.cacheRegister absent.1)
  · exact (bc.lastSnapshotTimestamp absent.2).trans (ab.lastSnapshotTimestamp absent.1)
  · exact (bc.deliveryServicesJson absent.2).trans (ab.deliveryServicesJson absent.1)
  · exact (bc.deliveryServices absent.2).trans (ab.deliveryServices absent.1)
  · exact (bc.statTracker absent.2).trans (ab.statTracker absent.1)
  · exact (bc.trafficOps absent.2).trans (ab.trafficOps absent.1)
  · exact (bc.monitors absent.2).trans (ab.monitors absent.1)
  · exact (bc.geolocation absent.2).trans (ab.geolocation absent.1)
  · exact (bc.coverageZone absent.2).trans (ab.coverageZone absent.1)
  · exact (bc.deepCoverageZone absent.2).trans (ab.deepCoverageZone absent.1)
  · exact (bc.regionalGeo absent.2).trans (ab.regionalGeo absent.1)

/-- A statement changes its own settings. -/
theorem effect_unchanged {change : Settings → Settings} (effected : u.effect java clock snapshot = .ok change)
    (settings : Settings) : Unchanged [u] settings (change settings) := by
  cases u with
  | newCacheRegister | parseCacheConfig =>
    obtain ⟨_, _, effected⟩ := ExceptList.bind_ok effected
    obtain ⟨_, _, rfl⟩ := ExceptList.map_ok effected
    constructor <;> simp
  | setDeliveryServices =>
    obtain ⟨_, _, rfl⟩ := ExceptList.map_ok effected
    constructor <;> split_ifs <;> simp
  | parseGeolocationConfig | parseCoverageZoneNetworkConfig | parseTrafficOpsConfig | parseDeliveryServiceConfig
  | setDeliveryServicesJson | parseDeliveryServiceMatchSets | parseLocationConfig | parseMonitorConfig
  | setCacheRegister =>
    obtain ⟨_, _, rfl⟩ := ExceptList.map_ok effected
    constructor <;> simp
  | _ =>
    cases effected
    constructor <;> simp

end Update

namespace Handler

-- The list a call is working through, from where it is.
def Positioned (java : Java) (this : Handler) : Prop :=
  ∀ call, this.call = some call → ∃ program, IsProgram java program ∧ call.remaining <:+ program

-- What a statement can do.
inductive Executed (java : Java) (this : Handler) (call : Call) (rest : List Statement) : Statement → Handler → Prop where
  | setsIsProcessing (value : Bool) :
    Executed java this call rest (.setIsProcessing value) { this.goOn call rest with isProcessing := value }
  | setsCancelled (value : Bool) :
    Executed java this call rest (.setCancelled value) { this.goOn call rest with cancelled := value }
  | clears : Executed java this call rest .clearPublishStatusQueue { this.goOn call rest with publishStatusQueue := false }
  | unread (jsonStr : String) (e : ProcessException) (unread : ConfigHandler.readSnapshot java jsonStr = .error e) :
    Executed java this call rest (.readSnapshot jsonStr) (this.endCall (.threw e))
  | older (jsonStr : String) (snapshot : Snapshot) (read : ConfigHandler.readSnapshot java jsonStr = .ok snapshot)
    (older : snapshot.sts ≤ this.settings.lastSnapshotTimestamp) :
    Executed java this call rest (.readSnapshot jsonStr) (this.goOn call (exitStatements .olderSnapshot))
  | reads (jsonStr : String) (snapshot : Snapshot) (read : ConfigHandler.readSnapshot java jsonStr = .ok snapshot)
    (newer : ¬snapshot.sts ≤ this.settings.lastSnapshotTimestamp) :
    Executed java this call rest (.readSnapshot jsonStr) (this.goOn call (statements java snapshot))
  | parseFails (snapshot : Snapshot) (u : Update) (e : ProcessException)
    (failed : u.effect java call.clock snapshot = .error e) (parse : e.isParseException = true) :
    Executed java this call rest (.update snapshot u) (this.goOn call (exitStatements .parseFailed))
  | throws (snapshot : Snapshot) (u : Update) (e : ProcessException)
    (failed : u.effect java call.clock snapshot = .error e) (other : e.isParseException = false) :
    Executed java this call rest (.update snapshot u) (this.endCall (.threw e))
  | updates (snapshot : Snapshot) (u : Update) (change : Settings → Settings)
    (effected : u.effect java call.clock snapshot = .ok change) :
    Executed java this call rest (.update snapshot u) { this.goOn call rest with settings := change this.settings }
  | puts (empty : this.publishStatusQueue = false) :
    Executed java this call rest .putPublishStatus { this.goOn call rest with publishStatusQueue := true }
  | awaits (free : this.cancelled = true ∨ this.publishStatusQueue = false) :
    Executed java this call rest .awaitCertificates (this.goOn call rest)
  | wasCancelled (cancelled : this.cancelled = true) :
    Executed java this call rest .checkCancelled (this.goOn call (exitStatements .wasCancelled))
  | passes (uncancelled : this.cancelled ≠ true) : Executed java this call rest .checkCancelled (this.goOn call rest)
  | exits (exit : Exit) : Executed java this call rest (.exit exit) (this.endCall (.returned exit))

theorem execute_executed {call : Call} {rest : List Statement} {statement : Statement}
    (executed : this.execute java call rest statement = some next) : Executed java this call rest statement next := by
  cases statement with
  | setIsProcessing value => exact Option.some.inj executed ▸ .setsIsProcessing value
  | setCancelled value => exact Option.some.inj executed ▸ .setsCancelled value
  | clearPublishStatusQueue => exact Option.some.inj executed ▸ .clears
  | readSnapshot jsonStr =>
    simp only [execute] at executed
    split at executed
    next e unread => exact Option.some.inj executed ▸ .unread jsonStr e unread
    next snapshot read =>
      split at executed
      next older => exact Option.some.inj executed ▸ .older jsonStr snapshot read older
      next newer => exact Option.some.inj executed ▸ .reads jsonStr snapshot read newer
  | update snapshot u =>
    simp only [execute] at executed
    split at executed
    next e failed =>
      unfold raise at executed
      split at executed
      next parse => exact Option.some.inj executed ▸ .parseFails snapshot u e failed parse
      next other => exact Option.some.inj executed ▸ .throws snapshot u e failed (Bool.eq_false_iff.mpr other)
    next change effected => exact Option.some.inj executed ▸ .updates snapshot u change effected
  | putPublishStatus =>
    simp only [execute] at executed
    split at executed
    · cases executed
    next empty => exact Option.some.inj executed ▸ .puts (Bool.eq_false_iff.mpr empty)
  | awaitCertificates =>
    simp only [execute] at executed
    split at executed
    · cases executed
    next free => exact Option.some.inj executed ▸ .awaits (by simpa [or_iff_not_imp_left] using free)
  | checkCancelled =>
    simp only [execute] at executed
    split at executed
    next cancelled => exact Option.some.inj executed ▸ .wasCancelled cancelled
    next uncancelled => exact Option.some.inj executed ▸ .passes uncancelled
  | exit exit => exact Option.some.inj executed ▸ .exits exit

/-- A statement ends the call, passes to the next, or turns to a list of its own. -/
theorem Executed.call {call : Call} {rest : List Statement} {statement : Statement}
    (executed : Executed java this call rest statement next) :
    (next.call = none ∧ (statement.Throws java call.clock ∨ ∃ exit, statement = .exit exit)) ∨
      (next.call = some { call with remaining := rest } ∧ ∀ jsonStr, statement ≠ .readSnapshot jsonStr) ∨
      ∃ program, IsProgram java program ∧ Clears program ∧ next.call = some { call with remaining := program } := by
  cases executed with
  | unread jsonStr e unread => exact Or.inl ⟨rfl, Or.inl ⟨e, unread⟩⟩
  | throws snapshot u e failed other => exact Or.inl ⟨rfl, Or.inl ⟨e, failed, other⟩⟩
  | exits exit => exact Or.inl ⟨rfl, Or.inr ⟨exit, rfl⟩⟩
  | older => exact Or.inr (Or.inr ⟨_, .exit .olderSnapshot, clears_exit _, rfl⟩)
  | reads _ snapshot => exact Or.inr (Or.inr ⟨_, .snapshot snapshot, clears_statements java snapshot, rfl⟩)
  | parseFails => exact Or.inr (Or.inr ⟨_, .exit .parseFailed, clears_exit _, rfl⟩)
  | wasCancelled => exact Or.inr (Or.inr ⟨_, .exit .wasCancelled, clears_exit _, rfl⟩)
  | _ => exact Or.inr (Or.inl ⟨rfl, by simp⟩)

theorem advance_eq_some (advanced : this.advance java = some next) : ∃ call statement rest, this.call = some call ∧
    call.remaining = statement :: rest ∧ this.execute java call rest statement = some next := by
  unfold advance at advanced
  split at advanced
  · cases advanced
  next call called =>
    split at advanced
    · cases advanced
    next statement rest remaining => exact ⟨call, statement, rest, called, remaining, advanced⟩

-- What the publisher and the callers of `cancelProcessConfig` leave alone.
structure KeepsCall (this next : Handler) : Prop where
  call : next.call = this.call
  ended : next.ended = this.ended
  settings : next.settings = this.settings
  isProcessing : next.isProcessing = this.isProcessing
  publishStatusQueue : next.publishStatusQueue = true → this.publishStatusQueue = true

-- What the publisher does next. It gives up a list that is not valid, that it cannot mark, or that
-- nobody waits for.
inductive Worked (this : Handler) : Event → Handler → Prop where
  | takes (certificateDataList : List CertificateData) (working : this.worker = .taking) :
    Worked this (.take certificateDataList) { this with worker := .checking certificateDataList }
  | validates (certificateDataList : List CertificateData) (json : JsonNode)
    (working : this.worker = .checking certificateDataList) (set : this.settings.deliveryServicesJson = some json)
    (valid : CertificateChecker.certificatesAreValid certificateDataList json = some true) :
    Worked this .certificatesAreValid { this with worker := .marking certificateDataList }
  | marks (certificateDataList : List CertificateData) (hasX509Cert : List (String × Bool))
    (working : this.worker = .marking certificateDataList) :
    Worked this .setHasX509Cert { this with worker := .publishing certificateDataList, hasX509Cert }
  | publishes (certificateDataList : List CertificateData) (succeeds : Bool)
    (working : this.worker = .publishing certificateDataList) :
    Worked this (.publishCertificateList succeeds) { this with
      worker := .polling certificateDataList
      published := if succeeds then this.published ++ [certificateDataList] else this.published }
  | polls (certificateDataList : List CertificateData) (working : this.worker = .polling certificateDataList)
    (waiting : this.publishStatusQueue = true) :
    Worked this .poll { this with worker := .taking, publishStatusQueue := false }
  | givesUp (event : Event) : Worked this event { this with worker := .taking }

theorem workerStep_worked {event : Event} (steps : this.workerStep this.worker event = some next) :
    Worked this event next := by
  cases working : this.worker with
  | taking =>
    cases event <;> simp only [working, workerStep] at steps <;> cases steps
    exact .takes _ working
  | checking certificateDataList =>
    cases event <;> simp only [working, workerStep] at steps <;> try cases steps
    split at steps <;> cases steps
    next valid =>
      obtain ⟨json, set, valid⟩ := Option.bind_eq_some_iff.mp valid
      exact .validates _ json working set valid
    · exact .givesUp _
  | marking certificateDataList =>
    cases event <;> simp only [working, workerStep] at steps <;> try cases steps
    split at steps <;> cases steps
    · exact .givesUp _
    · exact .marks _ _ working
  | publishing certificateDataList =>
    cases event <;> simp only [working, workerStep] at steps <;> cases steps
    exact .publishes _ _ working
  | polling certificateDataList =>
    cases event <;> simp only [working, workerStep] at steps <;> try cases steps
    · split at steps <;> cases steps
      next waiting => exact .polls _ working waiting
    · split at steps <;> cases steps
      exact .givesUp _

theorem Worked.keeps {event : Event} (worked : Worked this event next) :
    KeepsCall this next ∧ next.cancelled = this.cancelled := by
  cases worked with
  | polls certificateDataList working waiting => exact ⟨⟨rfl, rfl, rfl, rfl, fun token => by cases token⟩, rfl⟩
  | _ => exact ⟨⟨rfl, rfl, rfl, rfl, id⟩, rfl⟩

theorem fails_eq_some {e : ProcessException} (failed : this.fails e = some next) :
    ∃ clock snapshot u rest, this.call = some ⟨clock, .update snapshot u :: rest⟩ ∧ u.calls = true ∧
      e.isParseException = false ∧ next = this.endCall (.threw e) := by
  unfold fails at failed
  split at failed
  next clock snapshot u rest called =>
    split at failed
    next may =>
      simp only [Bool.and_eq_true, Bool.not_eq_true'] at may
      exact ⟨clock, snapshot, u, rest, called, may.1, may.2, (Option.some.inj failed).symm⟩
    · cases failed
  · cases failed

theorem interrupt_eq_some (interrupted : this.interrupt = some next) :
    ∃ clock rest, this.call = some ⟨clock, .putPublishStatus :: rest⟩ ∧ next = this.goOn ⟨clock, rest⟩ rest := by
  unfold interrupt at interrupted
  split at interrupted
  next clock rest called => exact ⟨clock, rest, called, (Option.some.inj interrupted).symm⟩
  · cases interrupted

-- What a step can do.
inductive Stepped (java : Java) (this : Handler) : Event → Handler → Prop where
  | begins (jsonStr : Option String) (clock : String → Nat → StatTracker.InitialClock) (idle : this.call = none) :
    Stepped java this (.processConfig jsonStr clock) (this.goOn ⟨clock, []⟩ (entryStatements jsonStr))
  | executes (call : Call) (statement : Statement) (rest : List Statement) (next : Handler)
    (called : this.call = some call) (remaining : call.remaining = statement :: rest)
    (executed : this.execute java call rest statement = some next) : Stepped java this .advance next
  | fails (e : ProcessException) (clock : String → Nat → StatTracker.InitialClock) (snapshot : Snapshot) (u : Update)
    (rest : List Statement) (called : this.call = some ⟨clock, .update snapshot u :: rest⟩) (calls : u.calls = true)
    (other : e.isParseException = false) : Stepped java this (.fails e) (this.endCall (.threw e))
  | interrupted (clock : String → Nat → StatTracker.InitialClock) (rest : List Statement)
    (called : this.call = some ⟨clock, .putPublishStatus :: rest⟩) :
    Stepped java this .interrupt (this.goOn ⟨clock, rest⟩ rest)
  | other (event : Event) (next : Handler) (keeps : KeepsCall this next)
    (cancelled : event = .setCancelled ∨ next.cancelled = this.cancelled) : Stepped java this event next

theorem Worked.stepped {event : Event} (worked : Worked this event next) : Stepped java this event next :=
  .other event next worked.keeps.1 (Or.inr worked.keeps.2)

theorem stepped {event : Event} (steps : this.step java event = some next) : Stepped java this event next := by
  cases event with
  | processConfig jsonStr clock =>
    simp only [step] at steps
    split at steps
    next idle => exact Option.some.inj steps ▸ .begins jsonStr clock idle
    · cases steps
  | advance =>
    obtain ⟨call, statement, rest, called, remaining, executed⟩ := advance_eq_some steps
    exact .executes call statement rest next called remaining executed
  | fails e =>
    obtain ⟨clock, snapshot, u, rest, called, calls, other, rfl⟩ := fails_eq_some steps
    exact .fails e clock snapshot u rest called calls other
  | interrupt =>
    obtain ⟨clock, rest, called, rfl⟩ := interrupt_eq_some steps
    exact .interrupted clock rest called
  | isProcessing =>
    simp only [step] at steps
    split at steps <;> cases steps <;> exact .other _ _ ⟨rfl, rfl, rfl, rfl, id⟩ (Or.inr rfl)
  | setCancelled =>
    simp only [step] at steps
    split at steps <;> cases steps
    exact .other _ _ ⟨rfl, rfl, rfl, rfl, id⟩ (Or.inl rfl)
  | take _ => exact (workerStep_worked steps).stepped
  | certificatesAreValid => exact (workerStep_worked steps).stepped
  | setHasX509Cert => exact (workerStep_worked steps).stepped
  | publishCertificateList _ => exact (workerStep_worked steps).stepped
  | poll => exact (workerStep_worked steps).stepped
  | pollTimeout => exact (workerStep_worked steps).stepped

theorem Positioned.step {event : Event} (positioned : this.Positioned java) (steps : this.step java event = some next) :
    next.Positioned java := by
  cases stepped steps with
  | begins jsonStr clock idle =>
    rintro call ⟨⟩
    exact ⟨_, .entry jsonStr, List.suffix_refl _⟩
  | executes call statement rest next called remaining executed =>
    obtain ⟨program, isProgram, suffix⟩ := positioned call called
    rw [remaining] at suffix
    intro call' called'
    rcases (execute_executed executed).call with ⟨ended, _⟩ | ⟨passed, _⟩ | ⟨program', isProgram', _, turned⟩
    · simp [ended] at called'
    · obtain rfl := Option.some.inj (passed.symm.trans called')
      exact ⟨program, isProgram, (List.suffix_cons _ _).trans suffix⟩
    · obtain rfl := Option.some.inj (turned.symm.trans called')
      exact ⟨program', isProgram', List.suffix_refl _⟩
  | fails e clock snapshot u rest called calls other => rintro call ⟨⟩
  | interrupted clock rest called =>
    obtain ⟨program, isProgram, suffix⟩ := positioned _ called
    rintro call ⟨⟩
    exact ⟨program, isProgram, (List.suffix_cons _ _).trans suffix⟩
  | other event next keeps cancelled =>
    intro call called
    rw [keeps.call] at called
    exact positioned call called

end Handler

end TrafficControl.TrafficRouter.ConfigHandler
