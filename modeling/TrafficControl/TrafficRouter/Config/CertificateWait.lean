import TrafficControl.TrafficRouter.Config.ProcessingSteps

set_option autoImplicit false

namespace TrafficControl.TrafficRouter.ConfigHandler

open Runs

variable {java : Java} {snapshot : Snapshot} {remaining rest : List Statement} {json : JsonNode}

theorem IsProgram.snapshot_of_mem {program : List Statement} {u : Update} (isProgram : IsProgram java program)
    (member : .update snapshot u ∈ program) : program = statements java snapshot := by
  cases isProgram with
  | entry jsonStr => exact absurd member (not_mem_entry rfl (Or.inl ⟨snapshot, u, rfl⟩))
  | exit exit => cases exits_of_mem member
  | snapshot other =>
    rcases mem_statements member with ⟨u', same⟩ | same | same | same | exits
    · cases same
      rfl
    · cases same
    · cases same
    · cases same
    · cases exits_of_mem exits

/-- What a call ends with comes after everything else. -/
theorem exits_last (java : Java) (snapshot : Snapshot) :
    (statements java snapshot).Pairwise fun first second => first.exits = true → second.exits = true := by
  rw [statements_eq]
  refine List.pairwise_append.mpr ⟨?_, ?_, fun _ _ second exits _ => exits_of_mem exits⟩
  · have inside : ∀ first ∈ updatesBeforeWait.map (.update snapshot) ++ waitStatements java snapshot ++
        .checkCancelled :: updatesAfterWait.map (.update snapshot), first.exits = false := by
      unfold waitStatements
      split_ifs <;> simp [updatesBeforeWait, updatesAfterWait, Statement.exits]
    exact List.pairwise_of_forall_mem_list fun first member _ _ exits => by simp [inside first member] at exits
  · exact List.pairwise_of_forall_mem_list fun _ _ second member _ => exits_of_mem member

theorem update_notMem_of_exits {statement : Statement} {u : Update}
    (suffix : statement :: rest <:+ statements java snapshot) (exits : statement.exits = true) :
    .update snapshot u ∉ rest := by
  intro member
  have ordered := (exits_last java snapshot).sublist suffix.sublist
  cases (List.pairwise_cons.mp ordered).1 _ member exits

theorem waitStatements_eq (https : snapshot.httpsDeliveryServices java ≠ []) :
    waitStatements java snapshot = [.putPublishStatus, .awaitCertificates] := by
  simp [waitStatements, https]

theorem put_after_set (https : snapshot.httpsDeliveryServices java ≠ [])
    (suffix : .update snapshot .setDeliveryServicesJson :: rest <:+ statements java snapshot) :
    .putPublishStatus ∈ rest := by
  have later := suffix_of_cons_suffix (updatesBeforeWait.map (.update snapshot))
    (waitStatements java snapshot ++ .checkCancelled :: applyStatements snapshot) (by rwa [← List.append_assoc])
    (by simp [waitStatements_eq https, applyStatements, updatesAfterWait, exitStatements])
  exact later.subset (by simp [waitStatements_eq https])

theorem await_after_put (https : snapshot.httpsDeliveryServices java ≠ [])
    (suffix : .putPublishStatus :: rest <:+ statements java snapshot) : .awaitCertificates ∈ rest := by
  have later := suffix_of_cons_suffix (updatesBeforeWait.map (.update snapshot) ++ [.putPublishStatus])
    (.awaitCertificates :: .checkCancelled :: applyStatements snapshot)
    (by simpa [statements, waitStatements_eq https] using suffix) (by simp [applyStatements, exitStatements])
  exact later.subset List.mem_cons_self

theorem check_after_await (suffix : .awaitCertificates :: rest <:+ statements java snapshot) :
    .checkCancelled ∈ rest := by
  have later := suffix_of_cons_suffix (updatesBeforeWait.map (.update snapshot) ++ waitStatements java snapshot)
    (.checkCancelled :: applyStatements snapshot) suffix (by simp [applyStatements, exitStatements])
  exact later.subset List.mem_cons_self

-- The list in hand that has passed the check.
def Worker.checked : Worker → Option (List CertificateData)
  | taking => none
  | checking _ => none
  | marking certificateDataList => some certificateDataList
  | publishing certificateDataList => some certificateDataList
  | polling certificateDataList => some certificateDataList

namespace Handler

variable {this next : Handler}

def Published (this : Handler) (json : JsonNode) : Prop :=
  ∃ certificateDataList ∈ this.published, CertificateChecker.certificatesAreValid certificateDataList json = some true

-- Whatever the publisher will acknowledge next is good for these delivery services.
def Vouches (this : Handler) (json : JsonNode) : Prop :=
  ∀ certificateDataList, this.worker.checked = some certificateDataList →
    CertificateChecker.certificatesAreValid certificateDataList json = some true ∧
      (this.worker = .polling certificateDataList → certificateDataList ∈ this.published)

/-- A list that the publisher has checked before the token is put is good for the delivery services
now set, the put is not interrupted, and no publication fails while the token waits. -/
def Attended (this : Handler) : Event → Prop
  | .advance => ∀ call rest json, this.call = some call → call.remaining = .putPublishStatus :: rest →
      this.settings.deliveryServicesJson = some json → this.Vouches json
  | .interrupt => False
  | .publishCertificateList succeeds => succeeds = true ∨ this.publishStatusQueue = false
  | _ => True

-- The call is past the check of `cancelled` and has yet to apply this snapshot.
def Applies (this : Handler) (snapshot : Snapshot) : Prop :=
  ∃ call, this.call = some call ∧ call.remaining <:+ applyStatements snapshot ∧
    .update snapshot .setLastSnapshotTimestamp ∈ call.remaining

def Certified (java : Java) (this : Handler) : Prop :=
  ∀ snapshot, this.Applies snapshot → snapshot.httpsDeliveryServices java ≠ [] →
    ∃ json, snapshot.getSection "deliveryServices" = .ok json ∧ this.Published json

structure Acknowledged (this : Handler) (json : JsonNode) : Prop where
  waiting : this.publishStatusQueue = true → this.Vouches json
  released : this.publishStatusQueue = false → this.Published json

-- What is known of the certificates while a call works through the statements of a snapshot.
inductive Stage (this : Handler) (snapshot : Snapshot) (remaining : List Statement) : Prop where
  | preparing (sets : .update snapshot .setDeliveryServicesJson ∈ remaining)
  | announcing (json : JsonNode) (read : snapshot.getSection "deliveryServices" = .ok json)
    (set : this.settings.deliveryServicesJson = some json) (puts : .putPublishStatus ∈ remaining)
  | waiting (json : JsonNode) (read : snapshot.getSection "deliveryServices" = .ok json)
    (set : this.settings.deliveryServicesJson = some json) (awaits : .awaitCertificates ∈ remaining)
    (acknowledged : this.Acknowledged json)
  | released (json : JsonNode) (read : snapshot.getSection "deliveryServices" = .ok json)
    (checks : .checkCancelled ∈ remaining) (free : this.cancelled = true ∨ this.Published json)
  | applying (json : JsonNode) (read : snapshot.getSection "deliveryServices" = .ok json)
    (published : this.Published json)

def Waits (java : Java) (this : Handler) : Prop :=
  ∀ call snapshot, this.call = some call → .update snapshot .setLastSnapshotTimestamp ∈ call.remaining →
    snapshot.httpsDeliveryServices java ≠ [] → this.Stage snapshot call.remaining

theorem Published.grow {this next : Handler} (published : this.Published json)
    (grows : ∀ certificateDataList ∈ this.published, certificateDataList ∈ next.published) : next.Published json := by
  obtain ⟨certificateDataList, member, valid⟩ := published
  exact ⟨certificateDataList, grows _ member, valid⟩

theorem Worked.published {event : Event} (worked : Worked this event next) :
    ∀ certificateDataList ∈ this.published, certificateDataList ∈ next.published := by
  intro certificateDataList member
  cases worked with
  | publishes _ succeeds working =>
    dsimp only
    split_ifs
    · exact List.mem_append_left _ member
    · exact member
  | _ => exact member

/-- The publisher acknowledges lists that are good for the delivery services that are set. -/
theorem Acknowledged.worked {event : Event} (acknowledged : this.Acknowledged json)
    (set : this.settings.deliveryServicesJson = some json) (attended : this.Attended event)
    (worked : Worked this event next) : next.Acknowledged json := by
  have grows := worked.published
  refine ⟨?_, ?_⟩
  · intro token polled checked
    cases worked with
    | takes | givesUp => cases checked
    | validates certificateDataList json' working set' valid =>
      obtain rfl := Option.some.inj (set.symm.trans set')
      cases checked
      exact ⟨valid, fun polling => by cases polling⟩
    | marks certificateDataList hasX509Cert working =>
      cases checked
      have vouched := acknowledged.waiting token polled (by rw [working]; rfl)
      exact ⟨vouched.1, fun polling => by cases polling⟩
    | publishes certificateDataList succeeds working =>
      cases checked
      have vouched := acknowledged.waiting token polled (by rw [working]; rfl)
      obtain rfl : succeeds = true := attended.resolve_right fun empty => by simp [empty] at token
      exact ⟨vouched.1, fun _ => List.mem_append_right _ List.mem_cons_self⟩
    | polls certificateDataList working waiting => cases token
  · intro empty
    cases worked with
    | polls certificateDataList working waiting =>
      have vouched := acknowledged.waiting waiting certificateDataList (by rw [working]; rfl)
      exact ⟨certificateDataList, vouched.2 working, vouched.1⟩
    | _ => exact (acknowledged.released empty).grow grows

/-- What the other threads do leaves a call at its stage. -/
theorem Stage.keeps (stage : this.Stage snapshot remaining) (settings : next.settings = this.settings)
    (published : ∀ certificateDataList ∈ this.published, certificateDataList ∈ next.published)
    (cancelled : this.cancelled = true → next.cancelled = true)
    (acknowledged : ∀ json, this.settings.deliveryServicesJson = some json → this.Acknowledged json →
      next.Acknowledged json) : next.Stage snapshot remaining := by
  cases stage with
  | preparing sets => exact .preparing sets
  | announcing json read set puts => exact .announcing json read (settings ▸ set) puts
  | waiting json read set awaits acked => exact .waiting json read (settings ▸ set) awaits (acknowledged json set acked)
  | released json read checks free => exact .released json read checks (free.imp cancelled fun pub => pub.grow published)
  | applying json read pub => exact .applying json read (pub.grow published)

theorem Acknowledged.same (acknowledged : this.Acknowledged json) (token : next.publishStatusQueue = this.publishStatusQueue)
    (worker : next.worker = this.worker) (published : next.published = this.published) : next.Acknowledged json := by
  refine ⟨fun waiting => ?_, fun empty => ?_⟩
  · have vouches := acknowledged.waiting (token ▸ waiting)
    unfold Vouches
    rwa [worker, published]
  · unfold Published
    rw [published]
    exact acknowledged.released (token ▸ empty)

theorem effect_json {clock : String → Nat → StatTracker.InitialClock} {u : Update} {change : Settings → Settings}
    {settings : Settings} (effected : u.effect java clock snapshot = .ok change)
    (read : snapshot.getSection "deliveryServices" = .ok json)
    (set : u = .setDeliveryServicesJson ∨ settings.deliveryServicesJson = some json) :
    (change settings).deliveryServicesJson = some json := by
  by_cases sets : u = .setDeliveryServicesJson
  · subst sets
    rw [Update.effect, read] at effected
    cases effected
    rfl
  · rw [(Update.effect_unchanged effected settings).deliveryServicesJson (by simpa using Ne.symm sets)]
    exact set.resolve_left sets

theorem Stage.updates {clock : String → Nat → StatTracker.InitialClock} {u : Update} {change : Settings → Settings}
    (https : snapshot.httpsDeliveryServices java ≠ [])
    (stage : this.Stage snapshot (.update snapshot u :: rest)) (suffix : .update snapshot u :: rest <:+ statements java snapshot)
    (effected : u.effect java clock snapshot = .ok change) (call : Call) :
    { this.goOn call rest with settings := change this.settings }.Stage snapshot rest := by
  cases stage with
  | preparing sets =>
    rcases List.mem_cons.mp sets with here | later
    · cases here
      obtain ⟨json, read, rfl⟩ := ExceptList.map_ok effected
      exact .announcing json read rfl (put_after_set https suffix)
    · exact .preparing later
  | announcing json read set puts =>
    exact .announcing json read (effect_json effected read (Or.inr set)) (List.mem_of_ne_of_mem (by simp) puts)
  | waiting json read set awaits acknowledged =>
    exact .waiting json read (effect_json effected read (Or.inr set)) (List.mem_of_ne_of_mem (by simp) awaits)
      (acknowledged.same rfl rfl rfl)
  | released json read checks free =>
    exact .released json read (List.mem_of_ne_of_mem (by simp) checks) free
  | applying json read published => exact .applying json read published

theorem Stage.puts {call : Call} (https : snapshot.httpsDeliveryServices java ≠ [])
    (stage : this.Stage snapshot (.putPublishStatus :: rest)) (suffix : .putPublishStatus :: rest <:+ statements java snapshot)
    (vouches : ∀ json, this.settings.deliveryServicesJson = some json → this.Vouches json) :
    { this.goOn call rest with publishStatusQueue := true }.Stage snapshot rest := by
  have waits (json : JsonNode) (set : this.settings.deliveryServicesJson = some json) :
      { this.goOn call rest with publishStatusQueue := true }.Acknowledged json :=
    ⟨fun _ => vouches json set, fun empty => by cases empty⟩
  cases stage with
  | preparing sets => exact .preparing (List.mem_of_ne_of_mem (by simp) sets)
  | announcing json read set puts => exact .waiting json read set (await_after_put https suffix) (waits json set)
  | waiting json read set awaits acknowledged =>
    exact .waiting json read set (List.mem_of_ne_of_mem (by simp) awaits) (waits json set)
  | released json read checks free =>
    exact .released json read (List.mem_of_ne_of_mem (by simp) checks) free
  | applying json read published => exact .applying json read published

theorem Stage.awaits {call : Call} (stage : this.Stage snapshot (.awaitCertificates :: rest))
    (suffix : .awaitCertificates :: rest <:+ statements java snapshot)
    (free : this.cancelled = true ∨ this.publishStatusQueue = false) : (this.goOn call rest).Stage snapshot rest := by
  cases stage with
  | preparing sets => exact .preparing (List.mem_of_ne_of_mem (by simp) sets)
  | announcing json read set puts =>
    exact .announcing json read set (List.mem_of_ne_of_mem (by simp) puts)
  | waiting json read set awaits acknowledged =>
    exact .released json read (check_after_await suffix) (free.imp id acknowledged.released)
  | released json read checks free =>
    exact .released json read (List.mem_of_ne_of_mem (by simp) checks) free
  | applying json read published => exact .applying json read published

theorem Stage.checks {call : Call} (stage : this.Stage snapshot (.checkCancelled :: rest))
    (uncancelled : this.cancelled ≠ true) : (this.goOn call rest).Stage snapshot rest := by
  cases stage with
  | preparing sets => exact .preparing (List.mem_of_ne_of_mem (by simp) sets)
  | announcing json read set puts =>
    exact .announcing json read set (List.mem_of_ne_of_mem (by simp) puts)
  | waiting json read set awaits acknowledged =>
    exact .waiting json read set (List.mem_of_ne_of_mem (by simp) awaits) (acknowledged.same rfl rfl rfl)
  | released json read checks free => exact .applying json read (free.resolve_left uncancelled)
  | applying json read published => exact .applying json read published

/-- A statement that leaves the call in the list takes it from stage to stage. -/
theorem Stage.executes {call : Call} {statement : Statement} (https : snapshot.httpsDeliveryServices java ≠ [])
    (stage : this.Stage snapshot (statement :: rest)) (suffix : statement :: rest <:+ statements java snapshot)
    (attended : statement = .putPublishStatus → ∀ json, this.settings.deliveryServicesJson = some json → this.Vouches json)
    (executed : this.execute java call rest statement = some next)
    (passed : next.call = some { call with remaining := rest })
    (applies : .update snapshot .setLastSnapshotTimestamp ∈ rest) : next.Stage snapshot rest := by
  rcases mem_statements (suffix.subset List.mem_cons_self) with ⟨u, rfl⟩ | rfl | rfl | rfl | exits
  · cases execute_executed executed with
    | parseFails _ _ e =>
      have turned : exitStatements .parseFailed = rest := congrArg Call.remaining (Option.some.inj passed)
      cases exits_of_mem (turned ▸ applies)
    | throws => cases passed
    | updates _ _ change effected => exact stage.updates https suffix effected call
  · cases execute_executed executed with
    | puts empty => exact stage.puts https suffix (attended rfl)
  · cases execute_executed executed with
    | awaits free => exact stage.awaits suffix free
  · cases execute_executed executed with
    | wasCancelled cancelled =>
      have turned : exitStatements .wasCancelled = rest := congrArg Call.remaining (Option.some.inj passed)
      cases exits_of_mem (turned ▸ applies)
    | passes uncancelled => exact stage.checks uncancelled
  · exact absurd applies (update_notMem_of_exits suffix (exits_of_mem exits))

structure Guarded (java : Java) (this : Handler) : Prop where
  positioned : this.Positioned java
  waits : this.Waits java

theorem Guarded.executes {call : Call} {statement : Statement} (guarded : this.Guarded java)
    (attended : this.Attended .advance) (called : this.call = some call) (remaining : call.remaining = statement :: rest)
    (executed : this.execute java call rest statement = some next) : next.Waits java := by
  obtain ⟨program, isProgram, suffix⟩ := guarded.positioned call called
  rw [remaining] at suffix
  intro call' snapshot called' applies https
  rcases (execute_executed executed).call with ⟨ended, _⟩ | ⟨passed, _⟩ | ⟨program', isProgram', _, turned⟩
  · simp [ended] at called'
  · obtain rfl := Option.some.inj (passed.symm.trans called')
    have ahead : .update snapshot .setLastSnapshotTimestamp ∈ statement :: rest := List.mem_cons_of_mem _ applies
    obtain rfl := isProgram.snapshot_of_mem (suffix.subset ahead)
    have stage := guarded.waits call snapshot called (remaining ▸ ahead) https
    rw [remaining] at stage
    refine stage.executes https suffix ?_ executed passed applies
    rintro rfl json set
    exact attended call rest json called remaining set
  · obtain rfl := Option.some.inj (turned.symm.trans called')
    obtain rfl := isProgram'.snapshot_of_mem applies
    exact .preparing (by simp [statements, updatesBeforeWait])

theorem Waits.worked {event : Event} (waits : this.Waits java) (attended : this.Attended event)
    (worked : Worked this event next) : next.Waits java := by
  have keeps := worked.keeps
  intro call snapshot called applies https
  refine (waits call snapshot (keeps.1.call ▸ called) applies https).keeps keeps.1.settings worked.published
    (fun cancelled => keeps.2.trans cancelled) ?_
  intro json set acknowledged
  exact acknowledged.worked set attended worked

theorem Waits.cancels {cancelled : Bool} {cancelling : Nat} (waits : this.Waits java)
    (kept : this.cancelled = true → cancelled = true) : { this with cancelled, cancelling }.Waits java := by
  intro call snapshot called applies https
  exact (waits call snapshot called applies https).keeps rfl (fun _ member => member) kept
    fun _ _ acknowledged => acknowledged.same rfl rfl rfl

theorem Waits.step {event : Event} (guarded : this.Guarded java) (attended : this.Attended event)
    (steps : this.step java event = some next) : next.Waits java := by
  cases event with
  | processConfig jsonStr clock =>
    simp only [Handler.step] at steps
    split at steps <;> cases steps
    rintro call snapshot ⟨⟩ applies
    exact absurd applies (not_mem_entry rfl (Or.inl ⟨_, _, rfl⟩))
  | advance =>
    obtain ⟨call, statement, rest, called, remaining, executed⟩ := advance_eq_some steps
    exact guarded.executes attended called remaining executed
  | fails e =>
    obtain ⟨clock, snapshot, u, rest, called, calls, other, rfl⟩ := fails_eq_some steps
    rintro call snapshot ⟨⟩
  | interrupt => exact absurd attended id
  | isProcessing =>
    simp only [Handler.step] at steps
    split at steps <;> cases steps
    · exact guarded.waits.cancels id
    · exact guarded.waits
  | setCancelled =>
    simp only [Handler.step] at steps
    split at steps <;> cases steps
    exact guarded.waits.cancels fun _ => rfl
  | take _ => exact guarded.waits.worked attended (workerStep_worked steps)
  | certificatesAreValid => exact guarded.waits.worked attended (workerStep_worked steps)
  | setHasX509Cert => exact guarded.waits.worked attended (workerStep_worked steps)
  | publishCertificateList _ => exact guarded.waits.worked attended (workerStep_worked steps)
  | poll => exact guarded.waits.worked attended (workerStep_worked steps)
  | pollTimeout => exact guarded.waits.worked attended (workerStep_worked steps)

theorem Guarded.step {event : Event} (guarded : this.Guarded java) (attended : this.Attended event)
    (steps : this.step java event = some next) : next.Guarded java :=
  ⟨guarded.positioned.step steps, Waits.step guarded attended steps⟩

theorem Waits.certified (waits : this.Waits java) : this.Certified java := by
  rintro snapshot ⟨call, called, suffix, applies⟩ https
  have absent : ∀ statement ∈ call.remaining, statement ∈ applyStatements snapshot := fun _ member => suffix.subset member
  cases waits call snapshot called applies https with
  | preparing sets => simpa [applyStatements, updatesAfterWait, exitStatements] using absent _ sets
  | announcing json read set puts => simpa [applyStatements, exitStatements] using absent _ puts
  | waiting json read set awaits acknowledged => simpa [applyStatements, exitStatements] using absent _ awaits
  | released json read checks free => simpa [applyStatements, exitStatements] using absent _ checks
  | applying json read published => exact ⟨json, read, published⟩

theorem https_certified {events : List Event} {last : Handler} (idle : this.call = none)
    (attended : Throughout (step java) Attended this events) (ran : run (step java) this events = some last) :
    last.Certified java := by
  have start : this.Guarded java :=
    ⟨fun call called => by simp [idle] at called, fun call _ called => by simp [idle] at called⟩
  exact (run_invariant (fun _ _ _ => Guarded.step) start attended ran).waits.certified

theorem applies_of_call {clock : String → Nat → StatTracker.InitialClock}
    (called : this.call = some ⟨clock, applyStatements snapshot⟩) : this.Applies snapshot :=
  ⟨_, called, List.suffix_refl _, by simp [applyStatements, updatesAfterWait]⟩

-- A snapshot without caches.
def emptySnapshot (date : Nat) (deliveryServices : JsonNode) : JsonNode := .object
  [("config", .object [("geolocation.polling.url", .text "geo"), ("coveragezone.polling.url", .text "czf")]),
    ("stats", .object [("date", .number (toString date)), ("tm_host", .text "ops")]),
    ("deliveryServices", deliveryServices), ("contentRouters", .object []), ("edgeLocations", .object []),
    ("contentServers", .object []),
    ("monitors", .object [("tm", .object [("fqdn", .text "tm.cdn"), ("status", .text "ONLINE")])])]

-- One delivery service that accepts HTTPS.
def httpsService : JsonNode := .object
  [("ds", .object [("coverageZoneOnly", .bool false), ("routingName", .text "edge"), ("sslEnabled", .bool true),
    ("protocol", .object [("acceptHttps", .bool true)]), ("domains", .array [.text "*.ds.cdn"]),
    ("matchsets", .array [.object [("protocol", .text "HTTP")]])])]

def reading : Java :=
  javaReading [("plain", emptySnapshot 1 (.object [])), ("https", emptySnapshot 2 httpsService)]

def httpsSnapshot : Snapshot :=
  let jo := emptySnapshot 2 httpsService
  ⟨jo, (jo.get "config").getD .null, (jo.get "stats").getD .null, 2⟩

theorem httpsSnapshot_https : httpsSnapshot.httpsDeliveryServices reading ≠ [] := by
  rintro ⟨⟩

def httpsCertificates : List CertificateData := [⟨some "ds", some "*.ds.cdn"⟩]

def toThePut : List Event := List.replicate 13 .advance

def publication (certificateDataList : List CertificateData) (succeeds : Bool) : List Event :=
  [.take certificateDataList, .certificatesAreValid, .setHasX509Cert, .publishCertificateList succeeds, .poll]

def pastTheCheck : List Event := List.replicate 2 .advance

theorem execute_worker {call : Call} {statement : Statement}
    (executed : this.execute java call rest statement = some next) : next.worker = this.worker := by
  cases execute_executed executed <;> rfl

/-- A call that is alone is attended. -/
theorem attended_advance (n : Nat) (alone : this.worker = .taking) :
    Throughout (step java) Attended this (List.replicate n .advance) := by
  induction n generalizing this with
  | zero => trivial
  | succ n ih =>
    refine ⟨fun _ _ _ _ _ _ _ checked => by simp [alone, Worker.checked] at checked, fun next steps => ?_⟩
    obtain ⟨call, statement, rest, called, remaining, executed⟩ := advance_eq_some steps
    exact ih ((execute_worker executed).trans alone)

def certifiedEvents : List Event :=
  .processConfig (some "https") stoppedClock :: toThePut ++ [.advance] ++ publication httpsCertificates true ++ pastTheCheck

theorem certifiedEvents_attended : Throughout (step reading) Attended new certifiedEvents := by
  refine throughout_append.mpr ⟨throughout_append.mpr ⟨?_, ?_⟩, ?_⟩
  · refine ⟨trivial, ?_⟩
    rintro _ ⟨⟩
    exact attended_advance 14 rfl
  · rintro _ ⟨⟩
    refine ⟨trivial, fun _ _ => ⟨trivial, fun _ _ => ⟨trivial, fun _ _ => ⟨Or.inl rfl, fun _ _ => ⟨trivial, ?_⟩⟩⟩⟩⟩
    exact fun _ _ => trivial
  · rintro _ ⟨⟩
    exact attended_advance 2 rfl

theorem https_certified_once :
    ∃ last, run (step reading) new certifiedEvents = some last ∧
      (∃ snapshot, last.Applies snapshot ∧ snapshot.httpsDeliveryServices reading ≠ []) ∧ last.Certified reading := by
  obtain ⟨last, ran, applies⟩ : ∃ last, run (step reading) new certifiedEvents = some last ∧
      ∃ snapshot, last.Applies snapshot ∧ snapshot.httpsDeliveryServices reading ≠ [] := by
    exact ⟨_, rfl, httpsSnapshot, applies_of_call rfl, httpsSnapshot_https⟩
  exact ⟨last, ran, applies, https_certified rfl certifiedEvents_attended ran⟩

theorem not_certified {last : Handler} {lists : List (List CertificateData)} (applies : last.Applies httpsSnapshot)
    (published : last.published = lists) (invalid : ∀ certificateDataList ∈ lists,
      CertificateChecker.certificatesAreValid certificateDataList httpsService = some false) :
    ¬last.Certified reading := by
  intro certified
  obtain ⟨json, read, list, member, valid⟩ := certified httpsSnapshot applies httpsSnapshot_https
  cases read
  cases (invalid list (published ▸ member)).symm.trans valid

/-- A list checked against the delivery services before, a list that was not published, and an
interrupted put each release the snapshot. -/
theorem https_uncertified :
    (∃ last, run (step reading) new (.processConfig (some "plain") stoppedClock :: List.replicate 29 .advance ++
        (publication [] true).take 4 ++ .processConfig (some "https") stoppedClock :: toThePut ++ [.advance, .poll] ++
        pastTheCheck) = some last ∧ last.cancelled = false ∧ last.Applies httpsSnapshot ∧ ¬last.Certified reading) ∧
    (∃ last, run (step reading) new (.processConfig (some "https") stoppedClock :: toThePut ++ [.advance] ++
        publication httpsCertificates false ++ pastTheCheck) = some last ∧ last.cancelled = false ∧
        last.Applies httpsSnapshot ∧ ¬last.Certified reading) ∧
    ∃ last, run (step reading) new (.processConfig (some "https") stoppedClock :: toThePut ++ [.interrupt] ++
        pastTheCheck) = some last ∧ last.cancelled = false ∧ last.Applies httpsSnapshot ∧ ¬last.Certified reading := by
  have none : ∀ certificateDataList ∈ ([[]] : List (List CertificateData)),
      CertificateChecker.certificatesAreValid certificateDataList httpsService = some false := by
    intro list member
    obtain rfl := List.mem_singleton.mp member
    rfl
  refine ⟨⟨_, rfl, rfl, applies_of_call rfl, ?_⟩, ⟨_, rfl, rfl, applies_of_call rfl, ?_⟩,
    _, rfl, rfl, applies_of_call rfl, ?_⟩
  · exact not_certified (applies_of_call rfl) rfl none
  · exact not_certified (applies_of_call rfl) rfl (List.forall_mem_nil _)
  · exact not_certified (applies_of_call rfl) rfl (List.forall_mem_nil _)

end Handler

end TrafficControl.TrafficRouter.ConfigHandler
