import TrafficControl.TrafficOps.Ort.ScriptSteps

set_option autoImplicit false

-- What the script does where Traffic Ops has the route of the API, and in the mode report.
namespace Ort

open Runs

section Route

variable {fleet : Fleet} {w u u' t : World} {events : List Event} {event : Event} {hostName : String}

/-- The route of the API tells of a revalidation whether or not it is separated. -/
theorem status_route (route : fleet.updateStatusRoute = true) (known : (u.ops.host? hostName).isSome = true) {status : Option UpdateStatus}
    (answered : fleet.updateStatus u.ops hostName = some status) :
    ∃ answer reval, status = some answer ∧ answer.revalPending = some reval ∧
      (u.ops.useRevalPending.elim (some false) boolean = some false → reval = false) := by
  rw [Fleet.updateStatus, if_pos route] at answered
  obtain ⟨statuses, listed, rfl⟩ := Option.map_eq_some_iff.mp answered
  obtain ⟨useReval, cast, rfl⟩ := Option.map_eq_some_iff.mp listed
  obtain ⟨s, found⟩ := Option.isSome_iff_exists.mp known
  have off : u.ops.useRevalPending.elim (some false) boolean = some false → useReval = false := fun none =>
    Option.some.inj (cast.symm.trans none)
  split
  · obtain ⟨first, rest, servers⟩ := List.exists_cons_of_ne_nil (List.ne_nil_of_mem (TrafficOps.host?_some found).1)
    rw [servers]
    exact ⟨_, _, rfl, rfl, fun none => by rw [off none, Bool.and_false]⟩
  · rw [List.head?_map, List.head?_filter, ← TrafficOps.host?, found]
    exact ⟨_, _, rfl, rfl, fun none => by rw [off none, Bool.and_false]⟩

/-- A run that takes the revalidation for separated is not held back. -/
def Stage.Unheld (revalInUse : Bool) : Stage → Prop
  | .waiting _ | .recheck _ => False
  | .checkUpdate | .dispersing _ => revalInUse = true
  | _ => True

theorem unheld_checkParents {p : Process} {status : UpdateStatus} (inUse : p.revalInUse = true) :
    (p.checkParents status).stage.Unheld (p.checkParents status).revalInUse := by
  unfold Process.checkParents
  rw [if_neg fun held => Bool.false_ne_true (held.2.2.1.symm.trans inUse)]
  trivial

theorem unheld_check {p q : Process} {answer : UpdateStatus} {reval : Bool} (told : answer.revalPending = some reval)
    (unheld : p.stage.Unheld p.revalInUse) (checked : p.check (some answer) = some (some q)) : q.stage.Unheld q.revalInUse := by
  unfold Process.check at checked
  split at checked
  · obtain rfl := Option.some.inj (Option.some.inj checked)
    have inUse : Option.any (fun status : UpdateStatus => status.revalPending.isSome) (some answer) = true := by rw [Option.any_some, told]; rfl
    exact inUse
  · next stage =>
    rw [stage] at unheld
    have next := Option.some.inj checked
    dsimp only at next
    split at next
    · obtain rfl := Option.some.inj next
      split
      · exact unheld
      · exact unheld_checkParents unheld
    · split at next <;> (obtain rfl := Option.some.inj next; trivial)
  · have next := Option.some.inj checked
    split at next
    · cases next
    · obtain rfl := Option.some.inj next
      trivial
  · have next := Option.some.inj checked
    split at next
    · obtain rfl := Option.some.inj next
      trivial
    · cases next
  · cases checked

theorem unheld_wake {p q : Process} (unheld : p.stage.Unheld p.revalInUse) (woke : p.wake = some q) : q.stage.Unheld q.revalInUse := by
  unfold Process.wake at woke
  split at woke
  · cases woke
  split at woke
  · next status stage =>
    rw [stage] at unheld
    obtain rfl := Option.some.inj woke
    exact unheld_checkParents unheld
  · next pending stage =>
    rw [stage] at unheld
    exact unheld.elim
  · cases woke

/-- Where Traffic Ops has the route of the API no run waits for parents, whatever is configured. -/
theorem never_waits (route : fleet.updateStatusRoute = true) (idle : w.processes hostName = none)
    (known : Throughout (World.step fleet) (fun u _ => (u.ops.host? hostName).isSome = true) w events)
    (ran : run (World.step fleet) w events = some t) {p : Process} (running : t.processes hostName = some p) :
    ∀ pending, p.stage ≠ .waiting pending ∧ p.stage ≠ .recheck pending := by
  have kept : ∀ u event u', (∀ p, u.processes hostName = some p → p.stage.Unheld p.revalInUse) → (u.ops.host? hostName).isSome = true →
      World.step fleet u event = some u' → ∀ p, u'.processes hostName = some p → p.stage.Unheld p.revalInUse := by
    intro u event u' unheld known stepped
    refine @process_step fleet u u' event hostName (fun _ p => p.stage.Unheld p.revalInUse) unheld (fun _ good => good) (fun settings _ => ?_)
      (fun p q status good answered checked => ?_) (fun p q good woke => unheld_wake good woke) (fun p q status good answered went => ?_)
      (fun p q event good worked going => ?_) stepped
    · dsimp only
      split <;> trivial
    · obtain ⟨answer, reval, rfl, told, -⟩ := status_route route known answered
      exact unheld_check told good checked
    · rcases Process.revalidate_cases went with rfl | ⟨-, -, rfl⟩ <;> exact good
    · cases worked with
      | @revalidated job worked next busy took rest =>
        simp only [Function.update_self] at going
        subst going
        obtain rfl := Option.some.inj (rest.resolve_left (Option.some_ne_none _))
        exact good
      | worked alone busy took =>
        simp only [Function.update_self] at going
        obtain ⟨job, -, rfl⟩ := Option.map_eq_some_iff.mp going
        trivial
  have unheld := run_invariant kept (fun p running => nomatch idle.symm.trans running) known ran p running
  intro pending
  constructor <;> (intro stage; rw [stage] at unheld; exact unheld)

/-- The parent has an update pending, and the cache would wait for it. -/
theorem never_waits_edge : ∃ t p, run (World.step (sampleFleet true)) sampleWorld ((sampleRun "edge" []).take 3) = some t ∧
    t.processes "edge" = some p ∧ ∀ pending, p.stage ≠ .waiting pending ∧ p.stage ≠ .recheck pending := by
  have going : ((run (World.step (sampleFleet true)) sampleWorld ((sampleRun "edge" []).take 3)).bind fun t => t.processes "edge").isSome = true := by
    decide +kernel
  obtain ⟨p, going⟩ := Option.isSome_iff_exists.mp going
  obtain ⟨t, ran, running⟩ := Option.bind_eq_some_iff.mp going
  exact ⟨t, p, ran, running, never_waits rfl rfl (by decide +kernel) ran running⟩

end Route

section Names

variable {fleet : Fleet} {ops : TrafficOps} {disk : String → Option Text} {hostName : String} {mode : Mode} {revalInUse : Bool}
variable {among : String → Prop} {job : Job} {event : JobEvent} {worked : Worked}

/-- A job that tracks only some files. -/
def Job.Names (among : String → Prop) : Job → Prop
  | .files _ _ _ tracker _ _ => ∀ t ∈ tracker, among t.name
  | _ => True

theorem copied_of_names {tracker : List Tracked} (names : ∀ t ∈ tracker, among t.name) {g : String} (other : ¬among g) :
    copied tracker disk g = disk g := by
  have none : (tracker.filter fun t => t.name = g) = [] :=
    List.filter_eq_nil_iff.mpr fun t member same => other (of_decide_eq_true same ▸ names t member)
  rw [copied, none, List.findSome?_nil, Option.none_or]

theorem replaced_names {tracker : List Tracked} (names : ∀ t ∈ tracker, among t.name) : ∀ t ∈ replaceCfgFiles tracker, among t.name := by
  intro t inside
  obtain ⟨old, member, rfl⟩ := List.mem_map.mp inside
  split <;> exact names old member

/-- A job writes the files that it tracks, and no others. -/
theorem Job.Names.step (names : job.Names among)
    (listed : ∀ file ∈ getCfgFileList mode revalInUse (ops.generated.configFiles hostName), among file.fnameOnDisk)
    (stepped : Job.step fleet ops disk hostName mode revalInUse job event = some worked) :
    (∀ next, worked.job = some next → next.Names among) ∧ ∀ g, ¬among g → worked.disk g = disk g := by
  cases took_of_step stepped with
  | listed own perm =>
    refine ⟨fun next same => ?_, fun _ _ => rfl⟩
    obtain rfl := Option.some.inj same
    exact fun t member => listed t.file (track_fresh (own ▸ member)).1
  | @audited info again name todo tracker _ _ prereqs read process own =>
    refine ⟨fun next same => ?_, fun _ _ => rfl⟩
    obtain rfl := Option.some.inj same
    intro t inside
    obtain ⟨old, member, rfl⟩ := List.mem_map.mp inside
    have same : (process old).1.name = old.name := own ▸ process_name.1
    exact same.symm ▸ names old member
  | reported report next =>
    refine ⟨fun job same => ?_, fun _ _ => rfl⟩
    obtain rfl := Option.some.inj same
    rcases next with rfl | ⟨-, rfl⟩
    · trivial
    · exact names
  | replaced active perm =>
    refine ⟨fun next same => ?_, fun g other => copied_of_names names other⟩
    obtain rfl := Option.some.inj same
    exact replaced_names names
  | finished active =>
    refine ⟨fun next same => ?_, fun g other => copied_of_names names other⟩
    obtain rfl := Option.some.inj same
    trivial
  | served failed after =>
    refine ⟨fun job same => ?_, fun _ _ => rfl⟩
    subst after
    split at same
    · cases same
    · obtain ⟨rfl, -⟩ := updateTrops_some same
      trivial
  | read answered =>
    refine ⟨fun job same => ?_, fun _ _ => rfl⟩
    obtain ⟨status, rfl, rfl⟩ := Option.map_eq_some_iff.mp same
    unfold sendUpdateToTrops
    split <;> trivial
  | posted => exact ⟨fun job same => (nomatch same), fun _ _ => rfl⟩

end Names

section Unaware

variable {fleet : Fleet} {w t : World} {events : List Event} {hostName : String}

/-- A run that takes the revalidation for separated, and finds none pending. -/
def Process.Unaware (p : Process) : Prop :=
  p.revalidation = none ∧
  match p.stage with
  | .checkRevalidate => True
  | .checkReval => p.settings.mode ≠ .revalidate
  | .working job => p.settings.mode ≠ .revalidate ∧ p.revalInUse = true ∧ job.Names (· ≠ "regex_revalidate.config")
  | _ => p.settings.mode ≠ .revalidate ∧ p.revalInUse = true

theorem unaware_checkParents {p : Process} {status : UpdateStatus} (alone : p.revalidation = none) (other : p.settings.mode ≠ .revalidate)
    (inUse : p.revalInUse = true) : (p.checkParents status).Unaware := by
  unfold Process.checkParents
  rw [if_neg fun held => Bool.false_ne_true (held.2.2.1.symm.trans inUse)]
  exact ⟨alone, other, inUse, trivial⟩

theorem unaware_check {p q : Process} {answer : UpdateStatus} (told : answer.revalPending = some false) (unaware : p.Unaware)
    (checked : p.check (some answer) = some (some q)) : q.Unaware := by
  obtain ⟨alone, rest⟩ := unaware
  unfold Process.check at checked
  split at checked
  · next stage =>
    rw [stage] at rest
    obtain rfl := Option.some.inj (Option.some.inj checked)
    exact ⟨alone, rest, by rw [Option.any_some, told]; rfl⟩
  · next stage =>
    rw [stage] at rest
    have next := Option.some.inj checked
    dsimp only at next
    split at next
    · obtain rfl := Option.some.inj next
      split
      · exact ⟨alone, rest⟩
      · exact unaware_checkParents alone rest.1 rest.2
    · split at next
      · obtain rfl := Option.some.inj next
        exact ⟨alone, rest⟩
      · obtain rfl := Option.some.inj next
        exact ⟨alone, rest.1, rest.2, trivial⟩
  · next pending stage =>
    rw [stage] at rest
    have next := Option.some.inj checked
    split at next
    · cases next
    · obtain rfl := Option.some.inj next
      exact ⟨alone, rest.1, rest.2, trivial⟩
  · have next := Option.some.inj checked
    have idle : checkRevalidateState (some answer) = updateTropsNotneeded := by simp [checkRevalidateState, told]
    rw [if_neg (by rw [idle]; decide)] at next
    cases next
  · cases checked

theorem unaware_wake {p q : Process} (unaware : p.Unaware) (woke : p.wake = some q) : q.Unaware := by
  obtain ⟨alone, rest⟩ := unaware
  unfold Process.wake at woke
  split at woke
  · cases woke
  split at woke
  · next status stage =>
    rw [stage] at rest
    obtain rfl := Option.some.inj woke
    exact unaware_checkParents alone rest.1 rest.2
  · next pending stage =>
    rw [stage] at rest
    obtain rfl := Option.some.inj woke
    exact ⟨alone, rest⟩
  · cases woke

/-- Traffic Ops knows the server, does not separate revalidations, and lists no other file under the name of theirs. -/
structure Together (hostName : String) (u : World) : Prop where
  known : (u.ops.host? hostName).isSome = true
  together : u.ops.useRevalPending.elim (some false) boolean = some false
  single : ∀ file ∈ u.ops.generated.configFiles hostName, file.getFilenameOnDisk = "regex_revalidate.config" →
    file.fnameOnDisk = "regex_revalidate.config"

theorem Together.listed {u : World} (apart : Together hostName u) {mode : Mode} (other : mode ≠ .revalidate) :
    ∀ file ∈ getCfgFileList mode true (u.ops.generated.configFiles hostName), file.fnameOnDisk ≠ "regex_revalidate.config" := by
  intro file member
  rw [getCfgFileList, if_neg other, if_pos rfl] at member
  obtain ⟨raw, kept, rfl⟩ := List.mem_map.mp member
  obtain ⟨listed, different⟩ := List.mem_filter.mp kept
  exact fun same => of_decide_eq_true different (apart.single raw listed same)

end Unaware

section Reports

variable {fleet : Fleet} {w t : World} {events : List Event}

/-- Runs in the mode report, and nobody else. -/
def Reports : Event → Prop
  | .start hostName settings => settings.mode = .report ∧ hostName ≠ "all"
  | .check _ | .wake _ | .revalidate _ | .job _ _ | .exit _ => True
  | _ => False

def Server.silent (s : Server) : Server := { s with revalPending := false }

/-- The servers but for their flags of revalidation. -/
def TrafficOps.silent (ops : TrafficOps) : List Server := ops.servers.map Server.silent

theorem host?_silent {ops : TrafficOps} {hostName : String} :
    (ops.host? hostName).map Server.silent = ops.silent.find? fun s => s.hostName = hostName := by
  rw [TrafficOps.silent, List.find?_map]
  rfl

/-- Posting the flag that a server has changes only its flag of revalidation. -/
theorem silent_postupdate {ops : TrafficOps} {hostName : String} {updated : Bool} {revalUpdated : Option Bool}
    (same : ∀ s, ops.host? hostName = some s → updated = s.updPending) : (ops.postupdate hostName updated revalUpdated).silent = ops.silent := by
  unfold TrafficOps.postupdate
  cases found : ops.host? hostName with
  | none => rfl
  | some server =>
    rw [Option.elim_some, TrafficOps.setFlags, TrafficOps.silent, TrafficOps.alter, List.map_map]
    refine List.map_congr_left fun s member => ?_
    rw [Function.comp_apply]
    split
    · next own =>
      obtain rfl := TrafficOps.server_unique member (TrafficOps.host?_some found).1 (of_decide_eq_true own)
      rw [Option.getD_some, same s found]
      rfl
    · rfl

/-- The job of a run in the mode report does not come to Traffic Ops. -/
def Job.Quiet : Job → Prop
  | .update | .post _ _ => False
  | _ => True

theorem Job.Quiet.step {ops : TrafficOps} {disk : String → Option Text} {hostName : String} {revalInUse : Bool} {job : Job} {event : JobEvent}
    {worked : Worked} (quiet : job.Quiet) (stepped : Job.step fleet ops disk hostName .report revalInUse job event = some worked) :
    (∀ next, worked.job = some next → next.Quiet) ∧ worked.ops = ops ∧ worked.disk = disk := by
  cases took_of_step stepped with
  | listed | audited => exact ⟨fun next same => Option.some.inj same ▸ trivial, rfl, rfl⟩
  | reported report next =>
    refine ⟨fun job same => ?_, rfl, rfl⟩
    obtain rfl := Option.some.inj same
    rcases next with rfl | ⟨-, rfl⟩ <;> trivial
  | replaced active | finished active => exact absurd rfl active
  | served failed after => exact ⟨fun job same => (nomatch (after.trans (if_pos rfl)).symm.trans same), rfl, rfl⟩
  | read | posted => exact quiet.elim

/-- A run in the mode report, whose revalidation posts the flag of update as it is. -/
structure Process.Reporting (flag : Option Bool) (p : Process) : Prop where
  mode : p.settings.mode = .report
  quiet : ∀ job, p.stage = .working job → job.Quiet
  names : ∀ job, p.revalidation = some job → job.Names (· = "regex_revalidate.config")
  posts : ∀ updated revalUpdated, p.revalidation = some (.post updated revalUpdated) → ∀ b, flag = some b → updated = b

theorem Process.Forward.reporting {flag : Option Bool} {p q : Process} (forward : p.Forward q) (reporting : p.Reporting flag) : q.Reporting flag := by
  refine ⟨forward.1 ▸ reporting.mode, fun job stage => ?_, fun job busy => reporting.names job (forward.2.1 ▸ busy),
    fun updated revalUpdated busy => reporting.posts updated revalUpdated (forward.2.1 ▸ busy)⟩
  obtain ⟨n, rfl⟩ := forward.2.2 job stage
  trivial

theorem listed_revalidate {revalInUse : Bool} (files : List ConfigFile) :
    ∀ file ∈ getCfgFileList .revalidate revalInUse files, file.fnameOnDisk = "regex_revalidate.config" := by
  intro file member
  rw [getCfgFileList, if_pos rfl] at member
  obtain ⟨raw, kept, rfl⟩ := List.mem_map.mp member
  have name : raw.fnameOnDisk = "regex_revalidate.config" := of_decide_eq_true (List.mem_filter.mp kept).2
  have whole : raw.getFilenameOnDisk = raw.fnameOnDisk := if_neg (by rw [name]; decide +kernel)
  exact whole.trans name

theorem posted_value {ops : TrafficOps} {disk : String → Option Text} {hostName : String} {revalInUse : Bool} {job : Job} {event : JobEvent}
    {worked : Worked} (ordinary : hostName ≠ "all") (stepped : Job.step fleet ops disk hostName .revalidate revalInUse job event = some worked)
    {updated revalUpdated : Bool} (next : worked.job = some (.post updated revalUpdated)) :
    (ops.host? hostName).map (·.updPending) = some updated := by
  cases took_of_step stepped with
  | listed | audited | replaced | finished => cases next
  | reported report => cases report
  | served failed after =>
    rw [after, if_neg nofun] at next
    cases (updateTrops_some next).1
  | @read status answered =>
    obtain ⟨status, rfl, sent⟩ := Option.map_eq_some_iff.mp next
    rw [sendUpdateToTrops, if_pos rfl] at sent
    rw [← (updateStatus_flags ordinary answered).1, Option.map_some, (Job.post.inj sent).1]
  | posted => cases next

theorem updPending_silent {ops other : TrafficOps} {hostName : String} (same : ops.silent = other.silent) :
    (ops.host? hostName).map Server.updPending = (other.host? hostName).map Server.updPending := by
  have servers := congrArg (Option.map Server.updPending) ((@host?_silent ops hostName).trans ((congrArg _ same).trans host?_silent.symm))
  rw [Option.map_map, Option.map_map] at servers
  exact servers

/-- What reports have left so far. -/
structure Reported (w u : World) : Prop where
  flags : u.ops.silent = w.ops.silent
  disk : ∀ hostName g, g ≠ "regex_revalidate.config" → u.disk hostName g = w.disk hostName g
  process : ∀ hostName p, u.processes hostName = some p →
    hostName ≠ "all" ∧ p.Reporting ((w.ops.host? hostName).map Server.updPending)

theorem Reported.workedOn {u u' : World} {hostName : String} {p : Process} {event : JobEvent} (reported : Reported w u)
    (reporting : hostName ≠ "all" ∧ p.Reporting ((w.ops.host? hostName).map Server.updPending)) (worked : WorkedOn fleet u hostName p event u') :
    u'.ops.silent = w.ops.silent ∧ (∀ g, g ≠ "regex_revalidate.config" → u'.disk hostName g = u.disk hostName g) ∧
      ∀ q, u'.processes hostName = some q → q.Reporting ((w.ops.host? hostName).map Server.updPending) := by
  obtain ⟨ordinary, good⟩ := reporting
  have flag := @updPending_silent u.ops w.ops hostName reported.flags
  cases worked with
  | @revalidated job worked next busy took rest =>
    obtain ⟨names, kept⟩ := (good.names job busy).step (listed_revalidate _) took
    simp only [Function.update_self]
    refine ⟨?_, kept, fun q going => ?_⟩
    · rcases Job.step_ops took with same | ⟨updated, revalUpdated, rfl, same⟩
      · rw [same, reported.flags]
      · rw [same, silent_postupdate fun s found => good.posts updated revalUpdated busy s.updPending ?_, reported.flags]
        rw [← flag, found, Option.map_some]
    · subst going
      obtain rfl := Option.some.inj (rest.resolve_left (Option.some_ne_none _))
      refine ⟨good.mode, good.quiet, names, fun updated revalUpdated next b value => ?_⟩
      exact Option.some.inj ((posted_value ordinary took next).symm.trans (flag.trans value))
  | worked alone busy took =>
    rw [good.mode] at took
    obtain ⟨quiet, ops, disk⟩ := (good.quiet _ busy).step took
    simp only [Function.update_self]
    refine ⟨ops ▸ reported.flags, fun g _ => congrFun disk g, fun q going => ?_⟩
    obtain ⟨job, rest, rfl⟩ := Option.map_eq_some_iff.mp going
    exact ⟨good.mode, fun other stage => Stage.working.inj stage ▸ quiet job rest, good.names, good.posts⟩

theorem Reported.ops {u u' : World} {event : Event} (reported : Reported w u) (reports : Reports event)
    (stepped : World.step fleet u event = some u') : u'.ops.silent = w.ops.silent := by
  cases event with
  | edit | queue | invalidate | setStatus | setUseReval => exact reports.elim
  | start other settings =>
    rw [World.step] at stepped
    split at stepped
    · cases stepped
    · exact Option.some.inj stepped ▸ reported.flags
  | check other | revalidate other =>
    obtain ⟨p, running, next⟩ := Option.bind_eq_some_iff.mp stepped
    obtain ⟨status, q, answered, went, rfl⟩ := answered_some next
    exact reported.flags
  | wake other =>
    obtain ⟨p, running, next⟩ := Option.bind_eq_some_iff.mp stepped
    obtain ⟨q, woke, rfl⟩ := Option.map_eq_some_iff.mp next
    exact reported.flags
  | job other event =>
    obtain ⟨p, running, next⟩ := Option.bind_eq_some_iff.mp stepped
    exact (reported.workedOn (reported.process other p running) (workedOn_of_workOn next)).1
  | exit other => exact Option.some.inj stepped ▸ reported.flags

theorem Reported.step {u u' : World} {event : Event} (reported : Reported w u) (reports : Reports event)
    (stepped : World.step fleet u event = some u') : Reported w u' := by
  refine ⟨reported.ops reports stepped, fun hostName g other => ?_, fun hostName => ?_⟩
  · rcases disk_step stepped with same | ⟨p, event, running, -, took⟩
    · exact (congrFun same g).trans (reported.disk hostName g other)
    · exact ((reported.workedOn (reported.process hostName p running) took).2.1 g other).trans (reported.disk hostName g other)
  · refine @process_step fleet u u' event hostName
      (fun _ p => hostName ≠ "all" ∧ p.Reporting ((w.ops.host? hostName).map Server.updPending)) (reported.process hostName) (fun _ good => good)
      (fun settings own => ?_) (fun p q status good answered checked => good.imp_right (Process.forward_check checked).reporting)
      (fun p q good woke => good.imp_right (Process.forward_wake woke).reporting) (fun p q status good answered went => ?_)
      (fun p q event good took going => ?_) stepped
    · subst own
      refine ⟨reports.2, reports.1, fun job stage => ?_, fun job busy => (nomatch busy), fun _ _ busy => nomatch busy⟩
      dsimp only at stage
      split at stage <;> cases stage
    · rcases Process.revalidate_cases went with rfl | ⟨-, -, rfl⟩
      · exact good
      · refine ⟨good.1, good.2.mode, good.2.quiet, fun job busy => ?_, fun _ _ busy => nomatch busy⟩
        exact Option.some.inj busy ▸ trivial
    · exact ⟨good.1, (reported.workedOn good took).2.2 q going⟩

/-- Runs in the mode report change no file but regex_revalidate.config, and no flag of update. -/
theorem report_only (idle : ∀ hostName, w.processes hostName = none) (reports : ∀ event ∈ events, Reports event)
    (ran : run (World.step fleet) w events = some t) :
    t.ops.silent = w.ops.silent ∧ ∀ hostName g, g ≠ "regex_revalidate.config" → t.disk hostName g = w.disk hostName g := by
  have start : Reported w w := ⟨rfl, fun _ _ _ => rfl, fun hostName p running => nomatch (idle hostName).symm.trans running⟩
  have reported := run_invariant (fun u event u' => Reported.step) start (throughout_of_forall reports w) ran
  exact ⟨reported.flags, reported.disk⟩

def sampleReport : List Event :=
  [.start "mid" ⟨.report, 0, false⟩, .check "mid", .check "mid"] ++ sampleJob "mid" ["parent.config", "regex_revalidate.config"]

theorem report_only_mid : ∃ t, run (World.step (sampleFleet false)) sampleWorld (sampleReport.take 11) = some t ∧
    t.ops.silent = sampleWorld.ops.silent ∧ ∀ hostName g, g ≠ "regex_revalidate.config" → t.disk hostName g = none := by
  have ended : (run (World.step (sampleFleet false)) sampleWorld (sampleReport.take 11)).isSome = true := by decide +kernel
  obtain ⟨t, ran⟩ := Option.isSome_iff_exists.mp ended
  refine ⟨t, ran, report_only (fun _ => rfl) (fun event member => ?_) ran⟩
  have inside := List.mem_of_mem_take member
  simp only [sampleReport, sampleJob, List.length_cons, List.length_nil, List.replicate, List.cons_append, List.nil_append, List.mem_cons,
    List.not_mem_nil, or_false] at inside
  rcases inside with rfl | rfl | rfl | rfl | rfl | rfl | rfl | rfl | rfl | rfl | rfl | rfl | rfl | rfl
  all_goals trivial

end Reports

end Ort
