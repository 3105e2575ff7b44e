import TrafficControl.TrafficOps.Ort.UpdateQueue

set_option autoImplicit false

-- What each step of the script and of Traffic Ops can do.
namespace Ort

inductive Flag where
  | upd
  | reval
deriving DecidableEq

def Flag.get : Flag → Server → Bool
  | upd, s => s.updPending
  | reval, s => s.revalPending

def Flag.pick {α : Type} : Flag → α → α → α
  | upd, a, _ => a
  | reval, _, b => b

section Flags

namespace TrafficOps

variable {ops : TrafficOps} {hostName : String} {k : Flag}

def flagged (ops : TrafficOps) (k : Flag) (hostName : String) : Bool := (ops.host? hostName).any k.get

theorem host?_alter {f : Server → Server} {kept : ∀ s, (f s).id = s.id} (names : ∀ s, (f s).hostName = s.hostName) :
    (ops.alter f kept).host? hostName = (ops.host? hostName).map f := by
  simp only [host?, alter, List.find?_map, Function.comp_def, names]

theorem host?_setFlags {rows : Server → Bool} {upd reval : Option Bool} : (ops.setFlags rows upd reval).host? hostName =
    (ops.host? hostName).map fun s => if rows s then { s with updPending := upd.getD s.updPending, revalPending := reval.getD s.revalPending } else s :=
  host?_alter fun s => by split <;> rfl

theorem flagged_setFlags {rows : Server → Bool} {upd reval : Option Bool} : (ops.setFlags rows upd reval).flagged k hostName =
    (ops.host? hostName).any fun s => if rows s then (k.pick upd reval).getD (k.get s) else k.get s := by
  rw [flagged, host?_setFlags, Option.any_map]
  congr 1
  funext s
  cases k <;> simp only [Flag.get, Flag.pick] <;> split <;> rfl

/-- Flags that are set stay set where they are only set. -/
theorem flagged_raised {rows : Server → Bool} {upd reval : Option Bool} (raised : (k.pick upd reval).getD true = true)
    (set : ops.flagged k hostName = true) : (ops.setFlags rows upd reval).flagged k hostName = true := by
  obtain ⟨s, found, flag⟩ := Option.any_eq_true _ _ |>.mp set
  rw [flagged_setFlags, found, Option.any_some]
  cases value : k.pick upd reval with
  | none => simpa using flag
  | some b =>
    rw [value, Option.getD_some] at raised
    simp [raised, flag]

theorem flagged_skipped {rows : Server → Bool} {upd reval : Option Bool} (skipped : ∀ s, ops.host? hostName = some s → rows s = false) :
    (ops.setFlags rows upd reval).flagged k hostName = ops.flagged k hostName := by
  rw [flagged_setFlags, flagged]
  cases found : ops.host? hostName with
  | none => rfl
  | some s => simp [skipped s found]

theorem host?_some {s : Server} (found : ops.host? hostName = some s) : s ∈ ops.servers ∧ s.hostName = hostName :=
  ⟨List.mem_of_find?_eq_some found, by simpa using List.find?_some found⟩

/-- Two servers of one identifier are one. -/
theorem server_unique {s p : Server} (left : s ∈ ops.servers) (right : p ∈ ops.servers) (same : s.id = p.id) : s = p :=
  List.inj_on_of_nodup_map ops.ids left right same

theorem flagged_postupdate_of_ne {other : String} {updated : Bool} {revalUpdated : Option Bool} (apart : other ≠ hostName) :
    (ops.postupdate other updated revalUpdated).flagged k hostName = ops.flagged k hostName := by
  unfold postupdate
  cases posted : ops.host? other with
  | none => rfl
  | some server =>
    refine flagged_skipped fun s found => decide_eq_false fun same => ?_
    have one := server_unique (host?_some found).1 (host?_some posted).1 same
    exact apart ((host?_some posted).2.symm.trans (one ▸ (host?_some found).2))

theorem flagged_postupdate {updated revalUpdated : Bool} (separates : k = .reval → ops.separatesReval = true) (known : (ops.host? hostName).isSome = true) :
    (ops.postupdate hostName updated (some revalUpdated)).flagged k hostName = k.pick updated revalUpdated := by
  obtain ⟨s, found⟩ := Option.isSome_iff_exists.mp known
  rw [postupdate, found, Option.elim_some, flagged_setFlags, found, Option.any_some, if_pos (decide_eq_true rfl)]
  cases k with
  | upd => rfl
  | reval => rw [separates rfl]; rfl

theorem postupdate_unknown {updated : Bool} {revalUpdated : Option Bool} (unknown : ops.host? hostName = none) :
    ops.postupdate hostName updated revalUpdated = ops := by
  rw [postupdate, unknown, Option.elim_none]

end TrafficOps

variable {fleet : Fleet} {ops : TrafficOps} {hostName : String} {status : Option UpdateStatus}

/-- What the request for the status tells of the flags. -/
theorem updateStatus_flags (ordinary : hostName ≠ "all") (answered : fleet.updateStatus ops hostName = some status) :
    status.map (·.updPending) = (ops.host? hostName).map (·.updPending) ∧
      (ops.useRevalPending = some "1" → status.map (·.revalPending) = (ops.host? hostName).map fun s => some s.revalPending) := by
  unfold Fleet.updateStatus at answered
  split at answered
  · obtain ⟨statuses, listed, rfl⟩ := Option.map_eq_some_iff.mp answered
    obtain ⟨useReval, cast, rfl⟩ := Option.map_eq_some_iff.mp listed
    rw [if_neg ordinary, List.head?_map, List.head?_filter, ← TrafficOps.host?, Option.map_map, Option.map_map]
    refine ⟨rfl, fun separate => ?_⟩
    rw [separate, Option.elim_some, show boolean "1" = some true by decide +kernel] at cast
    obtain rfl := Option.some.inj cast
    simp [Function.comp_def]
  · obtain rfl := Option.some.inj answered
    rw [TrafficOps.readupdate, List.head?_map, List.head?_filter]
    simp only [ordinary, decide_false, Bool.false_or]
    rw [← TrafficOps.host?, Option.map_map, Option.map_map]
    refine ⟨rfl, fun separate => ?_⟩
    rw [separate]
    rfl

end Flags

section Tracking

variable {files : List ConfigFile} {t : Tracked} {tracker : List Tracked} {f : String}

theorem mem_track : f ∈ (track files).map Tracked.name ↔ ∃ file ∈ files, file.fnameOnDisk = f := by
  induction files with
  | nil => simp [track]
  | cons file files ih =>
    rw [track]
    split
    · next again =>
      obtain ⟨other, member, same⟩ := List.any_eq_true.mp again
      rw [ih, List.exists_mem_cons_iff]
      exact ⟨Or.inr, fun either => either.elim (fun own => ⟨other, member, (of_decide_eq_true same).trans own⟩) id⟩
    · rw [List.map_cons, List.mem_cons, ih, List.exists_mem_cons_iff]
      exact or_congr_left ⟨Eq.symm, Eq.symm⟩

theorem track_fresh (member : t ∈ track files) :
    t.file ∈ files ∧ t.audit = .waiting ∧ t.prereqFailed = false ∧ t.auditFailed = false := by
  induction files with
  | nil => cases member
  | cons file files ih =>
    rw [track] at member
    split at member
    · exact (ih member).imp_left (List.mem_cons_of_mem _)
    · rcases List.mem_cons.mp member with rfl | member
      · exact ⟨List.mem_cons_self, rfl, rfl, rfl⟩
      · exact (ih member).imp_left (List.mem_cons_of_mem _)

/-- What an audit makes of a file. -/
inductive Audited (comparison : Comparison) (fetched : Option Text) (fill : Text → Text) (readable : Bool) (disk : Option Text) (t : Tracked) :
    Tracked × Bool → Prop
  | left (done : t.audit ≠ .waiting ∨ fetched.filter validateResult = none) : Audited comparison fetched fill readable disk t (t, false)
  | failed (why : t.name = "" ∨ readable = false) : Audited comparison fetched fill readable disk t ({ t with auditFailed := true }, false)
  | blocked : Audited comparison fetched fill readable disk t ({ t with prereqFailed := true }, true)
  | needed (text : Text) (given : fetched = some text) :
      Audited comparison fetched fill readable disk t ({ t with audit := .needed (fill text) }, false)
  | unchanged (text : Text) (given : fetched = some text) (same : comparison.changeNeeded t.name (fill text) disk = false) :
      Audited comparison fetched fill readable disk t ({ t with audit := .unchanged }, false)

theorem audited {comparison : Comparison} {fetched : Option Text} {fill : Text → Text} {prereqs readable : Bool} {disk : Option Text} :
    Audited comparison fetched fill readable disk t (t.processCfgFile comparison fetched fill prereqs readable disk) := by
  unfold Tracked.processCfgFile
  split
  · next done => exact .left (Or.inl done)
  split
  · next nameless => exact .failed (Or.inl nameless)
  split
  · next none => exact .left (Or.inr none)
  · next text valid =>
    have given := (Option.filter_eq_some_iff.mp valid).1
    split
    · exact .blocked
    split
    · next unreadable => exact .failed (Or.inr unreadable.2)
    split
    · exact .needed text given
    · next same => exact .unchanged text given (Bool.eq_false_iff.mpr same)

theorem replacement_some {r : Text} (replaced : t.replacement tracker = some r) : t.audit = .needed r := by
  unfold Tracked.replacement at replaced
  split at replaced
  · next result needed =>
    split at replaced
    · cases replaced
    · rw [needed, Option.some.inj replaced]
  · cases replaced

/-- A file that is to be replaced is, unless prerequisites failed or it could not be read. -/
theorem replacement_none {r : Text} (needed : t.audit = .needed r) (readable : t.auditFailed = false) (member : t ∈ tracker)
    (unblocked : ∀ other ∈ tracker, other.prereqFailed = false) : t.replacement tracker = some r := by
  have free : ∀ name, isBlocked tracker name = false := fun name =>
    List.any_eq_false.mpr fun other inside => by simp [unblocked other inside]
  unfold Tracked.replacement
  rw [needed]
  simp [unblocked t member, readable, free]

end Tracking

section Steps

variable (fleet : Fleet) (ops : TrafficOps) (disk : String → Option Text) (hostName : String) (mode : Mode) (revalInUse : Bool)

/-- What a step of a job can be. -/
inductive Job.Took : Job → JobEvent → Worked → Prop
  | listed {syncdsUpdate : Nat} {order : List String} {installed : Bool} {tracker : List Tracked} {update : Nat}
      (own : tracker = track (getCfgFileList mode revalInUse (ops.generated.configFiles hostName)))
      (perm : order.Perm (tracker.map Tracked.name)) :
      Took (.list syncdsUpdate) (.list order installed)
        ⟨some (.files (ops.generated.info hostName) false order tracker update updateTropsSuccessful), ops, disk⟩
  | audited {info : Info} {again : Bool} {name : String} {todo : List String} {tracker : List Tracked} {syncdsUpdate successful : Nat}
      {prereqs readable : Bool} {process : Tracked → Tracked × Bool}
      (own : process = processConfigFile fleet ops disk hostName mode info name prereqs readable) :
      Took (.files info again (name :: todo) tracker syncdsUpdate successful) (.file prereqs readable)
        ⟨some (.files info again todo (tracker.map fun t => (process t).1)
          (if tracker.any fun t => (process t).2 then updateTropsFailed else syncdsUpdate) successful), ops, disk⟩
  | reported {info : Info} {again : Bool} {tracker : List Tracked} {syncdsUpdate successful : Nat} {order : List String} {job : Job}
      (report : mode = .report) (next : job = .services syncdsUpdate successful ∨
        order.Perm (tracker.map Tracked.name) ∧ job = .files info true order tracker syncdsUpdate successful) :
      Took (.files info again [] tracker syncdsUpdate successful) (.replace order) ⟨some job, ops, disk⟩
  | replaced {info : Info} {tracker : List Tracked} {syncdsUpdate successful number : Nat} {order : List String}
      (active : mode ≠ .report) (perm : order.Perm (tracker.map Tracked.name)) :
      Took (.files info false [] tracker syncdsUpdate successful) (.replace order)
        ⟨some (.files info true order (replaceCfgFiles tracker) syncdsUpdate number), ops, copied tracker disk⟩
  | finished {info : Info} {tracker : List Tracked} {syncdsUpdate successful number : Nat} {order : List String} (active : mode ≠ .report) :
      Took (.files info true [] tracker syncdsUpdate successful) (.replace order)
        ⟨some (.services syncdsUpdate number), ops, copied tracker disk⟩
  | served {syncdsUpdate successful : Nat} {reloaded : Bool} {update : Nat} {next : Option Job}
      (same : syncdsUpdate = updateTropsFailed → update = updateTropsFailed)
      (after : next = if mode = .report then none else updateTrops update successful) :
      Took (.services syncdsUpdate successful) (.services reloaded) ⟨next, ops, disk⟩
  | read {status : Option UpdateStatus} (answered : fleet.updateStatus ops hostName = some status) :
      Took .update .read ⟨status.map (sendUpdateToTrops mode), ops, disk⟩
  | posted {updated revalUpdated delivered : Bool} :
      Took (.post updated revalUpdated) (.post delivered)
        ⟨none, if delivered then ops.postupdate hostName updated (some revalUpdated) else ops, disk⟩

variable {fleet ops disk hostName mode revalInUse}

theorem took_of_step {job : Job} {event : JobEvent} {worked : Worked}
    (stepped : Job.step fleet ops disk hostName mode revalInUse job event = some worked) :
    Job.Took fleet ops disk hostName mode revalInUse job event worked := by
  unfold Job.step at stepped
  split at stepped
  · next syncdsUpdate order installed =>
    by_cases perm : order.Perm ((track (getCfgFileList mode revalInUse (ops.generated.configFiles hostName))).map Tracked.name)
    · obtain rfl := Option.some.inj ((if_pos perm).symm.trans stepped)
      exact .listed rfl perm
    · cases (if_neg perm).symm.trans stepped
  · obtain rfl := Option.some.inj stepped
    exact .audited rfl
  · next info again tracker syncdsUpdate successful order =>
    by_cases report : mode = .report
    · simp only [report, if_true] at stepped
      split at stepped
      · obtain rfl := Option.some.inj stepped
        exact .reported report (Or.inl (by simp))
      · split at stepped
        · next perm =>
          obtain rfl := Option.some.inj stepped
          exact .reported report (Or.inr ⟨perm, by simp⟩)
        · cases stepped
    · simp only [report, if_false] at stepped
      cases again with
      | true =>
        obtain rfl := Option.some.inj stepped
        exact .finished report
      | false =>
        simp only [Bool.false_eq_true, if_false] at stepped
        split at stepped
        · next perm =>
          obtain rfl := Option.some.inj stepped
          exact .replaced report perm
        · cases stepped
  · obtain rfl := Option.some.inj stepped
    refine .served (fun failed => ?_) rfl
    rw [failed]
    rfl
  · obtain ⟨status, answered, rfl⟩ := Option.map_eq_some_iff.mp stepped
    exact .read answered
  · obtain rfl := Option.some.inj stepped
    exact .posted
  · cases stepped

theorem audited_config {info : Info} {name : String} {prereqs readable : Bool} {t : Tracked}
    (chosen : t.name = name ∧ (mode ≠ .syncds ∨ t.file.isSynced = true)) :
    Audited fleet.comparison (ops.generated.text hostName name) (info.fill (fleet.host hostName)) readable (disk name) t
      (processConfigFile fleet ops disk hostName mode info name prereqs readable t) := by
  rw [processConfigFile, if_pos chosen]
  exact audited

theorem process_name {info : Info} {name : String} {prereqs readable : Bool} {t : Tracked} :
    let result := processConfigFile fleet ops disk hostName mode info name prereqs readable t
    result.1.name = t.name ∧ (result.1.prereqFailed = true → t.prereqFailed = true ∨ result.2 = true) := by
  intro result
  by_cases chosen : t.name = name ∧ (mode ≠ .syncds ∨ t.file.isSynced = true)
  · have outcome : Audited _ _ _ _ _ t result := audited_config chosen
    generalize result = outcomes at outcome
    cases outcome with
    | left | failed | needed | unchanged => exact ⟨rfl, Or.inl⟩
    | blocked => exact ⟨rfl, fun _ => Or.inr rfl⟩
  · have same : result = (t, false) := if_neg chosen
    rw [same]
    exact ⟨rfl, Or.inl⟩

theorem updateTrops_some {update successful : Nat} {job : Job} (next : updateTrops update successful = some job) :
    job = .update ∧ update ≠ updateTropsFailed := by
  unfold updateTrops at next
  split at next
  · cases next
  split at next
  · cases next
  · next passed =>
    split at next
    · exact ⟨(Option.some.inj next).symm, passed⟩
    · split at next
      · exact ⟨(Option.some.inj next).symm, passed⟩
      · cases next

end Steps

section Runs

variable {fleet : Fleet} {u u' : World} {event : Event} {hostName : String}

namespace Process

variable {p q : Process} {status : UpdateStatus}

/-- A run that goes on is past what it was at, and starts no other job. -/
def Forward (p q : Process) : Prop :=
  q.settings = p.settings ∧ q.revalidation = p.revalidation ∧ ∀ job, q.stage = .working job → ∃ n, job = .list n

theorem forward_work {n : Nat} : p.Forward (p.work n) := ⟨rfl, rfl, fun _ same => ⟨n, (Stage.working.inj same).symm⟩⟩

theorem forward_stage {stage : Stage} (other : ∀ job, stage ≠ .working job) : p.Forward { p with stage := stage } :=
  ⟨rfl, rfl, fun job same => absurd same (other job)⟩

theorem forward_checkParents : p.Forward (p.checkParents status) := by
  unfold checkParents
  split
  · exact forward_stage fun job => by split <;> nofun
  · exact forward_work

theorem forward_check {answer : Option UpdateStatus} (checked : p.check answer = some (some q)) : p.Forward q := by
  unfold check at checked
  split at checked
  · obtain rfl := Option.some.inj (Option.some.inj checked)
    exact ⟨rfl, rfl, nofun⟩
  · have next := Option.some.inj checked
    split at next
    · split at next
      · cases next
      · obtain rfl := Option.some.inj next
        exact forward_work
    · split at next
      · obtain rfl := Option.some.inj next
        split
        · exact forward_stage nofun
        · exact forward_checkParents
      · split at next
        · obtain rfl := Option.some.inj next
          exact forward_stage nofun
        · obtain rfl := Option.some.inj next
          exact forward_work
  · have next := Option.some.inj checked
    split at next
    · cases next
    · obtain rfl := Option.some.inj next
      exact forward_work
  · have next := Option.some.inj checked
    split at next
    · obtain rfl := Option.some.inj next
      exact forward_work
    · cases next
  · cases checked

theorem forward_wake (woke : p.wake = some q) : p.Forward q := by
  unfold wake at woke
  split at woke
  · cases woke
  split at woke
  · obtain rfl := Option.some.inj woke
    exact forward_checkParents
  · obtain rfl := Option.some.inj woke
    exact forward_stage nofun
  · cases woke

theorem revalidate_cases {answer : Option UpdateStatus} (went : p.revalidateWhileSleeping answer = some (some q)) :
    q = p ∨ (checkRevalidateState answer = updateTropsNeeded ∧ (p.isSleeping = true ∨ p.stage = .leaving) ∧
      q = { p with revalidation := some (.list updateTropsNeeded) }) := by
  unfold revalidateWhileSleeping at went
  split at went
  · cases went
  · next ready =>
    split at went
    · next needed =>
      refine Or.inr ⟨needed, ?_, (Option.some.inj (Option.some.inj went)).symm⟩
      by_contra neither
      exact ready (Or.inr ⟨Bool.eq_false_iff.mpr fun sleeps => neither (Or.inl sleeps), fun leaves => neither (Or.inr leaves)⟩)
    · split at went
      · cases went
      · exact Or.inl (Option.some.inj (Option.some.inj went)).symm

end Process

theorem revalidate_alone {p q : Process} {answer : UpdateStatus} (alone : answer.revalPending ≠ some true)
    (went : p.revalidateWhileSleeping (some answer) = some (some q)) : q = p := by
  refine (Process.revalidate_cases went).resolve_right fun needed => ?_
  have idle : checkRevalidateState (some answer) = updateTropsNotneeded := by simp [checkRevalidateState, alone]
  exact nomatch idle.symm.trans needed.1

theorem answered_some {other : String} {go : Option UpdateStatus → Option (Option Process)} (stepped : u.answered fleet other go = some u') :
    ∃ status q, fleet.updateStatus u.ops other = some status ∧ go status = some q ∧ u' = u.become other q := by
  obtain ⟨status, answer, next⟩ := Option.bind_eq_some_iff.mp stepped
  obtain ⟨q, went, rfl⟩ := Option.map_eq_some_iff.mp next
  exact ⟨status, q, answer, went, rfl⟩

/-- What a step of a job does to Traffic Ops. -/
theorem Job.step_ops {ops : TrafficOps} {disk : String → Option Text} {mode : Mode} {revalInUse : Bool} {job : Job} {event : JobEvent} {worked : Worked}
    (stepped : Job.step fleet ops disk hostName mode revalInUse job event = some worked) :
    worked.ops = ops ∨ ∃ updated revalUpdated, job = .post updated revalUpdated ∧ worked.ops = ops.postupdate hostName updated (some revalUpdated) := by
  cases took_of_step stepped with
  | listed | audited | reported | replaced | finished | served | read => exact Or.inl rfl
  | @posted updated revalUpdated delivered =>
    cases delivered with
    | false => exact Or.inl rfl
    | true => exact Or.inr ⟨updated, revalUpdated, rfl, rfl⟩

/-- The step of a job as the step of a run. -/
inductive WorkedOn (fleet : Fleet) (u : World) (hostName : String) (p : Process) (event : JobEvent) : World → Prop
  | revalidated {job : Job} {worked : Worked} {next : Option Process} (busy : p.revalidation = some job)
      (stepped : Job.step fleet u.ops (u.disk hostName) hostName .revalidate p.revalInUse job event = some worked)
      (rest : next = none ∨ next = some { p with revalidation := worked.job }) :
      WorkedOn fleet u hostName p event ⟨worked.ops, Function.update u.disk hostName worked.disk, Function.update u.processes hostName next⟩
  | worked {job : Job} {worked : Worked} (idle : p.revalidation = none) (busy : p.stage = .working job)
      (stepped : Job.step fleet u.ops (u.disk hostName) hostName p.settings.mode p.revalInUse job event = some worked) :
      WorkedOn fleet u hostName p event ⟨worked.ops, Function.update u.disk hostName worked.disk,
        Function.update u.processes hostName (worked.job.map fun job => { p with stage := .working job })⟩

theorem workedOn_of_workOn {p : Process} {event : JobEvent} (stepped : u.workOn fleet hostName p event = some u') : WorkedOn fleet u hostName p event u' := by
  unfold World.workOn at stepped
  dsimp only at stepped
  split at stepped
  · next job busy =>
    obtain ⟨worked, took, next⟩ := Option.bind_eq_some_iff.mp stepped
    obtain rfl := Option.some.inj next
    exact .revalidated busy took (by split; exact Or.inl rfl; exact Or.inr rfl)
  · next idle =>
    split at stepped
    · next job busy =>
      obtain ⟨worked, took, next⟩ := Option.bind_eq_some_iff.mp stepped
      obtain rfl := Option.some.inj next
      exact .worked idle busy took
    · cases stepped

/-- A step of a job of another cache. -/
theorem workedOn_other {other : String} (apart : other ≠ hostName) {event : JobEvent} {p : Process} (worked : WorkedOn fleet u other p event u') :
    (∀ k, u'.ops.flagged k hostName = u.ops.flagged k hostName) ∧ u'.disk hostName = u.disk hostName ∧
      u'.processes hostName = u.processes hostName := by
  have flags : ∀ {job : Job} {mode : Mode} {worked : Worked},
      Job.step fleet u.ops (u.disk other) other mode p.revalInUse job event = some worked →
      ∀ k, worked.ops.flagged k hostName = u.ops.flagged k hostName := by
    intro job mode worked stepped k
    rcases Job.step_ops stepped with same | ⟨updated, revalUpdated, -, same⟩
    · rw [same]
    · rw [same, TrafficOps.flagged_postupdate_of_ne apart]
  cases worked with
  | revalidated busy stepped rest => exact ⟨flags stepped, Function.update_of_ne apart.symm .., Function.update_of_ne apart.symm ..⟩
  | worked idle busy stepped => exact ⟨flags stepped, Function.update_of_ne apart.symm .., Function.update_of_ne apart.symm ..⟩

/-- A property of a run of the cache that each of its steps keeps. -/
theorem process_step {good : World → Process → Prop} (held : ∀ p, u.processes hostName = some p → good u p)
    (same : ∀ p, good u p → good u' p) (start : ∀ settings, event = .start hostName settings →
      good u' ⟨settings, false, if settings.mode = .revalidate then .checkRevalidate else .checkReval, none⟩)
    (check : ∀ p q status, good u p → fleet.updateStatus u.ops hostName = some status → p.check status = some (some q) → good u' q)
    (wake : ∀ p q, good u p → p.wake = some q → good u' q)
    (revalidate : ∀ p q status, good u p → fleet.updateStatus u.ops hostName = some status →
      p.revalidateWhileSleeping status = some (some q) → good u' q)
    (job : ∀ p q event, good u p → WorkedOn fleet u hostName p event u' → u'.processes hostName = some q → good u' q)
    (stepped : World.step fleet u event = some u') : ∀ p, u'.processes hostName = some p → good u' p := by
  have become : ∀ {other next}, u' = u.become other next → (other = hostName → ∀ q, next = some q → good u' q) →
      ∀ p, u'.processes hostName = some p → good u' p := by
    rintro other next rfl ok p running
    by_cases own : other = hostName
    · subst own
      rw [World.become_self] at running
      exact ok rfl p running
    · rw [World.become_of_ne u (Ne.symm own)] at running
      exact same p (held p running)
  cases event with
  | edit | queue | invalidate | setStatus | setUseReval =>
    have kept : u'.processes = u.processes := Option.some.inj stepped ▸ rfl
    exact fun p running => same p (held p (kept ▸ running))
  | start other settings =>
    rw [World.step] at stepped
    split at stepped
    · cases stepped
    · refine become (Option.some.inj stepped).symm fun own q next => ?_
      exact Option.some.inj next ▸ start settings (own ▸ rfl)
  | check other =>
    obtain ⟨p, running, next⟩ := Option.bind_eq_some_iff.mp stepped
    obtain ⟨status, q, answered, checked, became⟩ := answered_some next
    refine become became fun own q same => ?_
    subst own same
    exact check p q status (held p running) answered checked
  | wake other =>
    obtain ⟨p, running, next⟩ := Option.bind_eq_some_iff.mp stepped
    obtain ⟨q, woke, became⟩ := Option.map_eq_some_iff.mp next
    refine become became.symm fun own q same => ?_
    subst own
    obtain rfl := Option.some.inj same
    exact wake p _ (held p running) woke
  | revalidate other =>
    obtain ⟨p, running, next⟩ := Option.bind_eq_some_iff.mp stepped
    obtain ⟨status, q, answered, went, became⟩ := answered_some next
    refine become became fun own q same => ?_
    subst own same
    exact revalidate p q status (held p running) answered went
  | job other event =>
    obtain ⟨p, running, next⟩ := Option.bind_eq_some_iff.mp stepped
    by_cases own : other = hostName
    · subst own
      exact fun q going => job p q event (held p running) (workedOn_of_workOn next) going
    · obtain ⟨-, -, processes⟩ := workedOn_other own (workedOn_of_workOn next)
      exact fun q going => same q (held q (processes ▸ going))
  | exit other => exact become (Option.some.inj stepped).symm fun own q same => nomatch same

/-- Only a step of a job of the cache writes to it. -/
theorem disk_step (stepped : World.step fleet u event = some u') : u'.disk hostName = u.disk hostName ∨
    ∃ p worked, u.processes hostName = some p ∧ event = .job hostName worked ∧ WorkedOn fleet u hostName p worked u' := by
  cases event with
  | edit | queue | invalidate | setStatus | setUseReval | exit => exact Or.inl (Option.some.inj stepped ▸ rfl)
  | start other settings =>
    rw [World.step] at stepped
    split at stepped
    · cases stepped
    · exact Or.inl (Option.some.inj stepped ▸ rfl)
  | check other =>
    obtain ⟨p, running, next⟩ := Option.bind_eq_some_iff.mp stepped
    obtain ⟨status, q, answered, checked, rfl⟩ := answered_some next
    exact Or.inl rfl
  | wake other =>
    obtain ⟨p, running, next⟩ := Option.bind_eq_some_iff.mp stepped
    obtain ⟨q, woke, rfl⟩ := Option.map_eq_some_iff.mp next
    exact Or.inl rfl
  | revalidate other =>
    obtain ⟨p, running, next⟩ := Option.bind_eq_some_iff.mp stepped
    obtain ⟨status, q, answered, went, rfl⟩ := answered_some next
    exact Or.inl rfl
  | job other event =>
    obtain ⟨p, running, next⟩ := Option.bind_eq_some_iff.mp stepped
    by_cases own : other = hostName
    · subst own
      exact Or.inr ⟨p, event, running, rfl, workedOn_of_workOn next⟩
    · exact Or.inl (workedOn_other own (workedOn_of_workOn next)).2.1

end Runs

end Ort
