import TrafficControl.TrafficOps.Ort.ScriptSteps

set_option autoImplicit false

-- A queued update stays queued until a cache has the files that Traffic Ops has generated since.
namespace Ort

open Runs

/-- The file on the disk is one of the results, or does not differ from it. -/
def UpToDate (comparison : Comparison) (results : Text → Prop) (f : String) (onDisk : Option Text) : Prop :=
  ∃ r, results r ∧ (onDisk = some r ∨ comparison.changeNeeded f r onDisk = false)

section Copies

variable {comparison : Comparison} {results : Text → Prop} {f : String} {tracker : List Tracked} {disk : String → Option Text}

theorem copied_cases (needed : ∀ t ∈ tracker, t.name = f → ∀ r, t.audit = .needed r → results r) :
    copied tracker disk f = disk f ∨ UpToDate comparison results f (copied tracker disk f) := by
  unfold copied
  cases found : (tracker.filter fun t => t.name = f).findSome? (Tracked.replacement tracker) with
  | none => exact Or.inl rfl
  | some r =>
    obtain ⟨t, member, replaced⟩ := List.exists_of_findSome?_eq_some found
    obtain ⟨inside, own⟩ := List.mem_filter.mp member
    exact Or.inr ⟨r, needed t inside (of_decide_eq_true own) r (replacement_some replaced), Or.inl rfl⟩

theorem copied_replaced (needed : ∀ t ∈ tracker, t.name = f → ∀ r, t.audit = .needed r → results r) {t : Tracked} (member : t ∈ tracker)
    (own : t.name = f) {r : Text} (replaced : t.replacement tracker = some r) : UpToDate comparison results f (copied tracker disk f) := by
  unfold copied
  cases found : (tracker.filter fun t => t.name = f).findSome? (Tracked.replacement tracker) with
  | none =>
    have none := List.findSome?_eq_none_iff.mp found t (List.mem_filter.mpr ⟨member, decide_eq_true own⟩)
    rw [none] at replaced
    cases replaced
  | some r =>
    obtain ⟨t, member, replaced⟩ := List.exists_of_findSome?_eq_some found
    obtain ⟨inside, own⟩ := List.mem_filter.mp member
    exact ⟨r, needed t inside (of_decide_eq_true own) r (replacement_some replaced), Or.inl rfl⟩

theorem UpToDate.copied (current : UpToDate comparison results f (disk f))
    (needed : ∀ t ∈ tracker, t.name = f → ∀ r, t.audit = .needed r → results r) : UpToDate comparison results f (copied tracker disk f) :=
  (copied_cases needed).elim (fun same => same ▸ current) id

end Copies

-- The runs that clear a flag.
def Flag.Clears : Flag → Mode → Prop
  | upd, mode => mode = .badass ∨ mode = .syncds
  | reval, mode => mode = .revalidate

/-- Traffic Ops has the file for the server. -/
structure Offered (generated : Generated) (k : Flag) (hostName f : String) : Prop where
  named : f ≠ ""
  text : ∃ text, generated.text hostName f = some text ∧ validateResult text = true
  listed : ∃ file ∈ generated.configFiles hostName,
    file.onDisk.fnameOnDisk = f ∧ (file.fnameOnDisk = "regex_revalidate.config" ↔ k = .reval)
  synced : ∀ file ∈ generated.configFiles hostName, file.onDisk.fnameOnDisk = f → file.onDisk.isSynced = true

section Jobs

variable (comparison : Comparison) (k : Flag) (f : String) (mode : Mode) (infos : Info → Prop) (results : Text → Prop) (onDisk : Option Text)

/-- What holds of a file that is tracked. -/
structure FileOk (t : Tracked) : Prop where
  read : t.auditFailed = false
  needed : ∀ r, t.audit = .needed r → results r
  settled : t.audit = .unchanged ∨ t.audit = .applied → UpToDate comparison results f onDisk
  synced : mode = .syncds → t.file.isSynced = true

structure FilesOk (info : Info) (todo : List String) (tracker : List Tracked) (syncdsUpdate : Nat) : Prop where
  info : infos info
  blocked : ∀ t ∈ tracker, t.prereqFailed = true → syncdsUpdate = updateTropsFailed
  own : ∀ t ∈ tracker, t.name = f → FileOk comparison f mode results onDisk t
  tracked : k.Clears mode → f ∈ tracker.map Tracked.name
  visited : k.Clears mode → ∀ t ∈ tracker, t.name = f → t.audit = .waiting → f ∈ todo ∨ syncdsUpdate = updateTropsFailed

/-- A job that is past the list does not clear the flag before the file is up to date. -/
def JobOk : Job → Prop
  | .list _ => True
  | .files info _ todo tracker syncdsUpdate _ => FilesOk comparison k f mode infos results onDisk info todo tracker syncdsUpdate
  | .services syncdsUpdate _ => k.Clears mode → syncdsUpdate = updateTropsFailed ∨ UpToDate comparison results f onDisk
  | .update => mode ≠ .report ∧ (k.Clears mode → UpToDate comparison results f onDisk)
  | .post updated revalUpdated => k.pick updated revalUpdated = true ∨ UpToDate comparison results f onDisk

end Jobs

section Kept

variable {fleet : Fleet} {ops : TrafficOps} {disk : String → Option Text} {hostName f : String} {k : Flag} {mode : Mode} {revalInUse : Bool}
variable {infos : Info → Prop} {results : Text → Prop}

theorem Offered.tracked (offered : Offered ops.generated k hostName f) (clears : k.Clears mode) :
    f ∈ (track (getCfgFileList mode revalInUse (ops.generated.configFiles hostName))).map Tracked.name := by
  obtain ⟨file, member, own, raw⟩ := offered.listed
  refine mem_track.mpr ⟨file.onDisk, List.mem_map_of_mem ?_, own⟩
  cases k with
  | upd =>
    have other : file.fnameOnDisk ≠ "regex_revalidate.config" := fun same => nomatch raw.mp same
    have active : mode ≠ .revalidate := by rcases clears with rfl | rfl <;> decide
    rw [if_neg active]
    split
    · exact List.mem_filter.mpr ⟨member, decide_eq_true other⟩
    · exact member
  | reval =>
    have revalidates : mode = .revalidate := clears
    rw [if_pos revalidates]
    exact List.mem_filter.mpr ⟨member, decide_eq_true (raw.mpr rfl)⟩

theorem tracked_file {t : Tracked} (member : t ∈ track (getCfgFileList mode revalInUse (ops.generated.configFiles hostName))) :
    ∃ file ∈ ops.generated.configFiles hostName, t.file = file.onDisk := by
  obtain ⟨file, chosen, same⟩ := List.mem_map.mp (track_fresh member).1
  refine ⟨file, ?_, same.symm⟩
  split at chosen
  · exact (List.mem_filter.mp chosen).1
  · split at chosen
    · exact (List.mem_filter.mp chosen).1
    · exact chosen

theorem filesOk_list (offered : Offered ops.generated k hostName f) (given : infos (ops.generated.info hostName)) {order : List String}
    {tracker : List Tracked} {update : Nat} (own : tracker = track (getCfgFileList mode revalInUse (ops.generated.configFiles hostName)))
    (perm : order.Perm (tracker.map Tracked.name)) {onDisk : Option Text} :
    FilesOk fleet.comparison k f mode infos results onDisk (ops.generated.info hostName) order tracker update := by
  subst own
  refine ⟨given, fun t member failed => ?_, fun t member named => ⟨(track_fresh member).2.2.2, fun r needed => ?_, fun settled => ?_, fun _ => ?_⟩,
    offered.tracked, fun clears t member named _ => Or.inl (perm.mem_iff.mpr (offered.tracked clears))⟩
  · exact absurd ((track_fresh member).2.2.1.symm.trans failed) Bool.false_ne_true
  · cases (track_fresh member).2.1.symm.trans needed
  · rcases settled with settled | settled <;> cases (track_fresh member).2.1.symm.trans settled
  · obtain ⟨file, listed, same⟩ := tracked_file member
    exact same ▸ offered.synced file listed (same ▸ named)

/-- An audit keeps what holds of the file, and gets past waiting unless prerequisites fail. -/
theorem FileOk.audited {t : Tracked} {onDisk : Option Text} (ok : FileOk fleet.comparison f mode results onDisk t) (named : t.name = f)
    (offered : Offered ops.generated k hostName f) {fill : Text → Text}
    (given : ∀ text, ops.generated.text hostName f = some text → results (fill text)) {result : Tracked × Bool}
    (outcome : Audited fleet.comparison (ops.generated.text hostName f) fill true onDisk t result) :
    FileOk fleet.comparison f mode results onDisk result.1 ∧ (result.2 = false → result.1.audit ≠ .waiting) := by
  cases outcome with
  | left done =>
    refine ⟨ok, fun _ => done.resolve_right fun none => ?_⟩
    obtain ⟨text, fetched, valid⟩ := offered.text
    rw [fetched, Option.filter_some, if_pos valid] at none
    cases none
  | failed why => exact (why.elim (fun nameless => offered.named (named.symm.trans nameless)) fun unreadable => (nomatch unreadable)).elim
  | blocked => exact ⟨⟨ok.read, ok.needed, ok.settled, ok.synced⟩, fun passed => nomatch passed⟩
  | needed text fetched =>
    refine ⟨⟨ok.read, fun r needed => ?_, fun settled => ?_, ok.synced⟩, fun _ => nofun⟩
    · exact Audit.needed.inj needed ▸ given text fetched
    · rcases settled with settled | settled <;> cases settled
  | unchanged text fetched same =>
    refine ⟨⟨ok.read, fun r needed => (nomatch needed), fun _ => ⟨fill text, given text fetched, Or.inr (named ▸ same)⟩, ok.synced⟩, fun _ => nofun⟩

theorem FilesOk.file {info : Info} {name : String} {todo : List String} {tracker : List Tracked} {syncdsUpdate : Nat} {prereqs : Bool}
    (ok : FilesOk fleet.comparison k f mode infos results (disk f) info (name :: todo) tracker syncdsUpdate) (offered : Offered ops.generated k hostName f)
    (given : ∀ text, ops.generated.text hostName f = some text → results (info.fill (fleet.host hostName) text)) :
    let process := processConfigFile fleet ops disk hostName mode info name prereqs true
    FilesOk fleet.comparison k f mode infos results (disk f) info todo (tracker.map fun t => (process t).1)
      (if tracker.any fun t => (process t).2 then updateTropsFailed else syncdsUpdate) := by
  intro process
  have names : ∀ t, (process t).1.name = t.name := fun t => process_name.1
  have own : ∀ t ∈ tracker, t.name = f → FileOk fleet.comparison f mode results (disk f) (process t).1 ∧
      (k.Clears mode → (process t).2 = false → (process t).1.audit = .waiting → f ∈ todo ∨ syncdsUpdate = updateTropsFailed) := by
    intro t member named
    have fine := ok.own t member named
    by_cases here : t.name = name
    · have turn : name = f := here.symm.trans named
      have chosen : t.name = name ∧ (mode ≠ .syncds ∨ t.file.isSynced = true) :=
        ⟨here, (em (mode = .syncds)).elim (fun syncds => Or.inr (fine.synced syncds)) Or.inl⟩
      subst turn
      have outcome : Audited _ _ _ _ _ t (process t) := audited_config chosen
      have kept := fine.audited named offered given outcome
      exact ⟨kept.1, fun _ passed waiting => absurd waiting (kept.2 passed)⟩
    · have same : process t = (t, false) := if_neg fun chosen => here chosen.1
      rw [same]
      refine ⟨fine, fun clears _ waiting => (ok.visited clears t member named waiting).imp_left fun inside => ?_⟩
      exact (List.mem_cons.mp inside).resolve_left fun now => here (named.trans now)
  refine ⟨ok.info, fun t inside failed => ?_, fun t inside named => ?_, fun clears => ?_, fun clears t inside named waiting => ?_⟩
  · obtain ⟨before, member, rfl⟩ := List.mem_map.mp inside
    rcases process_name.2 failed with earlier | now
    · rw [ok.blocked before member earlier, ite_self]
    · rw [if_pos (List.any_eq_true.mpr ⟨before, member, now⟩)]
  · obtain ⟨before, member, rfl⟩ := List.mem_map.mp inside
    exact (own before member ((names before).symm.trans named)).1
  · have listed := ok.tracked clears
    rw [List.map_map, Function.comp_def]
    simpa only [names] using listed
  · obtain ⟨before, member, rfl⟩ := List.mem_map.mp inside
    by_cases failed : (tracker.any fun t => (process t).2) = true
    · exact Or.inr (if_pos failed)
    · rw [if_neg failed]
      have passed : (process before).2 = false := by simpa using List.any_eq_false.mp (Bool.eq_false_iff.mpr failed) before member
      exact (own before member ((names before).symm.trans named)).2 clears passed waiting

/-- When every file is visited, those that are needed get replaced. -/
theorem FilesOk.settled {info : Info} {tracker : List Tracked} {syncdsUpdate : Nat}
    (ok : FilesOk fleet.comparison k f mode infos results (disk f) info [] tracker syncdsUpdate) (clears : k.Clears mode) :
    syncdsUpdate = updateTropsFailed ∨ UpToDate fleet.comparison results f (copied tracker disk f) := by
  have needed : ∀ t ∈ tracker, t.name = f → ∀ r, t.audit = .needed r → results r := fun t member named => (ok.own t member named).needed
  by_cases failed : syncdsUpdate = updateTropsFailed
  · exact Or.inl failed
  obtain ⟨t, member, named⟩ := List.mem_map.mp (ok.tracked clears)
  have fine := ok.own t member named
  refine Or.inr ?_
  cases audit : t.audit with
  | waiting =>
    rcases ok.visited clears t member named audit with inside | now
    · cases inside
    · exact absurd now failed
  | unchanged => exact (fine.settled (Or.inl audit)).copied needed
  | applied => exact (fine.settled (Or.inr audit)).copied needed
  | needed r =>
    have unblocked : ∀ other ∈ tracker, other.prereqFailed = false := fun other inside =>
      Bool.eq_false_iff.mpr fun blocked => failed (ok.blocked other inside blocked)
    exact copied_replaced needed member named (replacement_none audit fine.read member unblocked)

theorem FilesOk.replaced {info : Info} {tracker : List Tracked} {syncdsUpdate : Nat} {order : List String}
    (ok : FilesOk fleet.comparison k f mode infos results (disk f) info [] tracker syncdsUpdate) (perm : order.Perm (tracker.map Tracked.name)) :
    FilesOk fleet.comparison k f mode infos results (copied tracker disk f) info order (replaceCfgFiles tracker) syncdsUpdate := by
  have needed : ∀ t ∈ tracker, t.name = f → ∀ r, t.audit = .needed r → results r := fun t member named => (ok.own t member named).needed
  have names : (replaceCfgFiles tracker).map Tracked.name = tracker.map Tracked.name := by
    rw [replaceCfgFiles, List.map_map]
    refine List.map_congr_left fun t _ => ?_
    rw [Function.comp_apply]
    split <;> rfl
  have before : ∀ t ∈ replaceCfgFiles tracker, ∃ old ∈ tracker,
      t = if (old.replacement tracker).isSome then { old with audit := .applied } else old := by
    intro t inside
    obtain ⟨old, member, rfl⟩ := List.mem_map.mp inside
    exact ⟨old, member, rfl⟩
  refine ⟨ok.info, fun t inside failed => ?_, fun t inside named => ?_, fun clears => names ▸ ok.tracked clears, fun clears t inside named _ => ?_⟩
  · obtain ⟨old, member, rfl⟩ := before t inside
    refine ok.blocked old member ?_
    split at failed <;> exact failed
  · obtain ⟨old, member, rfl⟩ := before t inside
    split at named
    · next replaced =>
      have fine := ok.own old member named
      obtain ⟨r, copy⟩ := Option.isSome_iff_exists.mp replaced
      rw [if_pos replaced]
      exact ⟨fine.read, fun r needed => (nomatch needed), fun _ => copied_replaced needed member named copy, fine.synced⟩
    · next kept =>
      have fine := ok.own old member named
      rw [if_neg kept]
      exact ⟨fine.read, fine.needed, fun settled => (fine.settled settled).copied needed, fine.synced⟩
  · exact Or.inl (perm.mem_iff.mpr (names ▸ named ▸ List.mem_map_of_mem inside))

theorem FilesOk.again {info : Info} {tracker : List Tracked} {syncdsUpdate : Nat} {order : List String} {onDisk : Option Text}
    (ok : FilesOk fleet.comparison k f mode infos results onDisk info [] tracker syncdsUpdate) (perm : order.Perm (tracker.map Tracked.name)) :
    FilesOk fleet.comparison k f mode infos results onDisk info order tracker syncdsUpdate :=
  ⟨ok.info, ok.blocked, ok.own, ok.tracked, fun _ _ inside named _ => Or.inl (perm.mem_iff.mpr (named ▸ List.mem_map_of_mem inside))⟩

theorem not_clears_report : ¬k.Clears .report := by
  cases k with
  | upd => exact fun clears => clears.elim (fun same => nomatch same) fun same => nomatch same
  | reval => exact fun same => nomatch same

/-- What is posted of a flag that the run does not clear is what was read of it. -/
theorem jobOk_send {status : UpdateStatus} (ordinary : hostName ≠ "all") (separate : k = .reval → ops.useRevalPending = some "1")
    (answered : fleet.updateStatus ops hostName = some (some status)) {onDisk : Option Text}
    (main : ops.flagged k hostName = true ∨ UpToDate fleet.comparison results f onDisk) (active : mode ≠ .report)
    (cleared : k.Clears mode → UpToDate fleet.comparison results f onDisk) :
    JobOk fleet.comparison k f mode infos results onDisk (sendUpdateToTrops mode status) := by
  obtain ⟨upd, reval⟩ := updateStatus_flags ordinary answered
  rw [Option.map_some] at upd reval
  by_cases clears : k.Clears mode
  · have current := cleared clears
    unfold sendUpdateToTrops
    split <;> exact Or.inr current
  refine main.elim (fun flag => ?_) fun current => by unfold sendUpdateToTrops; split <;> exact Or.inr current
  obtain ⟨s, found, flag⟩ := (Option.any_eq_true _ _).mp flag
  rw [found] at upd reval
  cases k with
  | upd =>
    have revalidates : mode = .revalidate := by
      cases mode with
      | report => exact absurd rfl active
      | badass => exact absurd (Or.inl rfl) clears
      | syncds => exact absurd (Or.inr rfl) clears
      | revalidate => rfl
    rw [sendUpdateToTrops, if_pos revalidates]
    exact Or.inl ((Option.some.inj upd).trans flag)
  | reval =>
    have other : mode ≠ .revalidate := fun same => clears same
    rw [sendUpdateToTrops, if_neg other]
    refine Or.inl ?_
    rw [show status.revalPending = some s.revalPending from Option.some.inj (reval (separate rfl))]
    exact flag

/-- A step keeps the job, the file and the flag right. -/
theorem JobOk.step {job : Job} {event : JobEvent} {worked : Worked}
    (ok : JobOk fleet.comparison k f mode infos results (disk f) job)
    (main : ops.flagged k hostName = true ∨ UpToDate fleet.comparison results f (disk f)) (ordinary : hostName ≠ "all")
    (offered : Offered ops.generated k hostName f) (separate : k = .reval → ops.useRevalPending = some "1") (info : infos (ops.generated.info hostName))
    (given : ∀ info, infos info → ∀ text, ops.generated.text hostName f = some text → results (info.fill (fleet.host hostName) text))
    (readable : ∀ prereqs, event ≠ .file prereqs false)
    (stepped : Job.step fleet ops disk hostName mode revalInUse job event = some worked) :
    (∀ next, worked.job = some next → JobOk fleet.comparison k f mode infos results (worked.disk f) next) ∧
      (UpToDate fleet.comparison results f (disk f) → UpToDate fleet.comparison results f (worked.disk f)) ∧
      (worked.ops.flagged k hostName = true ∨ UpToDate fleet.comparison results f (worked.disk f)) := by
  cases took_of_step stepped with
  | listed own perm => exact ⟨fun next same => Option.some.inj same ▸ filesOk_list offered info own perm, id, main⟩
  | @audited info again name todo tracker _ _ prereqs read _ own =>
    cases read with
    | false => exact absurd rfl (readable prereqs)
    | true =>
      subst own
      have files : FilesOk fleet.comparison k f mode infos results (disk f) info (name :: todo) tracker _ := ok
      exact ⟨fun next same => Option.some.inj same ▸ files.file offered (given info files.info), id, main⟩
  | reported report next =>
    refine ⟨fun job same => ?_, id, main⟩
    obtain rfl := Option.some.inj same
    rcases next with rfl | ⟨perm, rfl⟩
    · exact fun clears => absurd (report ▸ clears) not_clears_report
    · exact FilesOk.again ok perm
  | @replaced _ tracker _ _ _ _ active perm =>
    have files : FilesOk fleet.comparison k f mode infos results (disk f) _ [] tracker _ := ok
    have kept : UpToDate fleet.comparison results f (disk f) → UpToDate fleet.comparison results f (copied tracker disk f) := fun current =>
      current.copied fun t member named => (files.own t member named).needed
    exact ⟨fun next same => Option.some.inj same ▸ files.replaced perm, kept, main.imp_right kept⟩
  | @finished _ tracker _ _ _ _ active =>
    have files : FilesOk fleet.comparison k f mode infos results (disk f) _ [] tracker _ := ok
    have kept : UpToDate fleet.comparison results f (disk f) → UpToDate fleet.comparison results f (copied tracker disk f) := fun current =>
      current.copied fun t member named => (files.own t member named).needed
    exact ⟨fun next same => Option.some.inj same ▸ fun clears => files.settled clears, kept, main.imp_right kept⟩
  | served failed after =>
    refine ⟨fun job same => ?_, id, main⟩
    subst after
    split at same
    · cases same
    · next active =>
      obtain ⟨rfl, passed⟩ := updateTrops_some same
      exact ⟨active, fun clears => (ok clears).resolve_left fun earlier => passed (failed earlier)⟩
  | @read status answered =>
    refine ⟨fun job same => ?_, id, main⟩
    obtain ⟨status, rfl, rfl⟩ := Option.map_eq_some_iff.mp same
    exact jobOk_send ordinary separate answered main ok.1 ok.2
  | @posted updated revalUpdated delivered =>
    refine ⟨fun job same => (nomatch same), id, ?_⟩
    cases delivered with
    | false => exact main
    | true =>
      cases found : ops.host? hostName with
      | none =>
        simp only [if_true, TrafficOps.postupdate_unknown found]
        exact main
      | some s =>
        have separates : k = .reval → ops.separatesReval = true := fun kind => by rw [TrafficOps.separatesReval, separate kind]; decide
        exact ok.imp_left (TrafficOps.flagged_postupdate separates (Option.isSome_of_mem found)).trans

end Kept

section Monotone

variable {comparison : Comparison} {k : Flag} {f : String} {mode : Mode} {onDisk : Option Text}
variable {infos moreInfos : Info → Prop} {results moreResults : Text → Prop}

theorem UpToDate.mono (more : ∀ r, results r → moreResults r) (current : UpToDate comparison results f onDisk) :
    UpToDate comparison moreResults f onDisk := by
  obtain ⟨r, given, same⟩ := current
  exact ⟨r, more r given, same⟩

theorem JobOk.mono (infosMore : ∀ info, infos info → moreInfos info) (more : ∀ r, results r → moreResults r) {job : Job}
    (ok : JobOk comparison k f mode infos results onDisk job) : JobOk comparison k f mode moreInfos moreResults onDisk job := by
  cases job with
  | list => trivial
  | files info again todo tracker syncdsUpdate =>
    have files : FilesOk comparison k f mode infos results onDisk info todo tracker syncdsUpdate := ok
    refine ⟨infosMore info files.info, files.blocked, fun t member named => ?_, files.tracked, files.visited⟩
    have fine := files.own t member named
    exact ⟨fine.read, fun r needed => more r (fine.needed r needed), fun settled => (fine.settled settled).mono more, fine.synced⟩
  | services => exact fun clears => (ok clears).imp_right fun current => current.mono more
  | update => exact ⟨ok.1, fun clears => (ok.2 clears).mono more⟩
  | post => exact Or.imp_right (fun current => current.mono more) ok

end Monotone

/-- A revalidation runs only while the run itself sleeps or is about to leave. -/
def Process.Nested (p : Process) : Prop :=
  p.revalidation ≠ none → (∃ status, p.stage = .dispersing status) ∨ (∃ pending, p.stage = .waiting pending) ∨ p.stage = .leaving

section Runs

variable (fleet : Fleet) (w : World)

/-- Something that held of a state of the run. -/
def Seen (past : List Event) (p : World → Prop) : Prop :=
  ∃ before after u, past = before ++ after ∧ run (World.step fleet) w before = some u ∧ p u

/-- The texts that a file has had, with the placeholders filled in as the lists of files have told. -/
def GivenText (past : List Event) (hostName f : String) (r : Text) : Prop :=
  ∃ info text, Seen fleet w past (fun u => u.ops.generated.info hostName = info) ∧
    Seen fleet w past (fun u => u.ops.generated.text hostName f = some text) ∧ r = Info.fill info (fleet.host hostName) text

/-- A file on a cache is one that Traffic Ops has generated in the run, or does not differ from it. -/
def Applied (past : List Event) (hostName f : String) (u : World) : Prop :=
  UpToDate fleet.comparison (GivenText fleet w past hostName f) f (u.disk hostName f)

-- What the jobs of the cache have to keep, with the infos and the texts of the run so far.
def WorkOk (past : List Event) (k : Flag) (hostName f : String) (mode : Mode) (onDisk : Option Text) (job : Job) : Prop :=
  JobOk fleet.comparison k f mode (fun info => Seen fleet w past fun u => u.ops.generated.info hostName = info)
    (GivenText fleet w past hostName f) onDisk job

structure ProcessOk (past : List Event) (k : Flag) (hostName f : String) (onDisk : Option Text) (p : Process) : Prop where
  nested : p.Nested
  main : ∀ job, p.stage = .working job → WorkOk fleet w past k hostName f p.settings.mode onDisk job
  revalidation : ∀ job, p.revalidation = some job → WorkOk fleet w past k hostName f .revalidate onDisk job

structure Held (k : Flag) (hostName f : String) (past : List Event) (u : World) : Prop where
  main : u.ops.flagged k hostName = true ∨ Applied fleet w past hostName f u
  process : ∀ p, u.processes hostName = some p → ProcessOk fleet w past k hostName f (u.disk hostName f) p

end Runs

/-- A run that has not fetched a list yet. -/
structure Process.Early (p : Process) : Prop where
  nested : p.Nested
  main : ∀ job, p.stage = .working job → ∃ n, job = .list n
  revalidation : ∀ job, p.revalidation = some job → ∃ n, job = .list n

/-- Traffic Ops has the file, nobody takes the update back, and the file on the cache can be read. -/
structure Keeps (k : Flag) (hostName f : String) (u : World) (event : Event) : Prop where
  offered : Offered u.ops.generated k hostName f
  separate : k = .reval → u.ops.useRevalPending = some "1"
  queued : k = .upd → ∀ target s, event = .queue target false → u.ops.host? hostName = some s → target.selects u.ops s = false
  readable : ∀ prereqs, event ≠ .job hostName (.file prereqs false)

section Stays

variable {fleet : Fleet} {w u u' : World} {past : List Event} {event : Event} {k : Flag} {hostName f : String} {p : World → Prop}

theorem Seen.later (seen : Seen fleet w past p) (event : Event) : Seen fleet w (past ++ [event]) p := by
  obtain ⟨before, after, u, split, ran, holds⟩ := seen
  exact ⟨before, after ++ [event], u, by rw [split, List.append_assoc], ran, holds⟩

theorem seen_now (ran : run (World.step fleet) w past = some u) (holds : p u) : Seen fleet w past p :=
  ⟨past, [], u, (List.append_nil past).symm, ran, holds⟩

theorem GivenText.later {r : Text} (given : GivenText fleet w past hostName f r) (event : Event) :
    GivenText fleet w (past ++ [event]) hostName f r := by
  obtain ⟨info, text, told, fetched, same⟩ := given
  exact ⟨info, text, told.later event, fetched.later event, same⟩

theorem WorkOk.later {mode : Mode} {onDisk : Option Text} {job : Job} (ok : WorkOk fleet w past k hostName f mode onDisk job) (event : Event) :
    WorkOk fleet w (past ++ [event]) k hostName f mode onDisk job :=
  JobOk.mono (fun _ seen => seen.later event) (fun _ given => given.later event) ok

theorem workOk_list {mode : Mode} {onDisk : Option Text} {job : Job} (early : ∃ n, job = .list n) :
    WorkOk fleet w past k hostName f mode onDisk job := by
  obtain ⟨n, rfl⟩ := early
  trivial

theorem ProcessOk.later {onDisk : Option Text} {q : Process} (ok : ProcessOk fleet w past k hostName f onDisk q) (event : Event) :
    ProcessOk fleet w (past ++ [event]) k hostName f onDisk q :=
  ⟨ok.nested, fun job stage => (ok.main job stage).later event, fun job stage => (ok.revalidation job stage).later event⟩

theorem Process.Early.ok {onDisk : Option Text} {q : Process} (early : q.Early) : ProcessOk fleet w past k hostName f onDisk q :=
  ⟨early.nested, fun job stage => workOk_list (early.main job stage), fun job stage => workOk_list (early.revalidation job stage)⟩

/-- A step of others, which leaves the flag set and the cache as it is. -/
theorem Held.other (held : Held fleet w k hostName f past u) (flag : u.ops.flagged k hostName = true → u'.ops.flagged k hostName = true)
    (disk : u'.disk hostName = u.disk hostName)
    (process : ∀ q, u'.processes hostName = some q → u.processes hostName = some q ∨ ProcessOk fleet w past k hostName f (u.disk hostName f) q) :
    Held fleet w k hostName f (past ++ [event]) u' ∧
      (Applied fleet w past hostName f u → Applied fleet w (past ++ [event]) hostName f u') := by
  have kept : Applied fleet w past hostName f u → Applied fleet w (past ++ [event]) hostName f u' := fun current => by
    unfold Applied
    rw [disk]
    exact current.mono fun _ given => given.later event
  refine ⟨⟨held.main.imp flag kept, fun q running => ?_⟩, kept⟩
  rw [disk]
  exact ((process q running).elim (held.process q) id).later event

end Stays

section Processes

variable {fleet : Fleet} {w u u' : World} {past : List Event} {event : Event} {k : Flag} {hostName f : String} {onDisk : Option Text}

theorem Process.Forward.ok {p q : Process} (forward : p.Forward q) (idle : p.revalidation = none) :
    ProcessOk fleet w past k hostName f onDisk q := by
  have none := forward.2.1.trans idle
  exact ⟨fun busy => absurd none busy, fun job stage => workOk_list (forward.2.2 job stage), fun job busy => nomatch none.symm.trans busy⟩

theorem Process.Nested.idle {p : Process} {status : Option UpdateStatus} {next : Option Process} (nested : p.Nested) (checked : p.check status = some next) :
    p.revalidation = none := by
  by_contra busy
  unfold Process.check at checked
  rcases nested busy with ⟨status, stage⟩ | ⟨pending, stage⟩ | stage <;> (rw [stage] at checked; cases checked)

/-- A run that goes on, or exits, without a step of its job. -/
theorem Held.become (held : Held fleet w k hostName f past u) {other : String} {next : Option Process}
    (ok : other = hostName → ∀ q, next = some q → ProcessOk fleet w past k hostName f (u.disk hostName f) q) :
    Held fleet w k hostName f (past ++ [event]) (u.become other next) ∧
      (Applied fleet w past hostName f u → Applied fleet w (past ++ [event]) hostName f (u.become other next)) := by
  refine held.other id rfl fun q running => ?_
  by_cases own : other = hostName
  · subst own
    rw [World.become_self] at running
    exact Or.inr (ok rfl q running)
  · rw [World.become_of_ne u (Ne.symm own)] at running
    exact Or.inl running

/-- A step of a job of the cache itself. -/
theorem Held.job (held : Held fleet w k hostName f past u) (ordinary : hostName ≠ "all") (ran : run (World.step fleet) w past = some u)
    {event : JobEvent} (keeps : Keeps k hostName f u (.job hostName event)) {job : Job} {mode : Mode} {revalInUse : Bool} {worked : Worked}
    (stepped : Job.step fleet u.ops (u.disk hostName) hostName mode revalInUse job event = some worked)
    (ok : WorkOk fleet w past k hostName f mode (u.disk hostName f) job) :
    (∀ next, worked.job = some next → WorkOk fleet w past k hostName f mode (worked.disk f) next) ∧
      (UpToDate fleet.comparison (GivenText fleet w past hostName f) f (u.disk hostName f) →
        UpToDate fleet.comparison (GivenText fleet w past hostName f) f (worked.disk f)) ∧
      (worked.ops.flagged k hostName = true ∨ UpToDate fleet.comparison (GivenText fleet w past hostName f) f (worked.disk f)) := by
  refine JobOk.step ok held.main ordinary keeps.offered keeps.separate (seen_now ran rfl) (fun info told text given => ?_)
    (fun prereqs same => keeps.readable prereqs (congrArg _ same)) stepped
  exact ⟨info, text, told, seen_now ran given, rfl⟩

theorem held_changed {ops : TrafficOps} {disk : String → Option Text} {next : Option Process}
    (main : ops.flagged k hostName = true ∨ UpToDate fleet.comparison (GivenText fleet w past hostName f) f (disk f))
    (after : ∀ q, next = some q → ProcessOk fleet w past k hostName f (disk f) q) :
    Held fleet w k hostName f (past ++ [event]) ⟨ops, Function.update u.disk hostName disk, Function.update u.processes hostName next⟩ := by
  refine ⟨main.imp_right fun current => ?_, fun q running => ?_⟩
  · simp only [Applied, Function.update_self]
    exact current.mono fun _ given => given.later event
  · simp only [Function.update_self] at running ⊢
    exact (after q running).later event

theorem Held.workedOn (held : Held fleet w k hostName f past u) (ordinary : hostName ≠ "all") (ran : run (World.step fleet) w past = some u)
    {event : JobEvent} (keeps : Keeps k hostName f u (.job hostName event)) {p : Process} (running : u.processes hostName = some p)
    (worked : WorkedOn fleet u hostName p event u') :
    Held fleet w k hostName f (past ++ [.job hostName event]) u' ∧
      (Applied fleet w past hostName f u → Applied fleet w (past ++ [.job hostName event]) hostName f u') := by
  have ok := held.process p running
  cases worked with
  | @revalidated job worked next busy stepped rest =>
    obtain ⟨jobs, kept, main⟩ := held.job ordinary ran keeps stepped (ok.revalidation job busy)
    have resting := ok.nested (by rw [busy]; exact Option.some_ne_none _)
    have after : ∀ q, next = some q → ProcessOk fleet w past k hostName f (worked.disk f) q := by
      rintro q rfl
      obtain rfl := Option.some.inj (rest.resolve_left (Option.some_ne_none _))
      refine ⟨fun _ => resting, fun job stage => ?_, jobs⟩
      rcases resting with ⟨status, rests⟩ | ⟨pending, rests⟩ | rests <;> cases rests.symm.trans stage
    refine ⟨held_changed main after, fun current => ?_⟩
    simp only [Applied, Function.update_self]
    exact (kept current).mono fun _ given => given.later _
  | @worked job worked idle busy stepped =>
    obtain ⟨jobs, kept, main⟩ := held.job ordinary ran keeps stepped (ok.main job busy)
    have after : ∀ q, (worked.job.map fun job => { p with stage := .working job }) = some q →
        ProcessOk fleet w past k hostName f (worked.disk f) q := by
      intro q next
      obtain ⟨job, rest, rfl⟩ := Option.map_eq_some_iff.mp next
      refine ⟨fun busy => absurd idle busy, fun other stage => ?_, fun other busy => nomatch idle.symm.trans busy⟩
      exact Stage.working.inj stage ▸ jobs job rest
    refine ⟨held_changed main after, fun current => ?_⟩
    simp only [Applied, Function.update_self]
    exact (kept current).mono fun _ given => given.later _

/-- What Traffic Ops is asked to do does not take the flag back. -/
theorem flagged_queue {target : QueueTarget} {setqueue : Bool} (keeps : Keeps k hostName f u (.queue target setqueue))
    (set : u.ops.flagged k hostName = true) : (u.ops.postupdatequeue target setqueue).flagged k hostName = true := by
  unfold TrafficOps.postupdatequeue
  cases setqueue with
  | true => exact TrafficOps.flagged_raised (by cases k <;> rfl) set
  | false =>
    cases k with
    | upd => exact (TrafficOps.flagged_skipped fun s found => keeps.queued rfl target s rfl found).trans set
    | reval => exact TrafficOps.flagged_raised rfl set

theorem flagged_setStatus {ops : TrafficOps} {id : Nat} {status : String} : (ops.setStatus id status).flagged k hostName = ops.flagged k hostName := by
  rw [TrafficOps.flagged, TrafficOps.setStatus, TrafficOps.host?_alter fun s => by split <;> rfl, Option.any_map]
  congr 1
  funext s
  cases k <;> simp only [Flag.get] <;> split <;> rfl

/-- A step of anybody keeps an update queued until it is applied, and applied from then on. -/
theorem Held.step (held : Held fleet w k hostName f past u) (ordinary : hostName ≠ "all") (ran : run (World.step fleet) w past = some u)
    (keeps : Keeps k hostName f u event) (stepped : World.step fleet u event = some u') :
    Held fleet w k hostName f (past ++ [event]) u' ∧
      (Applied fleet w past hostName f u → Applied fleet w (past ++ [event]) hostName f u') := by
  cases event with
  | edit generated =>
    obtain rfl := Option.some.inj stepped
    exact held.other id rfl fun q running => Or.inl running
  | queue target setqueue =>
    obtain rfl := Option.some.inj stepped
    exact held.other (flagged_queue keeps) rfl fun q running => Or.inl running
  | invalidate cdn =>
    obtain rfl := Option.some.inj stepped
    refine held.other (fun set => ?_) rfl fun q running => Or.inl running
    dsimp only
    unfold TrafficOps.setUpdateServerBits
    dsimp only
    split <;> exact TrafficOps.flagged_raised (by cases k <;> rfl) set
  | setStatus id status =>
    obtain rfl := Option.some.inj stepped
    exact held.other (fun set => flagged_setStatus.trans set) rfl fun q running => Or.inl running
  | setUseReval value =>
    obtain rfl := Option.some.inj stepped
    exact held.other id rfl fun q running => Or.inl running
  | start other settings =>
    rw [World.step] at stepped
    split at stepped
    · cases stepped
    · obtain rfl := Option.some.inj stepped
      refine held.become fun own q same => ?_
      obtain rfl := Option.some.inj same
      refine (Process.Early.mk (fun busy => absurd rfl busy) (fun job stage => ?_) fun job busy => (Option.some_ne_none job busy.symm).elim).ok
      dsimp only at stage
      split at stage <;> cases stage
  | check other =>
    obtain ⟨p, running, next⟩ := Option.bind_eq_some_iff.mp stepped
    obtain ⟨status, q, answered, checked, rfl⟩ := answered_some next
    refine held.become fun own q same => ?_
    subst own same
    exact (Process.forward_check checked).ok ((held.process p running).nested.idle checked)
  | wake other =>
    obtain ⟨p, running, next⟩ := Option.bind_eq_some_iff.mp stepped
    obtain ⟨q, woke, rfl⟩ := Option.map_eq_some_iff.mp next
    refine held.become fun own q same => ?_
    obtain rfl := Option.some.inj same
    have idle : p.revalidation = none := by
      unfold Process.wake at woke
      split at woke
      · cases woke
      · next idle => exact Option.not_isSome_iff_eq_none.mp idle
    exact (Process.forward_wake woke).ok idle
  | revalidate other =>
    obtain ⟨p, running, next⟩ := Option.bind_eq_some_iff.mp stepped
    obtain ⟨status, q, answered, went, rfl⟩ := answered_some next
    refine held.become fun own q same => ?_
    subst own same
    rcases Process.revalidate_cases went with rfl | ⟨_, resting, rfl⟩
    · exact held.process q running
    · refine ⟨fun _ => ?_, (held.process p running).main, fun job busy => workOk_list ⟨_, (Option.some.inj busy).symm⟩⟩
      refine resting.elim (fun sleeps => ?_) fun leaves => Or.inr (Or.inr leaves)
      unfold Process.isSleeping at sleeps
      split at sleeps
      · next status rests => exact Or.inl ⟨status, rests⟩
      · next pending rests => exact Or.inr (Or.inl ⟨pending, rests⟩)
      · cases sleeps
  | job other event =>
    obtain ⟨p, running, next⟩ := Option.bind_eq_some_iff.mp stepped
    by_cases own : other = hostName
    · subst own
      exact held.workedOn ordinary ran keeps running (workedOn_of_workOn next)
    · obtain ⟨flags, disk, processes⟩ := workedOn_other own (workedOn_of_workOn next)
      exact held.other (flags k).trans disk fun q running => Or.inl (processes ▸ running)
  | exit other =>
    obtain rfl := Option.some.inj stepped
    exact held.become fun own q same => (Option.some_ne_none q same.symm).elim

end Processes

section Queued

variable {fleet : Fleet} {w t : World} {events : List Event} {k : Flag} {hostName f : String}

theorem held_of_run (ordinary : hostName ≠ "all") (queued : w.ops.flagged k hostName = true) (early : ∀ p, w.processes hostName = some p → p.Early)
    (throughout : Throughout (World.step fleet) (Keeps k hostName f) w events) (ran : run (World.step fleet) w events = some t) :
    Held fleet w k hostName f events t := by
  have kept : ∀ past u event u', (run (World.step fleet) w past = some u ∧ Held fleet w k hostName f past u) → Keeps k hostName f u event →
      World.step fleet u event = some u' → run (World.step fleet) w (past ++ [event]) = some u' ∧ Held fleet w k hostName f (past ++ [event]) u' := by
    rintro past u event u' ⟨reached, held⟩ keeps stepped
    refine ⟨?_, (held.step ordinary reached keeps stepped).1⟩
    rw [run_append, reached, Option.bind_some, run, stepped, Option.bind_some, run]
  have start : run (World.step fleet) w [] = some w ∧ Held fleet w k hostName f [] w :=
    ⟨rfl, Or.inl queued, fun p running => (early p running).ok⟩
  exact (run_history kept start throughout ran).2

/-- Nobody changes what Traffic Ops generates, takes an update back or changes a status, and the files can be read. -/
def Event.isSteady : Event → Bool
  | .edit _ | .queue _ false | .setStatus _ _ | .setUseReval _ | .job _ (.file _ false) => false
  | _ => true

theorem setFlags_generated {ops : TrafficOps} {rows : Server → Bool} {upd reval : Option Bool} :
    (ops.setFlags rows upd reval).generated = ops.generated ∧ (ops.setFlags rows upd reval).useRevalPending = ops.useRevalPending := ⟨rfl, rfl⟩

theorem steady_step {u u' : World} {event : Event} (steady : event.isSteady = true) (stepped : World.step fleet u event = some u') :
    u'.ops.generated = u.ops.generated ∧ u'.ops.useRevalPending = u.ops.useRevalPending := by
  have posted : ∀ {other mode revalInUse job event worked}, Job.step fleet u.ops (u.disk other) other mode revalInUse job event = some worked →
      worked.ops.generated = u.ops.generated ∧ worked.ops.useRevalPending = u.ops.useRevalPending := by
    intro other mode revalInUse job event worked took
    rcases Job.step_ops took with same | ⟨updated, revalUpdated, -, same⟩
    · rw [same]
      exact ⟨rfl, rfl⟩
    · rw [same, TrafficOps.postupdate]
      cases u.ops.host? other with
      | none => exact ⟨rfl, rfl⟩
      | some s => exact setFlags_generated
  cases event with
  | edit | setStatus | setUseReval => cases steady
  | queue => exact Option.some.inj stepped ▸ setFlags_generated
  | invalidate cdn =>
    obtain rfl := Option.some.inj stepped
    dsimp only [TrafficOps.setUpdateServerBits]
    split <;> exact setFlags_generated
  | start other settings =>
    rw [World.step] at stepped
    split at stepped
    · cases stepped
    · exact Option.some.inj stepped ▸ ⟨rfl, rfl⟩
  | check other | revalidate other =>
    obtain ⟨p, running, next⟩ := Option.bind_eq_some_iff.mp stepped
    obtain ⟨status, q, answered, went, rfl⟩ := answered_some next
    exact ⟨rfl, rfl⟩
  | wake other =>
    obtain ⟨p, running, next⟩ := Option.bind_eq_some_iff.mp stepped
    obtain ⟨q, woke, rfl⟩ := Option.map_eq_some_iff.mp next
    exact ⟨rfl, rfl⟩
  | job other event =>
    obtain ⟨p, running, next⟩ := Option.bind_eq_some_iff.mp stepped
    cases workedOn_of_workOn next with
    | revalidated busy took => exact posted took
    | worked idle busy took => exact posted took
  | exit other => exact Option.some.inj stepped ▸ ⟨rfl, rfl⟩

/-- A steady run keeps an update queued if its first state does. -/
theorem throughout_keeps (offered : Offered w.ops.generated k hostName f) (separate : k = .reval → w.ops.useRevalPending = some "1")
    (steady : ∀ event ∈ events, event.isSteady = true) : Throughout (World.step fleet) (Keeps k hostName f) w events := by
  induction events generalizing w with
  | nil => trivial
  | cons event events ih =>
    have quiet := steady event List.mem_cons_self
    refine ⟨⟨offered, separate, fun _ target s same => ?_, fun prereqs same => ?_⟩, fun u stepped => ?_⟩
    · rw [same] at quiet
      cases quiet
    · rw [same] at quiet
      cases quiet
    · obtain ⟨generated, useReval⟩ := steady_step quiet stepped
      exact ih (generated ▸ offered) (useReval ▸ separate) fun other member => steady other (List.mem_cons_of_mem _ member)

theorem sample_offered : Offered sampleGenerated .upd "mid" "parent.config" where
  named := by decide
  text := ⟨_, rfl, by decide +kernel⟩
  listed := ⟨_, List.mem_cons_self, by decide +kernel, by decide⟩
  synced := by decide +kernel

theorem sample_early {hostName : String} (p : Process) (running : sampleWorld.processes hostName = some p) : p.Early :=
  (Option.some_ne_none p running.symm).elim

end Queued

section Parents

variable {fleet : Fleet} {w u u' t : World} {past events : List Event} {event : Event} {hostName parent f : String}

/-- Whether a cache is an edge whose parent cache group has the other. -/
def TrafficOps.isBelow (ops : TrafficOps) (hostName parent : String) : Bool :=
  (ops.host? hostName).any fun s => "EDGE".toList.isPrefixOf s.type.toList && (ops.host? parent).any fun q => q ∈ ops.parents s

/-- The cache is an edge below the parent, revalidation is not separated, and the cache waits for its parents. -/
structure Waits (hostName parent f : String) (u : World) (event : Event) : Prop where
  keeps : Keeps .upd parent f u event
  edge : u.ops.isBelow hostName parent = true
  together : u.ops.useRevalPending = none
  patient : ∀ settings, event = .start hostName settings → settings.mode = .syncds ∧ settings.waitForParents = true

/-- What the cache has read when its parents do not hold it back. -/
def Stage.Released (applied : Prop) : Stage → Prop
  | .dispersing status => status.parentPending = true ∨ applied
  | .working _ => applied
  | .checkRevalidate => False
  | _ => True

structure Patient (applied : Prop) (p : Process) : Prop where
  mode : p.settings.mode = .syncds
  waits : p.settings.waitForParents = true
  together : p.revalInUse = false
  alone : p.revalidation = none
  stage : p.stage.Released applied

/-- The answer for the cache when its parent has nothing pending. -/
theorem Waits.answer (waits : Waits hostName parent f u event) (route : fleet.updateStatusRoute = false) (ordinary : hostName ≠ "all")
    {status : Option UpdateStatus} (answered : fleet.updateStatus u.ops hostName = some status) :
    ∃ answer, status = some answer ∧ answer.revalPending = none ∧ (answer.parentPending = false → u.ops.flagged .upd parent = false) := by
  obtain ⟨s, found, below⟩ := (Option.any_eq_true _ _).mp waits.edge
  obtain ⟨edge, parents⟩ := Bool.and_eq_true_iff.mp below
  obtain ⟨q, above, member⟩ := (Option.any_eq_true _ _).mp parents
  have inside := of_decide_eq_true member
  rw [Fleet.updateStatus, if_neg (by simp [route])] at answered
  obtain rfl := Option.some.inj answered
  rw [TrafficOps.readupdate, List.head?_map, List.head?_filter]
  simp only [ordinary, decide_false, Bool.false_or, if_false]
  rw [← TrafficOps.host?, found, waits.together]
  refine ⟨_, rfl, rfl, fun idle => ?_⟩
  rw [Option.elim_some, if_pos edge] at idle
  rw [TrafficOps.flagged, above, Option.any_some]
  exact Bool.eq_false_iff.mpr fun pending => List.any_eq_false.mp idle q inside pending

theorem Stage.Released.mono {applied more : Prop} (kept : applied → more) {stage : Stage} (released : stage.Released applied) :
    stage.Released more := by
  cases stage with
  | dispersing status => exact Or.imp_right kept released
  | working job => exact kept released
  | checkRevalidate => exact released
  | _ => trivial

theorem Patient.mono {applied more : Prop} (kept : applied → more) {p : Process} (patient : Patient applied p) : Patient more p :=
  ⟨patient.mode, patient.waits, patient.together, patient.alone, patient.stage.mono kept⟩

theorem Patient.checkParents {applied : Prop} {p : Process} (patient : Patient applied p) {status : UpdateStatus}
    (released : status.parentPending = true ∨ applied) : Patient applied (p.checkParents status) := by
  unfold Process.checkParents
  split
  · refine ⟨patient.mode, patient.waits, patient.together, patient.alone, ?_⟩
    dsimp only
    split <;> trivial
  · next free =>
    refine ⟨patient.mode, patient.waits, patient.together, patient.alone, released.resolve_left fun pending => ?_⟩
    exact free ⟨pending, patient.waits, patient.together, patient.mode⟩

theorem Patient.check {applied : Prop} {p q : Process} (patient : Patient applied p) {answer : UpdateStatus} (alone : answer.revalPending = none)
    (released : answer.parentPending = false → applied) (checked : p.check (some answer) = some (some q)) : Patient applied q := by
  have freed : answer.parentPending = true ∨ applied := (Bool.eq_false_or_eq_true answer.parentPending).imp_right released
  unfold Process.check at checked
  split at checked
  · obtain rfl := Option.some.inj (Option.some.inj checked)
    exact ⟨patient.mode, patient.waits, by simp [alone], patient.alone, trivial⟩
  · have next := Option.some.inj checked
    dsimp only at next
    split at next
    · obtain rfl := Option.some.inj next
      split
      · exact ⟨patient.mode, patient.waits, patient.together, patient.alone, freed⟩
      · exact patient.checkParents freed
    · rw [if_pos patient.mode] at next
      obtain rfl := Option.some.inj next
      exact ⟨patient.mode, patient.waits, patient.together, patient.alone, trivial⟩
  · have next := Option.some.inj checked
    split at next
    · cases next
    · next free =>
      obtain rfl := Option.some.inj next
      refine ⟨patient.mode, patient.waits, patient.together, patient.alone, released ?_⟩
      simp only [Option.any_some, Bool.or_eq_true, not_or, Bool.not_eq_true] at free
      exact free.1
  · next stage =>
    have released := patient.stage
    rw [stage] at released
    exact released.elim
  · cases checked

theorem Patient.wake {applied : Prop} {p q : Process} (patient : Patient applied p) (woke : p.wake = some q) : Patient applied q := by
  unfold Process.wake at woke
  split at woke
  · cases woke
  split at woke
  · next status stage =>
    obtain rfl := Option.some.inj woke
    have released := patient.stage
    rw [stage] at released
    exact patient.checkParents released
  · obtain rfl := Option.some.inj woke
    exact ⟨patient.mode, patient.waits, patient.together, patient.alone, trivial⟩
  · cases woke

/-- What the cache has done so far it has done after its parent. -/
structure Behind (fleet : Fleet) (w : World) (hostName parent f : String) (past : List Event) (u : World) : Prop where
  ran : run (World.step fleet) w past = some u
  held : Held fleet w .upd parent f past u
  disk : u.disk hostName = w.disk hostName ∨ Applied fleet w past parent f u
  process : ∀ p, u.processes hostName = some p → Patient (Applied fleet w past parent f u) p

/-- A step that leaves the disk of the cache, and its run if it has one in good order. -/
theorem Behind.other (behind : Behind fleet w hostName parent f past u) (ran : run (World.step fleet) w (past ++ [event]) = some u')
    (held : Held fleet w .upd parent f (past ++ [event]) u' ∧ (Applied fleet w past parent f u → Applied fleet w (past ++ [event]) parent f u'))
    (disk : u'.disk hostName = u.disk hostName)
    (process : ∀ q, u'.processes hostName = some q → u.processes hostName = some q ∨ Patient (Applied fleet w past parent f u) q) :
    Behind fleet w hostName parent f (past ++ [event]) u' :=
  ⟨ran, held.1, (behind.disk.imp_left disk.trans).imp_right held.2, fun q running => ((process q running).elim (behind.process q) id).mono held.2⟩

theorem Behind.become (behind : Behind fleet w hostName parent f past u) {other : String} {next : Option Process}
    (ran : run (World.step fleet) w (past ++ [event]) = some (u.become other next))
    (held : Held fleet w .upd parent f (past ++ [event]) (u.become other next) ∧
      (Applied fleet w past parent f u → Applied fleet w (past ++ [event]) parent f (u.become other next)))
    (ok : other = hostName → ∀ q, next = some q → Patient (Applied fleet w past parent f u) q) :
    Behind fleet w hostName parent f (past ++ [event]) (u.become other next) := by
  refine behind.other ran held rfl fun q running => ?_
  by_cases own : other = hostName
  · subst own
    rw [World.become_self] at running
    exact Or.inr (ok rfl q running)
  · rw [World.become_of_ne u (Ne.symm own)] at running
    exact Or.inl running

theorem Behind.step (behind : Behind fleet w hostName parent f past u) (route : fleet.updateStatusRoute = false) (ordinary : hostName ≠ "all")
    (ordinaryParent : parent ≠ "all") (waits : Waits hostName parent f u event) (stepped : World.step fleet u event = some u') :
    Behind fleet w hostName parent f (past ++ [event]) u' := by
  have ran : run (World.step fleet) w (past ++ [event]) = some u' := by
    rw [run_append, behind.ran, Option.bind_some, run, stepped, Option.bind_some, run]
  have held := behind.held.step ordinaryParent behind.ran waits.keeps stepped
  have applied : u.ops.flagged .upd parent = false → Applied fleet w past parent f u := fun idle =>
    behind.held.main.resolve_left fun pending => Bool.false_ne_true (idle.symm.trans pending)
  cases event with
  | edit | queue | invalidate | setStatus | setUseReval =>
    obtain rfl := Option.some.inj stepped
    exact behind.other ran held rfl fun q running => Or.inl running
  | start other settings =>
    rw [World.step] at stepped
    split at stepped
    · cases stepped
    · obtain rfl := Option.some.inj stepped
      refine behind.become ran held fun own q same => ?_
      obtain ⟨mode, patient⟩ := waits.patient settings (own ▸ rfl)
      obtain rfl := Option.some.inj same
      exact ⟨mode, patient, rfl, rfl, by rw [if_neg (by simp [mode])]; trivial⟩
  | check other =>
    obtain ⟨p, running, next⟩ := Option.bind_eq_some_iff.mp stepped
    obtain ⟨status, q, answered, checked, rfl⟩ := answered_some next
    refine behind.become ran held fun own q same => ?_
    subst own same
    obtain ⟨answer, rfl, alone, idle⟩ := waits.answer route ordinary answered
    exact (behind.process p running).check alone (fun none => applied (idle none)) checked
  | wake other =>
    obtain ⟨p, running, next⟩ := Option.bind_eq_some_iff.mp stepped
    obtain ⟨q, woke, rfl⟩ := Option.map_eq_some_iff.mp next
    refine behind.become ran held fun own q same => ?_
    subst own
    obtain rfl := Option.some.inj same
    exact (behind.process p running).wake woke
  | revalidate other =>
    obtain ⟨p, running, next⟩ := Option.bind_eq_some_iff.mp stepped
    obtain ⟨status, q, answered, went, rfl⟩ := answered_some next
    refine behind.become ran held fun own q same => ?_
    subst own same
    obtain ⟨answer, rfl, alone, idle⟩ := waits.answer route ordinary answered
    exact revalidate_alone (by simp [alone]) went ▸ behind.process p running
  | job other event =>
    obtain ⟨p, running, next⟩ := Option.bind_eq_some_iff.mp stepped
    by_cases own : other = hostName
    · subst own
      have patient := behind.process p running
      cases workedOn_of_workOn next with
      | revalidated busy => exact absurd (patient.alone.symm.trans busy).symm (Option.some_ne_none _)
      | @worked job worked idle busy took =>
        have released := patient.stage
        rw [busy] at released
        refine ⟨ran, held.1, Or.inr (held.2 released), fun q going => ?_⟩
        simp only [Function.update_self] at going
        obtain ⟨job, -, rfl⟩ := Option.map_eq_some_iff.mp going
        exact ⟨patient.mode, patient.waits, patient.together, patient.alone, held.2 released⟩
    · obtain ⟨-, disk, processes⟩ := workedOn_other own (workedOn_of_workOn next)
      exact behind.other ran held disk fun q going => Or.inl (processes ▸ going)
  | exit other =>
    obtain rfl := Option.some.inj stepped
    exact behind.become ran held fun own q same => (Option.some_ne_none q same.symm).elim

end Parents

end Ort
