import TrafficControl.Lib.Runs
import TrafficControl.TrafficOps.Api.SharedHandlers

set_option autoImplicit false

namespace Cdns

open DsRequest

structure Cdn where
  dnssecEnabled : Bool
  domainName : String
  id : Int
  name : String

-- `inUse` are the rows that other tables refer to.
structure Db where
  cdns : AList fun _ : Int => Cdn
  inUse : List Int

def delete (db : Db) (cdn : Cdn) : Result Db := do
  refuse (cdn.id ∈ db.cdns ∧ cdn.id ∈ db.inUse) .db
  refuse (cdn.id ∉ db.cdns) (.error "no cdn with that id found" .DataMissingError)
  return { db with cdns := db.cdns.erase cdn.id }

theorem delete_ok_iff {db db' : Db} {cdn : Cdn} : delete db cdn = .ok db' ↔
    cdn.id ∈ db.cdns ∧ cdn.id ∉ db.inUse ∧ db' = { db with cdns := db.cdns.erase cdn.id } := by
  simp only [delete, ExceptList.bind_ok_iff, refuse_ok_iff, not_not, not_and]
  constructor
  · rintro ⟨_, unused, _, member, result⟩
    exact ⟨member, unused member, (Except.ok.inj result).symm⟩
  · rintro ⟨member, unused, rfl⟩
    exact ⟨(), fun _ => unused, (), member, rfl⟩

end Cdns

namespace Api

open DsRequest KeyedTable Runs Tenants

/-- A type whose deletions take one row, that of the id in the object. -/
structure Route (Object Store : Type) extends Deleter Object Store where
  getId : Object → Option Int
  ids : Store → Finset Int
  getId_setId : ∀ id object, getId (setId id object) = some id
  ids_delete : ∀ store object store', delete store object = .ok store' →
    ∃ id ∈ ids store, getId object = some id ∧ ids store' = (ids store).erase id

theorem cdns_delete (db : Cdns.Db) (cdn : Cdns.Cdn) (db' : Cdns.Db) (accepted : Cdns.delete db cdn = .ok db') :
    ∃ id ∈ keySet db.cdns, some cdn.id = some id ∧ keySet db'.cdns = (keySet db.cdns).erase id := by
  obtain ⟨member, -, rfl⟩ := Cdns.delete_ok_iff.mp accepted
  exact ⟨cdn.id, mem_keySet.mpr member, rfl, keySet_erase cdn.id⟩

theorem deletedRequests_delete (db : Db) (req : Request) (db' : Db) (accepted : delete db req = .ok db') :
    ∃ id ∈ keySet db.requests, req.id = some id ∧ keySet db'.requests = (keySet db.requests).erase id := by
  obtain ⟨id, row, named, found, -, rfl⟩ := delete_ok_iff.mp accepted
  exact ⟨id, mem_keySet.mpr (mem_of_lookup found), named, keySet_erase id⟩

def deleteCdns : Route Cdns.Cdn Cdns.Db where
  setId id cdn := { cdn with id }
  isTenantAuthorized := none
  delete := Cdns.delete
  getId cdn := some cdn.id
  ids db := keySet db.cdns
  getId_setId _ _ := rfl
  ids_delete := cdns_delete

def deleteRequests (tenancy : Tenancy) : Route Request Db where
  toDeleter := deletedRequests tenancy
  getId := Request.id
  ids db := keySet db.requests
  getId_setId _ _ := rfl
  ids_delete := deletedRequests_delete

structure Asked where
  user : CurrentUser
  pathId : Except String Int

-- How far a request has come.
inductive Stage where
  | received
  | named
  | authorized
  | answered (answer : Handled Unit)

/-- All requests of a route share its object. `deleted` records what left the table in the step of a request. -/
structure State (Client Object Store : Type) where
  object : Object
  store : Store
  stage : Client → Stage
  deleted : Client → Finset Int

section Steps

variable {Client Object Store : Type}

def start (object : Object) (store : Store) : State Client Object Store where
  object := object
  store := store
  stage _ := .received
  deleted _ := ∅

variable [DecidableEq Client] (route : Route Object Store) (asked : Client → Asked)

def State.enter (s : State Client Object Store) (client : Client) (stage : Stage) : State Client Object Store :=
  { s with stage := Function.update s.stage client stage }

def State.proceed {α : Type} (s : State Client Object Store) (client : Client) (outcome : Handled α)
    (next : α → State Client Object Store) : State Client Object Store :=
  match outcome with
  | .error refusal => s.enter client (.answered (.error refusal))
  | .ok value => next value

def setId (s : State Client Object Store) (client : Client) (id : Int) : State Client Object Store :=
  State.enter { s with object := route.setId id s.object } client .named

def remove (s : State Client Object Store) (client : Client) (store : Store) : State Client Object Store :=
  { s.enter client (.answered (.ok ())) with
    store
    deleted := Function.update s.deleted client (s.deleted client ∪ (route.ids s.store \ route.ids store)) }

def step (s : State Client Object Store) (client : Client) : Option (State Client Object Store) :=
  match s.stage client with
  | .received => some (s.proceed client (idFromPath (asked client).pathId) (setId route s client))
  | .named => some (s.proceed client (checkTenant route.isTenantAuthorized (asked client).user s.object) fun _ =>
      s.enter client .authorized)
  | .authorized => some (s.proceed client (require (route.delete s.store s.object) refusalOf) (remove route s client))
  | .answered _ => none

/-- Each request deletes the row of its own path id at most, and has done so where it answers success. -/
structure Separate (asked : Client → Asked) (s : State Client Object Store) : Prop where
  own : ∀ client, ∀ id ∈ s.deleted client, (asked client).pathId = .ok id
  done : ∀ client, s.stage client = .answered (.ok ()) → ∃ id ∈ s.deleted client, (asked client).pathId = .ok id

/-- A request that is about to delete a row finds its own id in the object. -/
def Undisturbed (s : State Client Object Store) (client : Client) : Prop :=
  s.stage client = .authorized → ∀ id store, route.getId s.object = some id →
    route.delete s.store s.object = .ok store → (asked client).pathId = .ok id

/-- No request names the object while one for another id is under way. -/
def Exclusive (s : State Client Object Store) (client : Client) : Prop :=
  s.stage client = .received → ∀ other, s.stage other = .named ∨ s.stage other = .authorized →
    (asked other).pathId = (asked client).pathId

variable {route asked} {s t : State Client Object Store} {client : Client}

theorem proceed_cases {α : Type} {outcome : Handled α} {next : α → State Client Object Store}
    (proceeds : s.proceed client outcome next = t) :
    (∃ refusal, outcome = .error refusal ∧ t = s.enter client (.answered (.error refusal))) ∨
      ∃ value, outcome = .ok value ∧ t = next value := by
  cases outcome with
  | error refusal => exact .inl ⟨refusal, rfl, proceeds.symm⟩
  | ok value => exact .inr ⟨value, rfl, proceeds.symm⟩

inductive Moved (route : Route Object Store) (asked : Client → Asked) (s : State Client Object Store) (client : Client) :
    State Client Object Store → Prop
  | refused (refusal : Refusal)
      (kept : s.stage client = .authorized → ∀ store, route.delete s.store s.object ≠ .ok store) :
      Moved route asked s client (s.enter client (.answered (.error refusal)))
  | named (id : Int) (received : s.stage client = .received) (path : (asked client).pathId = .ok id) :
      Moved route asked s client (setId route s client id)
  | authorized (named : s.stage client = .named) : Moved route asked s client (s.enter client .authorized)
  | deleted (store : Store) (authorized : s.stage client = .authorized)
      (accepted : route.delete s.store s.object = .ok store) : Moved route asked s client (remove route s client store)

theorem step_received (route : Route Object Store) (asked : Client → Asked) (received : s.stage client = .received) :
    step route asked s client =
      some (s.proceed client (idFromPath (asked client).pathId) (setId route s client)) := by
  rw [step, received]

theorem step_named (route : Route Object Store) (asked : Client → Asked) (named : s.stage client = .named) :
    step route asked s client = some (s.proceed client (checkTenant route.isTenantAuthorized (asked client).user s.object) fun _ =>
      s.enter client .authorized) := by
  rw [step, named]

theorem step_authorized (route : Route Object Store) (asked : Client → Asked)
    (authorized : s.stage client = .authorized) : step route asked s client =
      some (s.proceed client (require (route.delete s.store s.object) refusalOf) (remove route s client)) := by
  rw [step, authorized]

theorem step_moved (stepped : step route asked s client = some t) : Moved route asked s client t := by
  unfold step at stepped
  split at stepped
  case h_1 received =>
    obtain ⟨refusal, -, rfl⟩ | ⟨id, path, rfl⟩ := proceed_cases (Option.some.inj stepped)
    · exact .refused refusal fun authorized => by cases received.symm.trans authorized
    · exact .named id received (idFromPath_ok_iff.mp path)
  case h_2 named =>
    obtain ⟨refusal, -, rfl⟩ | ⟨_, -, rfl⟩ := proceed_cases (Option.some.inj stepped)
    · exact .refused refusal fun authorized => by cases named.symm.trans authorized
    · exact .authorized named
  case h_3 authorized =>
    obtain ⟨refusal, refused, rfl⟩ | ⟨store, accepted, rfl⟩ := proceed_cases (Option.some.inj stepped)
    · refine .refused refusal fun _ store accepted => ?_
      rw [require_ok_iff.mpr accepted] at refused
      cases refused
    · exact .deleted store authorized (require_ok_iff.mp accepted)
  case h_4 => cases stepped

theorem stage_enter (s : State Client Object Store) (client other : Client) (stage : Stage) :
    (s.enter client stage).stage other = if other = client then stage else s.stage other :=
  Function.update_apply s.stage client stage other

theorem mem_deleted_remove {store : Store} (accepted : route.delete s.store s.object = .ok store) {other : Client}
    {id : Int} : id ∈ (remove route s client store).deleted other ↔
      id ∈ s.deleted other ∨ other = client ∧ route.getId s.object = some id := by
  obtain ⟨gone, present, found, rest⟩ := route.ids_delete _ _ _ accepted
  have vanished : route.ids s.store \ route.ids store = {gone} := by
    rw [rest]
    exact Finset.sdiff_erase_self present
  have updated : (remove route s client store).deleted other =
      if other = client then s.deleted client ∪ {gone} else s.deleted other := by
    rw [← vanished]
    exact Function.update_apply s.deleted client _ other
  rw [updated, found, Option.some.injEq]
  split
  case isTrue same => simp [same, eq_comm, or_comm]
  case isFalse different => simp [different]

omit [DecidableEq Client] in
theorem separate_start (object : Object) (store : Store) : Separate asked (start object store) :=
  ⟨fun _ _ none => absurd none (Finset.notMem_empty _), fun _ none => by cases none⟩

theorem separate_enter {stage : Stage} (unsuccessful : stage ≠ .answered (.ok ())) (separate : Separate asked s) :
    Separate asked (s.enter client stage) := by
  refine ⟨separate.own, fun other succeeded => separate.done other ?_⟩
  rw [stage_enter] at succeeded
  split at succeeded
  · exact absurd succeeded unsuccessful
  · exact succeeded

theorem separate_remove_iff {store : Store} (separate : Separate asked s)
    (accepted : route.delete s.store s.object = .ok store) :
    Separate asked (remove route s client store) ↔
      ∀ id, route.getId s.object = some id → (asked client).pathId = .ok id := by
  constructor
  · exact fun removed id found => removed.own client id ((mem_deleted_remove accepted).mpr (.inr ⟨rfl, found⟩))
  · intro own
    refine ⟨fun other id deleted => ?_, fun other succeeded => ?_⟩
    · rcases (mem_deleted_remove accepted).mp deleted with before | ⟨rfl, found⟩
      · exact separate.own other id before
      · exact own id found
    · by_cases same : other = client
      · obtain ⟨id, -, found, -⟩ := route.ids_delete _ _ _ accepted
        exact ⟨id, (mem_deleted_remove accepted).mpr (.inr ⟨same, found⟩), same ▸ own id found⟩
      · have before : s.stage other = .answered (.ok ()) := by
          rw [← succeeded]
          exact (Function.update_of_ne same _ _).symm
        obtain ⟨id, deleted, path⟩ := separate.done other before
        exact ⟨id, (mem_deleted_remove accepted).mpr (.inl deleted), path⟩

theorem step_separate_iff (separate : Separate asked s) (stepped : step route asked s client = some t) :
    Separate asked t ↔ Undisturbed route asked s client := by
  cases step_moved stepped with
  | refused refusal kept =>
    refine iff_of_true (separate_enter (fun success => by cases success) separate) fun authorized id store _ accepted => ?_
    exact absurd accepted (kept authorized store)
  | named id received =>
    have named : Separate asked { s with object := route.setId id s.object } := ⟨separate.own, separate.done⟩
    refine iff_of_true (separate_enter (fun success => by cases success) named) fun authorized => ?_
    cases received.symm.trans authorized
  | authorized named =>
    refine iff_of_true (separate_enter (fun success => by cases success) separate) fun authorized => ?_
    cases named.symm.trans authorized
  | deleted store authorized accepted =>
    rw [separate_remove_iff separate accepted]
    constructor
    · exact fun own _ id _ found _ => own id found
    · exact fun undisturbed id found => undisturbed authorized id store found accepted

theorem undisturbed_of_blocked (blocked : step route asked s client = none) : Undisturbed route asked s client := by
  intro authorized
  rw [step, authorized] at blocked
  cases blocked

theorem separate_iff_undisturbed (object : Object) (store : Store) (schedule : List Client) :
    Always (step route asked) (Separate asked) (start object store) schedule ↔
      Throughout (step route asked) (Undisturbed route asked) (start object store) schedule :=
  always_iff_of_steps (fun _ _ _ => step_separate_iff) (fun _ _ => undisturbed_of_blocked) (separate_start object store)
    schedule

-- The object has the id of every request under way.
def Naming (route : Route Object Store) (asked : Client → Asked) (s : State Client Object Store) : Prop :=
  ∀ client, s.stage client = .named ∨ s.stage client = .authorized →
    ∃ id, (asked client).pathId = .ok id ∧ route.getId s.object = some id

theorem naming_enter {stage : Stage} (naming : Naming route asked s)
    (underWay : stage = .authorized → s.stage client = .named) (unnamed : stage ≠ .named) :
    Naming route asked (s.enter client stage) := by
  intro other going
  rw [stage_enter] at going
  split at going
  case isTrue same =>
    subst same
    exact naming other (.inl (underWay (going.resolve_left unnamed)))
  case isFalse => exact naming other going

theorem step_naming (naming : Naming route asked s) (exclusive : Exclusive asked s client)
    (stepped : step route asked s client = some t) : Naming route asked t := by
  cases step_moved stepped with
  | refused refusal =>
    exact naming_enter naming (fun authorized => by cases authorized) (fun named => by cases named)
  | named id received path =>
    intro other going
    refine ⟨id, ?_, route.getId_setId id s.object⟩
    rw [setId, stage_enter] at going
    split at going
    case isTrue same => rw [same, path]
    case isFalse => rw [exclusive received other going, path]
  | authorized named => exact naming_enter naming (fun _ => named) (fun same => by cases same)
  | deleted store authorized accepted =>
    exact naming_enter naming (fun authorized => by cases authorized) (fun named => by cases named)

/-- Requests that wait for those of other ids to end do not disturb each other. -/
theorem undisturbed_of_exclusive {object : Object} {store : Store} {schedule : List Client}
    (exclusive : Throughout (step route asked) (Exclusive asked) (start object store) schedule) :
    Throughout (step route asked) (Undisturbed route asked) (start object store) schedule := by
  have naming : Naming route asked (start object store) := fun _ going => by rcases going with going | going <;> cases going
  refine throughout_of_splits fun past client future split t ran authorized id store' found accepted => ?_
  rw [split] at exclusive
  have reached : Naming route asked t :=
    run_invariant (fun _ _ _ => step_naming) naming (throughout_append.mp exclusive).1 ran
  obtain ⟨own, path, named⟩ := reached client (.inr authorized)
  rw [path, Option.some.inj (named.symm.trans found)]

/-- What has left the table since the start is what the requests deleted. -/
def Recorded (route : Route Object Store) (store : Store) (s : State Client Object Store) : Prop :=
  ∀ id ∈ route.ids store, id ∉ route.ids s.store ↔ ∃ client, id ∈ s.deleted client

theorem step_recorded {store : Store} (recorded : Recorded route store s) (stepped : step route asked s client = some t) :
    Recorded route store t := by
  cases step_moved stepped with
  | refused | named | authorized => exact recorded
  | deleted store' authorized accepted =>
    intro id present
    obtain ⟨gone, member, found, rest⟩ := route.ids_delete _ _ _ accepted
    have ids : route.ids (remove route s client store').store = (route.ids s.store).erase gone := rest
    simp only [ids, Finset.mem_erase, mem_deleted_remove accepted, found, Option.some.injEq, not_and_or, not_not]
    constructor
    · rintro (same | absent)
      · exact ⟨client, .inr ⟨rfl, same.symm⟩⟩
      · obtain ⟨other, deleted⟩ := (recorded id present).mp absent
        exact ⟨other, .inl deleted⟩
    · rintro ⟨other, before | ⟨-, same⟩⟩
      · exact .inr ((recorded id present).mpr ⟨other, before⟩)
      · exact .inl same.symm

theorem recorded_run {object : Object} {store : Store} {schedule : List Client}
    (ran : run (step route asked) (start object store) schedule = some t) : Recorded route store t := by
  refine run_induction (fun _ _ _ => step_recorded) (fun id present => ?_) ran
  simp [start, present]

-- The outcome of a request that no other interrupts.
def Finishes (route : Route Object Store) (asked : Client → Asked) (s : State Client Object Store) (client : Client)
    (outcome : Handled Store) : Prop :=
  ∃ count t, run (step route asked) s (List.replicate count client) = some t ∧
    t.stage client = .answered (outcome.map fun _ => ()) ∧ t.store = outcome.toOption.getD s.store

theorem enter_same (s : State Client Object Store) (client : Client) (stage : Stage) :
    (s.enter client stage).stage client = stage := by
  rw [stage_enter, if_pos rfl]

theorem finishes_of_step {outcome : Handled Store} (stepped : step route asked s client = some t)
    (unwritten : t.store = s.store) (finishes : Finishes route asked t client outcome) :
    Finishes route asked s client outcome := by
  obtain ⟨count, last, ran, answered, stored⟩ := finishes
  refine ⟨count + 1, last, ?_, answered, unwritten ▸ stored⟩
  rw [List.replicate_succ, run, stepped]
  exact ran

theorem finishes_refused {refusal : Refusal}
    (stepped : step route asked s client = some (s.enter client (.answered (.error refusal)))) :
    Finishes route asked s client (.error refusal) := by
  refine ⟨1, _, ?_, enter_same s client _, rfl⟩
  rw [List.replicate_one, run, stepped]
  rfl

theorem finishes_authorized (authorized : s.stage client = .authorized) :
    Finishes route asked s client (require (route.delete s.store s.object) refusalOf) := by
  have stepped := step_authorized route asked authorized
  cases outcome : require (route.delete s.store s.object) refusalOf with
  | error refusal =>
    rw [outcome] at stepped
    exact finishes_refused stepped
  | ok store =>
    rw [outcome] at stepped
    refine ⟨1, remove route s client store, ?_, enter_same s client _, rfl⟩
    rw [List.replicate_one, run, stepped]
    rfl

theorem finishes_named (named : s.stage client = .named) :
    Finishes route asked s client (do
      checkTenant route.isTenantAuthorized (asked client).user s.object
      require (route.delete s.store s.object) refusalOf) := by
  have stepped := step_named route asked named
  cases outcome : checkTenant route.isTenantAuthorized (asked client).user s.object with
  | error refusal =>
    rw [outcome] at stepped
    exact finishes_refused stepped
  | ok _ =>
    rw [outcome] at stepped
    exact finishes_of_step stepped rfl (finishes_authorized (enter_same s client _))

theorem finishes_deleteHandler (received : s.stage client = .received) :
    Finishes route asked s client
      (deleteHandler route.toDeleter s.object s.store (asked client).user (asked client).pathId) := by
  have stepped := step_received route asked received
  unfold deleteHandler
  cases outcome : idFromPath (asked client).pathId with
  | error refusal =>
    rw [outcome] at stepped
    exact finishes_refused stepped
  | ok id =>
    rw [outcome] at stepped
    exact finishes_of_step stepped rfl (finishes_named (enter_same _ client _))

theorem separate_iff (asked : Client → Asked) (schedule : List Client) :
    (∀ cdn db, Always (step deleteCdns asked) (Separate asked) (start cdn db) schedule ↔
        Throughout (step deleteCdns asked) (Undisturbed deleteCdns asked) (start cdn db) schedule) ∧
      ∀ tenancy req db, Always (step (deleteRequests tenancy) asked) (Separate asked) (start req db) schedule ↔
        Throughout (step (deleteRequests tenancy) asked) (Undisturbed (deleteRequests tenancy) asked) (start req db)
          schedule :=
  ⟨fun cdn db => separate_iff_undisturbed cdn db schedule, fun _ req db => separate_iff_undisturbed req db schedule⟩

end Steps

section Interleaved

def cdn (id : Int) (name : String) : Cdns.Cdn where
  dnssecEnabled := false
  domainName := name ++ ".example"
  id := id
  name := name

def twoCdns : Cdns.Db where
  cdns := AList.insert 2 (cdn 2 "two") (AList.insert 1 (cdn 1 "one") ∅)
  inUse := []

def refCdn : Cdns.Cdn where
  dnssecEnabled := false
  domainName := ""
  id := 0
  name := ""

def oneAndTwo (second : Bool) : Asked where
  user := { id := 1, privLevel := 20, tenantId := 1 }
  pathId := .ok (if second then 2 else 1)

/-- The second request names the object just before the first one deletes. -/
def overtaken : List Bool := [false, false, true, false]

def requestRow (xmlId : String) : Row where
  assigneeId := none
  authorId := 1
  changeType := .create
  lastEditedById := 1
  deliveryService := some { xmlId := some xmlId, tenantId := some 1, fields := "" }
  status := .draft

def twoRequests : Db where
  users := [1]
  requests := AList.insert 2 (requestRow "b") (AList.insert 1 (requestRow "a") ∅)

theorem not_separate :
    ¬Always (step deleteCdns oneAndTwo) (Separate oneAndTwo) (start refCdn twoCdns) overtaken ∧
      ¬Always (step (deleteRequests { useTenancy := false, tenants := ∅ }) oneAndTwo) (Separate oneAndTwo)
        (start refType twoRequests) overtaken := by
  constructor <;> intro always
  · have own := (always_iff.mp always overtaken [] _ rfl rfl).own false 2 (by decide)
    cases own
  · have own := (always_iff.mp always overtaken [] _ rfl rfl).own false 2 (by decide)
    cases own

end Interleaved

end Api
