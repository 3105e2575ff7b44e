import TrafficControl.TrafficOps.Api.SharedHandlers

set_option autoImplicit false

namespace Api

open DsRequest KeyedTable Tenants

inductive Sent where
  | put (body : Except String Request) (pathId : Except String Int)
  | putStatus (body : Except String Request) (pathId : Except String Int) (statusAddress idAddress : Nat)
  | putAssign (body : Except String Request) (pathId : Except String Int) (idAddress : Nat)
  | delete (pathId : Except String Int)

section Handle

variable (validateDs : DeliveryService → List String) (tenancy : Tenancy) (db : Db) (user : CurrentUser)

def handle : Sent → Handled Db
  | .put body pathId => updateHandler (requests validateDs tenancy) db user body pathId
  | .putStatus body pathId statusAddress idAddress =>
    updateHandler (statuses statusAddress idAddress) db user body pathId
  | .putAssign body pathId idAddress => updateHandler (assignments idAddress) db user body pathId
  | .delete pathId => deleteHandler (deletedRequests tenancy) refType db user pathId

def Owns (ds : DeliveryService) : Prop :=
  ∃ tenantId, ds.tenantId = some tenantId ∧ isResourceAuthorizedToUser tenancy tenantId user = true

instance (ds : DeliveryService) : Decidable (Owns tenancy user ds) :=
  decidable_of_iff (ds.tenantId.any fun tenantId => isResourceAuthorizedToUser tenancy tenantId user)
    (by simp [Owns, Option.any_eq_true])

/-- A stored request with a delivery service is only changed or deleted by a user who owns it. -/
def Isolated (sent : Sent) : Prop :=
  ∀ db', handle validateDs tenancy db user sent = .ok db' → ∀ id row ds, db.requests.lookup id = some row →
    row.deliveryService = some ds → db'.requests.lookup id ≠ some row → Owns tenancy user ds

/-- The user owns what is stored in the row that the statement names, or a guard stops the request. -/
def Shielded : Sent → Prop
  | .put body pathId => ∀ req id current changeType state, body = .ok req → validate validateDs db req = [] →
      pathId = .ok id → isTenantAuthorized tenancy user req = .ok true →
      Updatable db user req id current changeType state → ∀ ds ∈ current.deliveryService, Owns tenancy user ds
  | .putStatus _ _ _ _ => True
  | .putAssign body pathId idAddress => ∀ req id current hit, body = .ok req → pathId = .ok id → req.id = some id →
      db.select id = some current → ¬(current.assigneeId = none ∧ req.assigneeId = none) →
      db.references req.assigneeId → db.requests.lookup (idAddress : Int) = some hit →
      hit.assigneeId ≠ req.assigneeId → ∀ ds ∈ hit.deliveryService, Owns tenancy user ds
  | .delete pathId => ∀ id row, pathId = .ok id → db.requests.lookup id = some row → initial (.of row.status) →
      ∀ ds ∈ row.deliveryService, Owns tenancy user ds

end Handle

section Guards

variable {validateDs : DeliveryService → List String} {tenancy : Tenancy} {db db' : Db} {user : CurrentUser}
  {body : Except String Request} {pathId : Except String Int}

theorem isTenantAuthorized_owns {req : Request} (authorized : isTenantAuthorized tenancy user req = .ok true)
    {ds : DeliveryService} (present : req.deliveryService = some ds) : Owns tenancy user ds := by
  rw [isTenantAuthorized, present, Option.elim_some] at authorized
  cases named : ds.tenantId with
  | none =>
    rw [named] at authorized
    cases authorized
  | some tenantId =>
    rw [named] at authorized
    exact ⟨tenantId, named, Except.ok.inj authorized⟩

theorem put_ok_iff : handle validateDs tenancy db user (.put body pathId) = .ok db' ↔
    ∃ req id current changeType state, body = .ok req ∧ validate validateDs db req = [] ∧ pathId = .ok id ∧
      isTenantAuthorized tenancy user req = .ok true ∧ Updatable db user req id current changeType state ∧
      db' = { db with requests := change db.requests id (updated user req changeType state) } := by
  rw [handle, updateHandler_ok_iff]
  constructor
  · rintro ⟨req, id, decoded, valid, path, named, tenant, accepted⟩
    obtain ⟨_, current, changeType, state, updatable, rfl⟩ := update_ok_iff.mp accepted
    obtain rfl := Option.some.inj (named.symm.trans updatable.named)
    exact ⟨req, id, current, changeType, state, decoded, valid, path, tenant _ rfl, updatable, rfl⟩
  · rintro ⟨req, id, current, changeType, state, decoded, valid, path, tenant, updatable, rfl⟩
    refine ⟨req, id, decoded, valid, path, updatable.named, fun _ same => Option.some.inj same ▸ tenant, ?_⟩
    exact update_ok_iff.mpr ⟨id, current, changeType, state, updatable, rfl⟩

theorem putAssign_ok_iff {idAddress : Nat} :
    handle validateDs tenancy db user (.putAssign body pathId idAddress) = .ok db' ↔
    ∃ req id, body = .ok req ∧ pathId = .ok id ∧ req.id = some id ∧ assign db req idAddress = .ok db' := by
  rw [handle, updateHandler_ok_iff]
  constructor
  · rintro ⟨req, id, decoded, -, path, named, -, accepted⟩
    exact ⟨req, id, decoded, path, named, accepted⟩
  · rintro ⟨req, id, decoded, path, named, accepted⟩
    exact ⟨req, id, decoded, rfl, path, named, (fun _ none => by cases none), accepted⟩

theorem deleteRequest_ok_iff : handle validateDs tenancy db user (.delete pathId) = .ok db' ↔
    ∃ id row, pathId = .ok id ∧ db.requests.lookup id = some row ∧ initial (.of row.status) ∧
      db' = { db with requests := db.requests.erase id } := by
  rw [handle, deleteHandler_ok_iff]
  constructor
  · rintro ⟨id, path, -, accepted⟩
    obtain ⟨_, row, named, found, early, rfl⟩ := delete_ok_iff.mp accepted
    obtain rfl := Option.some.inj named
    exact ⟨id, row, path, found, early, rfl⟩
  · rintro ⟨id, row, path, found, early, rfl⟩
    refine ⟨id, path, fun _ same => ?_, delete_ok_iff.mpr ⟨id, row, rfl, found, early, rfl⟩⟩
    -- The object has no delivery service, which counts as open to everyone.
    exact Option.some.inj same ▸ rfl

theorem isolated_put_iff : Isolated validateDs tenancy db user (.put body pathId) ↔
    Shielded validateDs tenancy db user (.put body pathId) := by
  constructor
  · intro isolated req id current changeType state decoded valid path tenant updatable ds stored
    have found := (select_eq_some.mp updatable.selected).1
    by_cases same : updated user req changeType state current = current
    · exact isTenantAuthorized_owns tenant ((congrArg Row.deliveryService same).trans stored)
    · refine isolated _ (put_ok_iff.mpr ⟨req, id, current, changeType, state, decoded, valid, path, tenant, updatable, rfl⟩)
        id current ds found stored ?_
      rw [lookup_change, if_pos rfl, found, Option.map_some, ne_eq, Option.some.injEq]
      exact same
  · intro shielded db' accepted other row ds found stored changed
    obtain ⟨req, id, current, changeType, state, decoded, valid, path, tenant, updatable, rfl⟩ := put_ok_iff.mp accepted
    obtain rfl := eq_of_changed found changed
    obtain rfl := Option.some.inj ((select_eq_some.mp updatable.selected).1.symm.trans found)
    exact shielded req other current changeType state decoded valid path tenant updatable ds stored

theorem isolated_putAssign_iff {idAddress : Nat} : Isolated validateDs tenancy db user (.putAssign body pathId idAddress) ↔
    Shielded validateDs tenancy db user (.putAssign body pathId idAddress) := by
  constructor
  · intro isolated req id current hit decoded path named selected assigned known found different ds stored
    have accepted : assign db req idAddress = .ok _ :=
      assign_ok_iff.mpr ⟨id, current, named, selected, .inr ⟨assigned, fun _ => known, rfl⟩⟩
    refine isolated _ (putAssign_ok_iff.mpr ⟨req, id, decoded, path, named, accepted⟩) idAddress hit ds found stored ?_
    rw [lookup_change, if_pos rfl, found, Option.map_some, ne_eq, Option.some.injEq]
    exact fun same => different (congrArg Row.assigneeId same).symm
  · intro shielded db' accepted other row ds found stored changed
    obtain ⟨req, id, decoded, path, named, accepted⟩ := putAssign_ok_iff.mp accepted
    obtain ⟨_, current, named', selected, ⟨-, -, rfl⟩ | ⟨assigned, known, rfl⟩⟩ := assign_ok_iff.mp accepted
    · exact absurd found changed
    · obtain rfl := Option.some.inj (named.symm.trans named')
      obtain rfl := eq_of_changed found changed
      refine shielded req id current row decoded path named selected assigned (known (mem_of_lookup found)) found
        (fun same => ?_) ds stored
      rw [lookup_change, if_pos rfl, found, Option.map_some, ← same] at changed
      exact changed rfl

theorem isolated_delete_iff : Isolated validateDs tenancy db user (.delete pathId) ↔
    Shielded validateDs tenancy db user (.delete pathId) := by
  constructor
  · intro isolated id row path found early ds stored
    refine isolated _ (deleteRequest_ok_iff.mpr ⟨id, row, path, found, early, rfl⟩) id row ds found stored ?_
    rw [AList.lookup_erase]
    exact fun none => by cases none
  · intro shielded db' accepted other row ds found stored changed
    obtain ⟨id, deleted, path, found', early, rfl⟩ := deleteRequest_ok_iff.mp accepted
    obtain rfl := eq_of_erased found changed
    obtain rfl := Option.some.inj (found'.symm.trans found)
    exact shielded other deleted path found early ds stored

theorem isolated_iff (validateDs : DeliveryService → List String) (tenants : AList fun _ : Int => Tenant) (db : Db)
    (user : CurrentUser) (sent : Sent) :
    Isolated validateDs { useTenancy := true, tenants } db user sent ↔
      Shielded validateDs { useTenancy := true, tenants } db user sent := by
  cases sent with
  | put body pathId => exact isolated_put_iff
  | putStatus body pathId statusAddress idAddress =>
    refine iff_of_true (fun db' accepted => ?_) trivial
    obtain ⟨req, id, -, -, -, -, -, accepted⟩ := updateHandler_ok_iff.mp accepted
    exact absurd accepted (changeStatus_not_ok _ _)
  | putAssign body pathId idAddress => exact isolated_putAssign_iff
  | delete pathId => exact isolated_delete_iff

end Guards

-- Two tenants below the root.
def siblings : AList fun _ : Int => Tenant :=
  AList.insert 3 { active := true, parentId := some 1 } (AList.insert 2 { active := true, parentId := some 1 }
    (AList.insert 1 { active := true, parentId := none } ∅))

def ofTenant (tenantId : Int) : DeliveryService where
  xmlId := some "video"
  tenantId := some tenantId
  fields := ""

def otherTenants : Row where
  assigneeId := none
  authorId := 1
  changeType := .update
  lastEditedById := 1
  deliveryService := some (ofTenant 3)
  status := .draft

def stored : Db where
  users := [1, 5]
  requests := AList.insert 7 otherTenants ∅

def portal : CurrentUser where
  id := 5
  privLevel := 15
  tenantId := 2

-- A body that names the tenant of the user who sends it.
def takeOver : Request where
  id := some 7
  assigneeId := none
  changeType := some "update"
  deliveryService := some (ofTenant 2)
  status := some (.of .draft)

theorem not_isolated :
    ¬Isolated (fun _ => []) { useTenancy := true, tenants := siblings } stored portal (.delete (.ok 7)) ∧
      ¬Isolated (fun _ => []) { useTenancy := true, tenants := siblings } stored portal (.put (.ok takeOver) (.ok 7)) := by
  have foreign : ¬Owns { useTenancy := true, tenants := siblings } portal (ofTenant 3) := by decide
  constructor
  · intro isolated
    have accepted : handle (fun _ => []) { useTenancy := true, tenants := siblings } stored portal
        (.delete (.ok 7)) = .ok _ :=
      deleteRequest_ok_iff.mpr ⟨7, otherTenants, rfl, rfl, .inl rfl, rfl⟩
    exact foreign (isolated _ accepted 7 otherTenants _ rfl rfl (by decide))
  · intro isolated
    have accepted : handle (fun _ => []) { useTenancy := true, tenants := siblings } stored portal
        (.put (.ok takeOver) (.ok 7)) = .ok _ :=
      put_ok_iff.mpr ⟨takeOver, 7, otherTenants, .update, .draft, rfl, by decide, rfl, by decide,
        ⟨rfl, by decide, by decide, rfl, by decide, by decide, by decide⟩, rfl⟩
    exact foreign (isolated _ accepted 7 otherTenants _ rfl rfl (by decide))

end Api
