import TrafficControl.TrafficOps.Request.Requests

set_option autoImplicit false

namespace Api

open DsRequest KeyedTable Tenants

-- An answer that is no success; a panic closes the connection.
inductive Refusal where
  | panic
  | errors (status : Nat) (errors : List String)

def statusOf : ApiErrorType → Nat
  | .SystemError => 500
  | .DataConflictError => 400
  | .DataMissingError => 404
  | .ForbiddenError => 500

def refusalOf : Failure → Refusal
  | .panic => .panic
  | .error text type => .errors (statusOf type) [text]

abbrev Handled := Except Refusal

def refuse (condition : Prop) [Decidable condition] (status : Nat) (errors : List String) : Handled Unit :=
  if condition then .error (.errors status errors) else .ok ()

def require {ε α : Type} (value : Except ε α) (refusal : ε → Refusal) : Handled α := value.mapError refusal

-- The methods that a type brings to the handlers. `isTenantAuthorized` is only there for a `Tenantable`.
structure Updater where
  validate : Db → Request → List String
  isTenantAuthorized : Option (CurrentUser → Request → Except String Bool)
  update : Db → CurrentUser → Request → Result Db

structure Deleter (Object Store : Type) where
  setId : Int → Object → Object
  isTenantAuthorized : Option (CurrentUser → Object → Except String Bool)
  delete : Store → Object → Result Store

def checkTenant {Object : Type} (isTenantAuthorized : Option (CurrentUser → Object → Except String Bool))
    (user : CurrentUser) (object : Object) : Handled Unit :=
  isTenantAuthorized.elim (.ok ()) fun check => do
    let authorized ← require (check user object) fun err => .errors 400 [err]
    refuse (authorized = false) 403 ["not authorized on this tenant"]

def idFromPath (pathId : Except String Int) : Handled Int :=
  require pathId fun _ => .errors 400 ["id from path not parseable as int"]

/-- `body` and `pathId` are what the decoder and `Atoi` make of the request. -/
def updateHandler (updater : Updater) (db : Db) (user : CurrentUser) (body : Except String Request)
    (pathId : Except String Int) : Handled Db := do
  let u ← require body fun err => .errors 400 [err]
  refuse (updater.validate db u ≠ []) 400 (updater.validate db u)
  let id ← idFromPath pathId
  refuse (u.id ≠ some id) 400 ["id in body does not match id in path"]
  checkTenant updater.isTenantAuthorized user u
  require (updater.update db user u) refusalOf

/-- `d` is the object that the handler was built with, as earlier requests have left it. -/
def deleteHandler {Object Store : Type} (deleter : Deleter Object Store) (d : Object) (db : Store) (user : CurrentUser)
    (pathId : Except String Int) : Handled Store := do
  let id ← idFromPath pathId
  let d := deleter.setId id d
  checkTenant deleter.isTenantAuthorized user d
  require (deleter.delete db d) refusalOf

section Types

-- What `deliveryservice.Validate` finds wrong with a delivery service.
variable (validateDs : DeliveryService → List String) (tenancy : Tenancy)

def isTenantAuthorized (user : CurrentUser) (req : Request) : Except String Bool :=
  req.deliveryService.elim (.ok true) fun ds => ds.tenantId.elim (.error "tenantID is nil") fun tenantId =>
    .ok (isResourceAuthorizedToUser tenancy tenantId user)

/-- The stored status is only read for an id that may be in the table. -/
def fromStatus (db : Db) (req : Request) : Except String RequestStatus :=
  (req.id.filter (0 < ·)).elim (.ok (.of .draft)) fun id =>
    (db.requests.lookup id).elim (.error "sql: no rows in result set") fun row => .ok (.of row.status)

def validateStatus (fromStatus : RequestStatus) (status : Option RequestStatus) : List String :=
  if status = none ∨ status = some .blank then ["'status' cannot be blank"]
  else status.elim [] fun status => match fromStatus.validTransition status with
    | .ok _ => []
    | .error err => ["'status' " ++ err]

def validate (db : Db) (req : Request) : List String :=
  match fromStatus db req with
  | .error err => [err]
  | .ok fromStatus =>
    (if req.changeType = none ∨ req.changeType = some "" then ["'changeType' cannot be blank"] else []) ++
      (if req.deliveryService = none then ["'deliveryservice' cannot be blank"] else []) ++
      validateStatus fromStatus req.status ++ req.deliveryService.elim [] validateDs

-- The object of `GetRefType`. Nothing but its id is ever set.
def refType : Request where
  id := none
  assigneeId := none
  changeType := none
  deliveryService := none
  status := none

def requests : Updater where
  validate := validate validateDs
  isTenantAuthorized := some (isTenantAuthorized tenancy)
  update := update

def deletedRequests : Deleter Request Db where
  setId id req := { req with id := some id }
  isTenantAuthorized := some (isTenantAuthorized tenancy)
  delete := delete

-- `GetAssignRefType`; the type has none of the methods of the one it is made from.
def assignments (idAddress : Nat) : Updater where
  validate _ _ := []
  isTenantAuthorized := none
  update db _ req := assign db req idAddress

-- `GetStatusRefType`.
def statuses (statusAddress idAddress : Nat) : Updater where
  validate _ _ := []
  isTenantAuthorized := none
  update db _ req := changeStatus db req statusAddress idAddress

end Types

section Accepted

variable {db db' : Db} {user : CurrentUser} {body : Except String Request} {pathId : Except String Int}

theorem refuse_ok_iff {condition : Prop} [Decidable condition] {status : Nat} {errors : List String} {done : Unit} :
    refuse condition status errors = .ok done ↔ ¬condition := by
  unfold refuse
  split <;> simp [*]

theorem require_ok_iff {ε α : Type} {value : Except ε α} {refusal : ε → Refusal} {a : α} :
    require value refusal = .ok a ↔ value = .ok a := ExceptList.mapError_ok_iff

theorem idFromPath_ok_iff {id : Int} : idFromPath pathId = .ok id ↔ pathId = .ok id := require_ok_iff

theorem checkTenant_ok_iff {Object : Type} {check : Option (CurrentUser → Object → Except String Bool)} {object : Object}
    {done : Unit} : checkTenant check user object = .ok done ↔
      ∀ isTenantAuthorized ∈ check, isTenantAuthorized user object = .ok true := by
  cases check with
  | none => exact iff_of_true rfl fun _ none => by cases none
  | some isTenantAuthorized =>
    simp only [checkTenant, Option.elim_some, ExceptList.bind_ok_iff, require_ok_iff, refuse_ok_iff,
      Bool.not_eq_false, Option.mem_some_iff, forall_eq']
    exact ⟨fun ⟨_, checked, authorized⟩ => authorized ▸ checked, fun checked => ⟨true, checked, rfl⟩⟩

theorem updateHandler_ok_iff {updater : Updater} : updateHandler updater db user body pathId = .ok db' ↔
    ∃ req id, body = .ok req ∧ updater.validate db req = [] ∧ pathId = .ok id ∧ req.id = some id ∧
      (∀ isTenantAuthorized ∈ updater.isTenantAuthorized, isTenantAuthorized user req = .ok true) ∧
      updater.update db user req = .ok db' := by
  simp only [updateHandler, ExceptList.bind_ok_iff, require_ok_iff, idFromPath_ok_iff, refuse_ok_iff, checkTenant_ok_iff,
    ne_eq, not_not]
  constructor
  · rintro ⟨req, decoded, _, valid, id, path, _, same, _, tenant, accepted⟩
    exact ⟨req, id, decoded, valid, path, same, tenant, accepted⟩
  · rintro ⟨req, id, decoded, valid, path, same, tenant, accepted⟩
    exact ⟨req, decoded, (), valid, id, path, (), same, (), tenant, accepted⟩

theorem deleteHandler_ok_iff {Object Store : Type} {deleter : Deleter Object Store} {d : Object} {store store' : Store} :
    deleteHandler deleter d store user pathId = .ok store' ↔ ∃ id, pathId = .ok id ∧
      (∀ isTenantAuthorized ∈ deleter.isTenantAuthorized, isTenantAuthorized user (deleter.setId id d) = .ok true) ∧
      deleter.delete store (deleter.setId id d) = .ok store' := by
  simp only [deleteHandler, ExceptList.bind_ok_iff, require_ok_iff, idFromPath_ok_iff, checkTenant_ok_iff]
  constructor
  · rintro ⟨id, path, _, tenant, accepted⟩
    exact ⟨id, path, tenant, accepted⟩
  · rintro ⟨id, path, tenant, accepted⟩
    exact ⟨id, path, (), tenant, accepted⟩

end Accepted

end Api
