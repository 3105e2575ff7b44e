import TrafficControl.Lib.ExceptList
import TrafficControl.Lib.KeyedTable
import TrafficControl.TrafficOps.Tenant.Tenancy

set_option autoImplicit false

namespace DsRequest

open KeyedTable Tenants

-- `workflow_states` of the database.
inductive WorkflowState where
  | draft
  | submitted
  | rejected
  | pending
  | complete
deriving DecidableEq

namespace WorkflowState

def string : WorkflowState → String
  | draft => "draft"
  | submitted => "submitted"
  | rejected => "rejected"
  | pending => "pending"
  | complete => "complete"

/-- What the database makes of a text where it expects a state. -/
def ofString (text : String) : Option WorkflowState :=
  [draft, submitted, rejected, pending, complete].find? fun state => state.string = text

end WorkflowState

-- The JSON decoder lets the empty text through.
inductive RequestStatus where
  | blank
  | of (state : WorkflowState)
deriving DecidableEq

namespace RequestStatus

def string : RequestStatus → String
  | blank => ""
  | of state => state.string

def stored : RequestStatus → Option WorkflowState
  | blank => none
  | of state => some state

def validTransition (r target : RequestStatus) : Except String Unit :=
  if r = of .rejected ∨ r = of .complete then .error (r.string ++ " request cannot be changed")
  else if r = target then .ok ()
  else if target = of .draft ∧ r = of .submitted then .ok ()
  else if target = of .submitted ∧ r = of .draft then .ok ()
  else if target = of .rejected ∧ r = of .submitted then .ok ()
  else if target = of .pending ∧ r = of .submitted then .ok ()
  else if target = of .complete ∧ r = of .pending then .ok ()
  else .error ("invalid transition from " ++ r.string ++ " to " ++ target.string)

end RequestStatus

inductive ChangeType where
  | create
  | update
  | delete
deriving DecidableEq

def ChangeType.ofString (text : String) : Option ChangeType :=
  [("create", create), ("update", update), ("delete", delete)].lookup text

-- `fields` is the JSON of all other fields.
structure DeliveryService where
  xmlId : Option String
  tenantId : Option Int
  fields : String
deriving DecidableEq

-- A request as it is decoded from a body. Who edited it and when is not decoded.
structure Request where
  id : Option Int
  assigneeId : Option Int
  changeType : Option String
  deliveryService : Option DeliveryService
  status : Option RequestStatus

-- A row without its time stamps, which the database sets. No delivery service is the JSON value `null`.
structure Row where
  assigneeId : Option Int
  authorId : Int
  changeType : ChangeType
  lastEditedById : Int
  deliveryService : Option DeliveryService
  status : WorkflowState
deriving DecidableEq

def Row.xmlId (row : Row) : Option String := row.deliveryService.bind DeliveryService.xmlId

structure Db where
  users : List Int
  requests : AList fun _ : Int => Row

inductive ApiErrorType where
  | SystemError
  | DataConflictError
  | DataMissingError
  | ForbiddenError
deriving DecidableEq

inductive Failure where
  | panic
  | error (text : String) (type : ApiErrorType)

def Failure.db : Failure := .error "database access error" .SystemError

def Failure.noRows : Failure := .error "sql: no rows in result set" .SystemError

abbrev Result := Except Failure

def require {α : Type} (value : Option α) (failure : Failure) : Result α := value.elim (.error failure) .ok

def refuse (condition : Prop) [Decidable condition] (failure : Failure) : Result Unit :=
  if condition then .error failure else .ok ()

-- The query joins the author.
def Db.select (db : Db) (id : Int) : Option Row :=
  (db.requests.lookup id).filter fun row => row.authorId ∈ db.users

def Db.references (db : Db) (user : Option Int) : Prop := ∀ id ∈ user, id ∈ db.users

instance (db : Db) (user : Option Int) : Decidable (db.references user) :=
  inferInstanceAs (Decidable (∀ id ∈ user, id ∈ db.users))

section Insert

-- What the database answers to the text of a query for one Boolean.
variable (answer : String → Db → Except String Bool)

def activeStart : String := "SELECT EXISTS(SELECT 1 FROM deliveryservice_request\nWHERE deliveryservice->>'xmlId' = '"

def activeEnd : String := "\nAND status IN ('draft', 'submitted', 'pending'))"

def activeQuery (xmlId : String) : String := activeStart ++ xmlId ++ "'" ++ activeEnd

def isActiveRequest (db : Db) (xmlId : String) : Except String Bool := answer (activeQuery xmlId) db

def initial (status : RequestStatus) : Prop := status = .of .draft ∨ status = .of .submitted

instance (status : RequestStatus) : Decidable (initial status) := inferInstanceAs (Decidable (_ ∨ _))

-- All of `Insert` before its transaction.
def checkInsert (db : Db) (req : Request) : Result Unit := do
  let status ← require req.status (.error "nil deliveryservice_request status" .SystemError)
  refuse (¬initial status) (.error ("invalid initial request status '" ++ status.string ++
    "'.  Must be 'draft' or 'submitted'") .DataConflictError)
  let ds ← require req.deliveryService
    (.error "no delivery service associated with this request" .DataMissingError)
  let xmlId ← require ds.xmlId (.error "no xmlId associated with this request" .DataMissingError)
  let active ← (isActiveRequest answer db xmlId).mapError fun err => .error err .SystemError
  refuse (active = true) (.error ("An active request exists for delivery service '" ++ xmlId ++ "'") .DataConflictError)

/-- The transaction of `Insert`. `drawn` is the next value of the sequence of the table. -/
def insertRequest (db : Db) (user : CurrentUser) (req : Request) (drawn : Int) : Result Db := do
  let changeType ← require (req.changeType.bind ChangeType.ofString) .db
  let status ← require (req.status.bind RequestStatus.stored) .db
  refuse (drawn ∈ db.requests)
    (.error ("a deliveryservice request with id " ++ toString drawn ++ " already exists.") .DataConflictError)
  refuse (¬(user.id ∈ db.users ∧ db.references req.assigneeId)) .db
  return { db with
    requests := db.requests.insert drawn
      { assigneeId := req.assigneeId, authorId := user.id, changeType, lastEditedById := user.id
        deliveryService := req.deliveryService, status } }

def insert (db : Db) (user : CurrentUser) (req : Request) (drawn : Int) : Result Db := do
  checkInsert answer db req
  insertRequest db user req drawn

end Insert

def updateRequest (db : Db) (user : CurrentUser) (req : Request) (id : Int) : Result Db := do
  let changeType ← require (req.changeType.bind ChangeType.ofString) .db
  let status ← require (req.status.bind RequestStatus.stored) .db
  refuse (id ∉ db.requests) (.error "no deliveryservice request found with this id" .DataMissingError)
  refuse (user.id ∉ db.users) .db
  return { db with
    requests := change db.requests id fun row =>
      { row with changeType, lastEditedById := user.id, deliveryService := req.deliveryService, status } }

def update (db : Db) (user : CurrentUser) (req : Request) : Result Db := do
  let id ← require req.id (.error "error updating DeliveryServiceRequest: ID is nil" .DataMissingError)
  let current ← require (db.select id) .noRows
  let status ← require req.status (.error "Missing status for DeliveryServiceRequest" .DataMissingError)
  refuse (¬initial (.of current.status))
    (.error ("Cannot change DeliveryServiceRequest in '" ++ current.status.string ++ "' status.") .DataConflictError)
  refuse (¬initial status) (.error ("Cannot change DeliveryServiceRequest status from '" ++ current.status.string ++
    "' to '" ++ status.string ++ "'") .DataConflictError)
  updateRequest db user req id

def delete (db : Db) (req : Request) : Result Db := do
  let id ← require req.id (.error "cannot delete deliveryservice_request -- ID is nil" .SystemError)
  let row ← require (db.requests.lookup id) .noRows
  refuse (row.status = .complete ∨ row.status = .pending ∨ row.status = .rejected)
    (.error ("cannot delete a deliveryservice_request with state " ++ row.status.string) .DataConflictError)
  return { db with requests := db.requests.erase id }

-- `%v` of a pointer; `%d` of one is its address in decimal.
def printPointer (address : Nat) : String := "0x" ++ String.ofList (Nat.toDigits 16 address)

/-- The statement names the row by the address that `req.ID` has after the stored row was copied over it. -/
def assign (db : Db) (req : Request) (idAddress : Nat) : Result Db := do
  let id ← require req.id (.error "cannot update DeliveryServiceRequestAssignment -- ID is nil" .SystemError)
  let current ← require (db.select id) .noRows
  -- Pointers are compared: they are only equal where both are nil.
  if current.assigneeId = none ∧ req.assigneeId = none then return db
  refuse ((idAddress : Int) ∈ db.requests ∧ ¬db.references req.assigneeId) .db
  return { db with
    requests := change db.requests idAddress fun row => { row with assigneeId := req.assigneeId } }

def changeStatus (db : Db) (req : Request) (statusAddress idAddress : Nat) : Result Db := do
  let id ← require req.id .panic
  let current ← require (db.select id) .noRows
  let status ← require req.status .panic
  ((RequestStatus.of current.status).validTransition status).mapError fun err => .error err .DataConflictError
  -- The text of the new status is the address of `req.Status`.
  let state ← require (WorkflowState.ofString (printPointer statusAddress)) .db
  return { db with requests := change db.requests idAddress fun row => { row with status := state } }

section Accepted

variable {α : Type} {value : Option α} {failure : Failure} {a : α} {condition : Prop} [Decidable condition]

theorem require_ok_iff : require value failure = .ok a ↔ value = some a := by
  cases value <;> simp [require]

theorem refuse_ok_iff {done : Unit} : refuse condition failure = .ok done ↔ ¬condition := by
  unfold refuse
  split <;> simp [*]

theorem select_eq_some {db : Db} {id : Int} {row : Row} :
    db.select id = some row ↔ db.requests.lookup id = some row ∧ row.authorId ∈ db.users := by
  simp [Db.select, Option.filter_eq_some_iff]

variable {db db' : Db} {user : CurrentUser} {req : Request}

/-- A `POST` that only its check for an active request may still refuse. -/
structure Postable (req : Request) (xmlId : String) (state : WorkflowState) : Prop where
  status : req.status = some (.of state)
  initial : initial (.of state)
  xmlId : req.deliveryService.bind DeliveryService.xmlId = some xmlId

theorem initial_iff {status : RequestStatus} :
    initial status ↔ ∃ state, status = .of state ∧ (state = .draft ∨ state = .submitted) := by
  cases status <;> simp [initial]

theorem checkInsert_ok_iff {answer : String → Db → Except String Bool} {done : Unit} :
    checkInsert answer db req = .ok done ↔
      ∃ xmlId state, Postable req xmlId state ∧ isActiveRequest answer db xmlId = .ok false := by
  simp only [checkInsert, ExceptList.bind_ok_iff, ExceptList.mapError_ok_iff, require_ok_iff, refuse_ok_iff, not_not,
    Bool.not_eq_true]
  constructor
  · rintro ⟨status, named, _, allowed, ds, present, xmlId, has, active, answered, rfl⟩
    obtain ⟨state, rfl, -⟩ := initial_iff.mp allowed
    exact ⟨xmlId, state, ⟨named, allowed, by rw [present]; exact has⟩, answered⟩
  · rintro ⟨xmlId, state, ⟨named, allowed, has⟩, answered⟩
    obtain ⟨ds, present, has⟩ := Option.bind_eq_some_iff.mp has
    exact ⟨_, named, (), allowed, ds, present, xmlId, has, false, answered, rfl⟩

structure Insertable (db : Db) (user : CurrentUser) (req : Request) (drawn : Int) (changeType : ChangeType)
    (state : WorkflowState) : Prop where
  typed : req.changeType.bind ChangeType.ofString = some changeType
  status : req.status.bind RequestStatus.stored = some state
  fresh : drawn ∉ db.requests
  author : user.id ∈ db.users
  assignee : db.references req.assigneeId

def inserted (user : CurrentUser) (req : Request) (changeType : ChangeType) (state : WorkflowState) : Row where
  assigneeId := req.assigneeId
  authorId := user.id
  changeType := changeType
  lastEditedById := user.id
  deliveryService := req.deliveryService
  status := state

theorem insertRequest_ok_iff {drawn : Int} : insertRequest db user req drawn = .ok db' ↔
    ∃ changeType state, Insertable db user req drawn changeType state ∧
      db' = { db with requests := db.requests.insert drawn (inserted user req changeType state) } := by
  simp only [insertRequest, ExceptList.bind_ok_iff, require_ok_iff, refuse_ok_iff, not_not]
  constructor
  · rintro ⟨changeType, typed, state, status, _, fresh, _, ⟨author, assignee⟩, result⟩
    exact ⟨changeType, state, ⟨typed, status, fresh, author, assignee⟩, (Except.ok.inj result).symm⟩
  · rintro ⟨changeType, state, ⟨typed, status, fresh, author, assignee⟩, rfl⟩
    exact ⟨changeType, typed, state, status, (), fresh, (), ⟨author, assignee⟩, rfl⟩

/-- A `PUT` of a request that is not refused, and the row it writes over. -/
structure Updatable (db : Db) (user : CurrentUser) (req : Request) (id : Int) (current : Row) (changeType : ChangeType)
    (state : WorkflowState) : Prop where
  named : req.id = some id
  selected : db.select id = some current
  editable : initial (.of current.status)
  status : req.status = some (.of state)
  initial : initial (.of state)
  typed : req.changeType.bind ChangeType.ofString = some changeType
  editor : user.id ∈ db.users

def updated (user : CurrentUser) (req : Request) (changeType : ChangeType) (state : WorkflowState) (row : Row) : Row :=
  { row with changeType, lastEditedById := user.id, deliveryService := req.deliveryService, status := state }

theorem update_ok_iff : update db user req = .ok db' ↔
    ∃ id current changeType state, Updatable db user req id current changeType state ∧
      db' = { db with requests := change db.requests id (updated user req changeType state) } := by
  simp only [update, updateRequest, ExceptList.bind_ok_iff, require_ok_iff, refuse_ok_iff, not_not]
  constructor
  · rintro ⟨id, named, current, selected, status, requested, _, editable, _, allowed, changeType, typed, state, stored,
      _, -, _, editor, result⟩
    obtain ⟨_, rfl, -⟩ := initial_iff.mp allowed
    rw [requested] at stored
    obtain rfl := Option.some.inj stored
    exact ⟨id, current, changeType, _, ⟨named, selected, editable, requested, allowed, typed, editor⟩,
      (Except.ok.inj result).symm⟩
  · rintro ⟨id, current, changeType, state, ⟨named, selected, editable, requested, allowed, typed, editor⟩, rfl⟩
    have member : id ∈ db.requests := mem_of_lookup (select_eq_some.mp selected).1
    exact ⟨id, named, current, selected, _, requested, (), editable, (), allowed, changeType, typed, state,
      by rw [requested]; rfl, (), member, (), editor, rfl⟩

theorem delete_ok_iff : delete db req = .ok db' ↔
    ∃ id row, req.id = some id ∧ db.requests.lookup id = some row ∧ initial (.of row.status) ∧
      db' = { db with requests := db.requests.erase id } := by
  have deletable : ∀ state : WorkflowState,
      ¬(state = .complete ∨ state = .pending ∨ state = .rejected) ↔ initial (.of state) := by
    intro state
    cases state <;> decide
  simp only [delete, ExceptList.bind_ok_iff, require_ok_iff, refuse_ok_iff, deletable]
  constructor
  · rintro ⟨id, named, row, found, _, allowed, result⟩
    exact ⟨id, row, named, found, allowed, (Except.ok.inj result).symm⟩
  · rintro ⟨id, row, named, found, allowed, rfl⟩
    exact ⟨id, named, row, found, (), allowed, rfl⟩

theorem assign_ok_iff {idAddress : Nat} : assign db req idAddress = .ok db' ↔
    ∃ id current, req.id = some id ∧ db.select id = some current ∧
      (current.assigneeId = none ∧ req.assigneeId = none ∧ db' = db ∨
        ¬(current.assigneeId = none ∧ req.assigneeId = none) ∧
          ((idAddress : Int) ∈ db.requests → db.references req.assigneeId) ∧
          db' = { db with
            requests := change db.requests idAddress fun row => { row with assigneeId := req.assigneeId } }) := by
  simp only [assign, ExceptList.bind_ok_iff, require_ok_iff]
  constructor
  · rintro ⟨id, named, current, selected, result⟩
    refine ⟨id, current, named, selected, ?_⟩
    split at result
    case isTrue unchanged => exact .inl ⟨unchanged.1, unchanged.2, (Except.ok.inj result).symm⟩
    case isFalse changed =>
      obtain ⟨_, allowed, result⟩ := ExceptList.bind_ok_iff.mp result
      exact .inr ⟨changed, by simpa using refuse_ok_iff.mp allowed, (Except.ok.inj result).symm⟩
  · rintro ⟨id, current, named, selected, ⟨unassigned, requested, rfl⟩ | ⟨changed, allowed, rfl⟩⟩
    · exact ⟨id, named, current, selected, by rw [if_pos ⟨unassigned, requested⟩]; rfl⟩
    · refine ⟨id, named, current, selected, ?_⟩
      rw [if_neg changed, ExceptList.bind_ok_iff]
      exact ⟨(), refuse_ok_iff.mpr (by simpa using allowed), rfl⟩

/-- No pointer is printed as a state. -/
theorem ofString_printPointer (address : Nat) : WorkflowState.ofString (printPointer address) = none := by
  have other : ∀ state : WorkflowState, state.string.toList.head? ≠ some '0' := by
    intro state
    cases state <;> decide
  apply List.find?_eq_none.mpr
  intro state _ printed
  have heads := congrArg (fun text => text.toList.head?) (of_decide_eq_true printed)
  exact other state (heads.trans (by simp [printPointer]))

theorem changeStatus_not_ok (statusAddress idAddress : Nat) : changeStatus db req statusAddress idAddress ≠ .ok db' := by
  intro accepted
  obtain ⟨_, -, accepted⟩ := ExceptList.bind_ok_iff.mp accepted
  obtain ⟨_, -, accepted⟩ := ExceptList.bind_ok_iff.mp accepted
  obtain ⟨_, -, accepted⟩ := ExceptList.bind_ok_iff.mp accepted
  obtain ⟨_, -, accepted⟩ := ExceptList.bind_ok_iff.mp accepted
  obtain ⟨state, parsed, -⟩ := ExceptList.bind_ok_iff.mp accepted
  rw [require_ok_iff, ofString_printPointer] at parsed
  cases parsed

end Accepted

end DsRequest
