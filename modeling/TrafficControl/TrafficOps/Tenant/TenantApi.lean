import Mathlib.Algebra.Ring.Int.Defs
import Mathlib.Data.List.DropRight
import TrafficControl.Lib.Guards
import TrafficControl.TrafficOps.Tenant.Utils

set_option autoImplicit false

-- The handlers of `API::Tenant` that write.
namespace TenantApi

open Guards Tenants

-- Tenants with the column of their names.
structure Database where
  tenants : TenantsData
  name : Int → String

-- Who calls, and what else the database holds while he does.
structure Context where
  username : String
  isOper : Bool
  useTenancy : Bool
  users : List (String × Option Int)
  deliveryServices : List (String × Option Int)

structure Params where
  name : Option String
  active : Option String
  parentId : Option String

/-- `died`: an exception, for which the server answers. `hangs`: no answer ever. -/
inductive Refusal where
  | forbidden
  | notFound
  | invalid (errors : List (String × String))
  | alert (text : String)
  | died
  | hangs
  deriving DecidableEq

abbrev Handled := Except Refusal

/-- What PostgreSQL reads as a `bigint` in a text that starts with a digit. -/
def bigint (text : String) : Option Int :=
  let rest := text.toList.dropWhile Char.isDigit
  if rest ≠ text.toList ∧ rest.all Char.isWhitespace ∧ numeric text < 2 ^ 63 then some (numeric text) else none

def boolean (text : String) : Option Bool :=
  let word := ((text.toList.dropWhile Char.isWhitespace).rdropWhile Char.isWhitespace).map Char.toLower
  if word = [] then none
  else if word.isPrefixOf "true".toList ∨ word.isPrefixOf "yes".toList ∨ word = "on".toList ∨ word = "1".toList then
    some true
  else if word.isPrefixOf "false".toList ∨ word.isPrefixOf "no".toList ∨ word = "of".toList ∨ word = "off".toList ∨
      word = "0".toList then
    some false
  else none

def truthy (scalar : String) : Bool := scalar ≠ "" && scalar ≠ "0"

-- The first row, as the "C" collation orders them.
def firstOf (names : List String) : Option String :=
  names.foldr (fun name first => some (first.elim name fun other => if name ≤ other then name else other)) none

def Context.currentUserTenant (context : Context) : Option Int :=
  (context.users.find? fun user => user.1 = context.username).bind Prod.snd

def Context.owners (rows : List (String × Option Int)) (tenantId : Int) : List String :=
  (rows.filter fun row => row.2 = some tenantId).map Prod.fst

section Handlers

-- What `\d` matches.
variable (isDigit : Char → Bool)

def isLike (text : String) : Bool :=
  let text := if text.toList.getLast? = some '\n' then text.toList.dropLast else text.toList
  text ≠ [] && text.all isDigit

def isRequired (field : String) (value : Option String) : List (String × String) :=
  if value.getD "" = "" then [(field, "is required")] else []

def isTenantValid (params : Params) : List (String × String) :=
  isRequired "name" params.name ++ isRequired "active" params.active ++
    (isRequired "parentId" params.parentId ++ params.parentId.elim [] fun text =>
      if text = "" ∨ isLike isDigit text then [] else [("parentId", "must be a positive integer")])

variable (db : Database) (context : Context)

def isTenantResourceAccessible (tenant : Option Scalar) : Handled Bool :=
  require (isResourceAccessableToTenant db.tenants context.useTenancy tenant context.currentUserTenant) .died

def existing (name : String) : Option Int := db.tenants.keys.find? fun id => db.name id = name

/-- The database takes a row whose name is its own and whose parent is another tenant's id. -/
def store (id : Int) (name : String) (tenant : Tenant) : Handled Database := do
  refuse ((existing db name).any (· ≠ id)) .died
  refuse (tenant.parentId.any fun parent => parent = id ∨ db.tenants.lookup parent = none) .died
  .ok { tenants := db.tenants.insert id tenant, name := Function.update db.name id name }

def checkParentReplacement (id parentId : Scalar) (tenant : Tenant) : Handled Unit := do
  let currentAccessible ← isTenantResourceAccessible db context (tenant.parentId.map .ofId)
  -- `$self>alert(..)` calls a function that is not there
  refuse (¬currentAccessible) .died
  refuse ((getTenantById db.tenants parentId).isNone) (.alert "Parent tenant does not exists.")
  let accessible ← isTenantResourceAccessible db context (some parentId)
  refuse (¬accessible) (.alert "Invalid parent tenant. This tenant is not available to you for parent assignment.")
  let parentDepth ← require (getTenantHeirarchyDepth db.tenants parentId) (.alert "Failed to retrieve parent tenant depth.")
  let searched ← require (getTenantHeirarchyHeight db.tenants id) .hangs
  let tenantHeight ← require searched (.alert "Failed to retrieve tenant height.")
  refuse (parentDepth + tenantHeight + 1 > maxHeirarchyLimit) (.alert "Parent tenant is invalid: heirarchy limit reached.")
  refuse (parentId.number = id.number) (.alert "Parent tenant is invalid: same as updated tenant.")
  let isAnchestor ← require (isAnchestorOf db.tenants id parentId) (.alert "Failed to check tenant and parent current relations.")
  refuse isAnchestor (.alert "Parent tenant is invalid: a child of the updated tenant.")

def checkParent (id parentId : Scalar) (tenant : Tenant) : Handled Unit :=
  if parentId.number ≠ tenant.parentId.getD 0 then checkParentReplacement db context id parentId tenant else .ok ()

/-- A column of numbers is only written when its number changes. -/
def writtenParent (tenant : Tenant) (parentId : String) : Option Int :=
  if tenant.parentId = some (numeric parentId) then tenant.parentId else bigint parentId

def update (id : String) (params : Params) : Handled Database := do
  refuse (¬context.isOper) .forbidden
  let tenantId ← require (bigint id) .died
  let tenant ← require (db.tenants.lookup tenantId) .notFound
  refuse (isTenantValid isDigit params ≠ []) (.invalid (isTenantValid isDigit params))
  let name := params.name.getD ""
  let active := params.active.getD ""
  let parentId := params.parentId.getD ""
  refuse (name ≠ db.name tenantId ∧ (existing db name).isSome ∧ truthy name)
    (.alert ("A tenant with name \"" ++ name ++ "\" already exists."))
  let accessible ← isTenantResourceAccessible db context (some (.ofText id))
  refuse (¬accessible) .forbidden
  refuse (¬truthy active ∧ isRootTenant db.tenants (some (.ofText id))) (.alert "Root tenant cannot be in-active.")
  checkParent db context (.ofText id) (.ofText parentId) tenant
  let isActive ← require (boolean active) .died
  let parent ← require (writtenParent tenant parentId) .died
  store db tenantId name ⟨isActive, some parent⟩

/-- `newId` is the next of the sequence. -/
def create (newId : Int) (params : Params) : Handled Database := do
  refuse (¬context.isOper) .forbidden
  refuse (isTenantValid isDigit params ≠ []) (.invalid (isTenantValid isDigit params))
  let name := params.name.getD ""
  let active := params.active.getD ""
  let parentId := params.parentId.getD ""
  refuse ((getTenantById db.tenants (.ofText parentId)).isNone) (.alert "Parent tenant does not exists.")
  let accessible ← isTenantResourceAccessible db context (some (.ofText parentId))
  refuse (¬accessible) (.alert "Invalid parent tenant. This tenant is not available to you for parent assignment.")
  let parentDepth ← require (getTenantHeirarchyDepth db.tenants (.ofText parentId))
    (.alert "Failed to retrieve parent tenant depth.")
  refuse (parentDepth + 1 > maxHeirarchyLimit - 1) (.alert "Parent tenant is invalid: heirarchy limit reached.")
  refuse ((existing db name).isSome ∧ truthy name) (.alert ("A tenant with name " ++ name ++ " already exists."))
  let isActive ← require (boolean active) .died
  let parent ← require (bigint parentId) .died
  refuse (newId ∈ db.tenants) .died
  store db newId name ⟨isActive, some parent⟩

def delete (id : String) : Handled Database := do
  refuse (¬context.isOper) .forbidden
  let tenantId ← require (bigint id) .died
  let _ ← require (db.tenants.lookup tenantId) .notFound
  let accessible ← isTenantResourceAccessible db context (some (.ofText id))
  refuse (¬accessible) .forbidden
  let name := db.name tenantId
  let existingChild := (firstOf ((childrenOf db.tenants tenantId).map db.name)).getD ""
  refuse (truthy existingChild) (.alert ("Tenant '" ++ name ++ "' has children tenant(s): e.g '" ++ existingChild ++
    "'. Please update these tenants and retry."))
  let existingDs := (firstOf (Context.owners context.deliveryServices tenantId)).getD ""
  refuse (truthy existingDs) (.alert ("Tenant '" ++ name ++ "' is assign with delivery-services(s): e.g. '" ++ existingDs ++
    "'. Please update/delete these delivery-services and retry."))
  let existingUser := (firstOf (Context.owners context.users tenantId)).getD ""
  refuse (truthy existingUser) (.alert ("Tenant '" ++ name ++ "' is assign with user(s): e.g. '" ++ existingUser ++
    "'. Please update these users and retry."))
  -- the foreign keys
  refuse (childrenOf db.tenants tenantId ≠ [] ∨ Context.owners context.deliveryServices tenantId ≠ [] ∨
    Context.owners context.users tenantId ≠ []) .died
  .ok { db with tenants := db.tenants.erase tenantId }

end Handlers

end TenantApi
