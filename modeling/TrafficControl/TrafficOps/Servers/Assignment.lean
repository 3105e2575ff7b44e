import TrafficControl.Lib.Routine

set_option autoImplicit false

-- `assignDeliveryServicesToServer`, its statements and its transaction.
namespace Assignment

open Routine

structure Parameter where
  id : Int
  name : String
  configFile : Option String
  value : String

structure DeliveryService where
  id : Int
  xmlId : Option String
  edgeHeaderRewrite : Option String
  regexRemap : Option String
  cacheurl : Option String

-- The tables that the statements read and write: `deliveryservice_server` as pairs of delivery service and server,
-- `profile_parameter` as pairs of profile and parameter, `server` as pairs of id and profile.
structure Database where
  assignments : List (Int × Int)
  parameters : List Parameter
  profileParameters : List (Int × Int)
  servers : List (Int × Int)
  deliveryServices : List DeliveryService
  nextParameterId : Int

section Statements

variable (db : Database)

/-- `ON CONFLICT DO NOTHING`, for a table of which all columns are the key. -/
def insertNew (rows new : List (Int × Int)) : List (Int × Int) :=
  new.foldl (fun rows row => if row ∈ rows then rows else rows ++ [row]) rows

def deleteCurrent (server : Int) : Database :=
  { db with assignments := db.assignments.filter fun row => row.2 ≠ server }

def bulkInsert (server : Int) (dses : List Int) : Database :=
  { db with assignments := insertNew db.assignments (dses.map fun ds => (ds, server)) }

def remapLocation : Option String :=
  (db.parameters.find? fun parameter => parameter.name = "location" ∧ parameter.configFile = some "remap.config").map
    Parameter.value

def dsFields (dses : List Int) : List DeliveryService := db.deliveryServices.filter fun ds => ds.id ∈ dses

def insertParameter (value : String) (db : Database) (configFile : String) : Database :=
  if ∃ parameter ∈ db.parameters, parameter.name = "location" ∧ parameter.configFile = some configFile ∧ parameter.value = value
  then db
  else { db with
    parameters := db.parameters ++ [⟨db.nextParameterId, "location", some configFile, value⟩]
    nextParameterId := db.nextParameterId + 1 }

def insertParams (files : List String) (value : String) : Database := files.foldl (insertParameter value) db

/-- What `pq.Array` makes of a list, where the statement takes a text. -/
def arrayText (items : List String) : String :=
  let quoted := items.map fun item =>
    "\"" ++ String.ofList (item.toList.flatMap fun c => if c = '\\' ∨ c = '"' then ['\\', c] else [c]) ++ "\""
  "\x7b" ++ String.intercalate "," quoted ++ "\x7d"

/-- `config_file IN ($1)` compares with one text. -/
def parameterIds (files : List String) : List Int :=
  (db.parameters.filter fun parameter =>
    parameter.name = "location" ∧ parameter.configFile = some (arrayText files)).map Parameter.id

def profilesOf (dses : List Int) : List Int :=
  ((db.servers.filter fun server => ∃ ds ∈ dses, (ds, server.1) ∈ db.assignments).map Prod.snd).eraseDups

def insertProfileParams (dses parameterIds : List Int) : Database :=
  let new := (profilesOf db dses).flatMap fun profile => parameterIds.map fun parameter => (profile, parameter)
  { db with profileParameters := insertNew db.profileParameters new }

/-- The links of a parameter go with it. -/
def deleteParams (files : List String) : Database :=
  let deleted (parameter : Parameter) : Bool := parameter.name = "location" && parameter.configFile.any (· ∈ files)
  { db with
    parameters := db.parameters.filter fun parameter => !deleted parameter
    profileParameters := db.profileParameters.filter fun row =>
      !db.parameters.any fun parameter => parameter.id = row.2 && deleted parameter }

end Statements

inductive Statement where
  | deleteCurrent
  | bulkInsert
  | selectDsFields
  | insertParams
  | selectParameterIds
  | insertProfileParams
  | deleteParams
  deriving DecidableEq

/-- The calls that can fail. `execute` is an `Exec` or a `Query`. -/
inductive Call where
  | beginx
  | prepare (statement : Statement)
  | execute (statement : Statement)
  | scanLocation
  | scan (statement : Statement) (row : Nat)
  deriving DecidableEq

structure Faults where
  fails : Call → Option String
  -- after how many rows the iteration over a result breaks off
  endsAfter : Statement → Option Nat

inductive Err where
  | DBError

-- The tables as the transaction sees them, and the variable `err` that the deferred function reads.
structure Transaction where
  db : Database
  err : Option String

section Body

variable (faults : Faults)

/-- A call whose error is kept in the function's `err`. -/
def call (c : Call) (effect : Database → Database) : Routine Err Transaction Unit := fun tx =>
  match faults.fails c with
  | none => (.ok (), ⟨effect tx.db, none⟩)
  | some err => (.error .DBError, ⟨tx.db, some err⟩)

/-- A call whose error is kept in an `err` of the block it is in. -/
def shadowedCall (c : Call) (effect : Database → Database) : Routine Err Transaction Unit := fun tx =>
  match faults.fails c with
  | none => (.ok (), ⟨effect tx.db, tx.err⟩)
  | some _ => (.error .DBError, tx)

def execute (statement : Statement) (effect : Database → Database) : Routine Err Transaction Unit := do
  call faults (.prepare statement) id
  call faults (.execute statement) effect

def delivered {α : Type} (statement : Statement) (rows : List α) : List α :=
  (faults.endsAfter statement).elim rows rows.take

/-- The rows of a result, each scanned. -/
def scanRows {α : Type} (statement : Statement) : Nat → List α → Routine Err Transaction Unit
  | _, [] => pure ()
  | i, _ :: rows => do
    shadowedCall faults (.scan statement i) id
    scanRows statement (i + 1) rows

def query {α : Type} (statement : Statement) (select : Database → List α) : Routine Err Transaction (List α) := do
  execute faults statement id
  let tx ← readState
  let rows := delivered faults statement (select tx.db)
  scanRows faults statement 0 rows
  pure rows

def nonempty (field : Option String) : Bool := field.any (· ≠ "")

def configFile (file : String) (xmlId : String) : String := file ++ xmlId ++ ".config"

/-- The files that a delivery service needs, or those that it does not. -/
def filesOf (needed : Bool) (ds : DeliveryService) : List String :=
  if nonempty ds.xmlId then
    let xmlId := ds.xmlId.getD ""
    ([("hdr_rw_", ds.edgeHeaderRewrite), ("regex_remap_", ds.regexRemap), ("cacheurl_", ds.cacheurl)].filter
      fun field => nonempty field.2 = needed).map fun field => configFile field.1 xmlId
  else []

def location (value : Option String) : String :=
  let atsConfigLocation := value.getD ""
  if atsConfigLocation.toList.getLast? = some '/' then String.ofList atsConfigLocation.toList.dropLast else atsConfigLocation

def assign (server : Int) (dses : List Int) (replace : Bool) : Routine Err Transaction (List Int) := do
  if replace then
    shadowedCall faults (.prepare .deleteCurrent) id
    shadowedCall faults (.execute .deleteCurrent) fun db => deleteCurrent db server
  execute faults .bulkInsert fun db => bulkInsert db server dses
  let tx ← readState
  -- nobody looks at the error of this scan
  let atsConfigLocation := location ((faults.fails .scanLocation).elim (remapLocation tx.db) fun _ => none)
  let rows ← query faults .selectDsFields fun db => dsFields db dses
  let insert := rows.flatMap (filesOf true)
  let delete := rows.flatMap (filesOf false)
  execute faults .insertParams fun db => insertParams db insert atsConfigLocation
  let ids ← query faults .selectParameterIds fun db => parameterIds db insert
  execute faults .insertProfileParams fun db => insertProfileParams db dses ids
  execute faults .deleteParams fun db => deleteParams db delete
  pure dses

end Body

inductive Ended where
  | rollback
  | commit
  deriving DecidableEq

-- What the call answers, how its transaction ended if it has begun, and the tables that everybody sees then.
structure Assigned where
  result : Except Err (List Int)
  ended : Option Ended
  committed : Database

def assignDeliveryServicesToServer (faults : Faults) (server : Int) (dses : List Int) (replace : Bool) (db : Database) : Assigned :=
  match faults.fails .beginx with
  | some _ => ⟨.error .DBError, none, db⟩
  | none =>
    let (result, tx) := outcome (assign faults server dses replace) ⟨db, none⟩
    match tx.err with
    | some _ => ⟨result, some .rollback, db⟩
    | none => ⟨result, some .commit, tx.db⟩

end Assignment
