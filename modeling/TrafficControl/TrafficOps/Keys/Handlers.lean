import TrafficControl.Lib.Guards
import TrafficControl.TrafficOps.Keys.Riak
import TrafficControl.TrafficOps.Tenant.Tenancy

set_option autoImplicit false

-- The handlers of `deliveryservices_keys.go`.
namespace KeyHandlers

open Guards Riak Routine Tenants

/-- What may fail outside the program, the queries by what they ask for. -/
inductive Call where
  | currentUser
  | pathParams
  | readBody
  | cdnId
  | xmlId
  | tenantInfo
  | tenancy
  | riakCluster
  | start
  | execute (operation : Operation)

structure Db where
  tenancy : Tenancy
  deliveryServices : List (String × Option Int)
  cdns : List (String × Int)
  -- the CDN, the pattern and the delivery service
  regexes : List (Int × String × String)

structure Environment where
  riakEnabled : Bool
  db : Db
  user : CurrentUser
  pathParams : String → String
  version : String
  failure : Call → Option String

inductive ApiErrorType where
  | NoError
  | SystemError
  | DataMissingError
  | ForbiddenError

structure Refusal where
  status : Nat
  err : String

inductive Response where
  | keys (keys : DeliveryServiceSSLKeys Int)
  | alert (text : String)
  | stored (value : Value)
  | emptyKeyset

-- The handlers, and what they call.
abbrev Handler := Routine Refusal Store

variable (env : Environment)

def Environment.answer {α : Type} (call : Call) (value : α) : Except String α := (env.failure call).elim (.ok value) .error

def respond {α : Type} (status : Nat) (value : Except String α) : Handler α := lift (value.mapError (⟨status, ·⟩))

def getDeliveryServiceTenantInfo (xmlId : String) : Except (Option String) (Option Int) := do
  let rows ← (env.answer .tenantInfo env.db.deliveryServices).mapError fun _ => none
  let row ← require (rows.find? fun row => row.1 = xmlId)
    (some ("a deliveryservice with xml_id '" ++ xmlId ++ "' was not found"))
  pure row.2

def isTenantAuthorized (tenantId : Option Int) : Except String Bool := do
  let tenantId ← require tenantId "TenantID is nil"
  env.answer .tenancy (isResourceAuthorizedToUser env.db.tenancy tenantId env.user)

/-- Whether there is access, the error and its kind. -/
def hasTenant (xmlId : String) : Bool × String × ApiErrorType :=
  match getDeliveryServiceTenantInfo env xmlId with
  | .error none => (false, "deliveryservice lookup failure", .SystemError)
  | .error (some _) => (false, "no such deliveryservice: '" ++ xmlId ++ "'", .DataMissingError)
  | .ok tenantId =>
    match isTenantAuthorized env tenantId with
    | .error err => (false, "user tenancy check failure: " ++ err, .SystemError)
    | .ok false => (false, "Access to this resource is not authorized", .ForbiddenError)
    | .ok true => (true, "", .NoError)

/-- The check as every handler has it. Without access, an error of no kind would pass. -/
def checkTenancy (xmlId : String) : Handler Unit :=
  match hasTenant env xmlId with
  | (true, _, _) => pure ()
  | (false, err, .SystemError) => throw ⟨500, err⟩
  | (false, err, .DataMissingError) => throw ⟨400, err⟩
  | (false, err, .ForbiddenError) => throw ⟨403, err⟩
  | (false, _, .NoError) => pure ()

/-- `getRiakCluster` and `Start`. -/
def startCluster : Except String Unit := do
  env.answer .riakCluster ()
  env.answer .start ()

def fails (operation : Operation) : Option String := env.failure (.execute operation)

/-- No keys: nothing is stored under the key. -/
def getDeliveryServiceSSLKeysByXMLID (xmlId version : String) :
    Routine String Store (Option (DeliveryServiceSSLKeys Int)) := do
  lift (startCluster env)
  let xmlId := if version = "" then xmlId ++ "-latest" else xmlId ++ "-" ++ version
  let ro ← fetchObjectValues (fails env) xmlId SSLKeysBucket
  match ro with
  | none => pure none
  | some (.keysJSON o) => lift ((unmarshalJSON o).map some)
  | some (.data text) => throw ("failed at unmarshaling " ++ text)

def sslKeysResponse (xmlId version : String) : Handler Response := do
  let keys ← adapt (⟨500, ·⟩) (getDeliveryServiceSSLKeysByXMLID env xmlId version)
  pure (keys.elim (.alert "no object found for the specified key") .keys)

def riakUnavailable : Refusal := ⟨503, "The RIAK service is unavailable"⟩

/-- `body` is what the decoder makes of the request. -/
def addDeliveryServiceSSLKeysHandler (verifyAndEncodeCertificate : String → String → Except String String)
    (body : Except String (DeliveryServiceSSLKeys Interface)) : Handler Response := do
  respond 500 (env.answer .currentUser ())
  respond 500 (env.answer .readBody ())
  let keysObj ← respond 400 (body.bind unmarshalJSON)
  checkTenancy env keysObj.deliveryService
  let certChain ← respond 400 (verifyAndEncodeCertificate keysObj.certificate.crt "")
  let keysObj := { keysObj with certificate := { keysObj.certificate with crt := certChain } }
  respond 500 (startCluster env)
  adapt (⟨500, ·⟩) (saveObject (fails env) keysObj.deliveryService (.keysJSON (marshal keysObj)) SSLKeysBucket)
  pure (.keys keysObj)

/-- The domain and the pattern of a host name. -/
def hostParts (hostName : String) : String × String :=
  let strArr := (hostName.toList.splitOn '.').map String.ofList
  if 1 < strArr.length then
    ((((strArr.drop 2).dropLast.map (· ++ ".")).foldr (· ++ ·) "") ++ strArr.getLastD "",
      ".*\\." ++ strArr.getD 1 "" ++ "\\..*")
  else ("", "")

def getCDNIDByDomainname (domainName : String) : Except String (Option Int) :=
  env.answer .cdnId ((env.db.cdns.filter fun cdn => cdn.1 = domainName).getLast?.map Prod.snd)

def getXMLID (cdnId : Int) (hostRegex : String) : Except String (Option String) :=
  env.answer .xmlId ((env.db.regexes.filter fun row => row.1 = cdnId ∧ row.2.1 = hostRegex).getLast?.map fun row => row.2.2)

def getDeliveryServiceSSLKeysByHostNameHandler : Handler Response := do
  lift (refuse (env.riakEnabled = false) riakUnavailable)
  respond 500 (env.answer .currentUser ())
  respond 500 (env.answer .pathParams ())
  let hostName := env.pathParams "hostName"
  let (domainName, hostRegex) := hostParts hostName
  match ← respond 500 (getCDNIDByDomainname env domainName) with
  | none => pure (.alert (" - a cdn does not exist for the domain: " ++ domainName ++ " parsed from hostname: " ++ hostName))
  | some cdnId =>
    match ← respond 500 (getXMLID env cdnId hostRegex) with
    | none => pure (.alert ("  - a delivery service does not exist for a host with hostname of " ++ hostName))
    | some xmlId => do
      checkTenancy env xmlId
      sslKeysResponse env xmlId env.version

def getDeliveryServiceSSLKeysByXMLIDHandler : Handler Response := do
  lift (refuse (env.riakEnabled = false) riakUnavailable)
  respond 500 (env.answer .currentUser ())
  respond 500 (env.answer .pathParams ())
  let xmlId := env.pathParams "xmlID"
  checkTenancy env xmlId
  sslKeysResponse env xmlId env.version

structure SigningKey where
  algorithm : String
  keyId : String

structure URISignerKeyset where
  renewalKid : Option String
  keys : List SigningKey

def validateKeys (keys : List SigningKey) : Except String Unit :=
  keys.forM fun key => do
    refuse (key.algorithm = "") "A Key has no algorithm, alg, specified"
    refuse (key.keyId = "") "A Key has no key id, kid, specified"

/-- The entries of the map as its loop happens to order them. -/
def validateURIKeyset (msg : List (String × URISignerKeyset)) : Except String Unit := do
  msg.forM fun entry => do
    refuse (entry.1 = "") "JSON Keyset has no issuer"
    validateKeys entry.2.keys
  let renewalKids := msg.filterMap fun entry => entry.2.renewalKid
  refuse (renewalKids.length = 0) "No renewal_kid was found in any keyset"
  refuse (1 < renewalKids.length) "More than one renewal_kid was found in the keysets"
  refuse (¬∃ entry ∈ msg, ∃ key ∈ entry.2.keys, entry.2.renewalKid = some key.keyId)
    "No key was found with a kid that matches the renewal kid"

/-- What stands before the cluster in the handlers for URI signing keys. -/
def uriSigningXmlId : Except Refusal String := do
  refuse (env.riakEnabled = false) riakUnavailable
  (env.answer .pathParams (env.pathParams "xmlID")).mapError (⟨500, ·⟩)

def saveDeliveryServiceURIKeysHandler (data : String) (keySet : Except String (List (String × URISignerKeyset))) :
    Handler Response := do
  let xmlId ← lift (uriSigningXmlId env)
  respond 500 (env.answer .readBody ())
  let keySet ← respond 400 keySet
  respond 400 (validateURIKeyset keySet)
  respond 500 (startCluster env)
  adapt (⟨500, ·⟩) (saveObject (fails env) xmlId (.data data) CDNURIKeysBucket)
  pure (.stored (.data data))

def getURIsignkeysHandler : Handler Response := do
  let xmlId ← lift (uriSigningXmlId env)
  respond 500 (startCluster env)
  match ← adapt (⟨500, ·⟩) (fetchObjectValues (fails env) xmlId CDNURIKeysBucket) with
  | none => pure .emptyKeyset
  | some value => pure (.stored value)

def removeDeliveryServiceURIKeysHandler : Handler Response := do
  let xmlId ← lift (uriSigningXmlId env)
  respond 500 (startCluster env)
  match ← adapt (⟨500, ·⟩) (fetchObjectValues (fails env) xmlId CDNURIKeysBucket) with
  | none => pure (.alert "not deleted, no object found to delete")
  | some _ => do
    adapt (⟨500, ·⟩) (deleteObject (fails env) xmlId CDNURIKeysBucket)
    pure (.alert "object deleted")

end KeyHandlers
