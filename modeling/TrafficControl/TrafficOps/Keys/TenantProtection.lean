import TrafficControl.Lib.ExceptList
import TrafficControl.TrafficOps.Keys.Handlers

set_option autoImplicit false

namespace KeyHandlers

open Guards Riak Routine Tenants

/-- The calls of the handlers, with what only some of them read. -/
inductive HandlerCall where
  | sslByXmlId
  | sslByHostName
  | sslAdd (verifyAndEncodeCertificate : String → String → Except String String)
      (body : Except String (DeliveryServiceSSLKeys Interface))
  | uriGet
  | uriSave (data : String) (keySet : Except String (List (String × URISignerKeyset)))
  | uriRemove

section Specification

variable (env : Environment)

def handle : HandlerCall → Handler Response
  | .sslByXmlId => getDeliveryServiceSSLKeysByXMLIDHandler env
  | .sslByHostName => getDeliveryServiceSSLKeysByHostNameHandler env
  | .sslAdd verifyAndEncodeCertificate body => addDeliveryServiceSSLKeysHandler env verifyAndEncodeCertificate body
  | .uriGet => getURIsignkeysHandler env
  | .uriSave data keySet => saveDeliveryServiceURIKeysHandler env data keySet
  | .uriRemove => removeDeliveryServiceURIKeysHandler env

/-- The delivery service exists, and the user may access what is its tenant's. -/
def Authorized (xmlId : String) : Prop := ∃ row tenantId, env.db.deliveryServices.find? (fun row => row.1 = xmlId) = some row ∧
  row.2 = some tenantId ∧ isResourceAuthorizedToUser env.db.tenancy tenantId env.user = true

/-- The delivery service that a call is for: named in the path or the body, or found by the host name. -/
def IsFor (xmlId : String) : HandlerCall → Prop
  | .sslByHostName => ∃ cdnId, getCDNIDByDomainname env (hostParts (env.pathParams "hostName")).1 = .ok (some cdnId) ∧
      getXMLID env cdnId (hostParts (env.pathParams "hostName")).2 = .ok (some xmlId)
  | .sslAdd _ body => ∃ keysObj, body.bind unmarshalJSON = .ok keysObj ∧ keysObj.deliveryService = xmlId
  | .sslByXmlId | .uriGet | .uriSave _ _ | .uriRemove => env.pathParams "xmlID" = xmlId

def OwnKey (xmlId : String) (command : Command) : Prop :=
  command.bucket = SSLKeysBucket ∧ (command.key = xmlId ∨ ∃ version, command.key = xmlId ++ "-" ++ version) ∨
    command.bucket = CDNURIKeysBucket ∧ command.key = xmlId

def Protects (call : HandlerCall) (command : Command) : Prop :=
  ∃ xmlId, IsFor env xmlId call ∧ OwnKey xmlId command ∧ Authorized env xmlId

def TenantProtected (call : HandlerCall) : Prop :=
  ∀ objects, Within (Protects env call) (outcome (handle env call) ⟨objects, []⟩).2

/-- What a call for URI signing keys is checked for before it reaches the store. -/
def ReachesStore : HandlerCall → Prop
  | .uriSave _ keySet => env.answer .readBody () = .ok () ∧ (∃ keys, keySet = .ok keys ∧ validateURIKeyset keys = .ok ()) ∧
      startCluster env = .ok ()
  | _ => startCluster env = .ok ()

/-- The handlers for URI signing keys do not look at tenants. -/
def ChecksTenancy (call : HandlerCall) : Prop :=
  match call with
  | .uriGet | .uriSave _ _ | .uriRemove => ∀ xmlId, uriSigningXmlId env = .ok xmlId → ReachesStore env call → Authorized env xmlId
  | .sslByXmlId | .sslByHostName | .sslAdd _ _ => True

end Specification

section Protected

variable {env : Environment} {xmlId : String} {call : HandlerCall}

theorem answer_ok {α : Type} {c : Call} {value a : α} (answered : env.answer c value = .ok a) : value = a := by
  unfold Environment.answer at answered
  cases failure : env.failure c with
  | none =>
    rw [failure] at answered
    exact Except.ok.inj answered
  | some err =>
    rw [failure] at answered
    cases answered

theorem getDeliveryServiceTenantInfo_ok {tenantId : Option Int} (found : getDeliveryServiceTenantInfo env xmlId = .ok tenantId) :
    ∃ row, env.db.deliveryServices.find? (fun row => row.1 = xmlId) = some row ∧ row.2 = tenantId := by
  obtain ⟨rows, queried, rest⟩ := ExceptList.bind_ok found
  obtain ⟨row, here, last⟩ := ExceptList.bind_ok rest
  obtain rfl := answer_ok (ExceptList.mapError_ok queried)
  exact ⟨row, require_ok_iff.mp here, Except.ok.inj last⟩

theorem isTenantAuthorized_ok {tenantId : Option Int} (authorized : isTenantAuthorized env tenantId = .ok true) :
    ∃ id, tenantId = some id ∧ isResourceAuthorizedToUser env.db.tenancy id env.user = true := by
  obtain ⟨id, present, checked⟩ := ExceptList.bind_ok authorized
  exact ⟨id, require_ok_iff.mp present, answer_ok checked⟩

theorem hasTenant_cases : (hasTenant env xmlId).1 = true ∧ Authorized env xmlId ∨
    ∃ err kind, hasTenant env xmlId = (false, err, kind) ∧ kind ≠ .NoError := by
  unfold hasTenant
  cases found : getDeliveryServiceTenantInfo env xmlId with
  | error err => cases err <;> exact .inr ⟨_, _, rfl, nofun⟩
  | ok tenantId =>
    dsimp only
    cases checked : isTenantAuthorized env tenantId with
    | error err => exact .inr ⟨_, _, rfl, nofun⟩
    | ok authorized =>
      cases authorized with
      | false => exact .inr ⟨_, _, rfl, nofun⟩
      | true =>
        obtain ⟨row, here, rfl⟩ := getDeliveryServiceTenantInfo_ok found
        obtain ⟨id, present, open'⟩ := isTenantAuthorized_ok checked
        exact .inl ⟨rfl, row, id, here, present, open'⟩

section Yields

variable {store : Store} {allowed : Command → Prop}

/-- Past the check, the user may access what is the tenant's. -/
theorem yields_checkTenancy :
    Yields (Carries (Within allowed)) (checkTenancy env xmlId) store fun _ _ => Authorized env xmlId := by
  unfold checkTenancy
  rcases hasTenant_cases with ⟨access, authorized⟩ | ⟨err, kind, refused, isError⟩
  · generalize hasTenant env xmlId = result at access ⊢
    obtain ⟨value, rest⟩ := result
    obtain rfl : value = true := access
    exact yields_pure authorized
  · rw [refused]
    cases kind with
    | NoError => exact absurd rfl isError
    | SystemError | DataMissingError | ForbiddenError => exact yields_throw _

theorem yields_respond {α : Type} {status : Nat} {value : Except String α} :
    Yields (Carries (Within allowed)) (respond status value) store fun a _ => value = .ok a :=
  yields_lift fun _ given => ExceptList.mapError_ok given

def IsVersionOf (xmlId : String) (command : Command) : Prop :=
  command.bucket = SSLKeysBucket ∧ ∃ version, command.key = xmlId ++ "-" ++ version

theorem yields_getDeliveryServiceSSLKeys {version : String} (isAllowed : ∀ command, IsVersionOf xmlId command → allowed command) :
    Yields (Carries (Within allowed)) (getDeliveryServiceSSLKeysByXMLID env xmlId version) store fun _ _ => True := by
  refine yields_bind (yields_lift_ok) fun _ _ _ _ => ?_
  have suffixed : ∃ suffix, (if version = "" then xmlId ++ "-latest" else xmlId ++ "-" ++ version) = xmlId ++ "-" ++ suffix := by
    by_cases latest : version = ""
    · exact ⟨"latest", by rw [if_pos latest, String.append_assoc]; rfl⟩
    · exact ⟨version, if_neg latest⟩
  refine yields_bind (yields_fetchObjectValues (within_cons (isAllowed _ ⟨rfl, suffixed⟩))) fun ro _ _ _ => ?_
  match ro with
  | none => exact yields_pure trivial
  | some (.keysJSON o) => exact yields_lift fun _ _ => trivial
  | some (.data text) => exact yields_throw _

theorem yields_sslKeysResponse {version : String} (isAllowed : ∀ command, IsVersionOf xmlId command → allowed command) :
    Yields (Carries (Within allowed)) (sslKeysResponse env xmlId version) store fun _ _ => True :=
  yields_bind (yields_adapt _ (yields_getDeliveryServiceSSLKeys isAllowed)) fun _ _ _ _ => yields_pure trivial

theorem protects_version {command : Command} (isFor : IsFor env xmlId call) (authorized : Authorized env xmlId)
    (isVersion : IsVersionOf xmlId command) : Protects env call command :=
  ⟨xmlId, isFor, .inl ⟨isVersion.1, .inr isVersion.2⟩, authorized⟩

theorem yields_sslByXmlId : Yields (Carries (Within (Protects env .sslByXmlId)))
    (getDeliveryServiceSSLKeysByXMLIDHandler env) store fun _ _ => True := by
  refine yields_bind (yields_lift_ok) fun _ _ _ _ => ?_
  refine yields_bind yields_respond fun _ _ _ _ => ?_
  refine yields_bind yields_respond fun _ _ _ _ => ?_
  refine yields_bind yields_checkTenancy fun _ _ _ authorized => ?_
  exact yields_sslKeysResponse fun _ => protects_version rfl authorized

theorem yields_sslByHostName : Yields (Carries (Within (Protects env .sslByHostName)))
    (getDeliveryServiceSSLKeysByHostNameHandler env) store fun _ _ => True := by
  refine yields_bind (yields_lift_ok) fun _ _ _ _ => ?_
  refine yields_bind yields_respond fun _ _ _ _ => ?_
  refine yields_bind yields_respond fun _ _ _ _ => ?_
  refine yields_bind yields_respond fun cdnId _ _ cdnFound => ?_
  cases cdnId with
  | none => exact yields_pure trivial
  | some cdnId =>
    refine yields_bind yields_respond fun xmlId _ _ found => ?_
    cases xmlId with
    | none => exact yields_pure trivial
    | some xmlId =>
      refine yields_bind yields_checkTenancy fun _ _ _ authorized => ?_
      exact yields_sslKeysResponse fun _ => protects_version ⟨cdnId, cdnFound, found⟩ authorized

theorem yields_sslAdd {verifyAndEncodeCertificate : String → String → Except String String}
    {body : Except String (DeliveryServiceSSLKeys Interface)} :
    Yields (Carries (Within (Protects env (.sslAdd verifyAndEncodeCertificate body))))
      (addDeliveryServiceSSLKeysHandler env verifyAndEncodeCertificate body) store fun _ _ => True := by
  refine yields_bind yields_respond fun _ _ _ _ => ?_
  refine yields_bind yields_respond fun _ _ _ _ => ?_
  refine yields_bind yields_respond fun keysObj _ _ decoded => ?_
  refine yields_bind yields_checkTenancy fun _ _ _ authorized => ?_
  refine yields_bind yields_respond fun _ _ _ _ => ?_
  refine yields_bind yields_respond fun _ _ _ _ => ?_
  refine yields_bind (yields_adapt _ (yields_saveObject (within_cons ?_))) fun _ _ _ _ => yields_pure trivial
  exact ⟨_, ⟨keysObj, decoded, rfl⟩, .inl ⟨rfl, .inl rfl⟩, authorized⟩

theorem uriSigningXmlId_ok (named : uriSigningXmlId env = .ok xmlId) : env.pathParams "xmlID" = xmlId := by
  obtain ⟨_, -, given⟩ := ExceptList.bind_ok named
  exact answer_ok (ExceptList.mapError_ok given)

theorem yields_uriGet (authorized : ∀ xmlId, uriSigningXmlId env = .ok xmlId → startCluster env = .ok () → Authorized env xmlId) :
    Yields (Carries (Within (Protects env .uriGet))) (getURIsignkeysHandler env) store fun _ _ => True := by
  refine yields_bind yields_lift_ok fun xmlId _ _ named => ?_
  refine yields_bind yields_respond fun _ _ _ started => ?_
  have own : Protects env .uriGet ⟨.fetch, CDNURIKeysBucket, xmlId⟩ :=
    ⟨xmlId, uriSigningXmlId_ok named, .inr ⟨rfl, rfl⟩, authorized xmlId named started⟩
  refine yields_bind (yields_adapt _ (yields_fetchObjectValues (within_cons own))) fun ro _ _ _ => ?_
  cases ro <;> exact yields_pure trivial

theorem yields_uriRemove (authorized : ∀ xmlId, uriSigningXmlId env = .ok xmlId → startCluster env = .ok () → Authorized env xmlId) :
    Yields (Carries (Within (Protects env .uriRemove))) (removeDeliveryServiceURIKeysHandler env) store fun _ _ => True := by
  refine yields_bind yields_lift_ok fun xmlId _ _ named => ?_
  refine yields_bind yields_respond fun _ _ _ started => ?_
  have own : ∀ operation, Protects env .uriRemove ⟨operation, CDNURIKeysBucket, xmlId⟩ := fun _ =>
    ⟨xmlId, uriSigningXmlId_ok named, .inr ⟨rfl, rfl⟩, authorized xmlId named started⟩
  refine yields_bind (yields_adapt _ (yields_fetchObjectValues (within_cons (own _)))) fun ro _ _ _ => ?_
  cases ro with
  | none => exact yields_pure trivial
  | some value => exact yields_bind (yields_adapt _ (yields_deleteObject (within_cons (own _)))) fun _ _ _ _ => yields_pure trivial

theorem yields_uriSave {data : String} {keySet : Except String (List (String × URISignerKeyset))}
    (authorized : ∀ xmlId, uriSigningXmlId env = .ok xmlId → ReachesStore env (.uriSave data keySet) → Authorized env xmlId) :
    Yields (Carries (Within (Protects env (.uriSave data keySet)))) (saveDeliveryServiceURIKeysHandler env data keySet) store
      fun _ _ => True := by
  refine yields_bind yields_lift_ok fun xmlId _ _ named => ?_
  refine yields_bind yields_respond fun _ _ _ read => ?_
  refine yields_bind yields_respond fun keys _ _ decoded => ?_
  refine yields_bind yields_respond fun _ _ _ valid => ?_
  refine yields_bind yields_respond fun _ _ _ started => ?_
  have own : Protects env (.uriSave data keySet) ⟨.store, CDNURIKeysBucket, xmlId⟩ :=
    ⟨xmlId, uriSigningXmlId_ok named, .inr ⟨rfl, rfl⟩, authorized xmlId named ⟨read, ⟨keys, decoded, valid⟩, started⟩⟩
  exact yields_bind (yields_adapt _ (yields_saveObject (within_cons own))) fun _ _ _ _ => yields_pure trivial

end Yields

theorem respond_bind {α β : Type} {status : Nat} {value : Except String α} {a : α} (given : value = .ok a)
    (next : α → Handler β) (store : Store) : outcome (respond status value >>= next) store = outcome (next a) store :=
  outcome_lift_bind (ExceptList.mapError_ok_iff.mpr given) next store

theorem uriGet_executed (named : uriSigningXmlId env = .ok xmlId) (started : startCluster env = .ok ()) (store : Store) :
    Executed (· ≠ []) (outcome (getURIsignkeysHandler env) store).2 := by
  rw [getURIsignkeysHandler, outcome_lift_bind named, respond_bind started]
  refine keeps_bind (Carries (Executed (· ≠ []))) (fun ro _ => ?_) fetched_executed
  cases ro <;> exact yields_pure trivial

theorem uriRemove_executed (named : uriSigningXmlId env = .ok xmlId) (started : startCluster env = .ok ()) (store : Store) :
    Executed (· ≠ []) (outcome (removeDeliveryServiceURIKeysHandler env) store).2 := by
  rw [removeDeliveryServiceURIKeysHandler, outcome_lift_bind named, respond_bind started]
  refine keeps_bind (Carries (Executed (· ≠ []))) (fun ro _ => ?_) fetched_executed
  cases ro with
  | none => exact yields_pure trivial
  | some value =>
    exact yields_bind (yields_adapt _ (yields_deleteObject fun _ _ => List.cons_ne_nil _ _)) fun _ _ _ _ => yields_pure trivial

theorem uriSave_executed {data : String} {keySet : Except String (List (String × URISignerKeyset))}
    (named : uriSigningXmlId env = .ok xmlId) (reaches : ReachesStore env (.uriSave data keySet)) (store : Store) :
    Executed (· ≠ []) (outcome (saveDeliveryServiceURIKeysHandler env data keySet) store).2 := by
  obtain ⟨read, ⟨keys, decoded, valid⟩, started⟩ := reaches
  rw [saveDeliveryServiceURIKeysHandler, outcome_lift_bind named, respond_bind read, respond_bind decoded,
    respond_bind valid, respond_bind started]
  exact keeps_bind (Carries (Executed (· ≠ []))) (fun _ _ => yields_pure trivial) saved_executed

theorem authorized_of_executed {objects : String → String → Option Value} (isProtected : TenantProtected env call)
    (isFor : ∀ other, IsFor env other call → other = xmlId)
    (executed : Executed (· ≠ []) (outcome (handle env call) ⟨objects, []⟩).2) : Authorized env xmlId := by
  obtain ⟨command, member⟩ := List.exists_mem_of_ne_nil _ executed
  obtain ⟨other, forOther, -, authorized⟩ := isProtected objects command member
  exact isFor other forOther ▸ authorized

end Protected

-- A user without a tenant asks for the signing keys of a delivery service of the root.
def outsider : Environment where
  riakEnabled := true
  db := ⟨⟨true, (∅ : AList fun _ : Int => Tenant).insert 1 ⟨true, none⟩⟩, [("video", some 1)], [], []⟩
  user := ⟨7, 30, -1⟩
  pathParams _ := "video"
  version := ""
  failure _ := none

end KeyHandlers
