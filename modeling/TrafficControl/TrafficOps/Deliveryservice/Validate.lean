import TrafficControl.Lib.Validation

set_option autoImplicit false

-- What is checked of a delivery service before it is stored.
namespace TrafficControl.TrafficOps.Deliveryservice

open Validation

section Tovalidate

def noSpaces (str : String) : Bool := !str.toList.contains ' '

def noPeriods (str : String) : Bool := !str.toList.contains '.'

def isOneOfString (set : List String) (s : String) : Bool := set.any fun x => s = x

def toLower (s : String) : String := String.ofList (s.toList.map Char.toLower)

def isOneOfStringICase (set : List String) : String → Bool := isOneOfString (set.map toLower)

/-- The errors of the fields that have one. A loop over the map finds them in any order. -/
def toErrors (err : List (String × Option String)) : List String :=
  err.filterMap fun entry => entry.2.map fun value => "'" ++ entry.1 ++ "' " ++ value

end Tovalidate

-- The predicates of `govalidator`.
structure Govalidator where
  isHost : String → Bool
  isIP : String → Bool
  isIPv6 : String → Bool
  isURL : String → Bool

/-- The fields that are checked. -/
structure DeliveryServiceNullable where
  active : Option Bool
  cdnId : Option Int
  deepCachingType : Option String
  displayName : Option String
  dnsBypassIp : Option String
  dnsBypassIp6 : Option String
  dscp : Option Int
  geoLimit : Option Int
  geoProvider : Option Int
  infoUrl : Option String
  initialDispersion : Option Int
  ipv6RoutingEnabled : Option Bool
  logsEnabled : Option Bool
  missLat : Option Rat
  missLong : Option Rat
  multiSiteOrigin : Option Bool
  orgServerFqdn : Option String
  protocol : Option Int
  qstringIgnore : Option Int
  rangeRequestHandling : Option Int
  regionalGeoBlocking : Option Bool
  routingName : Option String
  typeId : Option Int
  xmlId : Option String

section TypeFields

/-- The first of the rows of a query, without which there is a panic. -/
def getTypeName (db : Int → Except String (List String)) (typeID : Int) : Option (Except String String) :=
  match db typeID with
  | .error err => some (.error err)
  | .ok typeResults => typeResults[0]?.map .ok

/-- `^start.*$`, where the dot ends with the line. -/
def matchesType (typeName start : String) : Bool :=
  start.toList.isPrefixOf typeName.toList && !(typeName.toList.drop start.toList.length).contains '\n'

def requiredIfMatchesTypeName (patterns : List String) (typeName : String) : Rule := fun _ =>
  if typeName ≠ "" ∧ patterns.any (matchesType typeName) then some ("is required if type is '" ++ typeName ++ "'") else none

def dnsRegexType : String := "DNS"

def httpRegexType : String := "HTTP"

def steeringRegexType : String := "STEERING"

variable (ds : DeliveryServiceNullable)

/-- The result is `none` for a panic, and within it for nil. -/
def validateTypeFields (db : Option (Int → Except String (List String))) : Option (Option (List String)) := do
  let typeName ← match db, ds.typeId with
    | some db, some typeID => getTypeName db typeID
    | _, _ => some (.ok "")
  match typeName with
  | .error err => some (some [err])
  | .ok typeName =>
    if typeName ≠ "" then
      let delivery := requiredIfMatchesTypeName [dnsRegexType, httpRegexType] typeName
      let any := requiredIfMatchesTypeName [steeringRegexType, dnsRegexType, httpRegexType] typeName
      some (some (toErrors
        [("initialDispersion", validate (.ofInt ds.initialDispersion) [delivery]),
          ("ipv6RoutingEnabled", validate (.ofBool ds.ipv6RoutingEnabled) [any]),
          ("missLat", validate (.ofFloat ds.missLat) [delivery]),
          ("missLong", validate (.ofFloat ds.missLong) [delivery]),
          ("multiSiteOrigin", validate (.ofBool ds.multiSiteOrigin) [delivery]),
          ("orgServerFqdn", validate (.ofString ds.orgServerFqdn) [delivery]),
          ("protocol", validate (.ofInt ds.protocol) [any]),
          ("qstringIgnore", validate (.ofInt ds.qstringIgnore) [delivery]),
          ("rangeRequestHandling", validate (.ofInt ds.rangeRequestHandling) [delivery])]))
    else some none

end TypeFields

section Validate

variable (is : Govalidator) (db : Option (Int → Except String (List String))) (ds : DeliveryServiceNullable)

def neverOrAlways : Rule :=
  newStringRule (isOneOfStringICase ["NEVER", "ALWAYS"]) "must be one of 'NEVER' or 'ALWAYS'"

/-- The value that is checked for the deep caching type is `neverOrAlways`, against no rule. -/
def fieldErrors : List (String × Option String) :=
  let isHost := newStringRule is.isHost "must be a valid hostname"
  let noPeriods := newStringRule noPeriods "cannot contain periods"
  let noSpaces := newStringRule noSpaces "cannot contain spaces"
  let isIP := newStringRule is.isIP "must be a valid IP address"
  let isIPv6 := newStringRule is.isIPv6 "must be a valid IPv6 address"
  let isURL := newStringRule is.isURL "must be a valid URL"
  [("active", validate (.ofBool ds.active) [notNil]),
    ("cdnId", validate (.ofInt ds.cdnId) [required]),
    ("displayName", validate (.ofString ds.displayName) [required, length 1 48]),
    ("deepCachingType", validate .struct []),
    ("dnsBypassIp", validate (.ofString ds.dnsBypassIp) [isIP]),
    ("dnsBypassIp6", validate (.ofString ds.dnsBypassIp6) [isIPv6]),
    ("dscp", validate (.ofInt ds.dscp) [notNil, min 0]),
    ("geoLimit", validate (.ofInt ds.geoLimit) [notNil]),
    ("geoProvider", validate (.ofInt ds.geoProvider) [notNil]),
    ("infoUrl", validate (.ofString ds.infoUrl) [isURL]),
    ("logsEnabled", validate (.ofBool ds.logsEnabled) [notNil]),
    ("orgServerFqdn", validate (.ofString ds.orgServerFqdn) [isURL]),
    ("regionalGeoBlocking", validate (.ofBool ds.regionalGeoBlocking) [notNil]),
    ("routingName", validate (.ofString ds.routingName) [isHost, noPeriods, length 1 48]),
    ("typeId", validate (.ofInt ds.typeId) [required, min 1]),
    ("xmlId", validate (.ofString ds.xmlId) [noSpaces, noPeriods, length 1 48])]

/-- A map that is written out is never nil. -/
def validateDeliveryService : Option (Option (List String)) :=
  match some (fieldErrors is ds) with
  | some errs => some (some (toErrors errs))
  | none => validateTypeFields ds db

end Validate

section Spec

variable (is : Govalidator) (ds : DeliveryServiceNullable)

def Given {α : Type} (field : Option α) : Prop := field ≠ none

/-- What the field holds, if it holds any, is accepted. -/
def Accepted (validator : String → Bool) (field : Option String) : Prop :=
  ∀ s, field = some s → s ≠ "" → validator s = true

def Short (field : Option String) : Prop := ∀ s, field = some s → s.utf8ByteSize ≤ 48

/-- The constraints of the fields. -/
structure FieldsValid : Prop where
  active : Given ds.active
  cdnId : ∃ n, ds.cdnId = some n ∧ n ≠ 0
  displayName : ∃ s, ds.displayName = some s ∧ s ≠ "" ∧ s.utf8ByteSize ≤ 48
  dnsBypassIp : Accepted is.isIP ds.dnsBypassIp
  dnsBypassIp6 : Accepted is.isIPv6 ds.dnsBypassIp6
  dscp : ∃ n, ds.dscp = some n ∧ 0 ≤ n
  geoLimit : Given ds.geoLimit
  geoProvider : Given ds.geoProvider
  infoUrl : Accepted is.isURL ds.infoUrl
  logsEnabled : Given ds.logsEnabled
  orgServerFqdn : Accepted is.isURL ds.orgServerFqdn
  regionalGeoBlocking : Given ds.regionalGeoBlocking
  routingName : Accepted is.isHost ds.routingName ∧ Accepted noPeriods ds.routingName ∧ Short ds.routingName
  typeId : ∃ n, ds.typeId = some n ∧ 1 ≤ n
  xmlId : Accepted noSpaces ds.xmlId ∧ Accepted noPeriods ds.xmlId ∧ Short ds.xmlId

/-- The empty text is the default, `NEVER`. -/
def DeepCachingValid : Prop :=
  ∀ s, ds.deepCachingType = some s → s = "" ∨ toLower s = "never" ∨ toLower s = "always"

/-- The fields that a type asks for. -/
structure TypeFieldsGiven (typeName : String) : Prop where
  delivery : "DNS".toList <+: typeName.toList ∨ "HTTP".toList <+: typeName.toList →
    Given ds.initialDispersion ∧ Given ds.missLat ∧ Given ds.missLong ∧ Given ds.multiSiteOrigin ∧ Given ds.orgServerFqdn ∧
      Given ds.qstringIgnore ∧ Given ds.rangeRequestHandling
  any : "STEERING".toList <+: typeName.toList ∨ "DNS".toList <+: typeName.toList ∨ "HTTP".toList <+: typeName.toList →
    Given ds.ipv6RoutingEnabled ∧ Given ds.protocol

end Spec

section Exact

variable {is : Govalidator} {db : Option (Int → Except String (List String))} {ds : DeliveryServiceNullable}

theorem toErrors_eq_nil_iff {errs : List (String × Option String)} :
    toErrors errs = [] ↔ ∀ entry ∈ errs, entry.2 = none := by
  simp [toErrors, List.filterMap_eq_nil_iff]

theorem validate_notNil_bool {b : Option Bool} : validate (.ofBool b) [notNil] = none ↔ Given b := by
  cases b <;> simp [validate_eq_none_iff, notNil_eq_none_iff, Value.ofBool, Given]

theorem validate_notNil_int {n : Option Int} : validate (.ofInt n) [notNil] = none ↔ Given n := by
  cases n <;> simp [validate_eq_none_iff, notNil_eq_none_iff, Value.ofInt, Given]

theorem validate_required_int {n : Option Int} : validate (.ofInt n) [required] = none ↔ ∃ m, n = some m ∧ m ≠ 0 := by
  cases n <;> simp [validate_eq_none_iff, required_eq_none_iff, Value.ofInt, Value.isEmpty]

theorem validate_least {n : Option Int} {first : Rule} {least : Int} (low : 0 ≤ least)
    (given : first (.ofInt n) = none ↔ ∃ m, n = some m ∧ (m = 0 → least = 0)) :
    validate (.ofInt n) [first, min least] = none ↔ ∃ m, n = some m ∧ least ≤ m := by
  rw [validate_eq_none_iff, List.forall_mem_cons, List.forall_mem_singleton, given, min_eq_none_iff]
  constructor
  · rintro ⟨⟨m, found, zero⟩, large⟩
    by_cases empty : m = 0
    · have least := zero empty
      exact ⟨m, found, by omega⟩
    · exact ⟨m, found, large m found empty⟩
  · rintro ⟨m, found, large⟩
    refine ⟨⟨m, found, by omega⟩, fun other same _ => ?_⟩
    rw [found] at same
    exact Option.some.inj same ▸ large

theorem validate_required_string {s : Option String} :
    validate (.ofString s) [required, length 1 48] = none ↔ ∃ text, s = some text ∧ text ≠ "" ∧ text.utf8ByteSize ≤ 48 := by
  rw [validate_eq_none_iff, List.forall_mem_cons, List.forall_mem_singleton, required_eq_none_iff,
    length_eq_none_iff (Nat.le_refl 1) (by decide)]
  cases s <;> simp [Value.ofString, Value.isEmpty]

theorem validate_string {s : Option String} {validator : String → Bool} {message : String} :
    validate (.ofString s) [newStringRule validator message] = none ↔ Accepted validator s := by
  rw [validate_eq_none_iff, List.forall_mem_singleton, newStringRule_eq_none_iff]
  rfl

theorem validate_name {s : Option String} {first second : String → Bool} {message other : String} :
    validate (.ofString s) [newStringRule first message, newStringRule second other, length 1 48] = none ↔
      Accepted first s ∧ Accepted second s ∧ Short s := by
  rw [validate_eq_none_iff, List.forall_mem_cons, List.forall_mem_cons, List.forall_mem_singleton,
    newStringRule_eq_none_iff, newStringRule_eq_none_iff, length_eq_none_iff (Nat.le_refl 1) (by decide)]
  rfl

theorem fieldErrors_none_iff : (∀ entry ∈ fieldErrors is ds, entry.2 = none) ↔ FieldsValid is ds := by
  have dscp : validate (.ofInt ds.dscp) [notNil, min 0] = none ↔ ∃ n, ds.dscp = some n ∧ 0 ≤ n := by
    refine validate_least (Int.le_refl 0) ?_
    cases ds.dscp <;> simp [notNil_eq_none_iff, Value.ofInt]
  have typeId : validate (.ofInt ds.typeId) [required, min 1] = none ↔ ∃ n, ds.typeId = some n ∧ 1 ≤ n := by
    refine validate_least (by decide) ?_
    cases ds.typeId <;> simp [required_eq_none_iff, Value.ofInt, Value.isEmpty]
  have rule : validate .struct [] = none := rfl
  simp only [fieldErrors, List.forall_mem_cons, List.not_mem_nil, false_implies, implies_true, and_true,
    validate_notNil_bool, validate_notNil_int, validate_required_int, validate_required_string, validate_string,
    validate_name, dscp, typeId, rule, true_and]
  constructor
  · rintro ⟨active, cdnId, displayName, dnsBypassIp, dnsBypassIp6, dscp, geoLimit, geoProvider, infoUrl, logsEnabled,
      orgServerFqdn, regionalGeoBlocking, routingName, typeId, xmlId⟩
    constructor <;> assumption
  · intro valid
    exact ⟨valid.active, valid.cdnId, valid.displayName, valid.dnsBypassIp, valid.dnsBypassIp6, valid.dscp, valid.geoLimit,
      valid.geoProvider, valid.infoUrl, valid.logsEnabled, valid.orgServerFqdn, valid.regionalGeoBlocking,
      valid.routingName, valid.typeId, valid.xmlId⟩

/-- Only the constraints of the fields decide. -/
theorem validateDeliveryService_nil_iff : validateDeliveryService is db ds = some (some []) ↔ FieldsValid is ds := by
  rw [← fieldErrors_none_iff, ← toErrors_eq_nil_iff]
  exact ⟨fun nothing => Option.some.inj (Option.some.inj nothing), fun nothing => congrArg (some ∘ some) nothing⟩

end Exact

/-- The check is exact where a field is wrong anyway, or the deep caching type and the fields of the type are right. -/
theorem validate_exact_iff (is : Govalidator) (db : Option (Int → Except String (List String)))
    (ds : DeliveryServiceNullable) (typeName : String) :
    (validateDeliveryService is db ds = some (some []) ↔
        FieldsValid is ds ∧ DeepCachingValid ds ∧ TypeFieldsGiven ds typeName) ↔
      ¬FieldsValid is ds ∨ DeepCachingValid ds ∧ TypeFieldsGiven ds typeName := by
  rw [validateDeliveryService_nil_iff]
  by_cases valid : FieldsValid is ds
  · simp [valid]
  · simp [valid]

section Layers

/-- The second layer would refuse every delivery service of a type that asks for fields. -/
theorem validateTypeFields_refuses {db : Int → Except String (List String)} {ds : DeliveryServiceNullable} {typeID : Int}
    {typeName : String} {rest : List String} (typed : ds.typeId = some typeID) (found : db typeID = .ok (typeName :: rest))
    (asks : [steeringRegexType, dnsRegexType, httpRegexType].any (matchesType typeName) = true) :
    ∃ errs, validateTypeFields ds (some db) = some (some errs) ∧ errs ≠ [] := by
  have named : typeName ≠ "" := by
    rintro rfl
    revert asks
    decide
  have got : getTypeName db typeID = some (.ok typeName) := by simp [getTypeName, found]
  unfold validateTypeFields
  simp only [typed, got, Option.bind_eq_bind, Option.bind_some, ne_eq, named, not_false_eq_true, if_true]
  refine ⟨_, rfl, fun nothing => ?_⟩
  have missing := toErrors_eq_nil_iff.mp nothing
    ("protocol", validate (.ofInt ds.protocol) [requiredIfMatchesTypeName [steeringRegexType, dnsRegexType, httpRegexType] typeName])
    (by simp)
  rw [validate_eq_none_iff, List.forall_mem_singleton, requiredIfMatchesTypeName, if_pos ⟨named, asks⟩] at missing
  cases missing

/-- The texts that the rule for the deep caching type accepts are in lower case. -/
theorem neverOrAlways_eq_none_iff {s : Option String} :
    neverOrAlways (.ofString s) = none ↔ ∀ text, s = some text → text ≠ "" → text = "never" ∨ text = "always" := by
  rw [neverOrAlways, newStringRule_eq_none_iff]
  have lowered : ["NEVER", "ALWAYS"].map toLower = ["never", "always"] := by decide
  simp [isOneOfStringICase, isOneOfString, lowered]

end Layers

section Edge

def allOfGovalidator : Govalidator := ⟨fun _ => true, fun _ => true, fun _ => true, fun _ => true⟩

def dnsService : DeliveryServiceNullable where
  active := some true
  cdnId := some 1
  deepCachingType := none
  displayName := some "video"
  dnsBypassIp := none
  dnsBypassIp6 := none
  dscp := some 0
  geoLimit := some 0
  geoProvider := some 0
  infoUrl := none
  initialDispersion := none
  ipv6RoutingEnabled := none
  logsEnabled := some false
  missLat := none
  missLong := none
  multiSiteOrigin := none
  orgServerFqdn := none
  protocol := none
  qstringIgnore := none
  rangeRequestHandling := none
  regionalGeoBlocking := some false
  routingName := none
  typeId := some 5
  xmlId := some "video"

/-- Nothing that its type asks for is there. -/
theorem validate_dns : validateDeliveryService allOfGovalidator (some fun _ => .ok ["DNS"]) dnsService = some (some []) ∧
    ¬TypeFieldsGiven dnsService "DNS" := by
  refine ⟨by decide, fun given => ?_⟩
  exact (given.any (.inr (.inl List.prefix_rfl))).1 rfl

end Edge

end TrafficControl.TrafficOps.Deliveryservice
