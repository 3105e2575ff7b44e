import Mathlib.Data.List.AList
import TrafficControl.Lib.MachineInt
import TrafficControl.TrafficRouter.Dns.DynamicZone
import TrafficControl.TrafficRouter.JsonUtils

set_option autoImplicit false

namespace TrafficControl.TrafficRouter.Dns

open SignedBytes

-- `Name.toString`: a label's special octets are escaped, all others are printable ASCII.
def Name.byteString (label : List Byte) : List Char :=
  label.flatMap fun octet =>
    let c := Char.ofNat octet.toNat
    if octet ≤ 0x20#8 ∨ 0x7f#8 ≤ octet then
      ['\\', Nat.digitChar (octet.toNat / 100), Nat.digitChar (octet.toNat / 10 % 10), Nat.digitChar (octet.toNat % 10)]
    else if c ∈ ['"', '(', ')', '.', ';', '\\', '@', '$'] then ['\\', c]
    else [c]

def Name.toString (name : Name) : String :=
  String.ofList (if name.labels.isEmpty then ['.'] else name.labels.flatMap fun label => byteString label ++ ['.'])

-- `toString().toLowerCase()`
def Name.toLowerCaseString (name : Name) : String := String.ofList (name.toString.toList.map Char.toLower)

-- Dates are milliseconds. The public key is read from the DNSKEY record.
structure DnsSecKeyPair where
  name : String
  ttl : Int
  inception : Int
  effective : Int
  expiration : Int
  dnskeyRecord : Record
  privateKey : List Byte
deriving DecidableEq

namespace DnsSecKeyPair

variable (this other : DnsSecKeyPair)

-- SEP_KEY is the lowest bit of the flags, the first two octets.
def isKeySigningKey : Bool := this.dnskeyRecord.rdataToWireCanonical.getD 1 0 &&& 1#8 != 0#8

def isExpired (now : Int) : Bool := this.expiration < now

def isUsable (now : Int) : Bool := this.effective < now

def isKeyCached (maxTTL now : Int) : Bool := now - maxTTL * 1000 < this.expiration

def isOlder : Bool := this.effective < other.effective

def isNewer : Bool := other.effective < this.effective

def equals : Bool :=
  this.dnskeyRecord.identity == other.dnskeyRecord.identity && this.privateKey == other.privateKey &&
    this.effective == other.effective && this.expiration == other.expiration &&
    this.inception == other.inception && this.name == other.name && this.ttl == other.ttl

end DnsSecKeyPair

abbrev KeyMap := AList fun _ : String => List DnsSecKeyPair

structure ZoneSigner where
  signZone : Name → List Record → List DnsSecKeyPair → List DnsSecKeyPair → (start expiration : Int) → List Record
  calculateDSRecord : Record → (ttl : Int) → Record

-- `dsTtl` is the configured ttl of DS records.
structure SignatureManager where
  dnssecEnabled : Bool
  expiredKeyAllowed : Bool
  expirationMultiplier : Int
  dsTtl : Int
  keyMap : KeyMap
  topLevelDomain : Name
  zoneSigner : ZoneSigner

-- A signing: the keys it used, and the dates it leaves in the SignedZoneKey.
structure Signing where
  kskPairs : List DnsSecKeyPair
  zskPairs : List DnsSecKeyPair
  signatureExpiration : Int
  kskExpiration : Option Int
  zskExpiration : Option Int

def getMaximumTTL (records : List Record) : Nat :=
  records.foldl (fun maximumTTL record => if maximumTTL < record.ttl then record.ttl else maximumTTL) 0

def calculateKeyExpiration (keyPairs : List DnsSecKeyPair) : Option Int :=
  keyPairs.foldl (fun earliest keyPair =>
    match earliest with
    | none => some keyPair.expiration
    | some earliest => some (if keyPair.expiration < earliest then keyPair.expiration else earliest)) none

namespace SignatureManager

section KeyMaintenance

-- What reading a key pair can throw: an exception that is logged and skips the pair, or one that
-- ends the task.
inductive KeyPairException where
  | logged
  | runtimeException
  | jsonUtilsException (cause : ConfigException)
deriving DecidableEq

-- The constructor of a key pair, from its JSON object.
variable (newKeyPair : JsonNode → Except KeyPairException DnsSecKeyPair)

def readKeyPair (keyPair : JsonNode) : Except KeyPairException (Option DnsSecKeyPair) :=
  match newKeyPair keyPair with
  | .ok dkpw => .ok (some dkpw)
  | .error .runtimeException => .error .runtimeException
  | .error _ => .ok none

def readKeyType (keyTypes : JsonNode) (keyType : String) : Except KeyPairException (List DnsSecKeyPair) := do
  match ← (JsonUtils.getJsonNode keyTypes keyType).mapError .jsonUtilsException with
  | .array keyPairs => return (← keyPairs.mapM (readKeyPair newKeyPair)).reduceOption
  | _ => return []

def readDeliveryService (response : JsonNode) (ds : String) : Except KeyPairException (List DnsSecKeyPair) := do
  let keyTypes ← (JsonUtils.getJsonNode response ds).mapError .jsonUtilsException
  return (← keyTypes.fields.mapM fun field => readKeyType newKeyPair keyTypes field.1).flatten

-- The key pairs of a fetched document in the order in which the task meets them.
def readKeyPairs (keyPairData : JsonNode) : Except KeyPairException (List DnsSecKeyPair) := do
  let response ← (JsonUtils.getJsonNode keyPairData "response").mapError .jsonUtilsException
  return (← response.fields.mapM fun field => readDeliveryService newKeyPair response field.1).flatten

def addKeyPair (newKeyMap : KeyMap) (dkpw : DnsSecKeyPair) : KeyMap :=
  newKeyMap.insert dkpw.name ((newKeyMap.lookup dkpw.name).getD [] ++ [dkpw])

def newKeyMap (keyPairs : List DnsSecKeyPair) : KeyMap := keyPairs.foldl addKeyPair ∅

def hasNewKeys (keyMap newKeyMap : KeyMap) : Bool :=
  newKeyMap.entries.any fun entry =>
    match keyMap.lookup entry.1 with
    | none => true
    | some keyPairs => entry.2.any fun newKeyPair => !keyPairs.any fun keyPair => newKeyPair.equals keyPair

-- One run of the maintenance task. The flag says that the zone caches are rebuilt.
def maintainKeys (keyMap : Option KeyMap) (keyPairData : Option JsonNode) : Option KeyMap × Bool :=
  match keyPairData.map (readKeyPairs newKeyPair) with
  | none => (keyMap, false)
  | some (.error _) => (keyMap, false)
  | some (.ok keyPairs) =>
    match keyMap with
    | none => (some (newKeyMap keyPairs), false)
    | some keyMap =>
      if hasNewKeys keyMap (newKeyMap keyPairs) then (some (newKeyMap keyPairs), true)
      else (some keyMap, false)

end KeyMaintenance

variable (this : SignatureManager)

def signingKeyOf (now : Int) (signingKey : Option DnsSecKeyPair) (kpw : DnsSecKeyPair) : Option DnsSecKeyPair :=
  match signingKey with
  | none => some kpw
  | some signingKey =>
    if signingKey.isExpired now && !kpw.isExpired now then some kpw
    else if signingKey.isExpired now && kpw.isNewer signingKey then some kpw
    else if !signingKey.isExpired now && !kpw.isExpired now && kpw.isOlder signingKey then some kpw
    else some signingKey

-- One round of the loop in `getKeyPairs`; every clock reading of a call gives `now`.
def considerKey (name : Name) (wantKsk wantSigningKey : Bool) (maxTTL now : Int)
    (found : List DnsSecKeyPair × Option DnsSecKeyPair) (kpw : DnsSecKeyPair) :
    List DnsSecKeyPair × Option DnsSecKeyPair :=
  let (keys, signingKey) := found
  let isKsk := kpw.isKeySigningKey
  if kpw.dnskeyRecord.name.equals name then
    if isKsk && !wantKsk || !isKsk && wantKsk then found
    else if !wantSigningKey && (this.expiredKeyAllowed || kpw.isKeyCached maxTTL now) then (keys ++ [kpw], signingKey)
    else if wantSigningKey then
      if !kpw.isUsable now then found
      else if !this.expiredKeyAllowed && kpw.isExpired now then found
      else if isKsk && wantKsk || !isKsk && !wantKsk then (keys, signingKeyOf now signingKey kpw)
      else found
    else found
  else found

def getKeyPairs (name : Name) (wantKsk wantSigningKey : Bool) (maxTTL now : Int) : Option (List DnsSecKeyPair) :=
  (this.keyMap.lookup name.toLowerCaseString).map fun keyPairs =>
    let (keys, signingKey) := keyPairs.foldl (this.considerKey name wantKsk wantSigningKey maxTTL now) ([], none)
    match wantSigningKey, signingKey with
    | true, some signingKey => [signingKey]
    | _, _ => keys

def getZoneSigningKSKPair (name : Name) (maxTTL now : Int) := this.getKeyPairs name true true maxTTL now
def getZoneSigningZSKPair (name : Name) (maxTTL now : Int) := this.getKeyPairs name false true maxTTL now
def getKSKPairs (name : Name) (maxTTL now : Int) := this.getKeyPairs name true false maxTTL now
def getZSKPairs (name : Name) (maxTTL now : Int) := this.getKeyPairs name false false maxTTL now

def calculateSignatureExpiration (baseTimeInMillis : Int) (records : List Record) : Int :=
  MachineInt.wrap 64 (baseTimeInMillis + getMaximumTTL records * 1000 * this.expirationMultiplier)

-- The signing is `none` when the records are returned as they are. `timestamp` is the zone key's.
def signZone (name : Name) (records : List Record) (timestamp now : Int) : List Record × Option Signing :=
  let maxTTL := getMaximumTTL records
  match this.getZoneSigningKSKPair name maxTTL now, this.getZoneSigningZSKPair name maxTTL now with
  | some kskPairs, some zskPairs =>
    if !kskPairs.isEmpty && !zskPairs.isEmpty then
      let signatureExpiration := this.calculateSignatureExpiration timestamp records
      let start := now - 60 * 60 * 1000
      (this.zoneSigner.signZone name records kskPairs zskPairs start signatureExpiration,
        some ⟨kskPairs, zskPairs, signatureExpiration, calculateKeyExpiration kskPairs, calculateKeyExpiration zskPairs⟩)
    else (records, none)
  | _, _ => (records, none)

-- The KSKs and ZSKs that are published, none unless there are both.
def publishedPairs (name : Name) (maxTTL now : Int) : List DnsSecKeyPair × List DnsSecKeyPair :=
  if this.dnssecEnabled && name.subdomain this.topLevelDomain then
    match this.getKSKPairs name maxTTL now, this.getZSKPairs name maxTTL now with
    | some kskPairs, some zskPairs =>
      if !kskPairs.isEmpty && !zskPairs.isEmpty then (kskPairs, zskPairs) else ([], [])
    | _, _ => ([], [])
  else ([], [])

def generateDSRecords (name : Name) (maxTTL now : Int) : List Record :=
  (this.publishedPairs name maxTTL now).1.map fun kp => this.zoneSigner.calculateDSRecord kp.dnskeyRecord this.dsTtl

def generateDNSKEYRecords (name : Name) (maxTTL now : Int) : List Record :=
  let (kskPairs, zskPairs) := this.publishedPairs name maxTTL now
  kskPairs.map DnsSecKeyPair.dnskeyRecord ++ zskPairs.map DnsSecKeyPair.dnskeyRecord

def isDnssecEnabled (name : Name) : Bool := this.dnssecEnabled && (this.keyMap.lookup name.toString).isSome

def signsZone (name : Name) : Bool := this.isDnssecEnabled name && name.subdomain this.topLevelDomain

def generateZoneKey (name : Name) (list : List Record) (dynamicRequest dnssecRequest : Bool) : ZoneKey :=
  if dynamicRequest && !dnssecRequest then .new false name list
  else if this.signsZone name then .new true name list
  else .new false name list

-- What the dynamic zones take from the manager.
theorem generateZoneKey_dynamic {env : Environment} (zones : env.signsZone = this.signsZone) (name : Name)
    (list : List Record) (dnssecRequest : Bool) :
    this.generateZoneKey name list true dnssecRequest = generateDynamicZoneKey env name list dnssecRequest := by
  unfold generateZoneKey generateDynamicZoneKey
  cases dnssecRequest <;> simp [zones]

end SignatureManager

end TrafficControl.TrafficRouter.Dns
