import Mathlib.Data.List.Sort
import TrafficControl.TrafficRouter.CidrAddress

set_option autoImplicit false

namespace TrafficControl.TrafficRouter.Dns

open SignedBytes

def toLowerCase (octet : Byte) : Byte :=
  if 0x41#8 ≤ octet ∧ octet ≤ 0x5a#8 then octet + 0x20#8 else octet

-- An absolute name; the root label is not listed.
structure Name where
  labels : List (List Byte)
deriving DecidableEq

namespace Name

def canonical (name : Name) : List (List Byte) := name.labels.map fun label => label.map toLowerCase

-- Names are equal without regard to letter case.
def equals (this other : Name) : Bool := this.canonical == other.canonical

def subdomain (this domain : Name) : Bool := domain.canonical.isSuffixOf this.canonical

def wireCanonical (name : Name) : List Byte :=
  name.canonical.flatMap (fun label => BitVec.ofNat 8 label.length :: label) ++ [0]

end Name

def compareOctets : List Byte → List Byte → Int
  | [], [] => 0
  | [], _ :: _ => -1
  | _ :: _, [] => 1
  | a :: left, b :: right => if a = b then compareOctets left right else (a.toNat : Int) - b.toNat

def compareLabels : List (List Byte) → List (List Byte) → Int
  | [], [] => 0
  | [], _ :: _ => -1
  | _ :: _, [] => 1
  | a :: left, b :: right => if a = b then compareLabels left right else compareOctets a b

-- Names are compared from their last label on.
def Name.compareTo (this other : Name) : Int :=
  compareLabels this.canonical.reverse other.canonical.reverse

inductive DataPart where
  | octets (value : List Byte)
  | name (value : Name)
deriving DecidableEq

def DataPart.wireCanonical : DataPart → List Byte
  | octets value => value
  | name value => value.wireCanonical

structure Record where
  name : Name
  type : BitVec 16
  dclass : BitVec 16
  ttl : Nat
  data : List DataPart
deriving DecidableEq

namespace Record

def A : BitVec 16 := 1
def NS : BitVec 16 := 2
def CNAME : BitVec 16 := 5
def SOA : BitVec 16 := 6
def AAAA : BitVec 16 := 28
def DS : BitVec 16 := 43
def RRSIG : BitVec 16 := 46
def NSEC : BitVec 16 := 47
def DNSKEY : BitVec 16 := 48
def IN : BitVec 16 := 1

def rdataToWireCanonical (record : Record) : List Byte := record.data.flatMap DataPart.wireCanonical

def u16 (value : BitVec 16) : List Byte := [value.extractLsb' 8 8, value.extractLsb' 0 8]

-- `toWireCanonical(true)`: the TTL is left out of comparisons and hashes.
def toWireCanonical (record : Record) : List Byte :=
  let rdata := record.rdataToWireCanonical
  record.name.wireCanonical ++ u16 record.type ++ u16 record.dclass ++ [0, 0, 0, 0] ++
    u16 (BitVec.ofNat 16 rdata.length) ++ rdata

def hashCode (record : Record) : BitVec 32 :=
  record.toWireCanonical.foldl (fun code octet => code + ((code <<< 3) + octet.setWidth 32)) 0

def listHashCode (records : List Record) : BitVec 32 :=
  records.foldl (fun code record => 31 * code + record.hashCode) 1

-- What `equals` looks at.
def identity (record : Record) : List (List Byte) × BitVec 16 × BitVec 16 × List Byte :=
  (record.name.canonical, record.type, record.dclass, record.rdataToWireCanonical)

def compareTo (this other : Record) : Int :=
  let names := this.name.compareTo other.name
  if names ≠ 0 then names
  else if this.dclass ≠ other.dclass then (this.dclass.toNat : Int) - other.dclass.toNat
  else if this.type ≠ other.type then (this.type.toNat : Int) - other.type.toNat
  else compareOctets this.rdataToWireCanonical other.rdataToWireCanonical

-- `Collections.sort`, a stable sort.
def sort (records : List Record) : List Record :=
  records.insertionSort fun a b => a.compareTo b ≤ 0

theorem sort_perm (records : List Record) : (sort records).Perm records :=
  List.perm_insertionSort _ records

def dnssec (record : Record) : Bool := [RRSIG, NSEC, DNSKEY, DS].contains record.type

def plain (records : List Record) : List Record := records.filter fun record => !record.dnssec

end Record

open Record

-- Two lists hold the same records, in any order and any number.
def SameRecords (left right : List Record) : Prop :=
  ∀ identity, identity ∈ left.map Record.identity ↔ identity ∈ right.map Record.identity

theorem sameRecords_refl (records : List Record) : SameRecords records records := fun _ => Iff.rfl

theorem SameRecords.symm {left right : List Record} (same : SameRecords left right) : SameRecords right left :=
  fun identity => (same identity).symm

theorem SameRecords.trans {a b c : List Record} (ab : SameRecords a b) (bc : SameRecords b c) :
    SameRecords a c := fun identity => (ab identity).trans (bc identity)

theorem plain_sort (records : List Record) : SameRecords (plain (sort records)) (plain records) :=
  fun _ => (((sort_perm records).filter _).map _).mem_iff

theorem plain_eq_self {records : List Record} (unsigned : ∀ record ∈ records, record.dnssec = false) :
    plain records = records :=
  List.filter_eq_self.mpr fun record member => by simp [unsigned record member]

-- An address or an alias of a delivery service's answer.
structure InetRecord where
  ad : Option InetAddress
  ttl : Nat
  aliasName : Option String
deriving DecidableEq

end TrafficControl.TrafficRouter.Dns
