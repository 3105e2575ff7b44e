import Mathlib.Data.List.Dedup
import Mathlib.Data.List.Rotate
import TrafficControl.TrafficRouter.Dns.CanonicalOrder
import TrafficControl.TrafficRouter.Dns.SignatureManager

set_option autoImplicit false

namespace TrafficControl.TrafficRouter.Dns

open Record SignedBytes

structure NSECRecord where
  name : Name
  ttl : Nat
  next : Name
  types : List (BitVec 16)
deriving DecidableEq

structure RRset where
  name : Name
  dclass : BitVec 16
  type : BitVec 16
  rrs : List Record
  sigs : List Record
deriving DecidableEq

-- `getRRsetType`: a signature belongs to the records of the type that it covers.
def Record.rrsetType (record : Record) : BitVec 16 :=
  if record.type = RRSIG then
    (record.rdataToWireCanonical.getD 0 0).append (record.rdataToWireCanonical.getD 1 0)
  else record.type

def Record.equals (this other : Record) : Bool := this.identity == other.identity

namespace RRset

def addRR (this : RRset) (r : Record) : RRset :=
  if this.rrs.any r.equals || this.sigs.any r.equals then this
  else if r.type = RRSIG then { this with sigs := this.sigs ++ [r] }
  else { this with rrs := this.rrs ++ [r] }

end RRset

-- `DNSSEC.sign`, where `none` is an exception, and the encoding of `TypeBitmap`.
structure RecordSigner where
  sign : RRset → DnsSecKeyPair → Option Record
  sign_type : ∀ rrset pair signature, sign rrset pair = some signature → signature.type = RRSIG
  typeBitmap : List (BitVec 16) → List Byte

namespace ZoneSignerImpl

section Chain

-- The last field of a SOA record.
def getMinimum (soaRecord : Record) : Nat :=
  (soaRecord.rdataToWireCanonical.reverse.take 4).reverse.foldl (fun value octet => value * 256 + octet.toNat) 0

def findSoaRecord (records : List Record) : Option Record := records.find? fun record => record.type = SOA

-- The keys of `groupingBy(Record::getName)`.
def ownerNames : List Record → List Name
  | [] => []
  | record :: records => record.name :: (ownerNames records).filter fun name => !name.equals record.name

def sortedNames (records : List Record) : List Name :=
  (ownerNames records).insertionSort fun a b => a.compareTo b ≤ 0

def recordsOf (name : Name) (records : List Record) : List Record := records.filter fun record => record.name.equals name

def createNsecRecords (records : List Record) : List NSECRecord :=
  let names := sortedNames records
  let minimumSoaTtl := (findSoaRecord records).elim 0 getMinimum
  names.zipIdx.map fun (name, i) =>
    { name, ttl := minimumSoaTtl, next := names.getD ((i + 1) % names.length) name,
      types := (recordsOf name records).map (·.type) ++ [NSEC, RRSIG] }

end Chain

section Signing

variable (signer : RecordSigner)

def toRecord (nsec : NSECRecord) : Record :=
  ⟨nsec.name, NSEC, IN, nsec.ttl, [.name nsec.next, .octets (signer.typeBitmap nsec.types)]⟩

def withNsecRecords (records : List Record) : List Record := records ++ (createNsecRecords records).map (toRecord signer)

-- SOA records come first among those of a name.
def compareRecords (record1 record2 : Record) : Int :=
  if record1.type ≠ SOA ∧ record2.type ≠ SOA then record1.compareTo record2
  else
    let x := record1.name.compareTo record2.name
    if x ≠ 0 then x
    else if record1.dclass ≠ record2.dclass then (record1.dclass.toNat : Int) - record2.dclass.toNat
    else if record1.type ≠ record2.type then if record1.type = SOA then -1 else 1
    else record1.compareTo record2

-- The parts of the text by which `RRSetsBuilder` groups.
def qualifier (record : Record) : String × BitVec 16 × BitVec 16 × Nat :=
  (record.name.toString, record.dclass, record.type, record.ttl)

def recordsToRRSet (records : List Record) : RRset :=
  let first := records.headD ⟨⟨[]⟩, 0, 0, 0, []⟩
  records.foldl RRset.addRR ⟨first.name, first.dclass, first.rrsetType, [], []⟩

def compareRRsets (rrSet1 rrSet2 : RRset) : Int :=
  let x := rrSet1.name.compareTo rrSet2.name
  if x ≠ 0 then x
  else if rrSet1.dclass ≠ rrSet2.dclass then (rrSet1.dclass.toNat : Int) - rrSet2.dclass.toNat
  else if rrSet1.type = SOA then -1
  else (rrSet1.type.toNat : Int) - rrSet2.type.toNat

-- `RRSetsBuilder.build`
def build (records : List Record) : List RRset :=
  let records := Record.sort records
  (((records.map qualifier).dedup.map fun key => records.filter fun record => qualifier record = key).map recordsToRRSet).insertionSort
    fun a b => compareRRsets a b ≤ 0

def signRRset (kskPairs zskPairs : List DnsSecKeyPair) (rrSet : RRset) : RRset :=
  let pairs := if rrSet.type = DNSKEY then kskPairs else zskPairs
  (rrSet.rrs ++ pairs.filterMap (signer.sign rrSet)).foldl RRset.addRR { rrSet with rrs := [], sigs := [] }

def signZone (records : List Record) (kskPairs zskPairs : List DnsSecKeyPair) : List Record :=
  let records := (withNsecRecords signer records).insertionSort fun a b => compareRecords a b ≤ 0
  let signedRrSets := ((build records).map (signRRset signer kskPairs zskPairs)).insertionSort fun a b => a.name.compareTo b.name ≤ 0
  signedRrSets.flatMap fun rrSet => rrSet.rrs ++ rrSet.sigs

end Signing

section Names

variable {records : List Record} {name : Name}

theorem mem_ownerNames_iff : (∃ owner ∈ ownerNames records, owner.equals name = true) ↔ ∃ record ∈ records, record.name.equals name = true := by
  induction records with
  | nil => simp [ownerNames]
  | cons record records ih =>
    simp only [ownerNames, List.mem_cons, exists_eq_or_imp, List.mem_filter, Bool.not_eq_true', ← ih]
    constructor
    · rintro (same | ⟨owner, ⟨member, _⟩, same⟩)
      · exact Or.inl same
      · exact Or.inr ⟨owner, member, same⟩
    · rintro (same | ⟨owner, member, same⟩)
      · exact Or.inl same
      · by_cases first : owner.equals record.name = true
        · rw [Name.equals_iff] at first same ⊢
          exact Or.inl (first.symm.trans same)
        · exact Or.inr ⟨owner, ⟨member, Bool.eq_false_of_not_eq_true first⟩, same⟩

theorem ownerNames_pairwise (records : List Record) : (ownerNames records).Pairwise fun a b => a.canonical ≠ b.canonical := by
  induction records with
  | nil => exact List.Pairwise.nil
  | cons record records ih =>
    refine List.pairwise_cons.mpr ⟨fun owner member same => ?_, ih.filter _⟩
    have apart := (List.mem_filter.mp member).2
    rw [Bool.not_eq_true', ← Bool.not_eq_true, Name.equals_iff] at apart
    exact apart same.symm

theorem sortedNames_perm (records : List Record) : (sortedNames records).Perm (ownerNames records) := List.perm_insertionSort _ _

/-- The names are sorted, each class of equal ones once. -/
theorem sortedNames_ascending (records : List Record) : (sortedNames records).Pairwise fun a b => a.compareTo b < 0 := by
  have total : Std.Total fun a b : Name => a.compareTo b ≤ 0 := ⟨Name.compareTo_total⟩
  have trans : IsTrans Name fun a b => a.compareTo b ≤ 0 := ⟨fun _ _ _ => Name.compareTo_le_trans⟩
  have sorted := List.pairwise_insertionSort (fun a b : Name => a.compareTo b ≤ 0) (ownerNames records)
  have apart := (sortedNames_perm records).symm.pairwise (ownerNames_pairwise records) fun different => Ne.symm different
  refine (sorted.and apart).imp fun ⟨order, different⟩ => ?_
  rcases Int.lt_or_eq_of_le order with before | same
  · exact before
  · exact absurd (Name.equals_iff.mp (Name.compareTo_zero.mp same)) different

/-- A single cycle through all owner names, with the types of each in its bitmap. -/
structure NsecChain (records : List Record) (nsecRecords : List NSECRecord) : Prop where
  ascending : (nsecRecords.map (·.name)).Pairwise fun a b => a.compareTo b < 0
  owners : ∀ name, (∃ nsec ∈ nsecRecords, nsec.name.equals name = true) ↔ ∃ record ∈ records, record.name.equals name = true
  cycle : nsecRecords.map (·.next) = (nsecRecords.map (·.name)).rotate 1
  types : ∀ nsec ∈ nsecRecords, ∀ type, type ∈ nsec.types ↔
    (∃ record ∈ records, record.name.equals nsec.name = true ∧ record.type = type) ∨ type = NSEC ∨ type = RRSIG

theorem map_name_createNsecRecords (records : List Record) : (createNsecRecords records).map (·.name) = sortedNames records := by
  unfold createNsecRecords
  dsimp only
  rw [List.map_map]
  exact List.zipIdx_map_fst 0 _

theorem createNsecRecords_chain (records : List Record) : NsecChain records (createNsecRecords records) := by
  refine ⟨?_, fun name => ?_, ?_, fun nsec member type => ?_⟩
  · rw [map_name_createNsecRecords]
    exact sortedNames_ascending records
  · have names : (∃ nsec ∈ createNsecRecords records, nsec.name.equals name = true) ↔
        ∃ owner ∈ (createNsecRecords records).map (·.name), owner.equals name = true := by simp
    rw [names, map_name_createNsecRecords, ← mem_ownerNames_iff]
    exact exists_congr fun owner => and_congr_left fun _ => (sortedNames_perm records).mem_iff
  · rw [map_name_createNsecRecords]
    unfold createNsecRecords
    dsimp only
    refine List.ext_getElem (by simp) fun i first second => ?_
    simp only [List.length_map, List.length_zipIdx] at first
    have inside : (i + 1) % (sortedNames records).length < (sortedNames records).length := Nat.mod_lt _ (by omega)
    simp [List.getElem_rotate, inside]
  · obtain ⟨⟨name, i⟩, _, rfl⟩ := List.mem_map.mp member
    simp [recordsOf, and_assoc]

end Names

end ZoneSignerImpl

namespace RRset

/-- The signatures are apart from the records, and no record is there twice. -/
structure Separate (rrset : RRset) : Prop where
  plain : ∀ r ∈ rrset.rrs, r.type ≠ RRSIG
  signatures : ∀ r ∈ rrset.sigs, r.type = RRSIG
  distinct : (rrset.rrs.map Record.identity).Nodup

/-- Some of the records has the identity. -/
def Holds (records : List Record) (identity : List (List Byte) × BitVec 16 × BitVec 16 × List Byte) : Prop :=
  ∃ r ∈ records, r.identity = identity

variable {rrset : RRset} {record : Record} {identity : List (List Byte) × BitVec 16 × BitVec 16 × List Byte}

theorem type_eq {r r' : Record} (same : r.identity = r'.identity) : r.type = r'.type := congrArg (·.2.1) same

theorem addRR_separate (separate : rrset.Separate) (record : Record) : (rrset.addRR record).Separate := by
  unfold addRR
  split_ifs with present signature
  · exact separate
  · refine ⟨separate.plain, fun r member => ?_, separate.distinct⟩
    rcases List.mem_append.mp member with old | new
    · exact separate.signatures r old
    · exact List.mem_singleton.mp new ▸ signature
  · refine ⟨fun r member => ?_, separate.signatures, ?_⟩
    · rcases List.mem_append.mp member with old | new
      · exact separate.plain r old
      · exact List.mem_singleton.mp new ▸ signature
    · rw [List.map_append, List.map_singleton]
      refine List.nodup_append.mpr ⟨separate.distinct, List.nodup_singleton _, fun first inOld second inNew same => ?_⟩
      obtain ⟨r, member, rfl⟩ := List.mem_map.mp inOld
      rw [List.mem_singleton.mp inNew] at same
      refine present ?_
      rw [Bool.or_eq_true, List.any_eq_true]
      exact Or.inl ⟨r, member, beq_iff_eq.mpr same.symm⟩

theorem holds_addRR (separate : rrset.Separate) (record : Record) (plain : identity.2.1 ≠ RRSIG) :
    Holds (rrset.addRR record).rrs identity ↔ Holds rrset.rrs identity ∨ record.identity = identity := by
  unfold addRR
  split_ifs with present signature
  · refine (or_iff_left_of_imp fun same => ?_).symm
    rw [Bool.or_eq_true, List.any_eq_true, List.any_eq_true] at present
    rcases present with ⟨r, member, equal⟩ | ⟨r, member, equal⟩
    · exact ⟨r, member, (beq_iff_eq.mp equal).symm.trans same⟩
    · rw [← same] at plain
      exact absurd ((type_eq (beq_iff_eq.mp equal)).trans (separate.signatures r member)) plain
  · refine (or_iff_left_of_imp fun same => ?_).symm
    rw [← same] at plain
    exact absurd signature plain
  · simp [Holds, or_and_right, exists_or]

theorem foldl_addRR (separate : rrset.Separate) (records : List Record) :
    (records.foldl addRR rrset).Separate ∧ (records.foldl addRR rrset).type = rrset.type ∧ (records.foldl addRR rrset).name = rrset.name ∧
      ∀ identity : List (List Byte) × BitVec 16 × BitVec 16 × List Byte, identity.2.1 ≠ RRSIG →
        (Holds (records.foldl addRR rrset).rrs identity ↔ Holds rrset.rrs identity ∨ Holds records identity) := by
  induction records generalizing rrset with
  | nil => exact ⟨separate, rfl, rfl, fun identity plain => by simp [Holds]⟩
  | cons record records ih =>
    have unchanged : (rrset.addRR record).type = rrset.type ∧ (rrset.addRR record).name = rrset.name := by
      unfold addRR
      split_ifs <;> exact ⟨rfl, rfl⟩
    obtain ⟨separate', type, name, holds⟩ := ih (addRR_separate separate record)
    refine ⟨separate', type.trans unchanged.1, name.trans unchanged.2, fun identity plain => ?_⟩
    rw [List.foldl_cons, holds identity plain, holds_addRR separate record plain, or_assoc]
    simp [Holds]

theorem separate_empty (name : Name) (dclass type : BitVec 16) : Separate ⟨name, dclass, type, [], []⟩ :=
  ⟨fun _ none => absurd none List.not_mem_nil, fun _ none => absurd none List.not_mem_nil, List.nodup_nil⟩

end RRset

namespace ZoneSignerImpl

open RRset

section Records

variable {identity : List (List Byte) × BitVec 16 × BitVec 16 × List Byte}

theorem holds_perm {records records' : List Record} (perm : records.Perm records') : Holds records identity ↔ Holds records' identity :=
  exists_congr fun _ => and_congr_left fun _ => perm.mem_iff

theorem recordsToRRSet_spec (records : List Record) : (recordsToRRSet records).Separate ∧
    ∀ identity : List (List Byte) × BitVec 16 × BitVec 16 × List Byte, identity.2.1 ≠ RRSIG →
      (Holds (recordsToRRSet records).rrs identity ↔ Holds records identity) := by
  obtain ⟨separate, _, _, holds⟩ := foldl_addRR
    (separate_empty (records.headD ⟨⟨[]⟩, 0, 0, 0, []⟩).name (records.headD ⟨⟨[]⟩, 0, 0, 0, []⟩).dclass
      (records.headD ⟨⟨[]⟩, 0, 0, 0, []⟩).rrsetType) records
  exact ⟨separate, fun identity plain => (holds identity plain).trans (by simp [Holds])⟩

theorem build_holds (records : List Record) (plain : identity.2.1 ≠ RRSIG) :
    (∃ rrSet ∈ build records, Holds rrSet.rrs identity) ↔ Holds records identity := by
  unfold build
  simp only [List.mem_insertionSort, List.mem_map, List.mem_dedup]
  constructor
  · rintro ⟨_, ⟨_, ⟨key, _, rfl⟩, rfl⟩, holds⟩
    obtain ⟨r, member, same⟩ := ((recordsToRRSet_spec _).2 identity plain).mp holds
    exact ⟨r, (sort_perm records).mem_iff.mp (List.mem_filter.mp member).1, same⟩
  · rintro ⟨r, member, same⟩
    have sorted := (sort_perm records).mem_iff.mpr member
    refine ⟨_, ⟨_, ⟨qualifier r, ⟨r, sorted, rfl⟩, rfl⟩, rfl⟩, ((recordsToRRSet_spec _).2 identity plain).mpr ⟨r, ?_, same⟩⟩
    exact List.mem_filter.mpr ⟨sorted, decide_eq_true rfl⟩

variable (signer : RecordSigner) (kskPairs zskPairs : List DnsSecKeyPair)

theorem signRRset_spec (rrSet : RRset) : (signRRset signer kskPairs zskPairs rrSet).Separate ∧
    ∀ identity : List (List Byte) × BitVec 16 × BitVec 16 × List Byte, identity.2.1 ≠ RRSIG →
      (Holds (signRRset signer kskPairs zskPairs rrSet).rrs identity ↔ Holds rrSet.rrs identity) := by
  obtain ⟨separate, _, _, holds⟩ := foldl_addRR (separate_empty rrSet.name rrSet.dclass rrSet.type)
    (rrSet.rrs ++ (if rrSet.type = DNSKEY then kskPairs else zskPairs).filterMap (signer.sign rrSet))
  refine ⟨separate, fun identity plain => (holds identity plain).trans ?_⟩
  constructor
  · rintro (⟨r, none, _⟩ | ⟨r, member, same⟩)
    · cases none
    · rcases List.mem_append.mp member with old | signature
      · exact ⟨r, old, same⟩
      · obtain ⟨pair, _, signed⟩ := List.mem_filterMap.mp signature
        rw [← same] at plain
        exact absurd (signer.sign_type rrSet pair r signed) plain
  · rintro ⟨r, member, same⟩
    exact Or.inr ⟨r, List.mem_append_left _ member, same⟩

/-- Apart from signatures a signed zone has the records it had and the added NSEC records. -/
theorem signZone_holds (records : List Record) (plain : identity.2.1 ≠ RRSIG) :
    Holds (signZone signer records kskPairs zskPairs) identity ↔ Holds (withNsecRecords signer records) identity := by
  have whole : Holds (signZone signer records kskPairs zskPairs) identity ↔
      ∃ rrSet ∈ build ((withNsecRecords signer records).insertionSort fun a b => compareRecords a b ≤ 0), Holds rrSet.rrs identity := by
    unfold signZone
    simp only [Holds, List.mem_flatMap, List.mem_insertionSort, List.mem_map]
    constructor
    · rintro ⟨r, ⟨_, ⟨rrSet, built, rfl⟩, member⟩, same⟩
      obtain ⟨separate, holds⟩ := signRRset_spec signer kskPairs zskPairs rrSet
      rcases List.mem_append.mp member with inSet | signature
      · exact ⟨rrSet, built, (holds identity plain).mp ⟨r, inSet, same⟩⟩
      · rw [← same] at plain
        exact absurd (separate.signatures r signature) plain
    · rintro ⟨rrSet, built, held⟩
      obtain ⟨r, inSet, same⟩ := ((signRRset_spec signer kskPairs zskPairs rrSet).2 identity plain).mpr held
      exact ⟨r, ⟨_, ⟨rrSet, built, rfl⟩, List.mem_append_left _ inSet⟩, same⟩
  rw [whole, build_holds _ plain]
  exact holds_perm (List.perm_insertionSort _ _)

end Records

end ZoneSignerImpl

end TrafficControl.TrafficRouter.Dns
