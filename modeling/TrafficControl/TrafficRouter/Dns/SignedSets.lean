import Mathlib.Algebra.BigOperators.Group.List.Basic
import TrafficControl.TrafficRouter.Dns.NameText
import TrafficControl.TrafficRouter.Dns.ZoneSignerImpl

set_option autoImplicit false

namespace TrafficControl.TrafficRouter.Dns

open Record RRset SignedBytes

/-- Every signing succeeds, and a signature tells the name and the type that it is for. -/
structure RecordSigner.Successful (signer : RecordSigner) : Prop where
  signs : ∀ rrSet pair, ∃ signature, signer.sign rrSet pair = some signature
  name : ∀ rrSet pair signature, signer.sign rrSet pair = some signature → signature.name = rrSet.name
  covered : ∀ rrSet pair signature, signer.sign rrSet pair = some signature → signature.rrsetType = rrSet.type

namespace ZoneSignerImpl

-- The log message at the start of `signZone` reads the first record.
def signRecords (signer : RecordSigner) (records : List Record) (kskPairs zskPairs : List DnsSecKeyPair) : Option (List Record) :=
  match records with
  | [] => none
  | _ :: _ => some (signZone signer records kskPairs zskPairs)

def sameSet (record other : Record) : Bool := record.name.equals other.name && record.type == other.type

-- The signature is for the name and type of the record.
def covers (record signature : Record) : Bool :=
  signature.type == RRSIG && signature.name.equals record.name && signature.rrsetType == record.type

/-- Each record is in the result once, and each set of DNS is signed once, as a whole and by the right key. -/
structure SignedWhole (signer : RecordSigner) (ksk zsk : DnsSecKeyPair) (records result : List Record) : Prop where
  once : ∀ record ∈ withNsecRecords signer records, result.countP record.equals = 1
  signed : ∀ record ∈ withNsecRecords signer records, ∃ signature rrSet, result.filter (covers record) = [signature] ∧
    signer.sign rrSet (if record.type = DNSKEY then ksk else zsk) = some signature ∧
    SameRecords rrSet.rrs ((withNsecRecords signer records).filter (sameSet record))

theorem sameSet_iff {record other : Record} : sameSet record other = true ↔ record.name.canonical = other.name.canonical ∧ record.type = other.type := by
  unfold sameSet
  rw [Bool.and_eq_true, beq_iff_eq, Name.equals_iff]

/-- The records are unsigned, and those of one name and type have one text of the name, one class and one TTL, NSEC records those of
the added ones. -/
structure OneSetEach (records : List Record) : Prop where
  filled : records ≠ []
  unsigned : ∀ record ∈ records, record.type ≠ RRSIG
  alike : ∀ record ∈ records, ∀ other ∈ records, sameSet record other = true → qualifier record = qualifier other
  nsec : ∀ record ∈ records, record.type = NSEC → ∀ first, records.find? (fun other => other.name.equals record.name) = some first →
    qualifier record = (first.name.toString, IN, NSEC, (findSoaRecord records).elim 0 getMinimum)

section Grouping

variable (signer : RecordSigner) (records : List Record)

def sortedRecords : List Record := sort ((withNsecRecords signer records).insertionSort fun a b => compareRecords a b ≤ 0)

def qualifiers : List (String × BitVec 16 × BitVec 16 × Nat) := ((sortedRecords signer records).map qualifier).dedup

def setOf (key : String × BitVec 16 × BitVec 16 × Nat) : RRset :=
  recordsToRRSet ((sortedRecords signer records).filter fun record => qualifier record = key)

variable {signer records}

theorem mem_sortedRecords {record : Record} : record ∈ sortedRecords signer records ↔ record ∈ withNsecRecords signer records :=
  (sort_perm _).mem_iff.trans (List.perm_insertionSort _ _).mem_iff

theorem qualifiers_nodup : (qualifiers signer records).Nodup := List.nodup_dedup _

theorem mem_qualifiers {key : String × BitVec 16 × BitVec 16 × Nat} :
    key ∈ qualifiers signer records ↔ ∃ record ∈ withNsecRecords signer records, qualifier record = key := by
  unfold qualifiers
  rw [List.mem_dedup, List.mem_map]
  exact exists_congr fun record => and_congr_left fun _ => mem_sortedRecords

theorem setOf_separate (key : String × BitVec 16 × BitVec 16 × Nat) : (setOf signer records key).Separate := (recordsToRRSet_spec _).1

theorem holds_setOf (key : String × BitVec 16 × BitVec 16 × Nat) {identity : List (List Byte) × BitVec 16 × BitVec 16 × List Byte}
    (plain : identity.2.1 ≠ RRSIG) : Holds (setOf signer records key).rrs identity ↔
      ∃ record ∈ withNsecRecords signer records, qualifier record = key ∧ record.identity = identity := by
  unfold setOf
  rw [(recordsToRRSet_spec _).2 identity plain]
  unfold Holds
  simp only [List.mem_filter, mem_sortedRecords, decide_eq_true_eq, and_assoc]

/-- A set is named by its first record. -/
theorem setOf_first {key : String × BitVec 16 × BitVec 16 × Nat} (used : key ∈ qualifiers signer records) :
    ∃ first ∈ withNsecRecords signer records, qualifier first = key ∧ (setOf signer records key).name = first.name ∧
      (setOf signer records key).type = first.rrsetType := by
  obtain ⟨record, member, same⟩ := mem_qualifiers.mp used
  have inside : record ∈ (sortedRecords signer records).filter fun record => qualifier record = key :=
    List.mem_filter.mpr ⟨mem_sortedRecords.mpr member, decide_eq_true same⟩
  cases group : (sortedRecords signer records).filter fun record => qualifier record = key with
  | nil =>
    rw [group] at inside
    cases inside
  | cons first others =>
    have chosen : first ∈ (sortedRecords signer records).filter fun record => qualifier record = key := group ▸ List.mem_cons_self
    obtain ⟨sorted, qualified⟩ := List.mem_filter.mp chosen
    refine ⟨first, mem_sortedRecords.mp sorted, of_decide_eq_true qualified, ?_⟩
    unfold setOf recordsToRRSet
    rw [group]
    obtain ⟨_, type, name, _⟩ := foldl_addRR (separate_empty first.name first.dclass first.rrsetType) (first :: others)
    exact ⟨name, type⟩

theorem foldl_addRR_plain {rrset : RRset} (added : List Record) (plain : ∀ r ∈ added, r.type ≠ RRSIG) (unsigned : rrset.sigs = [])
    (distinct : ((rrset.rrs ++ added).map identity).Nodup) : added.foldl addRR rrset = { rrset with rrs := rrset.rrs ++ added } := by
  induction added generalizing rrset with
  | nil => rw [List.append_nil]; rfl
  | cons r added ih =>
    have absent : ¬(rrset.rrs.any r.equals || rrset.sigs.any r.equals) = true := by
      rw [unsigned, List.any_nil, Bool.or_false, List.any_eq_true]
      rintro ⟨s, member, same⟩
      rw [List.map_append] at distinct
      exact (List.nodup_append.mp distinct).2.2 _ (List.mem_map_of_mem member) _ (List.mem_map_of_mem List.mem_cons_self)
        (beq_iff_eq.mp same).symm
    have step : rrset.addRR r = { rrset with rrs := rrset.rrs ++ [r] } := by
      unfold addRR
      rw [if_neg absent, if_neg (plain r List.mem_cons_self)]
    have others := @ih { rrset with rrs := rrset.rrs ++ [r] } (fun s member => plain s (List.mem_cons_of_mem r member)) unsigned
      (by simpa using distinct)
    rw [List.foldl_cons, step, others]
    simp

/-- The records of a set are kept, and the one signature is added to them. -/
theorem signRRset_eq {rrSet : RRset} (separate : rrSet.Separate) {ksk zsk : DnsSecKeyPair} {signature : Record}
    (signed : signer.sign rrSet (if rrSet.type = DNSKEY then ksk else zsk) = some signature) :
    signRRset signer [ksk] [zsk] rrSet = { rrSet with sigs := [signature] } := by
  have isSignature := signer.sign_type _ _ _ signed
  have one : (if rrSet.type = DNSKEY then [ksk] else [zsk]).filterMap (signer.sign rrSet) = [signature] := by
    split_ifs at signed ⊢ <;> simp [signed]
  unfold signRRset
  dsimp only
  rw [one, List.foldl_append, foldl_addRR_plain rrSet.rrs separate.plain rfl (by simpa using separate.distinct)]
  have absent : ¬(rrSet.rrs.any signature.equals || ([] : List Record).any signature.equals) = true := by
    rw [List.any_nil, Bool.or_false, List.any_eq_true]
    rintro ⟨r, member, same⟩
    exact separate.plain r member ((type_eq (beq_iff_eq.mp same)).symm.trans isSignature)
  simp only [List.foldl_cons, List.foldl_nil, List.nil_append, addRR]
  rw [if_neg absent, if_pos isSignature]

variable {ksk zsk : DnsSecKeyPair} {signature : String × BitVec 16 × BitVec 16 × Nat → Record} {record : Record} {result : List Record}

/-- A result with its sets and signatures, by the text that they are grouped by. -/
structure Signed (signer : RecordSigner) (records : List Record) (ksk zsk : DnsSecKeyPair)
    (signature : String × BitVec 16 × BitVec 16 × Nat → Record) (result : List Record) : Prop where
  sign : ∀ key, signer.sign (setOf signer records key) (if (setOf signer records key).type = DNSKEY then ksk else zsk) = some (signature key)
  perm : result.Perm ((qualifiers signer records).flatMap fun key => (setOf signer records key).rrs ++ [signature key])

theorem signZone_signed (successful : signer.Successful) (ksk zsk : DnsSecKeyPair) :
    ∃ signature, Signed signer records ksk zsk signature (signZone signer records [ksk] [zsk]) := by
  choose signature signed using fun key =>
    successful.signs (setOf signer records key) (if (setOf signer records key).type = DNSKEY then ksk else zsk)
  refine ⟨signature, signed, ?_⟩
  have sets : (((build ((withNsecRecords signer records).insertionSort fun a b => compareRecords a b ≤ 0)).map
      (signRRset signer [ksk] [zsk])).insertionSort fun a b => a.name.compareTo b.name ≤ 0).Perm
      ((qualifiers signer records).map fun key => { setOf signer records key with sigs := [signature key] }) := by
    refine (List.perm_insertionSort _ _).trans ?_
    unfold build
    dsimp only
    refine ((List.perm_insertionSort _ _).map _).trans (List.Perm.of_eq ?_)
    rw [List.map_map, List.map_map]
    exact List.map_congr_left fun key _ => signRRset_eq (setOf_separate key) (signed key)
  unfold signZone
  dsimp only
  refine (sets.flatMap_right _).trans (List.Perm.of_eq ?_)
  rw [List.flatMap_map]

theorem Signed.type_eq (signed : Signed signer records ksk zsk signature result) (key : String × BitVec 16 × BitVec 16 × Nat) :
    (signature key).type = RRSIG := signer.sign_type _ _ _ (signed.sign key)

/-- The signatures for a name and type are those of the groups that have it. -/
theorem Signed.filter_covers (signed : Signed signer records ksk zsk signature result) :
    (result.filter (covers record)).Perm (((qualifiers signer records).filter fun key => covers record (signature key)).map signature) := by
  refine (signed.perm.filter _).trans (List.Perm.of_eq ?_)
  rw [List.filter_flatMap]
  induction qualifiers signer records with
  | nil => rfl
  | cons key keys ih =>
    have plain : (setOf signer records key).rrs.filter (covers record) = [] := by
      refine List.filter_eq_nil_iff.mpr fun r member => ?_
      unfold covers
      simp [(setOf_separate key).plain r member]
    rw [List.flatMap_cons, ih, List.filter_append, plain, List.nil_append, List.filter_cons]
    by_cases covered : covers record (signature key) = true
    · simp [covered]
    · simp [covered]

theorem Signed.covers_iff (successful : signer.Successful) (signed : Signed signer records ksk zsk signature result)
    (unsigned : ∀ record ∈ withNsecRecords signer records, record.type ≠ RRSIG) {key : String × BitVec 16 × BitVec 16 × Nat}
    (used : key ∈ qualifiers signer records) : covers record (signature key) = true ↔
      ∃ first ∈ withNsecRecords signer records, qualifier first = key ∧ (setOf signer records key).name = first.name ∧
        (setOf signer records key).type = first.type ∧ sameSet first record = true := by
  obtain ⟨first, member, qualified, name, type⟩ := setOf_first used
  have plain : first.rrsetType = first.type := if_neg (unsigned first member)
  rw [plain] at type
  unfold covers sameSet
  rw [signed.type_eq, successful.name _ _ _ (signed.sign key), successful.covered _ _ _ (signed.sign key), name, type]
  simp only [beq_self_eq_true, Bool.true_and, Bool.and_eq_true, beq_iff_eq]
  constructor
  · exact fun same => ⟨first, member, qualified, rfl, rfl, same⟩
  · rintro ⟨other, _, _, sameName, sameType, same⟩
    rw [sameName, sameType]
    exact same

end Grouping

section AddedNsec

variable {signer : RecordSigner} {records : List Record} {name other : Name}

theorem equals_congr (same : name.equals other = true) : (fun record : Record => record.name.equals name) = fun record => record.name.equals other := by
  funext record
  unfold Name.equals
  rw [Name.equals_iff.mp same]

/-- An owner name is written as in its first record. -/
theorem find_ownerNames (owner : name ∈ ownerNames records) :
    ∃ first, records.find? (fun record => record.name.equals name) = some first ∧ first.name = name := by
  induction records with
  | nil => cases owner
  | cons record records ih =>
    rcases List.mem_cons.mp owner with rfl | later
    · exact ⟨record, List.find?_cons_of_pos (Name.equals_iff.mpr rfl), rfl⟩
    · obtain ⟨member, apart⟩ := List.mem_filter.mp later
      obtain ⟨first, found, spelled⟩ := ih member
      refine ⟨first, ?_, spelled⟩
      rw [List.find?_cons_of_neg, found]
      rw [Bool.not_eq_true', ← Bool.not_eq_true, Name.equals_iff] at apart
      rw [Name.equals_iff]
      exact fun same => apart same.symm

theorem owner_of_nsec {nsec : NSECRecord} (added : nsec ∈ createNsecRecords records) : nsec.name ∈ ownerNames records :=
  (sortedNames_perm records).mem_iff.mp (map_name_createNsecRecords records ▸ List.mem_map_of_mem added)

/-- An added record has the first text of its name and the minimum of the SOA record. -/
theorem qualifier_toRecord {nsec : NSECRecord} (added : nsec ∈ createNsecRecords records) {first : Record}
    (found : records.find? (fun record => record.name.equals nsec.name) = some first) :
    qualifier (toRecord signer nsec) = (first.name.toString, IN, NSEC, (findSoaRecord records).elim 0 getMinimum) := by
  obtain ⟨other, found', spelled⟩ := find_ownerNames (owner_of_nsec added)
  cases found.symm.trans found'
  unfold createNsecRecords at added
  obtain ⟨_, _, rfl⟩ := List.mem_map.mp added
  unfold qualifier toRecord
  rw [spelled]

theorem mem_withNsecRecords {record : Record} : record ∈ withNsecRecords signer records ↔
    record ∈ records ∨ ∃ nsec ∈ createNsecRecords records, toRecord signer nsec = record := by
  unfold withNsecRecords
  rw [List.mem_append, List.mem_map]

/-- With the added records the sets are whole in the text that they are grouped by, when they are without them. -/
theorem alike_withNsecRecords : (∀ record ∈ withNsecRecords signer records, ∀ other ∈ withNsecRecords signer records,
      sameSet record other = true → qualifier record = qualifier other) ↔
    (∀ record ∈ records, ∀ other ∈ records, sameSet record other = true → qualifier record = qualifier other) ∧
    ∀ record ∈ records, record.type = NSEC → ∀ first, records.find? (fun other => other.name.equals record.name) = some first →
      qualifier record = (first.name.toString, IN, NSEC, (findSoaRecord records).elim 0 getMinimum) := by
  constructor
  · intro alike
    refine ⟨fun record member other member' => alike record (mem_withNsecRecords.mpr (Or.inl member)) other
      (mem_withNsecRecords.mpr (Or.inl member')), fun record member type first found => ?_⟩
    obtain ⟨nsec, added, same⟩ := ((createNsecRecords_chain records).owners record.name).mpr ⟨record, member, Name.equals_iff.mpr rfl⟩
    rw [← equals_congr same] at found
    rw [← qualifier_toRecord added found]
    refine alike record (mem_withNsecRecords.mpr (Or.inl member)) _ (mem_withNsecRecords.mpr (Or.inr ⟨nsec, added, rfl⟩)) ?_
    exact sameSet_iff.mpr ⟨(Name.equals_iff.mp same).symm, type⟩
  · rintro ⟨alike, atNsec⟩
    have joins {record : Record} (member : record ∈ records) {nsec : NSECRecord} (added : nsec ∈ createNsecRecords records)
        (same : nsec.name.equals record.name = true) (type : record.type = NSEC) : qualifier record = qualifier (toRecord signer nsec) := by
      obtain ⟨first, found, _⟩ := find_ownerNames (owner_of_nsec added)
      rw [qualifier_toRecord added found]
      exact atNsec record member type first (equals_congr same ▸ found)
    intro record member other member' same
    have same' := sameSet_iff.mp same
    rcases mem_withNsecRecords.mp member with given | ⟨nsec, added, rfl⟩ <;>
      rcases mem_withNsecRecords.mp member' with given' | ⟨nsec', added', rfl⟩
    · exact alike record given other given' same
    · exact joins given added' (Name.equals_iff.mpr same'.1.symm) same'.2
    · exact (joins given' added (Name.equals_iff.mpr same'.1) same'.2.symm).symm
    · obtain ⟨first, found, _⟩ := find_ownerNames (owner_of_nsec added)
      rw [qualifier_toRecord added found]
      exact (qualifier_toRecord added' (equals_congr (Name.equals_iff.mpr same'.1) ▸ found)).symm

end AddedNsec

section Whole

variable {signer : RecordSigner} {records : List Record} {ksk zsk : DnsSecKeyPair}

theorem sameSet_of_qualifier {record other : Record} (valid : record.name.Valid) (valid' : other.name.Valid)
    (same : qualifier record = qualifier other) : sameSet record other = true := by
  have name := Name.toString_injective valid valid' (congrArg (·.1) same)
  exact sameSet_iff.mpr ⟨congrArg Name.canonical name, congrArg (·.2.2.1) same⟩

theorem unsigned_withNsecRecords (unsigned : ∀ record ∈ records, record.type ≠ RRSIG) :
    ∀ record ∈ withNsecRecords signer records, record.type ≠ RRSIG := by
  intro record member
  rcases mem_withNsecRecords.mp member with given | ⟨nsec, _, rfl⟩
  · exact unsigned record given
  · exact (by decide : NSEC ≠ RRSIG)

theorem valid_withNsecRecords (valid : ∀ record ∈ records, record.name.Valid) : ∀ record ∈ withNsecRecords signer records, record.name.Valid := by
  intro record member
  rcases mem_withNsecRecords.mp member with given | ⟨nsec, added, rfl⟩
  · exact valid record given
  · obtain ⟨first, found, spelled⟩ := find_ownerNames (owner_of_nsec added)
    have given := valid first (List.mem_of_find?_eq_some found)
    rw [spelled] at given
    exact given

/-- Sets that are not split are signed whole. -/
theorem signedWhole_of_alike (successful : signer.Successful) (unsigned : ∀ record ∈ withNsecRecords signer records, record.type ≠ RRSIG)
    (valid : ∀ record ∈ withNsecRecords signer records, record.name.Valid)
    (alike : ∀ record ∈ withNsecRecords signer records, ∀ other ∈ withNsecRecords signer records,
      sameSet record other = true → qualifier record = qualifier other) :
    SignedWhole signer ksk zsk records (signZone signer records [ksk] [zsk]) := by
  obtain ⟨signature, signed⟩ := @signZone_signed signer records successful ksk zsk
  have used {record : Record} (member : record ∈ withNsecRecords signer records) : qualifier record ∈ qualifiers signer records :=
    mem_qualifiers.mpr ⟨record, member, rfl⟩
  have covered {record : Record} (member : record ∈ withNsecRecords signer records) {key : String × BitVec 16 × BitVec 16 × Nat}
      (isKey : key ∈ qualifiers signer records) : covers record (signature key) = true ↔ key = qualifier record := by
    rw [signed.covers_iff successful unsigned isKey]
    constructor
    · rintro ⟨first, member', rfl, _, _, same⟩
      exact alike first member' record member same
    · rintro rfl
      obtain ⟨first, member', qualified, name, type⟩ := setOf_first isKey
      have plain : first.rrsetType = first.type := if_neg (unsigned first member')
      exact ⟨first, member', qualified, name, type.trans plain, sameSet_of_qualifier (valid first member') (valid record member) qualified⟩
  constructor
  · intro record member
    have plain := unsigned record member
    have elsewhere : ∀ key ≠ qualifier record, key ∈ qualifiers signer records →
        (List.countP record.equals ∘ fun key => (setOf signer records key).rrs ++ [signature key]) key = 0 := by
      intro key different _
      refine List.countP_eq_zero.mpr fun other inside same => ?_
      have same : record.identity = other.identity := beq_iff_eq.mp same
      rcases List.mem_append.mp inside with inSet | isSignature
      · obtain ⟨given, member', qualified, same'⟩ := (holds_setOf key plain).mp ⟨other, inSet, same.symm⟩
        refine different ((alike given member' record member ?_).symm.trans qualified).symm
        exact sameSet_iff.mpr ⟨congrArg (·.1) same', type_eq same'⟩
      · rw [List.mem_singleton.mp isSignature] at same
        exact plain ((RRset.type_eq same).trans (signed.type_eq key))
    rw [signed.perm.countP_eq, List.countP_flatMap, List.sum_map_eq_nsmul_single _ _ elsewhere,
      @List.count_eq_one_of_mem _ instBEqOfDecidableEq _ _ _ qualifiers_nodup (used member), one_nsmul]
    have notSignature : ¬record.equals (signature (qualifier record)) = true := fun same =>
      plain ((RRset.type_eq (beq_iff_eq.mp same)).trans (signed.type_eq _))
    have held : record.identity ∈ (setOf signer records (qualifier record)).rrs.map Record.identity :=
      List.mem_map.mpr ((holds_setOf (qualifier record) plain).mpr ⟨record, member, rfl, rfl⟩)
    have one := List.count_eq_one_of_mem (setOf_separate (qualifier record)).distinct held
    rw [List.count, List.countP_map] at one
    rw [Function.comp_apply, List.countP_append, List.countP_singleton, if_neg notSignature, Nat.add_zero, ← one]
    exact List.countP_congr fun other _ => by rw [Record.equals, Function.comp_apply, beq_iff_eq, beq_iff_eq, eq_comm]
  · intro record member
    obtain ⟨first, member', qualified, _, type, _⟩ :=
      (signed.covers_iff successful unsigned (used member)).mp ((covered member (used member)).mpr rfl)
    have keys : (qualifiers signer records).filter (fun key => covers record (signature key)) = [qualifier record] := by
      rw [List.filter_congr fun key isKey => Bool.eq_iff_iff.mpr ((covered member isKey).trans decide_eq_true_iff.symm), List.filter_eq]
      exact congrArg (List.replicate · _) (List.count_eq_one_of_mem qualifiers_nodup (used member))
    have signatures := @Signed.filter_covers _ _ _ _ _ record _ signed
    rw [keys] at signatures
    have type : (setOf signer records (qualifier record)).type = record.type := type.trans (congrArg (·.2.2.1) qualified)
    refine ⟨signature (qualifier record), setOf signer records (qualifier record), List.perm_singleton.mp signatures,
      type ▸ signed.sign (qualifier record), fun identity => ?_⟩
    rw [List.mem_map, List.mem_map]
    by_cases plain : identity.2.1 = RRSIG
    · constructor
      · rintro ⟨r, inSet, rfl⟩
        exact absurd plain ((setOf_separate _).plain r inSet)
      · rintro ⟨r, inSet, rfl⟩
        exact absurd plain (unsigned r (List.mem_filter.mp inSet).1)
    · refine (holds_setOf (qualifier record) plain).trans (exists_congr fun r => ?_)
      rw [List.mem_filter, ← and_assoc]
      refine and_congr_left fun _ => and_congr_right fun member' => ?_
      exact ⟨fun same => sameSet_of_qualifier (valid record member) (valid r member') same.symm, fun same =>
        (alike record member r member' same).symm⟩

/-- Sets that are signed whole are not split. -/
theorem alike_of_signedWhole (successful : signer.Successful) (unsigned : ∀ record ∈ withNsecRecords signer records, record.type ≠ RRSIG)
    (valid : ∀ record ∈ withNsecRecords signer records, record.name.Valid)
    (whole : SignedWhole signer ksk zsk records (signZone signer records [ksk] [zsk])) :
    ∀ record ∈ withNsecRecords signer records, ∀ other ∈ withNsecRecords signer records,
      sameSet record other = true → qualifier record = qualifier other := by
  intro record member other member' same
  obtain ⟨signature, signed⟩ := @signZone_signed signer records successful ksk zsk
  obtain ⟨only, _, one, _⟩ := whole.signed record member
  have signatures := @Signed.filter_covers _ _ _ _ _ record _ signed
  rw [one] at signatures
  obtain ⟨key, alone, _⟩ := List.map_eq_singleton_iff.mp (List.singleton_perm.mp signatures).symm
  have covers {r : Record} (inZone : r ∈ withNsecRecords signer records) (same : sameSet record r = true) : qualifier r = key := by
    have used : qualifier r ∈ qualifiers signer records := mem_qualifiers.mpr ⟨r, inZone, rfl⟩
    obtain ⟨first, inZone', qualified, name, type⟩ := setOf_first used
    have plain : first.rrsetType = first.type := if_neg (unsigned first inZone')
    have atFirst := sameSet_iff.mp (sameSet_of_qualifier (valid first inZone') (valid r inZone) qualified)
    have atRecord := sameSet_iff.mp same
    refine List.mem_singleton.mp (alone ▸ List.mem_filter.mpr ⟨used, ?_⟩)
    exact (signed.covers_iff successful unsigned used).mpr ⟨first, inZone', qualified, name, type.trans plain,
      sameSet_iff.mpr ⟨atFirst.1.trans atRecord.1.symm, atFirst.2.trans atRecord.2.symm⟩⟩
  rw [covers member (sameSet_iff.mpr ⟨rfl, rfl⟩), covers member' same]

end Whole

section Counting

-- A signature that shows no more than how many records it was made over.
def countingSigner : RecordSigner where
  sign rrSet _ := some ⟨rrSet.name, RRSIG, rrSet.dclass, (rrSet.rrs.head?.elim 0 (·.ttl)),
    [.octets (u16 rrSet.type), .octets (List.replicate rrSet.rrs.length 0)]⟩
  sign_type := by
    intro rrSet pair signature signed
    cases signed
    rfl
  typeBitmap _ := []

theorem countingSigner_successful : countingSigner.Successful where
  signs _ _ := ⟨_, rfl⟩
  name rrSet pair signature signed := by
    cases signed
    rfl
  covered rrSet pair signature signed := by
    cases signed
    exact BitVec.extractLsb'_append_extractLsb'

variable {records : List Record} {ksk zsk : DnsSecKeyPair}

/-- A signature given to be signed is not kept, and what is made for it is made over no record. -/
theorem unsigned_of_signedWhole (whole : SignedWhole countingSigner ksk zsk records (signZone countingSigner records [ksk] [zsk])) :
    ∀ record ∈ withNsecRecords countingSigner records, record.type ≠ RRSIG := by
  intro record member isSignature
  obtain ⟨signature, signed⟩ := @signZone_signed countingSigner records countingSigner_successful ksk zsk
  obtain ⟨only, rrSet, one, made, same⟩ := whole.signed record member
  have covered : only ∈ (signZone countingSigner records [ksk] [zsk]).filter (covers record) := one ▸ List.mem_cons_self
  obtain ⟨inResult, covering⟩ := List.mem_filter.mp covered
  unfold covers at covering
  simp only [Bool.and_eq_true, beq_iff_eq] at covering
  obtain ⟨key, used, inGroup⟩ := List.mem_flatMap.mp (signed.perm.mem_iff.mp inResult)
  have isThis : only = signature key := by
    rcases List.mem_append.mp inGroup with inSet | added
    · exact absurd covering.1.1 ((setOf_separate key).plain only inSet)
    · exact List.mem_singleton.mp added
  have filled : (setOf countingSigner records key).rrs ≠ [] := by
    have counts := (Option.some.inj made).trans (isThis.trans (Option.some.inj (signed.sign key)).symm)
    have lengths : rrSet.rrs.length = (setOf countingSigner records key).rrs.length := by
      have octets := congrArg Record.rdataToWireCanonical counts
      simpa [rdataToWireCanonical, DataPart.wireCanonical, u16] using congrArg List.length octets
    intro none
    rw [none, List.length_nil, List.length_eq_zero_iff] at lengths
    have held := (same record.identity).mpr (List.mem_map_of_mem (List.mem_filter.mpr ⟨member, sameSet_iff.mpr ⟨rfl, rfl⟩⟩))
    rw [lengths] at held
    cases held
  obtain ⟨r, inSet⟩ := List.exists_mem_of_ne_nil _ filled
  have plain := (setOf_separate key).plain r inSet
  obtain ⟨given, _, qualified, same⟩ := (holds_setOf key plain).mp ⟨r, inSet, rfl⟩
  obtain ⟨first, _, qualified', _, type⟩ := setOf_first used
  have sameType : first.type = given.type := congrArg (·.2.2.1) (qualified'.trans qualified.symm)
  have firstPlain : first.type ≠ RRSIG := fun isRrsig => plain (((type_eq same).symm.trans sameType.symm).trans isRrsig)
  refine firstPlain (((if_neg firstPlain).symm.trans type.symm).trans (Eq.trans ?_ (covering.2.trans isSignature)))
  rw [isThis]
  exact (countingSigner_successful.covered _ _ _ (signed.sign key)).symm

end Counting

/-- Whatever the signer, a zone is signed set by set exactly when no set is split by the text that it is grouped by. -/
theorem signRecords_whole_iff (ksk zsk : DnsSecKeyPair) (records : List Record) (valid : ∀ record ∈ records, record.name.Valid) :
    (∀ signer : RecordSigner, signer.Successful →
      ∃ result, signRecords signer records [ksk] [zsk] = some result ∧ SignedWhole signer ksk zsk records result) ↔ OneSetEach records := by
  constructor
  · intro whole
    obtain ⟨result, returned, signed⟩ := whole countingSigner countingSigner_successful
    cases records with
    | nil => cases returned
    | cons record others =>
      cases returned
      have unsigned := unsigned_of_signedWhole signed
      have alike := alike_withNsecRecords.mp
        (alike_of_signedWhole countingSigner_successful unsigned (valid_withNsecRecords valid) signed)
      exact ⟨List.cons_ne_nil _ _, fun record member => unsigned record (mem_withNsecRecords.mpr (Or.inl member)), alike.1, alike.2⟩
  · intro one signer successful
    refine ⟨signZone signer records [ksk] [zsk], ?_, ?_⟩
    · cases records with
      | nil => exact absurd rfl one.filled
      | cons record others => rfl
    · exact signedWhole_of_alike successful (unsigned_withNsecRecords one.unsigned) (valid_withNsecRecords valid)
        (alike_withNsecRecords.mpr ⟨one.alike, one.nsec⟩)

section Sample

def www : Name := ⟨[[0x77, 0x77, 0x77]]⟩

def sampleKey (octet : Byte) : DnsSecKeyPair := ⟨".", 60, 0, 0, 86400000, ⟨⟨[]⟩, DNSKEY, IN, 60, [.octets [1, octet]]⟩, [octet]⟩

-- Two addresses of one name with their own TTLs.
def addresses (ttl ttl' : Nat) : List Record := [⟨www, A, IN, ttl, [.octets [192, 0, 2, 1]]⟩, ⟨www, A, IN, ttl', [.octets [192, 0, 2, 2]]⟩]

theorem addresses_valid (ttl ttl' : Nat) : ∀ record ∈ addresses ttl ttl', record.name.Valid := by
  have name : www.Valid := by
    unfold www Name.Valid
    decide
  intro record member
  rcases List.mem_cons.mp member with rfl | member
  · exact name
  · rw [List.mem_singleton.mp member]
    exact name

end Sample

theorem signRecords_whole_iff_addresses :
    (∀ signer : RecordSigner, signer.Successful → ∃ result, signRecords signer (addresses 60 60) [sampleKey 1] [sampleKey 2] = some result ∧
      SignedWhole signer (sampleKey 1) (sampleKey 2) (addresses 60 60) result) ↔ OneSetEach (addresses 60 60) :=
  signRecords_whole_iff (sampleKey 1) (sampleKey 2) (addresses 60 60) (addresses_valid 60 60)

/-- With two TTLs the addresses get two signatures. -/
theorem signRecords_split : ¬∀ (ksk zsk : DnsSecKeyPair) (records : List Record) (signer : RecordSigner),
    (∀ record ∈ records, record.name.Valid) → signer.Successful →
    ∃ result, signRecords signer records [ksk] [zsk] = some result ∧ SignedWhole signer ksk zsk records result := by
  intro whole
  have valid := addresses_valid 30 60
  obtain ⟨_, returned, signed⟩ := whole (sampleKey 1) (sampleKey 2) (addresses 30 60) countingSigner valid countingSigner_successful
  cases returned
  have alike := alike_of_signedWhole countingSigner_successful (unsigned_of_signedWhole signed) (valid_withNsecRecords valid) signed
  have same := (alike_withNsecRecords.mp alike).1 _ List.mem_cons_self _ (List.mem_cons_of_mem _ List.mem_cons_self) rfl
  exact absurd (congrArg (·.2.2.2) same) (by decide)

end ZoneSignerImpl

end TrafficControl.TrafficRouter.Dns
