import TrafficControl.TrafficRouter.Dns.NameServer
import TrafficControl.TrafficRouter.Dns.NsecCover

set_option autoImplicit false

namespace TrafficControl.TrafficRouter.Dns

open NameServer Record RRset ZoneSignerImpl

/-- The records of a zone, with one SOA at the origin and all names under it. -/
structure ZoneRecords where
  origin : Name
  records : List Record
  soa : ∃ record, (records.filter fun record => record.type = SOA) = [record] ∧ record.name.equals origin = true
  under : ∀ record ∈ records, record.name.subdomain origin = true

/-- The sets of a zone that was loaded from a list: each record is in the one set of its name and type. -/
structure ZoneContents.Loaded (zone : ZoneContents) (origin : Name) (records : List Record) : Prop where
  atOrigin : zone.origin = origin
  ordered : zone.iterator.Pairwise fun a b => a.name.compareTo b.name ≤ 0
  apart : zone.iterator.Pairwise fun a b => ¬(a.name.equals b.name = true ∧ a.type = b.type)
  separate : ∀ rrset ∈ zone.iterator, rrset.Separate
  uniform : ∀ rrset ∈ zone.iterator, ∀ r ∈ rrset.rrs, r.name.equals rrset.name = true ∧ r.type = rrset.type
  holds : ∀ identity : List (List SignedBytes.Byte) × BitVec 16 × BitVec 16 × List SignedBytes.Byte, identity.2.1 ≠ RRSIG →
    ((∃ rrset ∈ zone.iterator, Holds rrset.rrs identity) ↔ Holds records identity)
  found : ∀ rrset ∈ zone.iterator, rrset.name.equals origin = true → zone.findRecords origin rrset.type = some [rrset]

section Denial

-- The nearest ancestor that has an owner at or under it.
def closestEncloser (records : List Record) : List (List SignedBytes.Byte) → Name
  | [] => ⟨[]⟩
  | _ :: labels => if records.any fun record => record.name.subdomain ⟨labels⟩ then ⟨labels⟩ else closestEncloser records labels

def wildcard (records : List Record) (qname : Name) : Name := ⟨[0x2a] :: (closestEncloser records qname.labels).labels⟩

/-- One of the NSEC records covers the name, and the section holds it once. -/
def DeniedOnce (signer : RecordSigner) (nsecRecords : List NSECRecord) (authority : List Record) (name : Name) : Prop :=
  ∃ nsec ∈ nsecRecords, nsec.Covers name ∧ authority.countP (·.equals (toRecord signer nsec)) = 1

/-- The NSEC records that the signer adds are one cycle, and those that deny a name and its wildcard are in the section. -/
structure CompleteDenial (signer : RecordSigner) (kskPairs zskPairs : List DnsSecKeyPair) (zone : ZoneRecords) (authority : List Record)
    (qname : Name) : Prop where
  added : ∀ identity : List (List SignedBytes.Byte) × BitVec 16 × BitVec 16 × List SignedBytes.Byte, identity.2.1 ≠ RRSIG →
    (Holds (signZone signer zone.records kskPairs zskPairs) identity ↔
      Holds (zone.records ++ (createNsecRecords zone.records).map (toRecord signer)) identity)
  chain : NsecChain zone.records (createNsecRecords zone.records)
  name : DeniedOnce signer (createNsecRecords zone.records) authority qname
  wildcard : DeniedOnce signer (createNsecRecords zone.records) authority (wildcard zone.records qname)

-- No owner lies strictly between two names.
def SameGap (records : List Record) (a b : Name) : Prop :=
  ∀ record ∈ records, ¬(a.compareTo record.name < 0 ∧ record.name.compareTo b < 0) ∧
    ¬(b.compareTo record.name < 0 ∧ record.name.compareTo a < 0)

/-- The questions that are answered with both proofs. -/
structure Deniable (zone : ZoneRecords) (qname : Name) (flags : BitVec 32) : Prop where
  asked : flags &&& FLAG_SIGONLY = 0 ∧ flags &&& FLAG_DNSSECOK ≠ 0
  free : ∀ record ∈ zone.records, record.name.equals (wildcard zone.records qname) = false
  apart : if zone.origin.isWild && !qname.isWild then SameGap zone.records qname (wildcard zone.records qname)
    else (∃ record ∈ zone.records, zone.origin.compareTo record.name < 0 ∧ record.name.compareTo qname < 0) ∧
      (SameGap zone.records qname (wildcard zone.records qname) ∨
        ∀ record ∈ zone.records, record.name.compareTo (wildcard zone.records qname) < 0 → record.name.equals zone.origin = true)

end Denial

section Encloser

variable {zone : ZoneRecords} {qname : Name}

theorem ZoneRecords.exists_origin (zone : ZoneRecords) : ∃ record ∈ zone.records, record.name.equals zone.origin = true := by
  obtain ⟨record, only, same⟩ := zone.soa
  have member : record ∈ zone.records.filter fun record => record.type = SOA := only ▸ List.mem_singleton_self record
  exact ⟨record, (List.mem_filter.mp member).1, same⟩

theorem closestEncloser_subdomain (zone : ZoneRecords) (labels : List (List SignedBytes.Byte))
    (below : (⟨labels⟩ : Name).subdomain zone.origin = true) (different : (⟨labels⟩ : Name).equals zone.origin = false) :
    (closestEncloser zone.records labels).subdomain zone.origin = true := by
  induction labels with
  | nil => exact below
  | cons label labels ih =>
    have parent : (⟨labels⟩ : Name).subdomain zone.origin = true := by
      rw [← Bool.not_eq_true, Name.equals_iff] at different
      rw [Name.subdomain_iff] at below ⊢
      rcases List.suffix_cons_iff.mp below with same | suffix
      · exact absurd same.symm different
      · exact suffix
    unfold closestEncloser
    split_ifs with encloses
    · exact parent
    · refine ih parent (Bool.eq_false_of_not_eq_true fun same => encloses ?_)
      obtain ⟨record, member, atOrigin⟩ := zone.exists_origin
      refine List.any_eq_true.mpr ⟨record, member, Name.subdomain_iff.mpr ?_⟩
      rw [Name.equals_iff.mp same, ← Name.equals_iff.mp atOrigin]

theorem origin_before (below : qname.subdomain zone.origin = true)
    (absent : ∀ record ∈ zone.records, record.name.equals qname = false) : zone.origin.compareTo qname < 0 := by
  refine Name.compareTo_of_below below (Bool.eq_false_of_not_eq_true fun same => ?_)
  obtain ⟨record, member, atOrigin⟩ := zone.exists_origin
  have owner : record.name.equals qname = true := Name.equals_iff.mpr ((Name.equals_iff.mp atOrigin).trans (Name.equals_iff.mp same).symm)
  exact Bool.false_ne_true ((absent record member).symm.trans owner)

theorem origin_before_wildcard (below : qname.subdomain zone.origin = true)
    (absent : ∀ record ∈ zone.records, record.name.equals qname = false) :
    zone.origin.compareTo (wildcard zone.records qname) < 0 := by
  have different : qname.equals zone.origin = false := Bool.eq_false_of_not_eq_true fun same => by
    have before := origin_before below absent
    rw [← Name.compareTo_congr_left same] at before
    exact Name.compareTo_irrefl _ before
  have encloser := closestEncloser_subdomain zone qname.labels below different
  refine Name.compareTo_of_subdomain (Name.subdomain_iff.mpr ((Name.subdomain_iff.mp encloser).trans (List.suffix_cons _ _))) ?_
  have lengths := (Name.subdomain_iff.mp encloser).length_le
  rw [Name.length_canonical, Name.length_canonical] at lengths
  exact Nat.lt_succ_of_le lengths

/-- The origin is the first owner. -/
theorem origin_first {record : Record} (member : record ∈ zone.records) :
    record.name.equals zone.origin = true ∨ zone.origin.compareTo record.name < 0 := by
  cases same : record.name.equals zone.origin with
  | true => exact Or.inl rfl
  | false => exact Or.inr (Name.compareTo_of_below (zone.under record member) same)

end Encloser

section Gaps

variable {zone : ZoneRecords} {nsecRecords : List NSECRecord} {nsec : NSECRecord} {qname w : Name}

/-- A record that covers a name covers the names of the same gap. -/
theorem covers_iff_sameGap (chain : NsecChain zone.records nsecRecords) (member : nsec ∈ nsecRecords) (covers : nsec.Covers qname)
    (free : ∀ record ∈ zone.records, record.name.equals w = false) : nsec.Covers w ↔ SameGap zone.records qname w := by
  obtain ⟨before, gap⟩ := (chain.covers_iff member).mp covers
  obtain ⟨owner, inRecords, atNsec⟩ := (chain.owners nsec.name).mp ⟨nsec, member, Name.equals_refl _⟩
  have apart : ∀ record ∈ zone.records, record.name.compareTo w < 0 ∨ w.compareTo record.name < 0 := fun record inZone => by
    rcases Name.compareTo_trichotomy record.name w with lower | same | higher
    · exact Or.inl lower
    · exact absurd same (by simp [free record inZone])
    · exact Or.inr higher
  rw [chain.covers_iff member]
  constructor
  · rintro ⟨before', gap'⟩ record inZone
    constructor
    · rintro ⟨after, lower⟩
      exact Name.compareTo_asymm lower (gap' record inZone (Name.compareTo_trans before after))
    · rintro ⟨after, lower⟩
      exact Name.compareTo_asymm lower (gap record inZone (Name.compareTo_trans before' after))
  · intro same
    constructor
    · rcases apart owner inRecords with lower | higher
      · rwa [← Name.compareTo_congr_left atNsec]
      · refine absurd ⟨higher, ?_⟩ (same owner inRecords).2
        rwa [Name.compareTo_congr_left atNsec]
    · intro record inZone after
      rcases apart record inZone with lower | higher
      · exact absurd ⟨gap record inZone after, lower⟩ (same record inZone).1
      · exact higher

/-- The record of the origin covers the names before the second owner. -/
theorem covers_iff_origin (chain : NsecChain zone.records nsecRecords) (member : nsec ∈ nsecRecords)
    (atOrigin : nsec.name.equals zone.origin = true) (after : zone.origin.compareTo w < 0)
    (free : ∀ record ∈ zone.records, record.name.equals w = false) :
    nsec.Covers w ↔ ∀ record ∈ zone.records, record.name.compareTo w < 0 → record.name.equals zone.origin = true := by
  rw [chain.covers_iff member]
  simp only [Name.compareTo_congr_left atOrigin]
  constructor
  · rintro ⟨_, gap⟩ record inZone lower
    rcases origin_first inZone with same | later
    · exact same
    · exact absurd lower (Name.compareTo_asymm (gap record inZone later))
  · intro only
    refine ⟨after, fun record inZone later => ?_⟩
    rcases Name.compareTo_trichotomy w record.name with before | same | lower
    · exact before
    · exact absurd (Name.equals_symm same) (by simp [free record inZone])
    · rw [Name.compareTo_congr_right (only record inZone lower)] at later
      exact absurd later (Name.compareTo_irrefl _)

theorem free_of_covers (chain : NsecChain zone.records nsecRecords) (member : nsec ∈ nsecRecords) (covers : nsec.Covers w) :
    ∀ record ∈ zone.records, record.name.equals w = false := by
  obtain ⟨before, gap⟩ := (chain.covers_iff member).mp covers
  refine fun record inZone => Bool.eq_false_of_not_eq_true fun same => ?_
  have later := gap record inZone (by rwa [Name.compareTo_congr_right same])
  rw [Name.compareTo_congr_right same] at later
  exact Name.compareTo_irrefl _ later

/-- The covering record is the one of the origin unless another owner comes before the name. -/
theorem covers_origin_iff (chain : NsecChain zone.records nsecRecords) (member : nsec ∈ nsecRecords) (covers : nsec.Covers qname) :
    nsec.name.equals zone.origin = false ↔
      ∃ record ∈ zone.records, zone.origin.compareTo record.name < 0 ∧ record.name.compareTo qname < 0 := by
  obtain ⟨before, gap⟩ := (chain.covers_iff member).mp covers
  obtain ⟨owner, inRecords, atNsec⟩ := (chain.owners nsec.name).mp ⟨nsec, member, Name.equals_refl _⟩
  constructor
  · intro other
    refine ⟨owner, inRecords, ?_, by rwa [Name.compareTo_congr_left atNsec]⟩
    refine (origin_first inRecords).resolve_left fun same => ?_
    rw [← Bool.not_eq_true, Name.equals_iff] at other
    exact other ((Name.equals_iff.mp atNsec).symm.trans (Name.equals_iff.mp same))
  · rintro ⟨record, inZone, later, lower⟩
    refine Bool.eq_false_of_not_eq_true fun same => ?_
    rw [← Name.compareTo_congr_left same] at later
    exact Name.compareTo_asymm lower (gap record inZone later)

end Gaps

section Counting

variable {zone : ZoneRecords} {contents : ZoneContents} {signer : RecordSigner} {kskPairs zskPairs : List DnsSecKeyPair}
  {nsec : NSECRecord} {rrset : RRset} {name : Name}

theorem toRecord_plain (signer : RecordSigner) (nsec : NSECRecord) : (toRecord signer nsec).type ≠ RRSIG :=
  (by decide : NSEC ≠ RRSIG)

/-- The names of a signed zone are those of its records. -/
theorem exists_owner {records : List Record} {identity : List (List SignedBytes.Byte) × BitVec 16 × BitVec 16 × List SignedBytes.Byte}
    (plain : identity.2.1 ≠ RRSIG) (holds : Holds (signZone signer records kskPairs zskPairs) identity) :
    ∃ record ∈ records, record.name.canonical = identity.1 := by
  obtain ⟨r, member, rfl⟩ := (signZone_holds signer kskPairs zskPairs records plain).mp holds
  rcases List.mem_append.mp member with old | added
  · exact ⟨r, old, rfl⟩
  · obtain ⟨nsec, inChain, rfl⟩ := List.mem_map.mp added
    obtain ⟨record, inRecords, same⟩ := ((createNsecRecords_chain records).owners nsec.name).mp ⟨nsec, inChain, Name.equals_refl _⟩
    exact ⟨record, inRecords, Name.equals_iff.mp same⟩

variable (loaded : contents.Loaded zone.origin (signZone signer zone.records kskPairs zskPairs))

include loaded

theorem exists_nsecSet (member : nsec ∈ createNsecRecords zone.records) :
    ∃ span ∈ contents.iterator, span.type = NSEC ∧ span.name.equals nsec.name = true ∧ Holds span.rrs (toRecord signer nsec).identity := by
  have inZone : Holds (signZone signer zone.records kskPairs zskPairs) (toRecord signer nsec).identity :=
    (signZone_holds signer kskPairs zskPairs zone.records (toRecord_plain signer nsec)).mpr
      ⟨_, List.mem_append_right _ (List.mem_map_of_mem member), rfl⟩
  obtain ⟨span, inIterator, r, inSet, same⟩ := (loaded.holds _ (toRecord_plain signer nsec)).mpr inZone
  obtain ⟨atName, ofType⟩ := loaded.uniform span inIterator r inSet
  refine ⟨span, inIterator, ofType.symm.trans (type_eq same), Name.equals_iff.mpr ?_, r, inSet, same⟩
  exact (Name.equals_iff.mp atName).symm.trans (congrArg (·.1) same)

theorem set_unique {other : RRset} (inIterator : rrset ∈ contents.iterator) (inIterator' : other ∈ contents.iterator)
    (sameName : rrset.name.equals other.name = true) (sameType : rrset.type = other.type) : rrset = other := by
  by_contra different
  have symmetric : Std.Symm fun a b : RRset => ¬(a.name.equals b.name = true ∧ a.type = b.type) :=
    ⟨fun _ _ apart same => apart ⟨Name.equals_symm same.1, same.2.symm⟩⟩
  exact loaded.apart.forall inIterator inIterator' different ⟨sameName, sameType⟩

theorem countP_nsecSet (member : nsec ∈ createNsecRecords zone.records) (inIterator : rrset ∈ contents.iterator) (ofType : rrset.type = NSEC) :
    rrset.rrs.countP (·.equals (toRecord signer nsec)) = if rrset.name.equals nsec.name then 1 else 0 := by
  split_ifs with same
  · obtain ⟨span, inIterator', ofType', atName, r, inSet, equal⟩ := exists_nsecSet loaded member
    have sameName : span.name.equals rrset.name = true :=
      Name.equals_iff.mpr ((Name.equals_iff.mp atName).trans (Name.equals_iff.mp same).symm)
    obtain rfl := set_unique loaded inIterator' inIterator sameName (ofType'.trans ofType.symm)
    have once := List.count_eq_one_of_mem (loaded.separate span inIterator').distinct (List.mem_map.mpr ⟨r, inSet, equal⟩)
    rwa [List.count, List.countP_map] at once
  · rw [List.countP_eq_zero]
    refine fun r inSet equal => same (Name.equals_iff.mpr ?_)
    exact (Name.equals_iff.mp (loaded.uniform rrset inIterator r inSet).1).symm.trans (congrArg (·.1) (beq_iff_eq.mp equal))

theorem expand_of_not_wild (inIterator : rrset ∈ contents.iterator) (tame : ¬(rrset.name.isWild && !name.isWild) = true) :
    rrset.rrs.map (expand name) = rrset.rrs := by
  refine (List.map_congr_left fun r inSet => ?_).trans (List.map_id _)
  unfold expand
  rw [Name.isWild_congr (loaded.uniform rrset inIterator r inSet).1, if_neg tame]
  rfl

theorem countP_expand (member : nsec ∈ createNsecRecords zone.records) (inIterator : rrset ∈ contents.iterator) (ofType : rrset.type = NSEC)
    (elsewhere : (rrset.name.isWild && !name.isWild) = true → name.equals nsec.name = false) :
    (rrset.rrs.map (expand name)).countP (·.equals (toRecord signer nsec)) =
      if rrset.name.equals nsec.name = true ∧ ¬(rrset.name.isWild && !name.isWild) = true then 1 else 0 := by
  by_cases wild : (rrset.name.isWild && !name.isWild) = true
  · rw [if_neg fun both => both.2 wild, List.countP_eq_zero]
    intro expanded inMap equal
    obtain ⟨r, inSet, rfl⟩ := List.mem_map.mp inMap
    have renamed : expand name r = r.withName name := by
      unfold expand
      rw [Name.isWild_congr (loaded.uniform rrset inIterator r inSet).1, if_pos wild]
    rw [renamed] at equal
    have same : name.equals nsec.name = true := Name.equals_iff.mpr (congrArg (·.1) (beq_iff_eq.mp equal))
    exact Bool.false_ne_true ((elsewhere wild).symm.trans same)
  · rw [expand_of_not_wild loaded inIterator wild, countP_nsecSet loaded member inIterator ofType]
    simp only [and_iff_left wild]

/-- The scan finds the NSEC set of the owner before the question. -/
theorem nsecSpan_covers {qname : Name} {before : NSECRecord} (member : before ∈ createNsecRecords zone.records) (covers : before.Covers qname) :
    ∃ span ∈ contents.iterator, span.type = NSEC ∧ span.name.equals before.name = true ∧
      ∃ r ∈ span.rrs, nsecSpan qname contents.iterator none = some (r.name, span) := by
  have chain := createNsecRecords_chain zone.records
  obtain ⟨span, inIterator, ofType, atName, held⟩ := exists_nsecSet loaded member
  obtain ⟨lower, gap⟩ := (chain.covers_iff member).mp covers
  obtain ⟨first, last, split⟩ := List.append_of_mem inIterator
  have order := loaded.ordered
  have apart := loaded.apart
  rw [split] at order apart
  have ofSpan : ∀ r ∈ span.rrs, r.name.compareTo qname < 0 := fun r inSet => by
    rw [Name.compareTo_congr_left (loaded.uniform span inIterator r inSet).1, Name.compareTo_congr_left atName]
    exact lower
  refine ⟨span, inIterator, ofType, atName, split ▸ nsecSpan_split ofType ?_ ofSpan ?_⟩
  · obtain ⟨r, inSet, _⟩ := held
    exact List.ne_nil_of_mem inSet
  · intro rrset later ofType' r inSet earlier
    have inIterator' : rrset ∈ contents.iterator := split ▸ List.mem_append_right _ (List.mem_cons_of_mem _ later)
    obtain ⟨atRrset, typed⟩ := loaded.uniform rrset inIterator' r inSet
    have plain : r.identity.2.1 ≠ RRSIG := fun signature => by
      have nsecType : NSEC = RRSIG := ofType'.symm.trans (typed.symm.trans signature)
      exact absurd nsecType (by decide)
    obtain ⟨record, inZone, owner⟩ := exists_owner plain ((loaded.holds _ plain).mp ⟨rrset, inIterator', r, inSet, rfl⟩)
    have sameOwner : record.name.equals r.name = true := Name.equals_iff.mpr owner
    have notAfter : ¬before.name.compareTo r.name < 0 := fun after => by
      rw [← Name.compareTo_congr_right sameOwner] at after
      have beyond := gap record inZone after
      rw [Name.compareTo_congr_right sameOwner] at beyond
      exact Name.compareTo_asymm earlier beyond
    have inOrder := (List.pairwise_cons.mp (List.pairwise_append.mp order).2.1).1 rrset later
    rw [Name.compareTo_congr_left atName, ← Name.compareTo_congr_right atRrset] at inOrder
    have same : before.name.equals r.name = true := Name.compareTo_zero.mp (by omega)
    refine (List.pairwise_cons.mp (List.pairwise_append.mp apart).2.1).1 rrset later ⟨Name.equals_iff.mpr ?_, ofType.trans ofType'.symm⟩
    rw [Name.equals_iff.mp atName, Name.equals_iff.mp same, Name.equals_iff.mp atRrset]

end Counting

section Answer

variable {zone : ZoneRecords} {contents : ZoneContents} {signer : RecordSigner} {kskPairs zskPairs : List DnsSecKeyPair}
  {response : Message} {qname : Name} {flags : BitVec 32}

theorem findRRset_fresh (fresh : ∀ s ≠ .question, ∀ r ∈ response.records s, r.type ≠ NSEC) (name : Name) :
    ∀ s ≠ .question, response.findRRset name NSEC s = false := by
  intro s answered
  unfold Message.findRRset
  rw [List.any_eq_false]
  intro r member both
  rw [Bool.and_eq_true, beq_iff_eq] at both
  exact fresh s answered r member both.1

/-- A set under another name does not keep the name from being added. -/
theorem findRRset_addRRset {shuffle : Shuffle Record} {name : Name} {rrset : RRset}
    (fresh : ∀ s ≠ .question, ∀ r ∈ response.records s, r.type ≠ NSEC) (ofType : rrset.type = NSEC) (separate : rrset.Separate)
    (expanded : rrset.rrs.map (expand name) = rrset.rrs) (elsewhere : ∀ r ∈ rrset.rrs, r.name.equals qname = false) :
    ∀ s ≠ .question, (addRRset shuffle name response rrset .authority flags).findRRset qname NSEC s = false := by
  obtain ⟨records, signatures, perm, fromSigs, result, others⟩ :=
    records_addRRset shuffle .authority flags (ofType ▸ findRRset_fresh fresh name)
  intro s answered
  unfold Message.findRRset
  rw [List.any_eq_false]
  intro r member both
  rw [Bool.and_eq_true, beq_iff_eq] at both
  by_cases inAuthority : s = .authority
  · rw [inAuthority, result, List.append_assoc, List.mem_append, List.mem_append] at member
    rcases member with old | added | signature
    · exact fresh .authority (by decide) r old both.1
    · have inList := perm.mem_iff.mp added
      split_ifs at inList
      · rw [expanded] at inList
        exact Bool.false_ne_true ((elsewhere r inList).symm.trans both.2)
      · exact List.not_mem_nil inList
    · obtain ⟨sig, inSigs, rfl⟩ := List.mem_map.mp (fromSigs r signature)
      rw [type_expand, separate.signatures sig inSigs] at both
      exact absurd both.1 (by decide)
  · rw [others s inAuthority] at member
    exact fresh s answered r member both.1

theorem asked_iff : (flags &&& FLAG_SIGONLY = 0 ∧ flags &&& FLAG_DNSSECOK ≠ 0) ↔
    ¬flags &&& (FLAG_SIGONLY ||| FLAG_DNSSECOK) = 0 ∧ flags &&& FLAG_SIGONLY = 0 := by
  rw [and_comm]
  refine and_congr_left fun unsigned => not_congr ?_
  rw [BitVec.and_or_distrib_left, unsigned]
  simp

/-- The NSEC records in the authority section: those of the owner before the question, and those of the origin. -/
theorem countP_addDenialOfExistence (loaded : contents.Loaded zone.origin (signZone signer zone.records kskPairs zskPairs))
    (spanShuffle answerShuffle : Shuffle Record) (fresh : ∀ s ≠ .question, ∀ r ∈ response.records s, r.type ≠ NSEC)
    (absent : ∀ record ∈ zone.records, record.name.equals qname = false) {before nsec : NSECRecord}
    (inChain : before ∈ createNsecRecords zone.records) (covers : before.Covers qname) (member : nsec ∈ createNsecRecords zone.records) :
    ((addDenialOfExistence spanShuffle answerShuffle qname contents response flags).records .authority).countP
        (·.equals (toRecord signer nsec)) =
      if flags &&& FLAG_SIGONLY = 0 ∧ flags &&& FLAG_DNSSECOK ≠ 0 then
        (if before.name.equals nsec.name then 1 else 0) +
          if zone.origin.equals nsec.name = true ∧ ¬(zone.origin.isWild && !qname.isWild) = true then 1 else 0
      else 0 := by
  have chain := createNsecRecords_chain zone.records
  have nothing : (response.records .authority).countP (·.equals (toRecord signer nsec)) = 0 := by
    rw [List.countP_eq_zero]
    exact fun r inResponse equal => fresh .authority (by decide) r inResponse (type_eq (beq_iff_eq.mp equal))
  -- No record of the chain has the name that was asked for.
  have notOwner : ∀ other ∈ createNsecRecords zone.records, qname.equals other.name = false := fun other inChain' => by
    obtain ⟨record, inZone, same⟩ := (chain.owners other.name).mp ⟨other, inChain', Name.equals_refl _⟩
    refine Bool.eq_false_of_not_eq_true fun equal => Bool.false_ne_true ((absent record inZone).symm.trans ?_)
    exact Name.equals_iff.mpr ((Name.equals_iff.mp same).trans (Name.equals_iff.mp equal).symm)
  rw [if_congr asked_iff rfl rfl]
  unfold addDenialOfExistence
  by_cases unasked : flags &&& (FLAG_SIGONLY ||| FLAG_DNSSECOK) = 0
  · rw [if_pos unasked, if_neg fun both => both.1 unasked]
    exact nothing
  obtain ⟨span, inIterator, ofType, atName, r, inSet, found⟩ := nsecSpan_covers loaded inChain covers
  obtain ⟨record, inZone, atOrigin⟩ := zone.exists_origin
  obtain ⟨first, inChain', same⟩ := (chain.owners record.name).mpr ⟨record, inZone, Name.equals_refl _⟩
  obtain ⟨originSet, inIterator', ofType', atName', _⟩ := exists_nsecSet loaded inChain'
  have originName : originSet.name.equals zone.origin = true := by
    rw [Name.equals_congr_left atName', Name.equals_congr_left same]
    exact atOrigin
  have tame : ¬(span.name.isWild && !r.name.isWild) = true := by
    rw [Name.isWild_congr (loaded.uniform span inIterator r inSet).1]
    simp
  have elsewhere : ∀ r ∈ span.rrs, r.name.equals qname = false := fun r inSet => by
    rw [Name.equals_congr_left (loaded.uniform span inIterator r inSet).1, Name.equals_congr_left atName]
    exact Bool.eq_false_of_not_eq_true fun equal =>
      Bool.false_ne_true ((notOwner before inChain).symm.trans (Name.equals_symm equal))
  have fresh' : ∀ s ≠ .question, response.findRRset r.name span.type s = false := ofType ▸ findRRset_fresh fresh r.name
  have fresh'' : ∀ s ≠ .question,
      (addRRset spanShuffle r.name response span .authority flags).findRRset qname originSet.type s = false :=
    ofType' ▸ findRRset_addRRset fresh ofType (loaded.separate span inIterator) (expand_of_not_wild loaded inIterator tame) elsewhere
  have answers : contents.findRecords contents.origin NSEC = some [originSet] := by
    rw [loaded.atOrigin, ← ofType']
    exact loaded.found originSet inIterator' originName
  rw [if_neg unasked, if_congr (and_iff_right unasked) rfl rfl, found, answers]
  dsimp only [Option.elim, List.foldl]
  rw [countP_addRRset answerShuffle .authority flags fresh'' (loaded.separate originSet inIterator') (toRecord_plain signer nsec),
    countP_addRRset spanShuffle .authority flags fresh' (loaded.separate span inIterator) (toRecord_plain signer nsec), nothing, Nat.zero_add,
    countP_expand loaded member inIterator ofType fun wild => absurd wild tame,
    countP_expand loaded member inIterator' ofType' fun _ => notOwner nsec member]
  simp only [Name.equals_congr_left atName, Name.equals_congr_left originName, Name.isWild_congr originName, and_iff_left tame]
  split_ifs <;> rfl

-- How often the section holds a record of the chain when both sets are added.
def added (zone : ZoneRecords) (qname : Name) (before nsec : NSECRecord) : Nat :=
  (if before.name.equals nsec.name then 1 else 0) +
    if zone.origin.equals nsec.name = true ∧ ¬(zone.origin.isWild && !qname.isWild) = true then 1 else 0

/-- The set of the owner before the question is added once unless it is that of the origin. -/
theorem added_before_iff {before nsec : NSECRecord} (same : before.name.equals nsec.name = true) :
    added zone qname before nsec = 1 ↔ (zone.origin.isWild && !qname.isWild) = true ∨ before.name.equals zone.origin = false := by
  unfold added
  rw [if_pos same, ← Bool.not_eq_true (before.name.equals zone.origin), Name.equals_congr_left same]
  split_ifs with both
  · refine iff_of_false (by decide) fun once => ?_
    rcases once with wild | elsewhere
    · exact both.2 wild
    · exact elsewhere (Name.equals_symm both.1)
  · refine iff_of_true rfl ?_
    by_cases wild : (zone.origin.isWild && !qname.isWild) = true
    · exact Or.inl wild
    · exact Or.inr fun origin => both ⟨Name.equals_symm origin, wild⟩

/-- Another set is added once when it is that of the origin. -/
theorem added_other_iff {before nsec : NSECRecord} (different : ¬before.name.equals nsec.name = true) :
    added zone qname before nsec = 1 ↔ zone.origin.equals nsec.name = true ∧ ¬(zone.origin.isWild && !qname.isWild) = true := by
  unfold added
  rw [if_neg different, Nat.zero_add]
  split_ifs with both
  · exact iff_of_true rfl both
  · exact iff_of_false (by decide) both

/-- Both proofs are there once exactly when the names lie so. -/
theorem exists_added_iff {before : NSECRecord} (below : qname.subdomain zone.origin = true)
    (absent : ∀ record ∈ zone.records, record.name.equals qname = false) (inChain : before ∈ createNsecRecords zone.records)
    (covers : before.Covers qname) :
    ((∃ nsec ∈ createNsecRecords zone.records, nsec.Covers qname ∧ added zone qname before nsec = 1) ∧
      ∃ nsec ∈ createNsecRecords zone.records, nsec.Covers (wildcard zone.records qname) ∧ added zone qname before nsec = 1) ↔
    (∀ record ∈ zone.records, record.name.equals (wildcard zone.records qname) = false) ∧
      if zone.origin.isWild && !qname.isWild then SameGap zone.records qname (wildcard zone.records qname)
      else (∃ record ∈ zone.records, zone.origin.compareTo record.name < 0 ∧ record.name.compareTo qname < 0) ∧
        (SameGap zone.records qname (wildcard zone.records qname) ∨
          ∀ record ∈ zone.records, record.name.compareTo (wildcard zone.records qname) < 0 → record.name.equals zone.origin = true) := by
  have chain := createNsecRecords_chain zone.records
  have afterOrigin := origin_before_wildcard below absent
  constructor
  · rintro ⟨⟨nsec, member, covers₁, once₁⟩, nsec', member', covers₂, once₂⟩
    have free := free_of_covers chain member' covers₂
    rw [added_before_iff (chain.covers_unique inChain member covers covers₁), covers_origin_iff chain inChain covers] at once₁
    refine ⟨free, ?_⟩
    by_cases same : before.name.equals nsec'.name = true
    · have inGap : SameGap zone.records qname (wildcard zone.records qname) :=
        (covers_iff_sameGap chain inChain covers free).mp ((chain.covers_congr inChain member' same).mpr covers₂)
      split_ifs with wild
      · exact inGap
      · exact ⟨once₁.resolve_left wild, Or.inl inGap⟩
    · obtain ⟨origin, tame⟩ := (added_other_iff same).mp once₂
      rw [if_neg tame]
      exact ⟨once₁.resolve_left tame, Or.inr ((covers_iff_origin chain member' (Name.equals_symm origin) afterOrigin free).mp covers₂)⟩
  · rintro ⟨free, apart⟩
    have once : added zone qname before before = 1 := by
      rw [added_before_iff (Name.equals_refl _), covers_origin_iff chain inChain covers]
      split_ifs at apart with wild
      · exact Or.inl wild
      · exact Or.inr apart.1
    have inGap := (covers_iff_sameGap chain inChain covers free).mpr
    refine ⟨⟨before, inChain, covers, once⟩, ?_⟩
    split_ifs at apart with wild
    · exact ⟨before, inChain, inGap apart, once⟩
    rcases apart.2 with gap | only
    · exact ⟨before, inChain, inGap gap, once⟩
    obtain ⟨record, inZone, atOrigin⟩ := zone.exists_origin
    obtain ⟨first, inChain', same⟩ := (chain.owners zone.origin).mpr ⟨record, inZone, atOrigin⟩
    refine ⟨first, inChain', (covers_iff_origin chain inChain' same afterOrigin free).mpr only, ?_⟩
    have elsewhere := (covers_origin_iff chain inChain covers).mpr apart.1
    have different : ¬before.name.equals first.name = true := fun equal => by
      refine Bool.false_ne_true (elsewhere.symm.trans (Name.equals_iff.mpr ?_))
      exact (Name.equals_iff.mp equal).trans (Name.equals_iff.mp same)
    exact (added_other_iff different).mpr ⟨Name.equals_symm same, wild⟩

/-- A question below the origin that no owner has is answered with both proofs exactly when it is deniable. -/
theorem addDenialOfExistence_complete_iff (loaded : contents.Loaded zone.origin (signZone signer zone.records kskPairs zskPairs))
    (spanShuffle answerShuffle : Shuffle Record) (flags : BitVec 32)
    (fresh : ∀ s ≠ .question, ∀ r ∈ response.records s, r.type ≠ NSEC) (below : qname.subdomain zone.origin = true)
    (absent : ∀ record ∈ zone.records, record.name.equals qname = false) :
    CompleteDenial signer kskPairs zskPairs zone
        ((addDenialOfExistence spanShuffle answerShuffle qname contents response flags).records .authority) qname ↔
      Deniable zone qname flags := by
  have chain := createNsecRecords_chain zone.records
  obtain ⟨record, inZone, atOrigin⟩ := zone.exists_origin
  obtain ⟨first, inChain', same⟩ := (chain.owners zone.origin).mpr ⟨record, inZone, atOrigin⟩
  have lower : first.name.compareTo qname < 0 := by
    rw [Name.compareTo_congr_left same]
    exact origin_before below absent
  obtain ⟨before, inChain, covers⟩ := chain.exists_covers ⟨first, inChain', lower⟩ absent
  have count := fun {nsec : NSECRecord} (member : nsec ∈ createNsecRecords zone.records) =>
    @countP_addDenialOfExistence _ _ _ _ _ _ _ flags loaded spanShuffle answerShuffle fresh absent before nsec inChain covers member
  have names := exists_added_iff below absent inChain covers
  constructor
  · rintro ⟨_, _, ⟨nsec, member, covers₁, once₁⟩, nsec', member', covers₂, once₂⟩
    rw [count member] at once₁
    rw [count member'] at once₂
    by_cases asked : flags &&& FLAG_SIGONLY = 0 ∧ flags &&& FLAG_DNSSECOK ≠ 0
    · rw [if_pos asked] at once₁ once₂
      obtain ⟨free, apart⟩ := names.mp ⟨⟨nsec, member, covers₁, once₁⟩, nsec', member', covers₂, once₂⟩
      exact ⟨asked, free, apart⟩
    · rw [if_neg asked] at once₁
      exact absurd once₁ (by decide)
  · rintro ⟨asked, free, apart⟩
    obtain ⟨⟨nsec, member, covers₁, once₁⟩, nsec', member', covers₂, once₂⟩ := names.mpr ⟨free, apart⟩
    refine ⟨fun identity plain => signZone_holds signer kskPairs zskPairs zone.records plain, chain,
      ⟨nsec, member, covers₁, ?_⟩, nsec', member', covers₂, ?_⟩
    · rw [count member, if_pos asked]
      exact once₁
    · rw [count member', if_pos asked]
      exact once₂

end Answer

section Samples

-- The bitmap of the types below 256.
def windowBitmap (types : List (BitVec 16)) : List SignedBytes.Byte :=
  let length := (types.map BitVec.toNat).foldl max 0 / 8 + 1
  0 :: BitVec.ofNat 8 length :: (List.range length).map fun i =>
    (List.range 8).foldl (fun octet bit => 2 * octet + if types.contains (BitVec.ofNat 16 (8 * i + bit)) then 1 else 0) 0

def bitmapSigner : RecordSigner where
  sign _ _ := none
  sign_type := nofun
  typeBitmap := windowBitmap

-- The names e and b.e.
def sampleOrigin : Name := ⟨[[0x65]]⟩
def sampleHost : Name := ⟨[[0x62], [0x65]]⟩
def sampleSoa : Record := ⟨sampleOrigin, SOA, IN, 60, [.name sampleHost, .name sampleOrigin, .octets (List.replicate 20 0)]⟩
def sampleAddress : Record := ⟨sampleHost, A, IN, 60, [.octets [10, 0, 0, 1]]⟩
def originNsec : Record := toRecord bitmapSigner ⟨sampleOrigin, 0, sampleHost, [SOA, NSEC, RRSIG]⟩
def hostNsec : Record := toRecord bitmapSigner ⟨sampleHost, 0, sampleOrigin, [A, NSEC, RRSIG]⟩

def sampleZone : ZoneRecords where
  origin := sampleOrigin
  records := [sampleSoa, sampleAddress]
  soa := ⟨sampleSoa, rfl, rfl⟩
  under := by
    intro record member
    rcases List.mem_cons.mp member with rfl | member
    · rfl
    · rw [List.mem_singleton.mp member]
      rfl

def sampleSets : List RRset :=
  [⟨sampleOrigin, IN, SOA, [sampleSoa], []⟩, ⟨sampleOrigin, IN, NSEC, [originNsec], []⟩,
    ⟨sampleHost, IN, A, [sampleAddress], []⟩, ⟨sampleHost, IN, NSEC, [hostNsec], []⟩]

def sampleContents : ZoneContents where
  origin := sampleOrigin
  iterator := sampleSets
  findRecords name type := (sampleSets.find? fun rrset => rrset.name.equals name && rrset.type == type).map fun rrset => [rrset]

def inOrder : Shuffle Record := ⟨fun records => records, fun _ => List.Perm.refl _⟩

def noRecords : Message := ⟨fun _ => []⟩

theorem sampleContents_loaded : sampleContents.Loaded sampleZone.origin (signZone bitmapSigner sampleZone.records [] []) := by
  refine ⟨rfl, by decide, by decide, fun rrset member => ?_, by decide, fun identity plain => ?_, by decide⟩
  · have plain : ∀ rrset ∈ sampleSets, (∀ r ∈ rrset.rrs, r.type ≠ RRSIG) ∧ rrset.sigs = [] ∧ (rrset.rrs.map Record.identity).Nodup := by
      decide
    obtain ⟨types, unsigned, distinct⟩ := plain rrset member
    exact ⟨types, fun r inSigs => absurd (unsigned ▸ inSigs) List.not_mem_nil, distinct⟩
  · have sets : sampleSets.flatMap (·.rrs) = [sampleSoa, originNsec, sampleAddress, hostNsec] := rfl
    have whole : withNsecRecords bitmapSigner sampleZone.records = [sampleSoa, sampleAddress, originNsec, hostNsec] := by decide
    have perm : [sampleSoa, originNsec, sampleAddress, hostNsec].Perm [sampleSoa, sampleAddress, originNsec, hostNsec] :=
      (List.Perm.swap _ _ _).cons _
    rw [signZone_holds bitmapSigner [] [] sampleZone.records plain, whole, ← holds_perm perm, ← sets]
    simp only [Holds, List.mem_flatMap]
    constructor
    · rintro ⟨rrset, member, r, inSet, same⟩
      exact ⟨r, ⟨rrset, member, inSet⟩, same⟩
    · rintro ⟨r, ⟨rrset, member, inSet⟩, same⟩
      exact ⟨rrset, member, r, inSet, same⟩

theorem sampleZone_deniable : Deniable sampleZone ⟨[[0x63], [0x65]]⟩ FLAG_DNSSECOK := by
  refine ⟨by decide, by decide, ?_⟩
  rw [if_neg (by decide)]
  exact ⟨by decide, Or.inr (by decide)⟩

theorem addDenialOfExistence_complete_after :
    CompleteDenial bitmapSigner [] [] sampleZone
      ((addDenialOfExistence inOrder inOrder ⟨[[0x63], [0x65]]⟩ sampleContents noRecords FLAG_DNSSECOK).records .authority)
      ⟨[[0x63], [0x65]]⟩ :=
  (addDenialOfExistence_complete_iff sampleContents_loaded inOrder inOrder FLAG_DNSSECOK (fun _ _ _ none => absurd none List.not_mem_nil)
    rfl (by decide)).mpr sampleZone_deniable

/-- The record of the origin denies a name right after it, and is added a second time under the name. -/
theorem addDenialOfExistence_twice :
    sampleContents.Loaded sampleZone.origin (signZone bitmapSigner sampleZone.records [] []) ∧
      (⟨[[0x61], [0x65]]⟩ : Name).subdomain sampleZone.origin = true ∧
      (∀ record ∈ sampleZone.records, record.name.equals ⟨[[0x61], [0x65]]⟩ = false) ∧
      (addDenialOfExistence inOrder inOrder ⟨[[0x61], [0x65]]⟩ sampleContents noRecords FLAG_DNSSECOK).records .authority =
        [originNsec, originNsec] ∧
      ¬CompleteDenial bitmapSigner [] [] sampleZone
        ((addDenialOfExistence inOrder inOrder ⟨[[0x61], [0x65]]⟩ sampleContents noRecords FLAG_DNSSECOK).records .authority)
        ⟨[[0x61], [0x65]]⟩ := by
  have twice : (addDenialOfExistence inOrder inOrder ⟨[[0x61], [0x65]]⟩ sampleContents noRecords FLAG_DNSSECOK).records .authority =
      [originNsec, originNsec] := by decide
  refine ⟨sampleContents_loaded, rfl, by decide, twice, fun complete => ?_⟩
  have denied := complete.name
  rw [twice] at denied
  exact absurd denied (by unfold DeniedOnce; decide)

end Samples

end TrafficControl.TrafficRouter.Dns
