import TrafficControl.TrafficRouter.Dns.AnswerEndings

set_option autoImplicit false

namespace TrafficControl.TrafficRouter.Dns

open Record SignedBytes ZoneSignerImpl

namespace NameServer

/-- The sets of the name that the aliases end at. -/
def Ending.sets : Ending → List (Name × RRset)
  | data _ name answers => answers.map fun rrset => (name, rrset)
  | _ => []

/-- The zone of a negative answer. -/
def Ending.negative : Ending → Option ServedZone
  | nxdomain zone _ => some zone
  | nxrrset zone _ => some zone
  | _ => none

/-- The NSEC sets before the name are those of the origin, with signatures where only these are asked for. -/
def DeniedByOrigin (zone : ServedZone) (name : Name) (signaturesOnly : Prop) : Prop :=
  ∃ span ∈ zone.iterator, span.type = NSEC ∧ span.name.compareTo name < 0 ∧ (signaturesOnly → span.sigs ≠ []) ∧
    ∀ rrset ∈ zone.iterator, rrset.type = NSEC → rrset.name.compareTo name < 0 → rrset.name.equals zone.origin = true

/-- The TTL that RFC 2308 asks for, of SOA records that are not signed or not asked for with their signatures. -/
def NegativeTTL (flags : BitVec 32) (zone : ServedZone) (message : Message) : Prop :=
  ∀ rrset soa, zone.findRecords zone.origin SOA = .successful [rrset] → rrset.rrs = [soa] →
    (rrset.sigs = [] ∨ flags &&& (FLAG_SIGONLY ||| FLAG_DNSSECOK) = 0) →
      ∀ record ∈ message.records .authority, record.type = SOA → record.ttl = min soa.ttl (getMinimum soa)

def LowMinimum (flags : BitVec 32) (zone : ServedZone) : Prop :=
  ∀ rrset soa, zone.findRecords zone.origin SOA = .successful [rrset] → rrset.rrs = [soa] →
    (rrset.sigs = [] ∨ flags &&& (FLAG_SIGONLY ||| FLAG_DNSSECOK) = 0) → flags &&& FLAG_SIGONLY = 0 → getMinimum soa ≤ soa.ttl

/-- The questions that are answered in full: a negative answer has a minimum that is not the larger, and no set is added under two names. -/
def Ending.Sound (flags : BitVec 32) : Ending → Prop
  | data zone name answers => flags &&& FLAG_SIGONLY ≠ 0 → name.equals zone.origin = true → (∃ rrset ∈ answers, rrset.type = NS) → zone.getNS.sigs = []
  | nxdomain zone name => (flags &&& (FLAG_SIGONLY ||| FLAG_DNSSECOK) ≠ 0 → ¬DeniedByOrigin zone name (flags &&& FLAG_SIGONLY ≠ 0)) ∧
      LowMinimum flags zone
  | nxrrset zone _ => LowMinimum flags zone
  | _ => True

section Blocks

variable {shuffle : Name → BitVec 16 → Shuffle Record} {flags : BitVec 32}

theorem signed_of_only (only : flags &&& FLAG_SIGONLY ≠ 0) : flags &&& (FLAG_SIGONLY ||| FLAG_DNSSECOK) ≠ 0 := by
  rw [BitVec.and_or_distrib_left]
  exact fun none => only (BitVec.or_eq_zero_iff.mp none).1

theorem expand_ttl (name : Name) (r : Record) : (expand name r).ttl = r.ttl := by
  unfold expand
  split_ifs <;> rfl

theorem expand_own {name origin : Name} {r : Record} (own : r.name.equals origin = true) (notWild : origin.isWild = false) : expand name r = r := by
  unfold expand
  rw [Name.isWild_congr own, notWild]
  rfl

theorem block_unsigned {entry : Entry} (only : flags &&& FLAG_SIGONLY ≠ 0) (unsigned : entry.rrset.sigs = []) : entry.block shuffle flags = [] := by
  refine List.eq_nil_iff_forall_not_mem.mpr fun record member => ?_
  rcases mem_block.mp member with ⟨plain, _⟩ | ⟨_, s, inSigs, _⟩
  · exact only plain
  · rw [unsigned] at inSigs
    cases inSigs

/-- One set under two names is there twice, unless its own name is a wildcard. -/
theorem not_apart {a b : Entry} {origin : Name} (lawful : a.rrset.Lawful) (same : b.rrset = a.rrset) (own : a.rrset.name.equals origin = true)
    (notWild : origin.isWild = false) (some_ : a.block shuffle flags ≠ []) : ¬Apart shuffle flags a b := by
  intro apart
  obtain ⟨record, member⟩ := List.exists_mem_of_ne_nil _ some_
  have toOrigin {r : Record} (atSet : r.name.equals a.rrset.name = true) : r.name.equals origin = true :=
    Name.equals_iff.mpr ((Name.equals_iff.mp atSet).trans (Name.equals_iff.mp own))
  refine apart record member record ?_ rfl
  refine mem_block.mpr ((mem_block.mp member).imp ?_ ?_)
  · rintro ⟨plain, r, inSet, rfl⟩
    have atOrigin := toOrigin (lawful.records r inSet).2.2
    exact ⟨plain, r, same ▸ inSet, (expand_own atOrigin notWild).trans (expand_own atOrigin notWild).symm⟩
  · rintro ⟨signed, s, inSigs, rfl⟩
    have atOrigin := toOrigin (lawful.signatures s inSigs).2.2
    exact ⟨signed, s, same ▸ inSigs, (expand_own atOrigin notWild).trans (expand_own atOrigin notWild).symm⟩

/-- Without its signatures a block is its records. -/
theorem filter_block {entry : Entry} (lawful : entry.Lawful) :
    ((entry.block shuffle flags).filter fun record => record.type ≠ RRSIG).Perm
      (if flags &&& FLAG_SIGONLY = 0 then entry.rrset.rrs.map (expand entry.name) else []) := by
  unfold Entry.block
  rw [List.filter_append]
  have signatures : (if flags &&& (FLAG_SIGONLY ||| FLAG_DNSSECOK) ≠ 0 then entry.rrset.sigs.map (expand entry.name) else []).filter
      (fun record => record.type ≠ RRSIG) = [] := by
    refine List.filter_eq_nil_iff.mpr fun record member => ?_
    rw [List.mem_ite_nil_right] at member
    obtain ⟨s, inSigs, rfl⟩ := List.mem_map.mp member.2
    rw [type_expand, lawful.rrset.separate.signatures s inSigs]
    simp
  rw [signatures, List.append_nil, List.filter_eq_self.mpr]
  · exact (shuffle entry.name entry.rrset.type).perm _
  · intro record member
    rw [((shuffle entry.name entry.rrset.type).perm _).mem_iff, List.mem_ite_nil_right] at member
    obtain ⟨r, inSet, rfl⟩ := List.mem_map.mp member.2
    rw [type_expand]
    exact decide_eq_true (lawful.rrset.separate.plain r inSet)

end Blocks

section Aliases

variable {shuffle : Name → BitVec 16 → Shuffle Record} {flags : BitVec 32} {aliases : List (Name × RRset)} {message : Message}

/-- The answer section after the aliases: each alias once. -/
structure Aliased (shuffle : Name → BitVec 16 → Shuffle Record) (flags : BitVec 32) (aliases : List (Name × RRset)) (message : Message) : Prop where
  logged : Logged shuffle flags (aliases.map aliasEntry) message
  isAlias : ∀ step ∈ aliases, IsAlias step
  apart : aliases.Pairwise fun a b => a.1.canonical ≠ b.1.canonical

theorem Aliased.lawful (aliased : Aliased shuffle flags aliases message) : ∀ entry ∈ aliases.map aliasEntry, entry.Lawful :=
  aliasEntry_lawful aliased.isAlias

theorem Aliased.type (aliased : Aliased shuffle flags aliases message) {entry : Entry} (member : entry ∈ aliases.map aliasEntry) :
    entry.rrset.type = CNAME := by
  obtain ⟨step, inAliases, rfl⟩ := List.mem_map.mp member
  exact (aliased.isAlias step inAliases).type

theorem Aliased.keys (aliased : Aliased shuffle flags aliases message) : (aliases.map aliasEntry).Pairwise (Apart shuffle flags) := by
  refine List.pairwise_map.mpr (aliased.apart.imp_of_mem fun {a b} inFirst inSecond different => ?_)
  exact apart_of_key (aliased.lawful _ (List.mem_map_of_mem inFirst)) (aliased.lawful _ (List.mem_map_of_mem inSecond)) fun key => by
    rw [(aliased.isAlias a inFirst).key, (aliased.isAlias b inSecond).key] at key
    exact absurd (congrArg (·.1) key) different

/-- All that follows the sets of the answer section is in the authority section. -/
theorem Logged.answers {sets : List (Name × RRset)} {rest : List Entry} (logged : Logged shuffle flags (sets.map aliasEntry ++ rest) message)
    (authority : ∀ entry ∈ rest, entry.inSection = .authority) :
    message.records .answer = (sets.map aliasEntry).flatMap (Entry.block shuffle flags) := by
  rw [logged .answer, List.filter_append, List.filter_eq_self.mpr, List.filter_eq_nil_iff.mpr, List.append_nil]
  · intro entry member
    rw [authority entry member]
    simp
  · intro entry member
    obtain ⟨step, _, rfl⟩ := List.mem_map.mp member
    rfl

theorem Aliased.finished (aliased : Aliased shuffle flags aliases message) :
    message.records .answer = (aliases.map aliasEntry).flatMap (Entry.block shuffle flags) ∧ ((contents message).map Record.identity).Nodup := by
  refine ⟨@Logged.answers shuffle flags message aliases [] ?_ fun _ absent => absurd absent List.not_mem_nil, ?_⟩
  · rw [List.append_nil]
    exact aliased.logged
  · exact (nodup_contents_iff aliased.logged aliased.lawful).mpr aliased.keys

end Aliases

section Data

variable {shuffle : Name → BitVec 16 → Shuffle Record} {flags : BitVec 32} {aliases : List (Name × RRset)} {message : Message} {zone : ServedZone}
  {qname : Name} {qtype : BitVec 16} {answers : List RRset}

/-- Sets are found under the origin's name only where the origin is asked for. -/
theorem data_key (lawful : zone.Lawful) (found : zone.findRecords qname qtype = .successful answers) {rrset : RRset} (member : rrset ∈ answers) :
    Entry.key ⟨.answer, qname, rrset⟩ = (zone.getNS.name.canonical, NS) ↔ rrset.type = NS ∧ qname.equals zone.origin = true := by
  obtain ⟨_, _, name⟩ := ((lawful.answers qname qtype answers found).2 rrset member)
  obtain ⟨_, _, atOrigin⟩ := lawful.getNS
  unfold Entry.key
  rw [Prod.mk.injEq, Name.equals_iff.mp atOrigin, and_comm]
  refine and_congr_right fun _ => ?_
  rcases name with same | ⟨wild, different⟩
  · rw [owner_canonical same, Name.equals_iff]
  · refine iff_of_false (fun owner => ?_) different
    unfold Entry.owner at owner
    dsimp only at owner
    split_ifs at owner
    · exact different (Name.equals_iff.mpr owner)
    · have originWild := (Name.isWild_congr (Name.equals_iff.mpr owner)).symm.trans wild
      exact Bool.false_ne_true (lawful.origin.symm.trans originWild)

/-- The name servers are there twice only as signatures of data of the origin. -/
theorem data_finished (lawful : zone.Lawful) (found : zone.findRecords qname qtype = .successful answers)
    (aliased : Aliased shuffle flags aliases message) (unlike : aliases ≠ [] → qtype ≠ CNAME ∧ qtype ≠ ANY) :
    ((Ending.data zone qname answers).finish shuffle flags message).records .answer =
        ((aliases ++ (Ending.data zone qname answers).sets).map aliasEntry).flatMap (Entry.block shuffle flags) ∧
      (((contents ((Ending.data zone qname answers).finish shuffle flags message)).map Record.identity).Nodup ↔
        (flags &&& FLAG_SIGONLY ≠ 0 → qname.equals zone.origin = true → (∃ rrset ∈ answers, rrset.type = NS) → zone.getNS.sigs = [])) := by
  obtain ⟨types, each⟩ := lawful.answers qname qtype answers found
  obtain ⟨nsLawful, isNs, atOrigin⟩ := lawful.getNS
  have entries : ((aliases ++ (Ending.data zone qname answers).sets).map aliasEntry) =
      aliases.map aliasEntry ++ answers.map fun rrset => ⟨.answer, qname, rrset⟩ := by
    rw [List.map_append]
    unfold Ending.sets
    rw [List.map_map]
    rfl
  have notAlias : ∀ entry ∈ aliases.map aliasEntry, entry.rrset.type = CNAME ∧ qtype ≠ CNAME ∧ qtype ≠ ANY := fun entry member =>
    ⟨aliased.type member, unlike fun none => by rw [none] at member; cases member⟩
  have foundLawful : ∀ entry ∈ answers.map fun rrset => (⟨.answer, qname, rrset⟩ : Entry), entry.Lawful :=
    List.forall_mem_map.mpr fun rrset member => ⟨(each rrset member).1, fun isQuestion => by cases isQuestion⟩
  have lawfuls := lawful_append aliased.lawful foundLawful
  have nsEntry : Entry.Lawful ⟨.authority, zone.getNS.name, zone.getNS⟩ := ⟨nsLawful, fun isQuestion => by cases isQuestion⟩
  have apart : (aliases.map aliasEntry ++ answers.map fun rrset => (⟨.answer, qname, rrset⟩ : Entry)).Pairwise (Apart shuffle flags) := by
    refine List.pairwise_append.mpr ⟨aliased.keys, ?_, fun a inAliases b inFound => ?_⟩
    · refine List.pairwise_map.mpr (types.imp_of_mem fun {a b} inFirst inSecond different => ?_)
      exact apart_of_key (foundLawful _ (List.mem_map_of_mem inFirst)) (foundLawful _ (List.mem_map_of_mem inSecond)) fun key =>
        absurd (congrArg (·.2) key) different
    · obtain ⟨isAlias, notCname, notAny⟩ := notAlias a inAliases
      refine apart_of_key (aliased.lawful a inAliases) (foundLawful b inFound) fun key => ?_
      obtain ⟨rrset, member, rfl⟩ := List.mem_map.mp inFound
      exact absurd (((each rrset member).2.1 notAny).symm.trans ((congrArg (·.2) key).symm.trans isAlias)) notCname
  rcases data_logged lawful found aliased.logged aliased.lawful notAlias with ⟨plain, _, logged⟩ | ⟨fresh, logged⟩
  · refine ⟨?_, iff_of_true ((nodup_contents_iff logged lawfuls).mpr apart) fun signatures => absurd plain signatures⟩
    rw [entries]
    rw [← entries] at logged
    exact entries ▸ Logged.answers (by simpa using logged) fun _ absent => absurd absent List.not_mem_nil
  · have allLawful := lawful_append lawfuls (List.forall_mem_singleton.mpr nsEntry)
    refine ⟨?_, ?_⟩
    · rw [← entries] at logged
      exact Logged.answers logged fun entry member => by rw [List.mem_singleton.mp member]
    · rw [nodup_contents_iff logged allLawful, List.pairwise_append, and_iff_right apart, and_iff_right (List.pairwise_singleton _ _)]
      constructor
      · rintro apart' signatures same ⟨rrset, member, type⟩
        by_contra some_
        have isNS := lawful.nameServers qname qtype answers found same rrset member type
        have inFound : (⟨.answer, qname, zone.getNS⟩ : Entry) ∈ answers.map fun rrset => (⟨.answer, qname, rrset⟩ : Entry) :=
          isNS ▸ List.mem_map_of_mem member
        refine not_apart (a := ⟨.answer, qname, zone.getNS⟩) (b := ⟨.authority, zone.getNS.name, zone.getNS⟩) nsLawful rfl atOrigin lawful.origin ?_
          (apart' _ (List.mem_append_right _ inFound) _ (List.mem_singleton_self _))
        obtain ⟨s, inSigs⟩ := List.exists_mem_of_ne_nil _ some_
        exact List.ne_nil_of_mem (mem_block.mpr (Or.inr ⟨signed_of_only signatures, s, inSigs, rfl⟩))
      · intro unsigned a inEntries b single
        rw [List.mem_singleton.mp single]
        refine apart_of_key (lawfuls a inEntries) nsEntry fun key => ?_
        have nsKey : a.key = (zone.getNS.name.canonical, NS) := by
          rw [key, ← isNs]
          exact Prod.ext (owner_canonical (Name.equals_iff.mpr rfl)) rfl
        have signatures : flags &&& FLAG_SIGONLY ≠ 0 := fun plain => fresh ⟨plain, a, inEntries, nsKey⟩
        refine block_unsigned signatures ?_
        rcases List.mem_append.mp inEntries with inAliases | inFound
        · have types : CNAME = NS := (aliased.type inAliases).symm.trans (congrArg (·.2) nsKey)
          exact absurd types (by decide)
        · obtain ⟨rrset, member, rfl⟩ := List.mem_map.mp inFound
          obtain ⟨type, same⟩ := (data_key lawful found member).mp nsKey
          exact unsigned signatures same ⟨rrset, member, type⟩

end Data

section Negative

variable {shuffle : Name → BitVec 16 → Shuffle Record} {flags : BitVec 32} {aliases : List (Name × RRset)} {before message : Message}
  {zone : ServedZone} {qname : Name} {added : List Entry}

/-- An NSEC set of a negative answer. -/
structure Denying (entry : Entry) : Prop where
  lawful : entry.Lawful
  authority : entry.inSection = .authority
  type : entry.rrset.type = NSEC

/-- The SOA set comes last, and its TTL is the lower of the two where the minimum is. -/
theorem soa_finished (lawful : zone.Lawful) (aliased : Aliased shuffle flags aliases before) (denying : ∀ entry ∈ added, Denying entry)
    (logged : Logged shuffle flags (aliases.map aliasEntry ++ added) message) :
    (addSOA shuffle zone message .authority flags).records .answer = (aliases.map aliasEntry).flatMap (Entry.block shuffle flags) ∧
      (((contents (addSOA shuffle zone message .authority flags)).map Record.identity).Nodup ↔ added.Pairwise (Apart shuffle flags)) ∧
      (NegativeTTL flags zone (addSOA shuffle zone message .authority flags) ↔ LowMinimum flags zone) := by
  have lawfuls := lawful_append aliased.lawful fun entry member => (denying entry member).lawful
  have types : ∀ entry ∈ aliases.map aliasEntry ++ added, entry.rrset.type ≠ SOA := fun entry member => by
    rcases List.mem_append.mp member with inAliases | inAdded
    · rw [aliased.type inAliases]
      decide
    · rw [(denying entry inAdded).type]
      decide
  obtain ⟨rrset, soa, found, one, isSoa, soaLawful, soaType, logged'⟩ := addSOA_logged lawful logged lawfuls types
  refine ⟨?_, ?_, ?_⟩
  · rw [List.append_assoc] at logged'
    refine logged'.answers fun entry member => ?_
    rcases List.mem_append.mp member with inAdded | last
    · exact (denying entry inAdded).authority
    · rw [List.mem_singleton.mp last]
  · rw [nodup_contents_iff logged' (lawful_append lawfuls (List.forall_mem_singleton.mpr soaLawful)), List.pairwise_append, List.pairwise_append]
    constructor
    · exact fun whole => whole.1.2.1
    · intro apart
      refine ⟨⟨aliased.keys, apart, fun a inAliases b inAdded => ?_⟩, List.pairwise_singleton _ _, fun a member b last => ?_⟩
      · refine apart_of_key (aliased.lawful a inAliases) (denying b inAdded).lawful fun key => ?_
        have same : CNAME = NSEC := (aliased.type inAliases).symm.trans ((congrArg (·.2) key).trans (denying b inAdded).type)
        exact absurd same (by decide)
      · rw [List.mem_singleton.mp last]
        exact apart_of_key (lawfuls a member) soaLawful fun key => absurd ((congrArg (·.2) key).trans soaType) (types a member)
  · have plain : soa.type ≠ RRSIG := isSoa ▸ by decide
    have authority (unsigned : rrset.sigs = [] ∨ flags &&& (FLAG_SIGONLY ||| FLAG_DNSSECOK) = 0) (record : Record) :
        record ∈ (addSOA shuffle zone message .authority flags).records .authority ∧ record.type = SOA ↔
          flags &&& FLAG_SIGONLY = 0 ∧ record = expand zone.origin (lowered soa) := by
      obtain ⟨rrs, sigs⟩ := setNegativeTTL_unsigned one plain unsigned
      rw [logged' .authority, List.mem_flatMap]
      constructor
      · rintro ⟨⟨entry, member, inBlock⟩, type⟩
        rcases List.mem_append.mp (List.mem_filter.mp member).1 with old | last
        · have key := key_of_mem_block (lawfuls entry old) inBlock
          rw [rrsetType_plain (type ▸ by decide), type] at key
          exact absurd (congrArg (·.2) key).symm (types entry old)
        · rw [List.mem_singleton.mp last] at inBlock
          rcases mem_block.mp inBlock with ⟨records, r, inSet, rfl⟩ | ⟨_, s, inSigs, _⟩
          · rw [rrs] at inSet
            exact ⟨records, by rw [List.mem_singleton.mp inSet]⟩
          · rw [sigs] at inSigs
            cases inSigs
      · rintro ⟨records, rfl⟩
        refine ⟨⟨_, List.mem_filter.mpr ⟨List.mem_append_right _ (List.mem_singleton_self _), rfl⟩, ?_⟩, ?_⟩
        · exact mem_block.mpr (Or.inl ⟨records, lowered soa, rrs ▸ List.mem_singleton_self _, rfl⟩)
        · rw [type_expand, (lowered_identity soa).1, isSoa]
    have only {rrset' : RRset} {soa' : Record} (found' : zone.findRecords zone.origin SOA = .successful [rrset']) (one' : rrset'.rrs = [soa']) :
        rrset' = rrset ∧ soa' = soa := by
      rw [found, SetResponse.successful.injEq, List.singleton_inj] at found'
      rw [← found', one, List.singleton_inj] at one'
      exact ⟨found'.symm, one'.symm⟩
    constructor
    · intro negative rrset' soa' found' one' unsigned records
      obtain ⟨rfl, rfl⟩ := only found' one'
      obtain ⟨inAuthority, type⟩ := (authority unsigned _).mpr ⟨records, rfl⟩
      have lowest := negative rrset' soa' found one unsigned _ inAuthority type
      rw [expand_ttl] at lowest
      exact (ttl_lowered isSoa).mp lowest
    · intro low rrset' soa' found' one' unsigned record inAuthority type
      obtain ⟨rfl, rfl⟩ := only found' one'
      obtain ⟨records, rfl⟩ := (authority unsigned record).mp ⟨inAuthority, type⟩
      rw [expand_ttl]
      exact (ttl_lowered isSoa).mpr (low rrset' soa' found one unsigned records)

-- Without DNSSEC nothing is denied.
def denialEntries (flags : BitVec 32) (qname : Name) (zone : ServedZone) : List Entry :=
  if flags &&& (FLAG_SIGONLY ||| FLAG_DNSSECOK) = 0 then [] else spanEntries qname zone ++ originEntries qname zone

theorem denialEntries_denying (lawful : zone.Lawful) {entry : Entry} (member : entry ∈ denialEntries flags qname zone) : Denying entry := by
  unfold denialEntries at member
  split_ifs at member
  · cases member
  · rcases List.mem_append.mp member with inSpan | atOrigin
    · obtain ⟨entryLawful, authority, _, type, _, _⟩ := mem_spanEntries lawful inSpan
      exact ⟨entryLawful, authority, type⟩
    · obtain ⟨entryLawful, authority, _, type, _, _⟩ := mem_originEntries lawful atOrigin
      exact ⟨entryLawful, authority, type⟩

/-- The span before a name is the origin's where no other set is before the name. -/
theorem deniedByOrigin_iff (lawful : zone.Lawful) {signaturesOnly : Prop} : DeniedByOrigin zone qname signaturesOnly ↔
    ∃ found, nsecSpan qname zone.iterator none = some found ∧ found.2 ∈ zone.iterator ∧ found.2.type = NSEC ∧
      found.2.name.equals zone.origin = true ∧ (signaturesOnly → found.2.sigs ≠ []) := by
  have unique {a b : RRset} (inZone : a ∈ zone.iterator) (inZone' : b ∈ zone.iterator) (nsec : a.type = NSEC) (nsec' : b.type = NSEC)
      (own : a.name.equals zone.origin = true) (own' : b.name.equals zone.origin = true) : a = b := by
    have same := (lawful.denial a inZone nsec own).symm.trans (lawful.denial b inZone' nsec' own')
    rw [SetResponse.successful.injEq, List.singleton_inj] at same
    exact same
  constructor
  · rintro ⟨span, inZone, nsec, before, signed, only⟩
    obtain ⟨front, last, back, candidate, split, nsec', before', _, found, _⟩ := nsecSpan_last lawful.iterator inZone nsec before
    have inZone' : last ∈ zone.iterator := split ▸ List.mem_append_right _ List.mem_cons_self
    have own := only last inZone' nsec' before'
    refine ⟨(candidate, last), found, inZone', nsec', own, ?_⟩
    rw [unique inZone' inZone nsec' nsec own (only span inZone nsec before)]
    exact signed
  · rintro ⟨⟨candidate, span⟩, found, inZone, nsec, own, signed⟩
    have some_ : ∃ rrset ∈ zone.iterator, rrset.type = NSEC ∧ rrset.name.compareTo qname < 0 := by
      by_contra none
      rw [nsecSpan_none lawful.iterator fun rrset member nsec below => none ⟨rrset, member, nsec, below⟩] at found
      cases found
    obtain ⟨rrset, member, nsec', below⟩ := some_
    obtain ⟨front, last, back, _, split, _, before, later, found', _⟩ := nsecSpan_last lawful.iterator member nsec' below
    obtain rfl : last = span := congrArg (·.2) (Option.some.inj (found'.symm.trans found))
    refine ⟨last, inZone, nsec, before, signed, fun other inIterator otherNsec otherBefore => ?_⟩
    by_contra different
    obtain ⟨first, others, parts, atOrigin, elsewhere⟩ := lawful.originFirst
    -- The sets elsewhere come after all of the origin's.
    have inOthers : other ∈ others := by
      rw [parts] at inIterator
      exact (List.mem_append.mp inIterator).resolve_left fun inFirst => different (atOrigin other inFirst)
    rcases List.append_eq_append_iff.mp (split.symm.trans parts) with ⟨rest, _, after⟩ | ⟨rest, _, after⟩
    · cases rest with
      | nil =>
        have inOthers' : last ∈ others := List.nil_append others ▸ after ▸ List.mem_cons_self
        exact elsewhere last inOthers' own
      | cons head rest =>
        have inBack : other ∈ back := (List.cons.inj after).2 ▸ List.mem_append_right _ inOthers
        exact later other inBack otherNsec otherBefore
    · exact elsewhere last (after ▸ List.mem_append_right _ List.mem_cons_self) own

/-- The set of the origin is there twice exactly when it is the span. -/
theorem denialEntries_apart (lawful : zone.Lawful) : (denialEntries flags qname zone).Pairwise (Apart shuffle flags) ↔
    (flags &&& (FLAG_SIGONLY ||| FLAG_DNSSECOK) ≠ 0 → ¬DeniedByOrigin zone qname (flags &&& FLAG_SIGONLY ≠ 0)) := by
  unfold denialEntries
  split_ifs with plain
  · exact iff_of_true List.Pairwise.nil fun dnssec => absurd plain dnssec
  have spans : (spanEntries qname zone).Pairwise (Apart shuffle flags) := by
    unfold spanEntries
    cases nsecSpan qname zone.iterator none with
    | none => exact List.Pairwise.nil
    | some found => exact List.pairwise_singleton _ _
  have origins : (originEntries qname zone).Pairwise (Apart shuffle flags) := by
    unfold originEntries
    cases found : zone.findRecords zone.origin NSEC with
    | successful answers =>
      rcases answers_single lawful found (by decide) with rfl | ⟨rrset, rfl, _⟩
      · exact List.Pairwise.nil
      · exact List.pairwise_singleton _ _
    | cname rrset target => exact List.Pairwise.nil
    | nxdomain => exact List.Pairwise.nil
    | nxrrset => exact List.Pairwise.nil
    | other => exact List.Pairwise.nil
  rw [List.pairwise_append, and_iff_right spans, and_iff_right origins]
  constructor
  · intro apart dnssec denied
    obtain ⟨found, isSpan, inZone, nsec, own, signed⟩ := (deniedByOrigin_iff lawful).mp denied
    have inSpan : (⟨.authority, found.1, found.2⟩ : Entry) ∈ spanEntries qname zone := by
      unfold spanEntries
      rw [isSpan]
      exact List.mem_singleton_self _
    have atOrigin : (⟨.authority, qname, found.2⟩ : Entry) ∈ originEntries qname zone := by
      unfold originEntries
      rw [lawful.denial found.2 inZone nsec own]
      exact List.mem_singleton_self _
    refine not_apart (a := ⟨.authority, found.1, found.2⟩) (b := ⟨.authority, qname, found.2⟩) (lawful.iterator found.2 inZone) rfl own lawful.origin ?_
      (apart _ inSpan _ atOrigin)
    by_cases records : flags &&& FLAG_SIGONLY = 0
    · obtain ⟨r, inSet⟩ := List.exists_mem_of_ne_nil _ (lawful.iterator found.2 inZone).filled
      exact List.ne_nil_of_mem (mem_block.mpr (Or.inl ⟨records, r, inSet, rfl⟩))
    · obtain ⟨s, inSigs⟩ := List.exists_mem_of_ne_nil _ (signed records)
      exact List.ne_nil_of_mem (mem_block.mpr (Or.inr ⟨dnssec, s, inSigs, rfl⟩))
  · intro notDenied a inSpan b atOrigin
    obtain ⟨spanLawful, _, inZone, nsec, _, name⟩ := mem_spanEntries lawful inSpan
    obtain ⟨originLawful, _, _, _, own, set⟩ := mem_originEntries lawful atOrigin
    refine apart_of_key spanLawful originLawful fun key => ?_
    by_contra some_
    have owner : a.rrset.name.equals zone.origin = true := by
      have notWild : (b.rrset.name.isWild && !b.name.isWild) = false := by rw [Name.isWild_congr own, lawful.origin, Bool.false_and]
      have originOwner : b.owner = b.rrset.name := by
        unfold Entry.owner
        rw [notWild]
        rfl
      refine Name.equals_iff.mpr ?_
      calc a.rrset.name.canonical = a.name.canonical := Name.equals_iff.mp name
        _ = a.owner.canonical := (owner_canonical (s := a.inSection) name).symm
        _ = b.owner.canonical := congrArg (·.1) key
        _ = zone.origin.canonical := originOwner ▸ Name.equals_iff.mp own
    refine notDenied plain ((deniedByOrigin_iff lawful).mpr ?_)
    unfold spanEntries at inSpan
    rw [Option.mem_toList, Option.map_eq_some_iff] at inSpan
    obtain ⟨found, isSpan, rfl⟩ := inSpan
    refine ⟨found, isSpan, inZone, nsec, owner, fun only unsigned => some_ (block_unsigned only ?_)⟩
    have same := set.symm.trans (lawful.denial found.2 inZone nsec owner)
    rw [SetResponse.successful.injEq, List.singleton_inj] at same
    rw [same]
    exact unsigned

theorem nxdomain_finished (lawful : zone.Lawful) (aliased : Aliased shuffle flags aliases message) :
    ((Ending.nxdomain zone qname).finish shuffle flags message).records .answer = (aliases.map aliasEntry).flatMap (Entry.block shuffle flags) ∧
      (((contents ((Ending.nxdomain zone qname).finish shuffle flags message)).map Record.identity).Nodup ↔
        (flags &&& (FLAG_SIGONLY ||| FLAG_DNSSECOK) ≠ 0 → ¬DeniedByOrigin zone qname (flags &&& FLAG_SIGONLY ≠ 0))) ∧
      (NegativeTTL flags zone ((Ending.nxdomain zone qname).finish shuffle flags message) ↔ LowMinimum flags zone) := by
  have logged : Logged shuffle flags (aliases.map aliasEntry ++ denialEntries flags qname zone) (addDenial shuffle qname zone message flags) := by
    unfold denialEntries
    split_ifs with none
    · unfold addDenial addDenialOfExistence
      rw [if_pos none, List.append_nil]
      exact aliased.logged
    · rw [← List.append_assoc]
      exact addDenial_logged lawful aliased.logged aliased.lawful (fun entry member => by rw [aliased.type member]; decide) none
  rw [← @denialEntries_apart shuffle flags zone qname lawful]
  exact soa_finished lawful aliased (fun entry member => denialEntries_denying lawful member) logged

theorem nxrrset_finished (lawful : zone.Lawful) (aliased : Aliased shuffle flags aliases message) :
    ((Ending.nxrrset zone qname).finish shuffle flags message).records .answer = (aliases.map aliasEntry).flatMap (Entry.block shuffle flags) ∧
      ((contents ((Ending.nxrrset zone qname).finish shuffle flags message)).map Record.identity).Nodup ∧
      (NegativeTTL flags zone ((Ending.nxrrset zone qname).finish shuffle flags message) ↔ LowMinimum flags zone) := by
  obtain ⟨added, single, logged⟩ := @addNoData_logged shuffle flags _ _ _ qname lawful aliased.logged aliased.lawful fun entry member => by
    rw [aliased.type member]
    decide
  have denying : ∀ entry ∈ added, Denying entry := by
    rcases single with rfl | ⟨rrset, rfl, type, rrsetLawful⟩
    · exact fun _ absent => absurd absent List.not_mem_nil
    · exact List.forall_mem_singleton.mpr ⟨⟨rrsetLawful, fun isQuestion => by cases isQuestion⟩, rfl, type⟩
  have apart : added.Pairwise (Apart shuffle flags) := by
    rcases single with rfl | ⟨rrset, rfl, _, _⟩
    · exact List.Pairwise.nil
    · exact List.pairwise_singleton _ _
  obtain ⟨answers, once, ttl⟩ := soa_finished lawful aliased denying logged
  exact ⟨answers, once.mpr apart, ttl⟩

end Negative

section Answers

variable (shuffle : Name → BitVec 16 → Shuffle Record) (getZone : Name → BitVec 16 → Option ServedZone) (qname : Name) (type : BitVec 16)
  (dnssecRequest : Bool)

-- The aliases of the name that is asked for, and what they end at.
def resolution : List (Name × RRset) × Ending := chain getZone (lookupType type) (MAX_ITERATIONS + 1) qname none

/-- The records of each alias, and then those of the sets that are found; a question for signatures has none. -/
def answerSets : List (List Record) :=
  if type = SIG ∨ type = RRSIG then []
  else ((resolution getZone qname type).1.foldl visit [] ++ (resolution getZone qname type).2.sets).map fun step => step.2.rrs.map (expand step.1)

/-- What is asked of an answer: few rounds, no record twice, the chain of aliases with its data, and the TTL of negative answers. -/
structure Answered : Prop where
  rounds : (answer shuffle getZone qname type dnssecRequest).2.length ≤ MAX_ITERATIONS + 1
  once : ((contents (answer shuffle getZone qname type dnssecRequest).1.message).map Record.identity).Nodup
  answers : ∃ sets, List.Forall₂ List.Perm sets (answerSets getZone qname type) ∧
    ((answer shuffle getZone qname type dnssecRequest).1.message.records .answer).filter (fun record => record.type ≠ RRSIG) = sets.flatten
  negative : ∀ zone ∈ (resolution getZone qname type).2.negative,
    NegativeTTL (lookupFlags type dnssecRequest) zone (answer shuffle getZone qname type dnssecRequest).1.message

variable {shuffle getZone qname type dnssecRequest}

/-- The answer section is what was found, each set in some order. -/
theorem answers_filtered {flags : BitVec 32} {sets : List (Name × RRset)} {message : Message} (lawful : ∀ entry ∈ sets.map aliasEntry, entry.Lawful)
    (answers : message.records .answer = (sets.map aliasEntry).flatMap (Entry.block shuffle flags)) :
    ∃ found, List.Forall₂ List.Perm found (if flags &&& FLAG_SIGONLY = 0 then sets.map fun step => step.2.rrs.map (expand step.1) else []) ∧
      (message.records .answer).filter (fun record => record.type ≠ RRSIG) = found.flatten := by
  have each (step : Name × RRset) (member : step ∈ sets) := @filter_block shuffle flags _ (lawful _ (List.mem_map_of_mem member))
  rw [answers, List.flatMap_map, List.filter_flatMap]
  split_ifs with records
  · refine ⟨sets.map fun step => ((aliasEntry step).block shuffle flags).filter fun record => record.type ≠ RRSIG, ?_, rfl⟩
    rw [List.forall₂_map_left_iff, List.forall₂_map_right_iff, List.forall₂_same]
    intro step member
    have block := each step member
    rw [if_pos records] at block
    exact block
  · refine ⟨[], List.Forall₂.nil, List.flatMap_eq_nil_iff.mpr fun step member => ?_⟩
    have block := each step member
    rw [if_neg records] at block
    exact block.eq_nil

/-- The aliases of a question are in the answer section before what they end at. -/
theorem answer_aliased (lawful : ∀ name type zone, getZone name type = some zone → zone.Lawful) :
    ∃ message, Aliased shuffle (lookupFlags type dnssecRequest) ((resolution getZone qname type).1.foldl visit []) message ∧
      (answer shuffle getZone qname type dnssecRequest).1.message =
        (resolution getZone qname type).2.finish shuffle (lookupFlags type dnssecRequest) message ∧
      (answer shuffle getZone qname type dnssecRequest).2.length ≤ MAX_ITERATIONS + 1 ∧
      ((resolution getZone qname type).1.foldl visit [] ≠ [] → lookupType type ≠ CNAME ∧ lookupType type ≠ ANY) ∧
      (resolution getZone qname type).2.Lawful (lookupType type) := by
  obtain ⟨steps, ending⟩ := @chain_lawful getZone (lookupType type) lawful (MAX_ITERATIONS + 1) qname none fun _ absent => by cases absent
  obtain ⟨message, rounds⟩ := lookup_chain shuffle getZone (lookupType type) (lookupFlags type dnssecRequest)
    (show 0 + (MAX_ITERATIONS + 1) = MAX_ITERATIONS + 1 from Nat.zero_add _) qname none ⟨⟨fun _ => []⟩, false, 0⟩
  have typed : (resolution getZone qname type).1 ≠ [] → lookupType type ≠ CNAME ∧ lookupType type ≠ ANY := fun some_ => by
    obtain ⟨step, member⟩ := List.exists_mem_of_ne_nil _ some_
    exact (steps step member).2.2.2
  have plain : (resolution getZone qname type).1 ≠ [] → lookupFlags type dnssecRequest &&& FLAG_SIGONLY = 0 := fun some_ =>
    lookupFlags_sigOnly.mpr fun signatures => (typed some_).2 (if_pos signatures)
  obtain ⟨logged, isAlias, apart⟩ := @aliases_logged shuffle (lookupFlags type dnssecRequest) ⟨fun _ => []⟩ _ [] plain
    (fun _ absent => absurd absent List.not_mem_nil)
    (fun step member => ⟨(steps step member).1, (steps step member).2.1, (steps step member).2.2.1⟩) List.Pairwise.nil fun s => rfl
  refine ⟨_, ⟨logged, isAlias, apart⟩, message, rounds, fun some_ => typed fun none => some_ ?_, ending⟩
  rw [none]
  rfl

/-- An answer is all that is asked of it exactly where the aliases end soundly. -/
theorem answered_iff (lawful : ∀ name type zone, getZone name type = some zone → zone.Lawful) :
    Answered shuffle getZone qname type dnssecRequest ↔ (resolution getZone qname type).2.Sound (lookupFlags type dnssecRequest) := by
  obtain ⟨before, aliased, finished, rounds, unlike, ending⟩ := @answer_aliased shuffle getZone qname type dnssecRequest lawful
  -- The bound and the answer section hold always.
  have shape (inAnswer : ∀ entry ∈ ((resolution getZone qname type).1.foldl visit [] ++ (resolution getZone qname type).2.sets).map aliasEntry,
        entry.Lawful)
      (answers : ((resolution getZone qname type).2.finish shuffle (lookupFlags type dnssecRequest) before).records .answer =
        (((resolution getZone qname type).1.foldl visit [] ++ (resolution getZone qname type).2.sets).map aliasEntry).flatMap
          (Entry.block shuffle (lookupFlags type dnssecRequest))) :
      Answered shuffle getZone qname type dnssecRequest ↔
        ((contents ((resolution getZone qname type).2.finish shuffle (lookupFlags type dnssecRequest) before)).map Record.identity).Nodup ∧
          ∀ zone ∈ (resolution getZone qname type).2.negative, NegativeTTL (lookupFlags type dnssecRequest) zone
            ((resolution getZone qname type).2.finish shuffle (lookupFlags type dnssecRequest) before) := by
    rw [← finished] at answers ⊢
    refine ⟨fun answered => ⟨answered.once, answered.negative⟩, fun ⟨once, negative⟩ => ⟨rounds, once, ?_, negative⟩⟩
    obtain ⟨sets, found, filtered⟩ := answers_filtered inAnswer answers
    refine ⟨sets, ?_, filtered⟩
    unfold answerSets
    split_ifs with signatures
    · rwa [if_neg fun records => lookupFlags_sigOnly.mp records signatures] at found
    · rwa [if_pos (lookupFlags_sigOnly.mpr signatures)] at found
  generalize (resolution getZone qname type).1.foldl visit [] = aliases at *
  generalize (resolution getZone qname type).2 = found at *
  have nothing (empty : found.sets = []) (answers : (found.finish shuffle (lookupFlags type dnssecRequest) before).records .answer =
      (aliases.map aliasEntry).flatMap (Entry.block shuffle (lookupFlags type dnssecRequest))) :=
    shape (by rw [empty, List.append_nil]; exact aliased.lawful) (by rw [empty, List.append_nil]; exact answers)
  obtain ⟨inAnswer, once⟩ := aliased.finished
  have still (empty : found.sets = []) (positive : found.negative = none)
      (unchanged : found.finish shuffle (lookupFlags type dnssecRequest) before = before) :
      Answered shuffle getZone qname type dnssecRequest ↔ True := by
    rw [nothing empty (by rw [unchanged]; exact inAnswer), unchanged, positive]
    exact iff_of_true ⟨once, fun _ absent => by cases absent⟩ trivial
  cases found with
  | outside => exact still rfl rfl rfl
  | other => exact still rfl rfl rfl
  | cut => exact still rfl rfl rfl
  | data zone name answers =>
    obtain ⟨zoneLawful, isFound⟩ := ending
    obtain ⟨inAnswer, once⟩ := data_finished zoneLawful isFound aliased unlike
    have lawfuls : ∀ entry ∈ (aliases ++ (Ending.data zone name answers).sets).map aliasEntry, entry.Lawful := by
      rw [List.map_append]
      refine lawful_append aliased.lawful fun entry member => ?_
      obtain ⟨step, inSets, rfl⟩ := List.mem_map.mp member
      obtain ⟨rrset, inFound, rfl⟩ := List.mem_map.mp inSets
      exact ⟨((zoneLawful.answers name (lookupType type) answers isFound).2 rrset inFound).1, fun isQuestion => by cases isQuestion⟩
    rw [shape lawfuls inAnswer, once]
    exact and_iff_left fun _ absent => by cases absent
  | nxdomain zone name =>
    obtain ⟨inAnswer, once, ttl⟩ := @nxdomain_finished shuffle _ aliases before zone name ending aliased
    rw [nothing rfl inAnswer, once]
    exact and_congr_right fun _ => ⟨fun negative => ttl.mp (negative zone rfl), fun low other same => Option.some.inj same ▸ ttl.mpr low⟩
  | nxrrset zone name =>
    obtain ⟨inAnswer, once, ttl⟩ := @nxrrset_finished shuffle _ aliases before zone name ending aliased
    rw [nothing rfl inAnswer, and_iff_right once]
    exact ⟨fun negative => ttl.mp (negative zone rfl), fun low other same => Option.some.inj same ▸ ttl.mpr low⟩

end Answers

section Sample

def sampleOrigin : Name := ⟨[[0x65]]⟩

def sampleNS : Record := ⟨sampleOrigin, NS, IN, 30, [.octets [0]]⟩

def sampleSOA (minimum : Byte) : Record := ⟨sampleOrigin, SOA, IN, 30, [.octets (List.replicate 21 0 ++ [minimum])]⟩

-- A zone of nothing but its origin.
def sampleZone (minimum : Byte) : ServedZone where
  origin := sampleOrigin
  getNS := recordsToRRSet [sampleNS]
  iterator := [recordsToRRSet [sampleNS], recordsToRRSet [sampleSOA minimum]]
  findRecords name type :=
    if name.equals sampleOrigin then
      if type = NS then .successful [recordsToRRSet [sampleNS]]
      else if type = SOA then .successful [recordsToRRSet [sampleSOA minimum]]
      else if type = ANY then .successful [recordsToRRSet [sampleNS], recordsToRRSet [sampleSOA minimum]]
      else .nxrrset
    else .nxdomain

def sampleQuestion : Name := ⟨[[0x77], [0x65]]⟩

theorem sampleZone_found {minimum : Byte} {name : Name} {type : BitVec 16} {answers : List RRset}
    (found : (sampleZone minimum).findRecords name type = .successful answers) : name.equals sampleOrigin = true ∧
      (type = NS ∧ answers = [recordsToRRSet [sampleNS]] ∨ type = SOA ∧ answers = [recordsToRRSet [sampleSOA minimum]] ∨
        type = ANY ∧ answers = [recordsToRRSet [sampleNS], recordsToRRSet [sampleSOA minimum]]) := by
  unfold sampleZone at found
  dsimp only at found
  split_ifs at found with atOrigin isNs isSoa isAny
  · exact ⟨atOrigin, Or.inl ⟨isNs, (SetResponse.successful.inj found).symm⟩⟩
  · exact ⟨atOrigin, Or.inr (Or.inl ⟨isSoa, (SetResponse.successful.inj found).symm⟩)⟩
  · exact ⟨atOrigin, Or.inr (Or.inr ⟨isAny, (SetResponse.successful.inj found).symm⟩)⟩

theorem sampleZone_lawful (minimum : Byte) : (sampleZone minimum).Lawful := by
  have ns : (recordsToRRSet [sampleNS]).Lawful := single_lawful (by decide)
  have soa : (recordsToRRSet [sampleSOA minimum]).Lawful := single_lawful (show SOA ≠ RRSIG by decide)
  have both : ∀ rrset ∈ [recordsToRRSet [sampleNS], recordsToRRSet [sampleSOA minimum]], rrset.Lawful ∧ rrset.name = sampleOrigin ∧
      rrset.type ≠ NSEC := by
    intro rrset member
    rcases List.mem_pair.mp member with rfl | rfl
    · exact ⟨ns, rfl, show NS ≠ NSEC by decide⟩
    · exact ⟨soa, rfl, show SOA ≠ NSEC by decide⟩
  constructor
  case origin => rfl
  case getNS => exact ⟨ns, rfl, rfl⟩
  case iterator => exact fun rrset member => (both rrset member).1
  case originFirst =>
    exact ⟨_, [], (List.append_nil _).symm, fun rrset member => Name.equals_iff.mpr (congrArg _ (both rrset member).2.1),
      fun _ absent => absurd absent List.not_mem_nil⟩
  case answers =>
    intro name type answers found
    obtain ⟨atOrigin, sets⟩ := sampleZone_found found
    have own : ∀ rrset ∈ [recordsToRRSet [sampleNS], recordsToRRSet [sampleSOA minimum]], rrset.name.equals name = true := fun rrset member =>
      Name.equals_iff.mpr ((congrArg _ (both rrset member).2.1).trans (Name.equals_iff.mp atOrigin).symm)
    rcases sets with ⟨rfl, rfl⟩ | ⟨rfl, rfl⟩ | ⟨rfl, rfl⟩
    · exact ⟨List.pairwise_singleton _ _, List.forall_mem_singleton.mpr ⟨ns, fun _ => rfl, Or.inl (own _ List.mem_cons_self)⟩⟩
    · exact ⟨List.pairwise_singleton _ _,
        List.forall_mem_singleton.mpr ⟨soa, fun _ => rfl, Or.inl (own _ (List.mem_cons_of_mem _ List.mem_cons_self))⟩⟩
    · exact ⟨List.pairwise_pair.mpr (show NS ≠ SOA by decide), fun rrset member =>
        ⟨(both rrset member).1, fun notAny => absurd rfl notAny, Or.inl (own rrset member)⟩⟩
  case aliases =>
    intro name type rrset target found
    unfold sampleZone at found
    dsimp only at found
    split_ifs at found
  case nameServers =>
    intro name type answers found _ rrset member isNs
    have notNs : (recordsToRRSet [sampleSOA minimum]).type ≠ NS := show SOA ≠ NS by decide
    obtain ⟨_, ⟨_, rfl⟩ | ⟨_, rfl⟩ | ⟨_, rfl⟩⟩ := sampleZone_found found
    · exact List.mem_singleton.mp member
    · exact absurd (List.mem_singleton.mp member ▸ isNs) notNs
    · exact (List.mem_pair.mp member).resolve_right fun isSoa => notNs (isSoa ▸ isNs)
  case denial => exact fun rrset member nsec => absurd nsec (both rrset member).2.2
  case soa => exact ⟨_, _, rfl, rfl⟩

def sampleZones (minimum : Byte) (name : Name) (_ : BitVec 16) : Option ServedZone :=
  if name.subdomain sampleOrigin then some (sampleZone minimum) else none

theorem sampleZones_lawful (minimum : Byte) (name : Name) (type : BitVec 16) (zone : ServedZone)
    (found : sampleZones minimum name type = some zone) : zone.Lawful := by
  unfold sampleZones at found
  split_ifs at found
  exact Option.some.inj found ▸ sampleZone_lawful minimum

theorem sample_resolution (minimum : Byte) :
    resolution (sampleZones minimum) sampleQuestion A = ([], .nxdomain (sampleZone minimum) sampleQuestion) := rfl

def sampleShuffle (_ : Name) (_ : BitVec 16) : Shuffle Record := ⟨id, fun _ => List.Perm.refl _⟩

end Sample

theorem answered_iff_sample : Answered sampleShuffle (sampleZones 20) sampleQuestion A false := by
  refine (answered_iff (sampleZones_lawful 20)).mpr ?_
  rw [sample_resolution]
  refine ⟨fun dnssec => absurd rfl dnssec, fun rrset soa found one _ _ => ?_⟩
  obtain rfl : recordsToRRSet [sampleSOA 20] = rrset := (List.cons.inj (SetResponse.successful.inj found)).1
  obtain rfl : sampleSOA 20 = soa := (List.cons.inj one).1
  decide

/-- A minimum of 60 seconds raises a TTL of 30. -/
theorem answer_raised : ¬∀ (shuffle : Name → BitVec 16 → Shuffle Record) (getZone : Name → BitVec 16 → Option ServedZone) (qname : Name)
    (type : BitVec 16) (dnssecRequest : Bool), (∀ name type zone, getZone name type = some zone → zone.Lawful) →
    Answered shuffle getZone qname type dnssecRequest := by
  intro whole
  have answered := whole sampleShuffle (sampleZones 60) sampleQuestion A false (sampleZones_lawful 60)
  obtain ⟨before, aliased, finished, _⟩ := @answer_aliased sampleShuffle (sampleZones 60) sampleQuestion A false (sampleZones_lawful 60)
  have negative := answered.negative (sampleZone 60) rfl
  rw [finished] at negative
  have low : LowMinimum (lookupFlags A false) (sampleZone 60) := (nxdomain_finished (sampleZone_lawful 60) aliased).2.2.mp negative
  exact absurd (low _ _ rfl rfl (Or.inl rfl) rfl) (by decide)

end NameServer

end TrafficControl.TrafficRouter.Dns
