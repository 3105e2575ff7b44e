import TrafficControl.TrafficRouter.Dns.NameLookup

set_option autoImplicit false

namespace TrafficControl.TrafficRouter.Dns

open Record SignedBytes ZoneSignerImpl

namespace NameServer

/-- How the aliases of a name end: outside of all zones, at data, at nothing, or not within the bound. -/
inductive Ending where
  | outside
  | data (zone : ServedZone) (name : Name) (answers : List RRset)
  | nxdomain (zone : ServedZone) (name : Name)
  | nxrrset (zone : ServedZone) (name : Name)
  | other
  | cut

/-- The aliases of a name in their order, with the sets that they are in, and how they end. -/
def chain (getZone : Name → BitVec 16 → Option ServedZone) (qtype : BitVec 16) : Nat → Name → Option ServedZone → List (Name × RRset) × Ending
  | 0, _, _ => ([], .cut)
  | n + 1, qname, incomingZone =>
    match locate getZone qtype qname incomingZone with
    | none => ([], .outside)
    | some zone =>
      match zone.findRecords qname qtype with
      | .successful answers => ([], .data zone qname answers)
      | .cname rrset target =>
        let (steps, ending) := chain getZone qtype n target (some zone)
        ((qname, rrset) :: steps, ending)
      | .nxdomain => ([], .nxdomain zone qname)
      | .nxrrset => ([], .nxrrset zone qname)
      | .other => ([], .other)

-- A name is visited once, in a cycle too.
def visit (visited : List (Name × RRset)) (step : Name × RRset) : List (Name × RRset) :=
  if visited.any fun other => other.1.equals step.1 then visited else visited ++ [step]

section Entries

variable (shuffle : Name → BitVec 16 → Shuffle Record) (flags : BitVec 32)

/-- A set that was added to a response, under a name. -/
structure Entry where
  inSection : MessageSection
  name : Name
  rrset : RRset

namespace Entry

def block (entry : Entry) : List Record :=
  (shuffle entry.name entry.rrset.type).run (if flags &&& FLAG_SIGONLY = 0 then entry.rrset.rrs.map (expand entry.name) else []) ++
    if flags &&& (FLAG_SIGONLY ||| FLAG_DNSSECOK) ≠ 0 then entry.rrset.sigs.map (expand entry.name) else []

-- The name of its records in the response.
def owner (entry : Entry) : Name := if entry.rrset.name.isWild && !entry.name.isWild then entry.name else entry.rrset.name

def key (entry : Entry) : List (List Byte) × BitVec 16 := (entry.owner.canonical, entry.rrset.type)

structure Lawful (entry : Entry) : Prop where
  rrset : entry.rrset.Lawful
  answers : entry.inSection ≠ .question

end Entry

-- Two sets that give a response no record twice.
def Apart (a b : Entry) : Prop := ∀ r ∈ a.block shuffle flags, ∀ s ∈ b.block shuffle flags, r.identity ≠ s.identity

/-- The sections hold what was added to them. -/
def Logged (entries : List Entry) (message : Message) : Prop :=
  ∀ s, message.records s = (entries.filter fun entry => entry.inSection = s).flatMap (Entry.block shuffle flags)

end Entries

section Blocks

variable {shuffle : Name → BitVec 16 → Shuffle Record} {flags : BitVec 32} {entry other : Entry} {record : Record}

theorem rrsetType_congr {a b : Record} (same : a.identity = b.identity) : a.rrsetType = b.rrsetType := by
  have type : a.type = b.type := RRset.type_eq same
  have rdata : a.rdataToWireCanonical = b.rdataToWireCanonical := congrArg (·.2.2.2) same
  unfold rrsetType
  rw [type, rdata]

theorem rrsetType_plain (plain : record.type ≠ RRSIG) : record.rrsetType = record.type := if_neg plain

theorem type_ne_rrsig {rrset : RRset} (lawful : rrset.Lawful) : rrset.type ≠ RRSIG := by
  obtain ⟨r, member⟩ := List.exists_mem_of_ne_nil _ lawful.filled
  rw [← (lawful.records r member).1, rrsetType_plain (lawful.separate.plain r member)]
  exact lawful.separate.plain r member

theorem expand_rrsetType (name : Name) (r : Record) : (expand name r).rrsetType = r.rrsetType := by
  unfold expand
  split_ifs <;> rfl

theorem expand_name {name : Name} {r : Record} {rrset : RRset} (same : r.name.equals rrset.name = true) :
    (expand name r).name.canonical = (if rrset.name.isWild && !name.isWild then name else rrset.name).canonical := by
  unfold expand
  rw [Name.isWild_congr same]
  split_ifs
  · rfl
  · exact Name.equals_iff.mp same

/-- The records and signatures of a block are those of the set, under the owner's name. -/
theorem mem_block : record ∈ entry.block shuffle flags ↔
    (flags &&& FLAG_SIGONLY = 0 ∧ ∃ r ∈ entry.rrset.rrs, expand entry.name r = record) ∨
      flags &&& (FLAG_SIGONLY ||| FLAG_DNSSECOK) ≠ 0 ∧ ∃ r ∈ entry.rrset.sigs, expand entry.name r = record := by
  unfold Entry.block
  rw [List.mem_append, ((shuffle entry.name entry.rrset.type).perm _).mem_iff, List.mem_ite_nil_right, List.mem_ite_nil_right, List.mem_map,
    List.mem_map]

theorem key_of_mem_block (lawful : entry.Lawful) (member : record ∈ entry.block shuffle flags) : (record.name.canonical, record.rrsetType) = entry.key := by
  unfold Entry.key Entry.owner
  rcases mem_block.mp member with ⟨_, r, inSet, rfl⟩ | ⟨_, r, inSet, rfl⟩
  · obtain ⟨type, _, name⟩ := lawful.rrset.records r inSet
    rw [expand_name name, expand_rrsetType, type]
  · obtain ⟨type, _, name⟩ := lawful.rrset.signatures r inSet
    rw [expand_name name, expand_rrsetType, type]

/-- Renaming the records of a set keeps them apart. -/
theorem nodup_expand {records : List Record} {rrset : RRset} (name : Name) (distinct : (records.map Record.identity).Nodup)
    (inSet : ∀ r ∈ records, r.name.equals rrset.name = true) : ((records.map (expand name)).map Record.identity).Nodup := by
  rw [List.map_map]
  refine List.Nodup.of_map (fun identity => (rrset.name.canonical, identity.2)) ?_
  rw [List.map_map]
  have same : records.map (fun r => (rrset.name.canonical, (expand name r).identity.2)) = records.map Record.identity := by
    refine List.map_congr_left fun r member => ?_
    have data : (expand name r).identity.2 = r.identity.2 := by
      unfold expand
      split_ifs <;> rfl
    rw [data, ← Name.equals_iff.mp (inSet r member)]
    rfl
  exact same ▸ distinct

theorem nodup_block (lawful : entry.Lawful) : ((entry.block shuffle flags).map Record.identity).Nodup := by
  have plain := nodup_expand entry.name lawful.rrset.separate.distinct fun r member => (lawful.rrset.records r member).2.2
  have signed := nodup_expand entry.name lawful.rrset.distinct fun r member => (lawful.rrset.signatures r member).2.2
  unfold Entry.block
  rw [List.map_append]
  refine List.nodup_append.mpr ⟨?_, ?_, ?_⟩
  · refine (((shuffle entry.name entry.rrset.type).perm _).map _).nodup_iff.mpr ?_
    split_ifs
    · exact plain
    · exact List.nodup_nil
  · split_ifs
    · exact signed
    · exact List.nodup_nil
  · intro a inRecords b inSigs same
    obtain ⟨r, member, rfl⟩ := List.mem_map.mp inRecords
    obtain ⟨s, member', rfl⟩ := List.mem_map.mp inSigs
    rw [((shuffle entry.name entry.rrset.type).perm _).mem_iff, List.mem_ite_nil_right] at member
    rw [List.mem_ite_nil_right] at member'
    obtain ⟨original, inSet, rfl⟩ := List.mem_map.mp member.2
    obtain ⟨signature, isSig, rfl⟩ := List.mem_map.mp member'.2
    have types := RRset.type_eq same
    rw [type_expand, type_expand, lawful.rrset.separate.signatures signature isSig] at types
    exact lawful.rrset.separate.plain original inSet types

/-- Blocks of different names or types have no record in common. -/
theorem apart_of_key (lawful : entry.Lawful) (lawful' : other.Lawful) (keys : entry.key = other.key → other.block shuffle flags = []) :
    Apart shuffle flags entry other := by
  intro r member s member' same
  have key : entry.key = other.key := by
    rw [← key_of_mem_block lawful member, ← key_of_mem_block lawful' member']
    exact Prod.ext (congrArg (·.1) same) (rrsetType_congr same)
  rw [keys key] at member'
  cases member'

end Blocks

section Log

variable {shuffle : Name → BitVec 16 → Shuffle Record} {flags : BitVec 32} {entries : List Entry} {message : Message}

/-- What a response holds, in any order, without the question. -/
def contents (message : Message) : List Record := message.records .answer ++ message.records .authority ++ message.records .additional

theorem filter_sections (lawful : ∀ entry ∈ entries, entry.Lawful) :
    ((entries.filter fun entry => entry.inSection = .answer) ++ (entries.filter fun entry => entry.inSection = .authority) ++
      entries.filter fun entry => entry.inSection = .additional).Perm entries := by
  induction entries with
  | nil => exact List.Perm.refl _
  | cons entry entries ih =>
    have others := ih fun entry member => lawful entry (List.mem_cons_of_mem _ member)
    have answers := (lawful entry List.mem_cons_self).answers
    simp only [List.filter_cons, decide_eq_true_eq]
    generalize (entries.filter fun entry => entry.inSection = .answer) = inAnswer at others ⊢
    generalize (entries.filter fun entry => entry.inSection = .authority) = inAuthority at others ⊢
    generalize (entries.filter fun entry => entry.inSection = .additional) = inAdditional at others ⊢
    cases inSection : entry.inSection with
    | question => exact absurd inSection answers
    | answer => exact others.cons entry
    | authority => exact ((@List.perm_middle _ entry inAnswer inAuthority).append_right inAdditional).trans (others.cons entry)
    | additional => exact (@List.perm_middle _ entry (inAnswer ++ inAuthority) inAdditional).trans (others.cons entry)

/-- The whole response is, in some order, the blocks. -/
theorem Logged.contents_perm (logged : Logged shuffle flags entries message) (lawful : ∀ entry ∈ entries, entry.Lawful) :
    (contents message).Perm (entries.flatMap (Entry.block shuffle flags)) := by
  unfold contents
  rw [logged .answer, logged .authority, logged .additional, ← List.flatMap_append, ← List.flatMap_append]
  exact (filter_sections lawful).flatMap_right _

/-- No record is there twice exactly when no two blocks have one in common. -/
theorem nodup_contents_iff (logged : Logged shuffle flags entries message) (lawful : ∀ entry ∈ entries, entry.Lawful) :
    ((contents message).map Record.identity).Nodup ↔ entries.Pairwise (Apart shuffle flags) := by
  rw [((logged.contents_perm lawful).map _).nodup_iff, List.map_flatMap, List.nodup_flatMap]
  have each : ∀ entry ∈ entries, ((entry.block shuffle flags).map Record.identity).Nodup := fun entry member => nodup_block (lawful entry member)
  rw [and_iff_right each]
  refine iff_of_eq (congrFun (congrArg _ (funext₂ fun a b => propext ?_)) _)
  unfold Function.onFun Apart
  rw [List.disjoint_left]
  constructor
  · exact fun apart r inFirst s inSecond same => apart (List.mem_map_of_mem inFirst) (same ▸ List.mem_map_of_mem inSecond)
  · intro apart identity inFirst inSecond
    obtain ⟨r, member, rfl⟩ := List.mem_map.mp inFirst
    obtain ⟨s, member', same⟩ := List.mem_map.mp inSecond
    exact apart r member s member' same.symm

/-- A set of the name and type is found exactly when one was added that is not only signatures. -/
theorem Logged.found_iff (logged : Logged shuffle flags entries message) (lawful : ∀ entry ∈ entries, entry.Lawful) {name : Name}
    {type : BitVec 16} (plain : type ≠ RRSIG) :
    ([MessageSection.answer, .authority, .additional].any fun s => message.findRRset name type s) = true ↔
      flags &&& FLAG_SIGONLY = 0 ∧ ∃ entry ∈ entries, entry.key = (name.canonical, type) := by
  have whole : ([MessageSection.answer, .authority, .additional].any fun s => message.findRRset name type s) = true ↔
      ∃ r ∈ contents message, r.type = type ∧ r.name.canonical = name.canonical := by
    unfold contents Message.findRRset
    simp only [List.any_cons, List.any_nil, Bool.or_false, Bool.or_eq_true, List.any_eq_true, Bool.and_eq_true, beq_iff_eq, Name.equals_iff,
      List.mem_append, or_and_right, exists_or, or_assoc]
  rw [whole]
  simp only [(logged.contents_perm lawful).mem_iff, List.mem_flatMap]
  constructor
  · rintro ⟨r, ⟨entry, member, inBlock⟩, isType, isName⟩
    have key := key_of_mem_block (lawful entry member) inBlock
    rw [rrsetType_plain (isType ▸ plain), isType, isName] at key
    rcases mem_block.mp inBlock with ⟨only, _⟩ | ⟨_, s, inSigs, rfl⟩
    · exact ⟨only, entry, member, key.symm⟩
    · rw [type_expand, (lawful entry member).rrset.separate.signatures s inSigs] at isType
      exact absurd isType.symm plain
  · rintro ⟨only, entry, member, key⟩
    obtain ⟨r, inSet⟩ := List.exists_mem_of_ne_nil _ (lawful entry member).rrset.filled
    have inBlock : expand entry.name r ∈ entry.block shuffle flags := mem_block.mpr (Or.inl ⟨only, r, inSet, rfl⟩)
    have key' := (key_of_mem_block (lawful entry member) inBlock).trans key
    refine ⟨expand entry.name r, ⟨entry, member, inBlock⟩, ?_, congrArg (·.1) key'⟩
    have isPlain : (expand entry.name r).type ≠ RRSIG := by
      rw [type_expand]
      exact (lawful entry member).rrset.separate.plain r inSet
    exact (rrsetType_plain isPlain).symm.trans (congrArg (·.2) key')

variable {name : Name} {rrset : RRset} {s : MessageSection}

theorem addSet_found (found : ([MessageSection.answer, .authority, .additional].any fun s => message.findRRset name rrset.type s) = true) :
    addSet shuffle name message rrset s flags = message := if_pos found

theorem Logged.addSet_fresh (logged : Logged shuffle flags entries message)
    (fresh : ¬([MessageSection.answer, .authority, .additional].any fun s => message.findRRset name rrset.type s) = true) :
    Logged shuffle flags (entries ++ [⟨s, name, rrset⟩]) (addSet shuffle name message rrset s flags) := by
  intro other
  have added (response : Message) (records : List Record) : (addRecords response records s).records other =
      response.records other ++ if s = other then records else [] := by
    split_ifs with same
    · exact same ▸ (records_addRecords response records s).1
    · rw [List.append_nil]
      exact (records_addRecords response records s).2 other fun isThis => same isThis.symm
  have single : ([⟨s, name, rrset⟩].filter fun entry : Entry => entry.inSection = other).flatMap (Entry.block shuffle flags) =
      if s = other then Entry.block shuffle flags ⟨s, name, rrset⟩ else [] := by
    split_ifs with same
    · simp [same]
    · simp [same]
  rw [List.filter_append, List.flatMap_append, ← logged other, single]
  unfold NameServer.addSet addRRset Entry.block
  rw [if_neg fresh]
  dsimp only
  generalize (if flags &&& FLAG_SIGONLY = 0 then rrset.rrs.map (expand name) else []) = recordList
  by_cases signed : flags &&& (FLAG_SIGONLY ||| FLAG_DNSSECOK) ≠ 0
  · rw [if_pos signed, if_pos signed, added, added, List.append_assoc]
    split_ifs <;> rfl
  · rw [if_neg signed, if_neg signed, added, List.append_nil]

/-- A set is added unless it is there already. -/
theorem Logged.addSet (logged : Logged shuffle flags entries message) (lawful : ∀ entry ∈ entries, entry.Lawful) (plain : rrset.type ≠ RRSIG) :
    (flags &&& FLAG_SIGONLY = 0 ∧ ∃ entry ∈ entries, entry.key = (name.canonical, rrset.type)) ∧
        Logged shuffle flags entries (addSet shuffle name message rrset s flags) ∨
      ¬(flags &&& FLAG_SIGONLY = 0 ∧ ∃ entry ∈ entries, entry.key = (name.canonical, rrset.type)) ∧
        Logged shuffle flags (entries ++ [⟨s, name, rrset⟩]) (addSet shuffle name message rrset s flags) := by
  have found := @Logged.found_iff _ _ _ _ logged lawful name rrset.type plain
  by_cases present : flags &&& FLAG_SIGONLY = 0 ∧ ∃ entry ∈ entries, entry.key = (name.canonical, rrset.type)
  · refine Or.inl ⟨present, ?_⟩
    rw [addSet_found (found.mpr present)]
    exact logged
  · exact Or.inr ⟨present, logged.addSet_fresh fun isFound => present (found.mp isFound)⟩

/-- Sets of different types that are not there yet are added. -/
theorem Logged.addSets {answers : List RRset} (logged : Logged shuffle flags entries message) (lawful : ∀ entry ∈ entries, entry.Lawful)
    (answersLawful : ∀ rrset ∈ answers, rrset.Lawful) (answered : s ≠ .question) (types : answers.Pairwise fun a b => a.type ≠ b.type)
    (fresh : ∀ rrset ∈ answers, ∀ entry ∈ entries, entry.key ≠ (name.canonical, rrset.type)) :
    Logged shuffle flags (entries ++ answers.map fun rrset => ⟨s, name, rrset⟩) (addSets shuffle name message answers s flags) := by
  unfold NameServer.addSets
  induction answers generalizing entries message with
  | nil => simpa using logged
  | cons rrset answers ih =>
    obtain ⟨first, others⟩ := List.pairwise_cons.mp types
    have rrsetLawful := answersLawful rrset List.mem_cons_self
    have added : Logged shuffle flags (entries ++ [⟨s, name, rrset⟩]) (NameServer.addSet shuffle name message rrset s flags) := by
      rcases @Logged.addSet _ _ _ _ name rrset s logged lawful (type_ne_rrsig rrsetLawful) with ⟨⟨_, entry, member, key⟩, _⟩ | ⟨_, added⟩
      · exact absurd key (fresh rrset List.mem_cons_self entry member)
      · exact added
    have step := ih added ?_ (fun other member => answersLawful other (List.mem_cons_of_mem _ member)) others ?_
    · simpa using step
    · intro entry member
      rcases List.mem_append.mp member with old | new
      · exact lawful entry old
      · rw [List.mem_singleton.mp new]
        exact ⟨rrsetLawful, answered⟩
    · intro other member entry inEntries
      rcases List.mem_append.mp inEntries with old | new
      · exact fresh other (List.mem_cons_of_mem _ member) entry old
      · rw [List.mem_singleton.mp new]
        exact fun key => first other member (congrArg (·.2) key)

end Log

section Chain

variable (shuffle : Name → BitVec 16 → Shuffle Record) (getZone : Name → BitVec 16 → Option ServedZone) (qtype : BitVec 16) (flags : BitVec 32)

def addAlias (message : Message) (step : Name × RRset) : Message := addSet shuffle step.1 message step.2 .answer flags

-- The NSEC records that a name without the type is answered with.
def addNoData (qname : Name) (zone : ServedZone) (message : Message) : Message :=
  if flags &&& (FLAG_SIGONLY ||| FLAG_DNSSECOK) ≠ 0 then
    match zone.findRecords qname NSEC with
    | .successful answers => addSets shuffle qname message answers .authority flags
    | _ => message
  else message

-- What is added after the aliases.
def Ending.finish (message : Message) : Ending → Message
  | outside => message
  | data zone name answers => addSet shuffle zone.getNS.name (addSets shuffle name message answers .answer flags) zone.getNS .authority flags
  | nxdomain zone name => addSOA shuffle zone (addDenial shuffle name zone message flags) .authority flags
  | nxrrset zone name => addSOA shuffle zone (addNoData shuffle flags name zone message) .authority flags
  | other => message
  | cut => message

/-- The recursion adds the aliases, and then what they end at, in no more rounds than are left. -/
theorem lookup_chain {remaining iteration : Nat} (left : iteration + remaining = MAX_ITERATIONS + 1) (qname : Name)
    (incomingZone : Option ServedZone) (response : Response) :
    (lookup shuffle getZone qtype flags qname incomingZone response iteration).1.message =
        (chain getZone qtype remaining qname incomingZone).2.finish shuffle flags
          ((chain getZone qtype remaining qname incomingZone).1.foldl (addAlias shuffle flags) response.message) ∧
      (lookup shuffle getZone qtype flags qname incomingZone response iteration).2.length ≤ remaining := by
  induction remaining generalizing iteration qname incomingZone response with
  | zero =>
    rw [lookup, if_pos (by omega)]
    exact ⟨rfl, Nat.le_refl 0⟩
  | succ n ih =>
    rw [lookup, if_neg (by omega), chain]
    cases locate getZone qtype qname incomingZone with
    | none =>
      dsimp only
      refine ⟨?_, Nat.le_add_left 1 n⟩
      split_ifs <;> rfl
    | some zone =>
      dsimp only
      cases zone.findRecords qname qtype with
      | cname rrset target =>
        obtain ⟨message, names⟩ := ih (show iteration + 1 + n = MAX_ITERATIONS + 1 by omega) target (some zone)
          { response with message := addSet shuffle qname response.message rrset .answer flags }
        exact ⟨message, Nat.succ_le_succ names⟩
      | successful answers => exact ⟨rfl, Nat.le_add_left 1 n⟩
      | nxdomain => exact ⟨rfl, Nat.le_add_left 1 n⟩
      | nxrrset => exact ⟨rfl, Nat.le_add_left 1 n⟩
      | other => exact ⟨rfl, Nat.le_add_left 1 n⟩

end Chain

section Endings

variable {getZone : Name → BitVec 16 → Option ServedZone} {qtype : BitVec 16}

/-- What a zone finds at the end of the aliases. -/
def Ending.Lawful (qtype : BitVec 16) : Ending → Prop
  | data zone name answers => zone.Lawful ∧ zone.findRecords name qtype = .successful answers
  | nxdomain zone _ => zone.Lawful
  | nxrrset zone _ => zone.Lawful
  | _ => True

theorem chain_lawful (lawful : ∀ name type zone, getZone name type = some zone → zone.Lawful) (n : Nat) (qname : Name)
    (incomingZone : Option ServedZone) (incoming : ∀ zone ∈ incomingZone, zone.Lawful) :
    (∀ step ∈ (chain getZone qtype n qname incomingZone).1, step.2.Lawful ∧ step.2.type = CNAME ∧ step.2.name.equals step.1 = true ∧
      qtype ≠ CNAME ∧ qtype ≠ ANY) ∧ (chain getZone qtype n qname incomingZone).2.Lawful qtype := by
  induction n generalizing qname incomingZone with
  | zero => exact ⟨fun _ absent => absurd absent List.not_mem_nil, trivial⟩
  | succ n ih =>
    rw [chain]
    cases located : locate getZone qtype qname incomingZone with
    | none => exact ⟨fun _ absent => absurd absent List.not_mem_nil, trivial⟩
    | some zone =>
      have zoneLawful : zone.Lawful := by
        unfold locate at located
        cases incomingZone with
        | none => exact lawful _ _ _ located
        | some last =>
          dsimp only at located
          split_ifs at located
          · exact incoming zone located
          · exact lawful _ _ _ located
      dsimp only
      cases found : zone.findRecords qname qtype with
      | cname rrset target =>
        obtain ⟨steps, ending⟩ := ih target (some zone) fun other same => Option.some.inj same ▸ zoneLawful
        refine ⟨fun step member => ?_, ending⟩
        rcases List.mem_cons.mp member with rfl | later
        · exact zoneLawful.aliases qname qtype rrset target found
        · exact steps step later
      | successful answers => exact ⟨fun _ absent => absurd absent List.not_mem_nil, zoneLawful, found⟩
      | nxdomain => exact ⟨fun _ absent => absurd absent List.not_mem_nil, zoneLawful⟩
      | nxrrset => exact ⟨fun _ absent => absurd absent List.not_mem_nil, zoneLawful⟩
      | other => exact ⟨fun _ absent => absurd absent List.not_mem_nil, trivial⟩

end Endings

section Aliases

variable {shuffle : Name → BitVec 16 → Shuffle Record} {flags : BitVec 32} {message : Message}

-- An alias of a name: a set of the name itself.
structure IsAlias (step : Name × RRset) : Prop where
  rrset : step.2.Lawful
  type : step.2.type = CNAME
  name : step.2.name.equals step.1 = true

def aliasEntry (step : Name × RRset) : Entry := ⟨.answer, step.1, step.2⟩

theorem owner_canonical {s : MessageSection} {name : Name} {rrset : RRset} (same : rrset.name.equals name = true) :
    (Entry.owner ⟨s, name, rrset⟩).canonical = name.canonical := by
  unfold Entry.owner
  dsimp only
  rw [Name.isWild_congr same]
  split_ifs
  · rfl
  · exact Name.equals_iff.mp same

theorem IsAlias.key {step : Name × RRset} (isAlias : IsAlias step) : (aliasEntry step).key = (step.1.canonical, CNAME) :=
  Prod.ext (owner_canonical isAlias.name) isAlias.type

theorem aliasEntry_lawful {steps : List (Name × RRset)} (aliases : ∀ step ∈ steps, IsAlias step) :
    ∀ entry ∈ steps.map aliasEntry, entry.Lawful := by
  intro entry member
  obtain ⟨step, inSteps, rfl⟩ := List.mem_map.mp member
  exact ⟨(aliases step inSteps).rrset, fun isQuestion => by cases isQuestion⟩

theorem visit_spec {visited : List (Name × RRset)} {step : Name × RRset} (aliases : ∀ other ∈ visited, IsAlias other) (isAlias : IsAlias step)
    (apart : visited.Pairwise fun a b => a.1.canonical ≠ b.1.canonical) :
    (∀ other ∈ visit visited step, IsAlias other) ∧ (visit visited step).Pairwise fun a b => a.1.canonical ≠ b.1.canonical := by
  unfold visit
  split_ifs with present
  · exact ⟨aliases, apart⟩
  · constructor
    · intro other member
      rcases List.mem_append.mp member with old | new
      · exact aliases other old
      · exact List.mem_singleton.mp new ▸ isAlias
    · refine List.pairwise_append.mpr ⟨apart, List.pairwise_singleton _ _, fun a member b single same => present ?_⟩
      rw [List.mem_singleton.mp single] at same
      exact List.any_eq_true.mpr ⟨a, member, Name.equals_iff.mpr same⟩

/-- The aliases are in the answer section, each name once. -/
theorem aliases_logged {steps visited : List (Name × RRset)} (only : steps ≠ [] → flags &&& FLAG_SIGONLY = 0)
    (inVisited : ∀ step ∈ visited, IsAlias step) (inSteps : ∀ step ∈ steps, IsAlias step)
    (apart : visited.Pairwise fun a b => a.1.canonical ≠ b.1.canonical) (logged : Logged shuffle flags (visited.map aliasEntry) message) :
    Logged shuffle flags ((steps.foldl visit visited).map aliasEntry) (steps.foldl (addAlias shuffle flags) message) ∧
      (∀ step ∈ steps.foldl visit visited, IsAlias step) ∧
      (steps.foldl visit visited).Pairwise fun a b => a.1.canonical ≠ b.1.canonical := by
  induction steps generalizing visited message with
  | nil => exact ⟨logged, inVisited, apart⟩
  | cons step steps ih =>
    have plain := only (List.cons_ne_nil _ _)
    have isAlias := inSteps step List.mem_cons_self
    obtain ⟨aliases', apart'⟩ := visit_spec inVisited isAlias apart
    refine ih (fun _ => plain) aliases' (fun other member => inSteps other (List.mem_cons_of_mem _ member)) apart' ?_
    have present : (∃ entry ∈ visited.map aliasEntry, entry.key = (step.1.canonical, step.2.type)) ↔
        (visited.any fun other => other.1.equals step.1) = true := by
      rw [List.any_eq_true, isAlias.type]
      constructor
      · rintro ⟨entry, member, key⟩
        obtain ⟨other, inList, rfl⟩ := List.mem_map.mp member
        rw [(inVisited other inList).key] at key
        exact ⟨other, inList, Name.equals_iff.mpr (congrArg (·.1) key)⟩
      · rintro ⟨other, inList, same⟩
        exact ⟨aliasEntry other, List.mem_map_of_mem inList, by rw [(inVisited other inList).key, Name.equals_iff.mp same]⟩
    unfold visit addAlias
    rcases @Logged.addSet _ _ _ _ step.1 step.2 .answer logged (aliasEntry_lawful inVisited) (type_ne_rrsig isAlias.rrset) with
      ⟨⟨_, found⟩, same⟩ | ⟨fresh, added⟩
    · rw [if_pos (present.mp found)]
      exact same
    · rw [if_neg fun isPresent => fresh ⟨plain, present.mpr isPresent⟩, List.map_append]
      exact added

end Aliases

end NameServer

end TrafficControl.TrafficRouter.Dns
