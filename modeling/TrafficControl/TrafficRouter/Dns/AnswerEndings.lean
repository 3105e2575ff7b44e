import TrafficControl.TrafficRouter.Dns.AnswerSections

set_option autoImplicit false

namespace TrafficControl.TrafficRouter.Dns

open Record SignedBytes ZoneSignerImpl

namespace NameServer

section Flags

variable {type : BitVec 16} {dnssecRequest : Bool}

theorem lookupFlags_sigOnly : lookupFlags type dnssecRequest &&& FLAG_SIGONLY = 0 ↔ ¬(type = SIG ∨ type = RRSIG) := by
  unfold lookupFlags
  by_cases signatures : type = SIG ∨ type = RRSIG
  · cases dnssecRequest <;> simp [signatures] <;> decide
  · cases dnssecRequest
    · simp [signatures]
    · simp [signatures]
      decide

end Flags

theorem exists_last {α : Type} {p : α → Prop} {l : List α} (some_ : ∃ x ∈ l, p x) :
    ∃ front x back, l = front ++ x :: back ∧ p x ∧ ∀ y ∈ back, ¬p y := by
  induction l with
  | nil =>
    obtain ⟨_, absent, _⟩ := some_
    cases absent
  | cons a l ih =>
    by_cases later : ∃ x ∈ l, p x
    · obtain ⟨front, x, back, split, holds, none⟩ := ih later
      exact ⟨a :: front, x, back, congrArg (a :: ·) split, holds, none⟩
    · obtain ⟨x, member, holds⟩ := some_
      rcases List.mem_cons.mp member with rfl | inLater
      · exact ⟨[], x, l, rfl, holds, fun y inBack holds' => later ⟨y, inBack, holds'⟩⟩
      · exact absurd ⟨x, inLater, holds⟩ later

section Span

variable {qname : Name} {iterator : List RRset}

/-- Without an NSEC set before the name there is no span. -/
theorem nsecSpan_none (lawful : ∀ rrset ∈ iterator, rrset.Lawful)
    (after : ∀ rrset ∈ iterator, rrset.type = NSEC → ¬rrset.name.compareTo qname < 0) : nsecSpan qname iterator none = none := by
  induction iterator with
  | nil => rfl
  | cons rrset iterator ih =>
    have others := ih (fun other member => lawful other (List.mem_cons_of_mem _ member)) fun other member => after other (List.mem_cons_of_mem _ member)
    have kept : (if rrset.type = NSEC then scan qname rrset rrset.rrs none else none) = none := by
      split_ifs with nsec
      · have names : ∀ r ∈ rrset.rrs, ¬r.name.compareTo qname < 0 := fun r member before => by
          refine after rrset List.mem_cons_self nsec ?_
          unfold Name.compareTo at before ⊢
          rw [← Name.equals_iff.mp ((lawful rrset List.mem_cons_self).records r member).2.2]
          exact before
        generalize rrset.rrs = rrs at names
        induction rrs with
        | nil => rfl
        | cons r rrs ih =>
          rw [scan, if_neg (by simp [names r List.mem_cons_self]), if_neg (by simp)]
          exact ih fun other member => names other (List.mem_cons_of_mem _ member)
      · rfl
    unfold nsecSpan at others ⊢
    rw [List.foldl_cons, kept]
    exact others

/-- The span is the last NSEC set before the name. -/
theorem nsecSpan_last (lawful : ∀ rrset ∈ iterator, rrset.Lawful) {rrset : RRset} (member : rrset ∈ iterator) (nsec : rrset.type = NSEC)
    (before : rrset.name.compareTo qname < 0) : ∃ front span back candidate, iterator = front ++ span :: back ∧ span.type = NSEC ∧
      span.name.compareTo qname < 0 ∧ (∀ other ∈ back, other.type = NSEC → ¬other.name.compareTo qname < 0) ∧
      nsecSpan qname iterator none = some (candidate, span) ∧ span.name.equals candidate = true := by
  have last : ∃ front span back, iterator = front ++ span :: back ∧ (span.type = NSEC ∧ span.name.compareTo qname < 0) ∧
      ∀ other ∈ back, ¬(other.type = NSEC ∧ other.name.compareTo qname < 0) :=
    exists_last ⟨rrset, member, nsec, before⟩
  obtain ⟨front, span, back, split, ⟨isNsec, isBefore⟩, later⟩ := last
  have spanLawful := lawful span (split ▸ List.mem_append_right _ List.mem_cons_self)
  have names {other : RRset} (otherLawful : other.Lawful) {r : Record} (inSet : r ∈ other.rrs) :
      r.name.compareTo qname < 0 ↔ other.name.compareTo qname < 0 := by
    unfold Name.compareTo
    rw [Name.equals_iff.mp (otherLawful.records r inSet).2.2]
  obtain ⟨r, inSpan, found⟩ := @nsecSpan_split qname span front back isNsec spanLawful.filled (fun r inSet => (names spanLawful inSet).mpr isBefore)
    fun other inBack otherNsec r inSet below => later other inBack ⟨otherNsec,
      (names (lawful other (split ▸ List.mem_append_right _ (List.mem_cons_of_mem _ inBack))) inSet).mp below⟩
  refine ⟨front, span, back, r.name, split, isNsec, isBefore, fun other inBack otherNsec below => later other inBack ⟨otherNsec, below⟩, ?_, ?_⟩
  · rw [split]
    exact found
  · exact Name.equals_iff.mpr (Name.equals_iff.mp (spanLawful.records r inSpan).2.2).symm

end Span

section Soa

variable {flags : BitVec 32} {rrset : RRset} {record : Record}

theorem lowered_identity (record : Record) : (lowered record).type = record.type ∧ (lowered record).name = record.name ∧
    (lowered record).rrsetType = record.rrsetType := by
  unfold lowered
  split_ifs <;> exact ⟨rfl, rfl, rfl⟩

theorem recordsToRRSet_single (plain : record.type ≠ RRSIG) :
    recordsToRRSet [record] = ⟨record.name, record.dclass, record.rrsetType, [record], []⟩ := by
  unfold recordsToRRSet
  simp [RRset.addRR, plain]

theorem single_lawful (plain : record.type ≠ RRSIG) : (recordsToRRSet [record]).Lawful := by
  rw [recordsToRRSet_single plain]
  refine ⟨⟨?_, ?_, ?_⟩, List.cons_ne_nil _ _, ?_, ?_, List.nodup_nil⟩
  · intro r member
    exact List.mem_singleton.mp member ▸ plain
  · exact fun _ absent => absurd absent List.not_mem_nil
  · exact List.nodup_singleton _
  · intro r member
    rw [List.mem_singleton.mp member]
    exact ⟨rfl, rfl, Name.equals_iff.mpr rfl⟩
  · exact fun _ absent => absurd absent List.not_mem_nil

/-- A SOA set stays one of its name and type. -/
theorem setNegativeTTL_lawful (lawful : rrset.Lawful) (one : rrset.rrs = [record]) :
    (setNegativeTTL rrset flags).Lawful ∧ (setNegativeTTL rrset flags).type = rrset.type ∧
      (setNegativeTTL rrset flags).name.equals rrset.name = true := by
  unfold setNegativeTTL
  split_ifs with signed
  · exact ⟨lawful, rfl, Name.equals_iff.mpr rfl⟩
  · have inSet : record ∈ rrset.rrs := one ▸ List.mem_cons_self
    obtain ⟨type, name, rrsetType⟩ := lowered_identity record
    obtain ⟨isType, _, isName⟩ := lawful.records record inSet
    have notSignature : (lowered record).type ≠ RRSIG := type ▸ lawful.separate.plain record inSet
    rw [one, List.map_singleton]
    refine ⟨single_lawful notSignature, ?_⟩
    rw [recordsToRRSet_single notSignature]
    exact ⟨rrsetType.trans isType, name ▸ isName⟩

theorem setNegativeTTL_unsigned (one : rrset.rrs = [record]) (plain : record.type ≠ RRSIG)
    (unsigned : rrset.sigs = [] ∨ flags &&& (FLAG_SIGONLY ||| FLAG_DNSSECOK) = 0) :
    (setNegativeTTL rrset flags).rrs = [lowered record] ∧ (setNegativeTTL rrset flags).sigs = [] := by
  have modified : ¬(rrset.sigs ≠ [] ∧ flags &&& (FLAG_SIGONLY ||| FLAG_DNSSECOK) ≠ 0) := fun signed => unsigned.elim signed.1 signed.2
  unfold setNegativeTTL
  rw [if_neg modified, one, List.map_singleton, recordsToRRSet_single ((lowered_identity record).1 ▸ plain)]
  exact ⟨rfl, rfl⟩

/-- Without DNSSEC the TTL is the last field, however large, unless both are zero. -/
theorem ttl_lowered (soa : record.type = SOA) : (lowered record).ttl = min record.ttl (getMinimum record) ↔ getMinimum record ≤ record.ttl := by
  unfold lowered
  split_ifs with changed
  · dsimp only
    omega
  · have zero : getMinimum record = 0 := by
      by_contra nonzero
      exact changed ⟨soa, Or.inl nonzero⟩
    have small : ¬getMinimum record < record.ttl := fun less => changed ⟨soa, Or.inr less⟩
    omega

end Soa

section Endings

variable {shuffle : Name → BitVec 16 → Shuffle Record} {flags : BitVec 32} {entries : List Entry} {message : Message} {zone : ServedZone}
  {qname : Name} {qtype : BitVec 16}

theorem lawful_append {others : List Entry} (first : ∀ entry ∈ entries, entry.Lawful) (second : ∀ entry ∈ others, entry.Lawful) :
    ∀ entry ∈ entries ++ others, entry.Lawful := fun entry member => (List.mem_append.mp member).elim (first entry) (second entry)

/-- Sets found at a name are all of one type, unless all are asked for. -/
theorem answers_single (lawful : zone.Lawful) {answers : List RRset} (found : zone.findRecords qname qtype = .successful answers)
    (one : qtype ≠ ANY) : answers = [] ∨ ∃ rrset, answers = [rrset] ∧ rrset.type = qtype := by
  obtain ⟨types, each⟩ := lawful.answers qname qtype answers found
  cases answers with
  | nil => exact Or.inl rfl
  | cons rrset answers =>
    have type := (each rrset List.mem_cons_self).2.1 one
    cases answers with
    | nil => exact Or.inr ⟨rrset, rfl, type⟩
    | cons other answers =>
      have type' := (each other (List.mem_cons_of_mem _ List.mem_cons_self)).2.1 one
      exact absurd (type.trans type'.symm) ((List.pairwise_cons.mp types).1 other List.mem_cons_self)

/-- At data the found sets come after the aliases, and then the name servers if they are not among them. -/
theorem data_logged (lawful : zone.Lawful) {answers : List RRset} (found : zone.findRecords qname qtype = .successful answers)
    (logged : Logged shuffle flags entries message) (entriesLawful : ∀ entry ∈ entries, entry.Lawful)
    (aliases : ∀ entry ∈ entries, entry.rrset.type = CNAME ∧ qtype ≠ CNAME ∧ qtype ≠ ANY) :
    (flags &&& FLAG_SIGONLY = 0 ∧
        (∃ entry ∈ entries ++ answers.map fun rrset => ⟨.answer, qname, rrset⟩, entry.key = (zone.getNS.name.canonical, NS)) ∧
        Logged shuffle flags (entries ++ answers.map fun rrset => ⟨.answer, qname, rrset⟩)
          ((Ending.data zone qname answers).finish shuffle flags message)) ∨
      ¬(flags &&& FLAG_SIGONLY = 0 ∧
        ∃ entry ∈ entries ++ answers.map fun rrset => ⟨.answer, qname, rrset⟩, entry.key = (zone.getNS.name.canonical, NS)) ∧
        Logged shuffle flags ((entries ++ answers.map fun rrset => ⟨.answer, qname, rrset⟩) ++ [⟨.authority, zone.getNS.name, zone.getNS⟩])
          ((Ending.data zone qname answers).finish shuffle flags message) := by
  obtain ⟨types, each⟩ := lawful.answers qname qtype answers found
  have added := @Logged.addSets shuffle flags entries message qname .answer answers logged entriesLawful
    (fun rrset member => (each rrset member).1) (fun isQuestion => by cases isQuestion) types fun rrset member entry inEntries key => by
      obtain ⟨isAlias, notCname, notAny⟩ := aliases entry inEntries
      exact notCname (((each rrset member).2.1 notAny).symm.trans ((congrArg (·.2) key).symm.trans isAlias))
  have lawfuls := lawful_append entriesLawful (List.forall_mem_map.mpr fun rrset member =>
    (⟨(each rrset member).1, fun isQuestion => by cases isQuestion⟩ : Entry.Lawful ⟨.answer, qname, rrset⟩))
  obtain ⟨nsLawful, isNs, _⟩ := lawful.getNS
  have result := @Logged.addSet shuffle flags _ _ zone.getNS.name zone.getNS .authority added lawfuls (type_ne_rrsig nsLawful)
  rw [isNs, and_assoc] at result
  exact result

/-- The SOA set comes last. -/
theorem addSOA_logged (lawful : zone.Lawful) (logged : Logged shuffle flags entries message) (entriesLawful : ∀ entry ∈ entries, entry.Lawful)
    (others : ∀ entry ∈ entries, entry.rrset.type ≠ SOA) : ∃ rrset soa, zone.findRecords zone.origin SOA = .successful [rrset] ∧
      rrset.rrs = [soa] ∧ soa.type = SOA ∧ Entry.Lawful ⟨.authority, zone.origin, setNegativeTTL rrset flags⟩ ∧
      (setNegativeTTL rrset flags).type = SOA ∧
      Logged shuffle flags (entries ++ [⟨.authority, zone.origin, setNegativeTTL rrset flags⟩]) (addSOA shuffle zone message .authority flags) := by
  obtain ⟨rrset, soa, found, one⟩ := lawful.soa
  obtain ⟨rrsetLawful, type, _⟩ := (lawful.answers zone.origin SOA [rrset] found).2 rrset List.mem_cons_self
  have isSoa := type (by decide)
  obtain ⟨lawful', type', _⟩ := @setNegativeTTL_lawful flags rrset soa rrsetLawful one
  rw [isSoa] at type'
  refine ⟨rrset, soa, found, one, ?_, ⟨lawful', fun isQuestion => by cases isQuestion⟩, type', ?_⟩
  · have inSet : soa ∈ rrset.rrs := one ▸ List.mem_cons_self
    exact (rrsetType_plain (rrsetLawful.separate.plain soa inSet)).symm.trans ((rrsetLawful.records soa inSet).1.trans isSoa)
  · unfold addSOA
    rw [found]
    refine @Logged.addSets shuffle flags entries message zone.origin .authority [setNegativeTTL rrset flags] logged entriesLawful
      (fun other member => List.mem_singleton.mp member ▸ lawful') (fun isQuestion => by cases isQuestion) (List.pairwise_singleton _ _)
      fun other member entry inEntries key => ?_
    rw [List.mem_singleton.mp member, type'] at key
    exact others entry inEntries (congrArg (·.2) key)

/-- Where only the type is missing, the NSEC set of the name may be added. -/
theorem addNoData_logged (lawful : zone.Lawful) (logged : Logged shuffle flags entries message) (entriesLawful : ∀ entry ∈ entries, entry.Lawful)
    (others : ∀ entry ∈ entries, entry.rrset.type ≠ NSEC) : ∃ added, (added = [] ∨ ∃ rrset, added = [⟨.authority, qname, rrset⟩] ∧
      rrset.type = NSEC ∧ rrset.Lawful) ∧ Logged shuffle flags (entries ++ added) (addNoData shuffle flags qname zone message) := by
  have unchanged : ∃ added : List Entry, (added = [] ∨ ∃ rrset, added = [⟨.authority, qname, rrset⟩] ∧ rrset.type = NSEC ∧ rrset.Lawful) ∧
      Logged shuffle flags (entries ++ added) message := ⟨[], Or.inl rfl, by rw [List.append_nil]; exact logged⟩
  unfold addNoData
  split_ifs
  · cases found : zone.findRecords qname NSEC with
    | successful answers =>
      obtain ⟨types, each⟩ := lawful.answers qname NSEC answers found
      refine ⟨answers.map fun rrset => ⟨.authority, qname, rrset⟩, ?_, @Logged.addSets shuffle flags entries message qname .authority answers logged
        entriesLawful (fun rrset member => (each rrset member).1) (fun isQuestion => by cases isQuestion) types
        fun rrset member entry inEntries key => others entry inEntries ((congrArg (·.2) key).trans ((each rrset member).2.1 (by decide)))⟩
      rcases answers_single lawful found (by decide) with rfl | ⟨rrset, rfl, type⟩
      · exact Or.inl rfl
      · exact Or.inr ⟨rrset, rfl, type, (each rrset List.mem_cons_self).1⟩
    | cname rrset target => exact unchanged
    | nxdomain => exact unchanged
    | nxrrset => exact unchanged
    | other => exact unchanged
  · exact unchanged

-- The set before a missing name, and the set of the origin under the missing name.
def spanEntries (qname : Name) (zone : ServedZone) : List Entry :=
  ((nsecSpan qname zone.iterator none).map fun found => ⟨.authority, found.1, found.2⟩).toList

def originEntries (qname : Name) (zone : ServedZone) : List Entry :=
  ((zone.findRecords zone.origin NSEC).answers.getD []).map fun rrset => ⟨.authority, qname, rrset⟩

theorem mem_spanEntries (lawful : zone.Lawful) {entry : Entry} (member : entry ∈ spanEntries qname zone) :
    entry.Lawful ∧ entry.inSection = .authority ∧ entry.rrset ∈ zone.iterator ∧ entry.rrset.type = NSEC ∧ entry.rrset.name.compareTo qname < 0 ∧
      entry.rrset.name.equals entry.name = true := by
  unfold spanEntries at member
  by_cases before : ∃ rrset ∈ zone.iterator, rrset.type = NSEC ∧ rrset.name.compareTo qname < 0
  · obtain ⟨rrset, inZone, nsec, below⟩ := before
    obtain ⟨front, span, back, candidate, split, isNsec, isBelow, _, found, name⟩ := nsecSpan_last lawful.iterator inZone nsec below
    rw [found] at member
    rw [List.mem_singleton.mp member]
    have inIterator : span ∈ zone.iterator := split ▸ List.mem_append_right _ List.mem_cons_self
    exact ⟨⟨lawful.iterator span inIterator, fun isQuestion => by cases isQuestion⟩, rfl, inIterator, isNsec, isBelow, name⟩
  · rw [nsecSpan_none lawful.iterator fun rrset inZone nsec below => before ⟨rrset, inZone, nsec, below⟩] at member
    cases member

theorem mem_originEntries (lawful : zone.Lawful) {entry : Entry} (member : entry ∈ originEntries qname zone) :
    entry.Lawful ∧ entry.inSection = .authority ∧ entry.name = qname ∧ entry.rrset.type = NSEC ∧ entry.rrset.name.equals zone.origin = true ∧
      zone.findRecords zone.origin NSEC = .successful [entry.rrset] := by
  unfold originEntries at member
  cases found : zone.findRecords zone.origin NSEC with
  | successful answers =>
    rw [found] at member
    rcases answers_single lawful found (by decide) with rfl | ⟨rrset, rfl, type⟩
    · cases member
    · obtain ⟨rrsetLawful, _, name⟩ := (lawful.answers zone.origin NSEC [rrset] found).2 rrset List.mem_cons_self
      rw [List.mem_singleton.mp member]
      have own : rrset.name.equals zone.origin = true := name.resolve_right fun wild => wild.2 (Name.equals_iff.mpr rfl)
      exact ⟨⟨rrsetLawful, fun isQuestion => by cases isQuestion⟩, rfl, rfl, type, own, rfl⟩
  | cname rrset target =>
    rw [found] at member
    cases member
  | nxdomain =>
    rw [found] at member
    cases member
  | nxrrset =>
    rw [found] at member
    cases member
  | other =>
    rw [found] at member
    cases member

/-- A missing name is denied by the span before it and the set of the origin, whether or not that is the span. -/
theorem addDenial_logged (lawful : zone.Lawful) (logged : Logged shuffle flags entries message) (entriesLawful : ∀ entry ∈ entries, entry.Lawful)
    (others : ∀ entry ∈ entries, entry.rrset.type ≠ NSEC) (dnssec : flags &&& (FLAG_SIGONLY ||| FLAG_DNSSECOK) ≠ 0) :
    Logged shuffle flags (entries ++ spanEntries qname zone ++ originEntries qname zone) (addDenial shuffle qname zone message flags) := by
  have spans : Logged shuffle flags (entries ++ spanEntries qname zone)
      ((nsecSpan qname zone.iterator none).elim message fun found => addSet shuffle found.1 message found.2 .authority flags) := by
    have each := @mem_spanEntries zone qname lawful
    unfold spanEntries at each ⊢
    cases span : nsecSpan qname zone.iterator none with
    | none => simpa using logged
    | some found =>
      rw [span] at each
      obtain ⟨spanLawful, _, _, nsec, _, _⟩ := each List.mem_cons_self
      rcases @Logged.addSet shuffle flags _ _ found.1 found.2 .authority logged entriesLawful (type_ne_rrsig spanLawful.rrset) with
        ⟨⟨_, entry, member, key⟩, _⟩ | ⟨_, added⟩
      · exact absurd ((congrArg (·.2) key).trans nsec) (others entry member)
      · exact added
  have denial : addDenial shuffle qname zone message flags = addSets shuffle qname
      ((nsecSpan qname zone.iterator none).elim message fun found => addSet shuffle found.1 message found.2 .authority flags)
      ((zone.findRecords zone.origin NSEC).answers.getD []) .authority flags := by
    have first : ((nsecSpan qname zone.iterator none).elim message fun found =>
        addRRset (shuffle ((nsecSpan qname zone.iterator none).elim qname Prod.fst) NSEC) found.1 message found.2 .authority flags) =
        (nsecSpan qname zone.iterator none).elim message fun found => addSet shuffle found.1 message found.2 .authority flags := by
      have each := @mem_spanEntries zone qname lawful
      unfold spanEntries at each
      cases span : nsecSpan qname zone.iterator none with
      | none => rfl
      | some found =>
        rw [span] at each
        have nsec : found.2.type = NSEC := (each List.mem_cons_self).2.2.2.1
        unfold addSet
        rw [Option.elim_some, Option.elim_some, Option.elim_some, nsec]
    unfold addDenial addDenialOfExistence
    rw [if_neg dnssec]
    dsimp only
    rw [← first]
    have each := @mem_originEntries zone qname lawful
    unfold originEntries at each
    unfold ServedZone.contents addSets addSet
    dsimp only at each ⊢
    cases answers : (zone.findRecords zone.origin NSEC).answers with
    | none => rfl
    | some answers =>
      rw [answers] at each
      rw [Option.elim_some, Option.getD_some]
      refine List.foldl_ext _ _ _ fun response rrset member => ?_
      have nsec : rrset.type = NSEC := (each (List.mem_map_of_mem member)).2.2.2.1
      rw [nsec]
  rw [denial]
  have spanLawfuls := lawful_append entriesLawful fun entry member => (@mem_spanEntries zone qname lawful entry member).1
  have each := @mem_originEntries zone qname lawful
  unfold originEntries at each ⊢
  refine @Logged.addSets shuffle flags _ _ qname .authority _ spans spanLawfuls (fun rrset member => (each (List.mem_map_of_mem member)).1.rrset)
    (fun isQuestion => by cases isQuestion) ?_ fun rrset member entry inEntries key => ?_
  · cases found : zone.findRecords zone.origin NSEC with
    | successful answers => exact (lawful.answers zone.origin NSEC answers found).1
    | cname rrset target => exact List.Pairwise.nil
    | nxdomain => exact List.Pairwise.nil
    | nxrrset => exact List.Pairwise.nil
    | other => exact List.Pairwise.nil
  · have nsec : rrset.type = NSEC := (each (List.mem_map_of_mem member)).2.2.2.1
    rcases List.mem_append.mp inEntries with old | inSpan
    · exact others entry old ((congrArg (·.2) key).trans nsec)
    · -- The span is of a name before the missing one.
      obtain ⟨_, _, _, _, below, name⟩ := @mem_spanEntries zone qname lawful entry inSpan
      have owner : entry.rrset.name.canonical = qname.canonical := by
        have canonical := congrArg (·.1) key
        unfold Entry.key at canonical
        exact ((Name.equals_iff.mp name).trans (@owner_canonical entry.inSection entry.name entry.rrset name).symm).trans canonical
      have itself : entry.rrset.name.compareTo qname = 0 := Name.compareTo_zero.mpr (Name.equals_iff.mpr owner)
      omega

end Endings

end NameServer

end TrafficControl.TrafficRouter.Dns
