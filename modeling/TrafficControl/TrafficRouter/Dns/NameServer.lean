import TrafficControl.TrafficRouter.Dns.ZoneSignerImpl
import TrafficControl.TrafficRouter.Hash.ConsistentHasher

set_option autoImplicit false

namespace TrafficControl.TrafficRouter.Dns

open Record SignedBytes

namespace Name

def isWild (this : Name) : Bool := this.labels.head? == some [0x2a]

variable {a b : Name}

theorem toLowerCase_asterisk (octet : Byte) : toLowerCase octet = 0x2a#8 ↔ octet = 0x2a#8 := by
  unfold toLowerCase
  split_ifs <;> bv_omega

theorem isWild_iff : a.isWild = true ↔ a.canonical.head? = some [0x2a] := by
  unfold isWild canonical
  rw [beq_iff_eq, List.head?_map]
  cases a.labels with
  | nil => simp
  | cons label labels =>
    cases label with
    | nil => simp
    | cons octet label => simp [toLowerCase_asterisk]

theorem isWild_congr (same : a.equals b = true) : a.isWild = b.isWild :=
  Bool.eq_iff_iff.mpr (by rw [isWild_iff, isWild_iff, equals_iff.mp same])

end Name

def Record.withName (this : Record) (name : Name) : Record := { this with name }

inductive MessageSection where
  | question
  | answer
  | authority
  | additional
deriving DecidableEq

structure Message where
  records : MessageSection → List Record

namespace Message

def addRecord (this : Message) (r : Record) (s : MessageSection) : Message :=
  ⟨fun other => if other = s then this.records s ++ [r] else this.records other⟩

def findRRset (this : Message) (name : Name) (type : BitVec 16) (s : MessageSection) : Bool :=
  (this.records s).any fun r => r.type == type && r.name.equals name

end Message

/-- What is asked of a zone: its iterator, and the answers where `findRecords` is successful. -/
structure ZoneContents where
  origin : Name
  iterator : List RRset
  findRecords : Name → BitVec 16 → Option (List RRset)

namespace NameServer

def FLAG_DNSSECOK : BitVec 32 := 1
def FLAG_SIGONLY : BitVec 32 := 2

section Responses

variable (shuffle : Shuffle Record)

-- A record of a wildcard is given the name that was asked for.
def expand (name : Name) (r : Record) : Record := if r.name.isWild && !name.isWild then r.withName name else r

def addRecords (response : Message) (records : List Record) (s : MessageSection) : Message :=
  records.foldl (fun response r => response.addRecord r s) response

def addRRset (name : Name) (response : Message) (rrset : RRset) (s : MessageSection) (flags : BitVec 32) : Message :=
  if [.answer, .authority, .additional].any fun s => response.findRRset name rrset.type s then response
  else
    let recordList := if flags &&& FLAG_SIGONLY = 0 then rrset.rrs.map (expand name) else []
    let response := addRecords response (shuffle.run recordList) s
    if flags &&& (FLAG_SIGONLY ||| FLAG_DNSSECOK) ≠ 0 then addRecords response (rrset.sigs.map (expand name)) s else response

-- The loop over the records of one set; the candidate comes with the set that it was found in.
def scan (qname : Name) (rrset : RRset) : List Record → Option (Name × RRset) → Option (Name × RRset)
  | [], candidate => candidate
  | r :: rrs, candidate =>
    if r.name.compareTo qname < 0 ∨ candidate.any fun c => r.name.compareTo c.1 < 0 then
      scan qname rrset rrs (some (r.name, rrset))
    else if 0 < r.name.compareTo qname ∧ candidate.isSome then candidate
    else scan qname rrset rrs candidate

def nsecSpan (qname : Name) (iterator : List RRset) (candidate : Option (Name × RRset)) : Option (Name × RRset) :=
  iterator.foldl (fun candidate rrset => if rrset.type = NSEC then scan qname rrset rrset.rrs candidate else candidate) candidate

def addDenialOfExistence (spanShuffle answerShuffle : Shuffle Record) (qname : Name) (zone : ZoneContents) (response : Message)
    (flags : BitVec 32) : Message :=
  if flags &&& (FLAG_SIGONLY ||| FLAG_DNSSECOK) = 0 then response
  else
    let response := (nsecSpan qname zone.iterator none).elim response fun (candidate, span) =>
      addRRset spanShuffle candidate response span .authority flags
    (zone.findRecords zone.origin NSEC).elim response fun answers =>
      answers.foldl (fun response answer => addRRset answerShuffle qname response answer .authority flags) response

end Responses

section Scan

variable {qname : Name} {rrset span : RRset}

/-- A set of a name before the question becomes the candidate. -/
theorem scan_before {rrs : List Record} (some_ : rrs ≠ []) (before : ∀ r ∈ rrs, r.name.compareTo qname < 0)
    (candidate : Option (Name × RRset)) : ∃ r ∈ rrs, scan qname rrset rrs candidate = some (r.name, rrset) := by
  induction rrs generalizing candidate with
  | nil => exact absurd rfl some_
  | cons r rrs ih =>
    rw [scan, if_pos (Or.inl (before r List.mem_cons_self))]
    cases rrs with
    | nil => exact ⟨r, List.mem_cons_self, rfl⟩
    | cons second rrs =>
      obtain ⟨last, member, result⟩ := ih (by simp) (fun r member => before r (List.mem_cons_of_mem _ member)) (some (r.name, rrset))
      exact ⟨last, List.mem_cons_of_mem _ member, result⟩

/-- A set of a name after the question leaves the candidate. -/
theorem scan_after {rrs : List Record} {candidate : Name × RRset}
    (after : ∀ r ∈ rrs, ¬r.name.compareTo qname < 0 ∧ ¬r.name.compareTo candidate.1 < 0) :
    scan qname rrset rrs (some candidate) = some candidate := by
  induction rrs with
  | nil => rfl
  | cons r rrs ih =>
    obtain ⟨question, earlier⟩ := after r List.mem_cons_self
    rw [scan, if_neg (by simp [question, earlier])]
    split_ifs
    · rfl
    · exact ih fun r member => after r (List.mem_cons_of_mem _ member)

theorem nsecSpan_after {iterator : List RRset} {candidate : Name × RRset}
    (after : ∀ rrset ∈ iterator, rrset.type = NSEC → ∀ r ∈ rrset.rrs,
      ¬r.name.compareTo qname < 0 ∧ ¬r.name.compareTo candidate.1 < 0) :
    nsecSpan qname iterator (some candidate) = some candidate := by
  induction iterator with
  | nil => rfl
  | cons rrset iterator ih =>
    have rest := ih fun rrset member => after rrset (List.mem_cons_of_mem _ member)
    unfold nsecSpan at rest ⊢
    rw [List.foldl_cons]
    split_ifs with nsec
    · rw [scan_after (after rrset List.mem_cons_self nsec)]
      exact rest
    · exact rest

/-- The span is the last of the NSEC sets before the question. -/
theorem nsecSpan_split {before after : List RRset} (nsec : span.type = NSEC) (some_ : span.rrs ≠ [])
    (first : ∀ r ∈ span.rrs, r.name.compareTo qname < 0)
    (later : ∀ rrset ∈ after, rrset.type = NSEC → ∀ r ∈ rrset.rrs, ¬r.name.compareTo qname < 0) :
    ∃ r ∈ span.rrs, nsecSpan qname (before ++ span :: after) none = some (r.name, span) := by
  obtain ⟨r, member, result⟩ := scan_before some_ first (nsecSpan qname before none)
  refine ⟨r, member, ?_⟩
  have whole : nsecSpan qname (before ++ span :: after) none = nsecSpan qname after (some (r.name, span)) := by
    unfold nsecSpan at result ⊢
    rw [List.foldl_append, List.foldl_cons, if_pos nsec, result]
  rw [whole]
  refine nsecSpan_after fun rrset inAfter nsec' other inSet => ?_
  have question := later rrset inAfter nsec' other inSet
  refine ⟨question, fun earlier => question ?_⟩
  exact Name.compareTo_trans earlier (first r member)

end Scan

section Counts

variable {shuffle : Shuffle Record} {name : Name} {response : Message} {rrset : RRset} {s : MessageSection} {flags : BitVec 32} {record : Record}

theorem records_addRecords (response : Message) (records : List Record) (s : MessageSection) :
    (addRecords response records s).records s = response.records s ++ records ∧
      ∀ other ≠ s, (addRecords response records s).records other = response.records other := by
  induction records generalizing response with
  | nil => exact ⟨(List.append_nil _).symm, fun _ _ => rfl⟩
  | cons r records ih =>
    obtain ⟨same, others⟩ := ih (response.addRecord r s)
    unfold addRecords at same others ⊢
    rw [List.foldl_cons]
    refine ⟨?_, fun other different => ?_⟩
    · rw [same]
      simp [Message.addRecord]
    · rw [others other different]
      simp [Message.addRecord, different]

/-- A set that the response does not have yet is added, in some order, with its signatures. -/
theorem records_addRRset (shuffle : Shuffle Record) (s : MessageSection) (flags : BitVec 32)
    (fresh : ∀ s ≠ .question, response.findRRset name rrset.type s = false) :
    ∃ records signatures, records.Perm (if flags &&& FLAG_SIGONLY = 0 then rrset.rrs.map (expand name) else []) ∧
      (∀ r ∈ signatures, r ∈ rrset.sigs.map (expand name)) ∧
      (addRRset shuffle name response rrset s flags).records s = response.records s ++ records ++ signatures ∧
      ∀ other ≠ s, (addRRset shuffle name response rrset s flags).records other = response.records other := by
  have absent : ¬[MessageSection.answer, .authority, .additional].any (fun s => response.findRRset name rrset.type s) = true := by
    simp [fresh]
  unfold addRRset
  rw [if_neg absent]
  dsimp only
  generalize (if flags &&& FLAG_SIGONLY = 0 then rrset.rrs.map (expand name) else []) = recordList
  obtain ⟨same, others⟩ := records_addRecords response (shuffle.run recordList) s
  split_ifs
  · obtain ⟨same', others'⟩ := records_addRecords (addRecords response (shuffle.run recordList) s) (rrset.sigs.map (expand name)) s
    refine ⟨_, _, shuffle.perm recordList, fun r member => member, ?_, fun other different => ?_⟩
    · rw [same', same]
    · rw [others' other different, others other different]
  · exact ⟨_, [], shuffle.perm recordList, fun _ none => absurd none List.not_mem_nil, by rw [same, List.append_nil], others⟩

theorem type_expand (name : Name) (r : Record) : (expand name r).type = r.type := by
  unfold expand
  split_ifs <;> rfl

theorem countP_addRRset (shuffle : Shuffle Record) (s : MessageSection) (flags : BitVec 32)
    (fresh : ∀ s ≠ .question, response.findRRset name rrset.type s = false) (separate : rrset.Separate) (plain : record.type ≠ RRSIG) :
    ((addRRset shuffle name response rrset s flags).records s).countP (·.equals record) =
      (response.records s).countP (·.equals record) +
        if flags &&& FLAG_SIGONLY = 0 then (rrset.rrs.map (expand name)).countP (·.equals record) else 0 := by
  obtain ⟨records, signatures, perm, fromSigs, result, _⟩ := records_addRRset shuffle s flags fresh
  have none : signatures.countP (·.equals record) = 0 := by
    rw [List.countP_eq_zero]
    intro r member same
    obtain ⟨signature, inSigs, rfl⟩ := List.mem_map.mp (fromSigs r member)
    refine plain ((RRset.type_eq (beq_iff_eq.mp same)).symm.trans ?_)
    rw [type_expand]
    exact separate.signatures signature inSigs
  rw [result, List.countP_append, List.countP_append, none, Nat.add_zero, perm.countP_eq]
  split_ifs <;> rfl

end Counts

end NameServer

end TrafficControl.TrafficRouter.Dns
