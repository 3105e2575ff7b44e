import TrafficControl.TrafficRouter.Dns.AbstractProtocol

set_option autoImplicit false

namespace TrafficControl.TrafficRouter.Dns

open Record SignedBytes ZoneSignerImpl

def NXDOMAIN : BitVec 4 := 3

/-- What a zone finds; `other` is a delegation or a DNAME. -/
inductive SetResponse where
  | successful (answers : List RRset)
  | cname (rrset : RRset) (target : Name)
  | nxdomain
  | nxrrset
  | other

def SetResponse.answers : SetResponse → Option (List RRset)
  | successful answers => some answers
  | _ => none

structure ServedZone where
  origin : Name
  getNS : RRset
  iterator : List RRset
  findRecords : Name → BitVec 16 → SetResponse

def ServedZone.contents (this : ServedZone) : ZoneContents :=
  ⟨this.origin, this.iterator, fun name type => (this.findRecords name type).answers⟩

structure Response where
  message : Message
  authoritative : Bool
  rcode : BitVec 4

namespace NameServer

def MAX_ITERATIONS : Nat := 6

-- The TTL of a SOA record becomes the last of its fields.
def lowered (record : Record) : Record :=
  if record.type = SOA ∧ (getMinimum record ≠ 0 ∨ getMinimum record < record.ttl) then { record with dclass := IN, ttl := getMinimum record }
  else record

def setNegativeTTL (original : RRset) (flags : BitVec 32) : RRset :=
  if original.sigs ≠ [] ∧ flags &&& (FLAG_SIGONLY ||| FLAG_DNSSECOK) ≠ 0 then original
  else recordsToRRSet (original.rrs.map lowered)

section Lookup

variable (shuffle : Name → BitVec 16 → Shuffle Record)

-- Each call of `addRRset` has its own order of the records.
def addSet (name : Name) (response : Message) (rrset : RRset) (s : MessageSection) (flags : BitVec 32) : Message :=
  addRRset (shuffle name rrset.type) name response rrset s flags

def addSets (name : Name) (response : Message) (answers : List RRset) (s : MessageSection) (flags : BitVec 32) : Message :=
  answers.foldl (fun response answer => addSet shuffle name response answer s flags) response

def addAuthority (zone : ServedZone) (response : Response) (flags : BitVec 32) : Response :=
  { response with message := addSet shuffle zone.getNS.name response.message zone.getNS .authority flags, authoritative := true }

def addSOA (zone : ServedZone) (response : Message) (s : MessageSection) (flags : BitVec 32) : Message :=
  match zone.findRecords zone.origin SOA with
  | .successful answers => addSets shuffle zone.origin response (answers.map fun answer => setNegativeTTL answer flags) s flags
  | _ => response

def addDenial (qname : Name) (zone : ServedZone) (response : Message) (flags : BitVec 32) : Message :=
  addDenialOfExistence (shuffle ((nsecSpan qname zone.iterator none).elim qname Prod.fst) NSEC) (shuffle qname NSEC) qname zone.contents
    response flags

variable (getZone : Name → BitVec 16 → Option ServedZone) (qtype : BitVec 16) (flags : BitVec 32)

-- The zone of the last round is kept while it has the name.
def locate (qname : Name) (incomingZone : Option ServedZone) : Option ServedZone :=
  match incomingZone with
  | none => getZone qname qtype
  | some zone => if qname.subdomain zone.origin then some zone else getZone qname qtype

-- With the response come the names that were looked up.
def lookup (qname : Name) (incomingZone : Option ServedZone) (response : Response) (iteration : Nat) : Response × List Name :=
  if MAX_ITERATIONS < iteration then (response, [])
  else
    match locate getZone qtype qname incomingZone with
    | none => (if iteration = 0 then { response with rcode := REFUSED } else response, [qname])
    | some zone =>
      match zone.findRecords qname qtype with
      | .successful answers =>
        (addAuthority shuffle zone { response with message := addSets shuffle qname response.message answers .answer flags } flags, [qname])
      | .cname rrset target =>
        let (response, names) :=
          lookup target (some zone) { response with message := addSet shuffle qname response.message rrset .answer flags } (iteration + 1)
        (response, qname :: names)
      | .nxdomain =>
        ({ message := addSOA shuffle zone (addDenial shuffle qname zone response.message flags) .authority flags, authoritative := true,
           rcode := NXDOMAIN }, [qname])
      | .nxrrset =>
        let message :=
          if flags &&& (FLAG_SIGONLY ||| FLAG_DNSSECOK) ≠ 0 then
            match zone.findRecords qname NSEC with
            | .successful answers => addSets shuffle qname response.message answers .authority flags
            | _ => response.message
          else response.message
        ({ response with message := addSOA shuffle zone message .authority flags, authoritative := true }, [qname])
      | .other => (response, [qname])
termination_by MAX_ITERATIONS + 1 - iteration

end Lookup

-- The type and the flags that a question is looked up with.
def lookupType (type : BitVec 16) : BitVec 16 := if type = SIG ∨ type = RRSIG then ANY else type

def lookupFlags (type : BitVec 16) (dnssecRequest : Bool) : BitVec 32 :=
  let flags := if dnssecRequest then FLAG_DNSSECOK else 0
  if type = SIG ∨ type = RRSIG then flags ||| FLAG_SIGONLY else flags

def answer (shuffle : Name → BitVec 16 → Shuffle Record) (getZone : Name → BitVec 16 → Option ServedZone) (qname : Name) (type : BitVec 16)
    (dnssecRequest : Bool) : Response × List Name :=
  lookup shuffle getZone (lookupType type) (lookupFlags type dnssecRequest) qname none ⟨⟨fun _ => []⟩, false, 0⟩ 0

end NameServer

/-- A set of one name, class and type, with its signatures. -/
structure RRset.Lawful (rrset : RRset) : Prop where
  separate : rrset.Separate
  filled : rrset.rrs ≠ []
  records : ∀ r ∈ rrset.rrs, r.rrsetType = rrset.type ∧ r.dclass = rrset.dclass ∧ r.name.equals rrset.name = true
  signatures : ∀ r ∈ rrset.sigs, r.rrsetType = rrset.type ∧ r.dclass = rrset.dclass ∧ r.name.equals rrset.name = true
  distinct : (rrset.sigs.map Record.identity).Nodup

/-- What is promised of a zone: sets are found under their own name or under a wildcard, an alias only under its own name and not when it
is asked for itself, and the iterator begins with the sets of the origin. -/
structure ServedZone.Lawful (this : ServedZone) : Prop where
  origin : this.origin.isWild = false
  getNS : this.getNS.Lawful ∧ this.getNS.type = NS ∧ this.getNS.name.equals this.origin = true
  iterator : ∀ rrset ∈ this.iterator, rrset.Lawful
  originFirst : ∃ first others, this.iterator = first ++ others ∧ (∀ rrset ∈ first, rrset.name.equals this.origin = true) ∧
    ∀ rrset ∈ others, ¬rrset.name.equals this.origin = true
  answers : ∀ name type answers, this.findRecords name type = .successful answers → (answers.Pairwise fun a b => a.type ≠ b.type) ∧
    ∀ rrset ∈ answers, rrset.Lawful ∧ (type ≠ ANY → rrset.type = type) ∧
      (rrset.name.equals name = true ∨ rrset.name.isWild = true ∧ ¬name.equals this.origin = true)
  aliases : ∀ name type rrset target, this.findRecords name type = .cname rrset target →
    rrset.Lawful ∧ rrset.type = CNAME ∧ rrset.name.equals name = true ∧ type ≠ CNAME ∧ type ≠ ANY
  nameServers : ∀ name type answers, this.findRecords name type = .successful answers → name.equals this.origin = true →
    ∀ rrset ∈ answers, rrset.type = NS → rrset = this.getNS
  denial : ∀ rrset ∈ this.iterator, rrset.type = NSEC → rrset.name.equals this.origin = true →
    this.findRecords this.origin NSEC = .successful [rrset]
  soa : ∃ rrset record, this.findRecords this.origin SOA = .successful [rrset] ∧ rrset.rrs = [record]

end TrafficControl.TrafficRouter.Dns
