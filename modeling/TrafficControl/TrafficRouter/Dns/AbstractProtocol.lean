import TrafficControl.TrafficRouter.Dns.NameServer

set_option autoImplicit false

namespace TrafficControl.TrafficRouter.Dns

open Record SignedBytes

structure Header where
  id : BitVec 16
  flags : BitVec 16
deriving DecidableEq

namespace Header

def QR : Nat := 0
def AA : Nat := 5
def RD : Nat := 7

-- Flags are counted from the left.
def getFlag (this : Header) (bit : Nat) : Bool := this.flags.getLsbD (15 - bit)

def setFlag (this : Header) (bit : Nat) : Header := { this with flags := this.flags ||| (1 <<< (15 - bit)) }

def getRcode (this : Header) : BitVec 4 := this.flags.setWidth 4

def setRcode (this : Header) (value : BitVec 4) : Header := { this with flags := this.flags &&& 0xfff0 ||| value.setWidth 16 }

end Header

def SERVFAIL : BitVec 4 := 2
def NOTIMP : BitVec 4 := 4
def REFUSED : BitVec 4 := 5

def SIG : BitVec 16 := 24
def OPT : BitVec 16 := 41
def ANY : BitVec 16 := 255

namespace Name

def toWire (name : Name) : List Byte := name.labels.flatMap (fun label => BitVec.ofNat 8 label.length :: label) ++ [0]

end Name

/-- A message with its header; `none` is a null record. -/
structure Packet where
  header : Header
  sections : MessageSection → List (Option Record)

-- The name and the rest of a question record, which come uncompressed after the header.
def questionToWire (question : Record) : List Byte := question.name.toWire ++ u16 question.type ++ u16 question.dclass

inductive Fault where
  | wireParseException
  | nullPointerException
deriving DecidableEq

namespace Packet

def addRecord (this : Packet) (r : Option Record) (s : MessageSection) : Packet :=
  { this with sections := fun other => if other = s then this.sections s ++ [r] else this.sections other }

def getQuestion (this : Packet) : Option Record := (this.sections .question).head?.join

def getOPT (this : Packet) : Option Record := (this.sections .additional).findSome? fun r => r.filter fun r => r.type = OPT

def headerToWire (this : Packet) : List Byte :=
  u16 this.header.id ++ u16 this.header.flags ++
    [.question, .answer, .authority, .additional].flatMap fun s => u16 (BitVec.ofNat 16 (this.sections s).length)

-- `rest` encodes what comes after the questions.
def toWire (rest : (MessageSection → List (Option Record)) → List Byte) (this : Packet) (maxLength : Nat) : Except Fault (List Byte) :=
  if [.question, .answer, .authority, .additional].any fun s => (this.sections s).contains none then .error .nullPointerException
  else .ok ((this.headerToWire ++ (this.sections .question).flatMap (·.elim [] questionToWire) ++ rest this.sections).take maxLength)

end Packet

namespace OPTRecord

def new (payloadSize xrcode version flags : Nat) : Record := ⟨⟨[]⟩, OPT, BitVec.ofNat 16 payloadSize, xrcode * 2 ^ 24 + version * 2 ^ 16 + flags, []⟩

def getPayloadSize (this : Record) : Nat := this.dclass.toNat

def getVersion (this : Record) : Nat := this.ttl / 2 ^ 16 % 2 ^ 8

def isDnssecOk (this : Record) : Bool := this.ttl.testBit 15

end OPTRecord

/-- What a lookup did to the response, and whether it ended in a runtime exception. -/
structure LookupOutcome where
  added : MessageSection → List Record
  added_question : added .question = []
  authoritative : Bool
  rcode : Option (BitVec 4)
  thrown : Bool

def LookupOutcome.apply (this : LookupOutcome) (response : Packet) : Packet where
  header :=
    let header := if this.authoritative then response.header.setFlag Header.AA else response.header
    this.rcode.elim header header.setRcode
  sections s := response.sections s ++ (this.added s).map some

namespace NameServer

def MAX_SUPPORTED_EDNS_VERS : Nat := 0
def BADVERS : Nat := 16

variable (lookup : Name → BitVec 16 → BitVec 32 → Bool → LookupOutcome)

def addQuestion (request response : Packet) : Packet :=
  let header := { response.header with id := request.header.id }.setFlag Header.QR
  let header := if request.header.getFlag Header.RD then header.setFlag Header.RD else header
  { response with header }.addRecord request.getQuestion .question

-- Whether a runtime exception was thrown comes with the response.
def addAnswers (request response : Packet) : Packet × Bool :=
  match request.getQuestion with
  | none => (response, false)
  | some question =>
    let qopt := request.getOPT
    if qopt.any fun opt => MAX_SUPPORTED_EDNS_VERS < OPTRecord.getVersion opt then
      ({ response with header := response.header.setRcode NOTIMP }.addRecord (some (OPTRecord.new 0 BADVERS MAX_SUPPORTED_EDNS_VERS 0))
        .additional, false)
    else if question.dclass ≠ IN ∧ question.dclass ≠ ANY then ({ response with header := response.header.setRcode REFUSED }, false)
    else
      let dnssecRequest := qopt.any OPTRecord.isDnssecOk
      let flags := if dnssecRequest then FLAG_DNSSECOK else 0
      let signatures := question.type = SIG ∨ question.type = RRSIG
      let qtype := if signatures then ANY else question.type
      let flags := if signatures then flags ||| FLAG_SIGONLY else flags
      let outcome := lookup question.name qtype flags dnssecRequest
      let response := outcome.apply response
      if outcome.thrown then (response, true)
      else if response.header.getRcode = REFUSED then (response, false)
      else if qopt.isSome ∧ flags = FLAG_DNSSECOK then (response.addRecord (some (OPTRecord.new 1280 0 0 0x8000)) .additional, false)
      else (response, false)

-- `newId` is the ID of a new message.
def query (newId : BitVec 16) (request : Packet) : Packet :=
  let response := addQuestion request ⟨⟨newId, 0⟩, fun _ => []⟩
  let (response, thrown) := addAnswers lookup request response
  if thrown then { response with header := response.header.setRcode SERVFAIL } else response

end NameServer

/-- What the parser promises of the messages that it accepts. -/
structure Packet.Accepted (this : Packet) : Prop where
  present : ∀ s, none ∉ this.sections s
  count : (this.sections .question).length < 2 ^ 16
  names : ∀ question, some question ∈ this.sections .question → question.name.toWire.length ≤ 255

structure MessageParser where
  parse : List Byte → Except Fault Packet
  accepted : ∀ wire query, parse wire = .ok query → query.Accepted

namespace AbstractProtocol

-- A null record among the answers is the only thing that the access event cannot be created from.
def logs (response : Packet) : Bool := !(response.sections .answer).contains none

def createServerFail (newId : BitVec 16) (query : Option Packet) : Packet :=
  match query with
  | none => ⟨{ id := newId, flags := 0 : Header }.setRcode SERVFAIL, fun _ => []⟩
  | some query => ⟨query.header.setRcode SERVFAIL, fun s => if s = .question then [query.getQuestion] else []⟩

def query (parser : MessageParser) (rest : (MessageSection → List (Option Record)) → List Byte) (nameServer : Packet → Except Fault Packet)
    (getMaxResponseLength : Option Packet → Nat) (newId : BitVec 16) (request : List Byte) : Except Fault (List Byte) :=
  match parser.parse request with
  | .error .wireParseException => .error .wireParseException
  | .error .nullPointerException => (createServerFail newId none).toWire rest (getMaxResponseLength none)
  | .ok query =>
    let response :=
      match nameServer query with
      | .ok response => if logs response then response else createServerFail newId (some query)
      | .error _ => createServerFail newId (some query)
    response.toWire rest (getMaxResponseLength (some query))

end AbstractProtocol

namespace UDP

def UDP_MSG_LENGTH : Nat := 512

def getMaxResponseLength (request : Option Packet) : Nat :=
  match request.bind Packet.getOPT with
  | none => UDP_MSG_LENGTH
  | some opt => OPTRecord.getPayloadSize opt

end UDP

section Replies

variable {lookup : Name → BitVec 16 → BitVec 32 → Bool → LookupOutcome} {query response : Packet}

/-- A response to a query, with only real records after the question. -/
structure Replies (query response : Packet) : Prop where
  id : response.header.id = query.header.id
  qr : response.header.getFlag Header.QR = true
  question : response.sections .question = [query.getQuestion]
  present : ∀ s ≠ .question, none ∉ response.sections s

theorem Header.getFlag_setRcode (header : Header) (value : BitVec 4) : (header.setRcode value).getFlag QR = header.getFlag QR := by
  unfold Header.setRcode Header.getFlag Header.QR
  simp

theorem Header.getFlag_setFlag (header : Header) (bit : Nat) (set : header.getFlag QR = true) : (header.setFlag bit).getFlag QR = true := by
  unfold Header.setFlag Header.getFlag Header.QR at *
  simp only [BitVec.getLsbD_or, set, Bool.true_or]

theorem Header.getFlag_setFlag_self (header : Header) : (header.setFlag QR).getFlag QR = true := by
  unfold Header.setFlag Header.getFlag Header.QR
  simp only [BitVec.getLsbD_or]
  exact Bool.or_eq_true_iff.mpr (Or.inr rfl)

theorem Replies.setRcode (replies : Replies query response) (value : BitVec 4) :
    Replies query { response with header := response.header.setRcode value } :=
  ⟨replies.id, (Header.getFlag_setRcode _ _).trans replies.qr, replies.question, replies.present⟩

theorem Replies.addRecord (replies : Replies query response) (r : Record) : Replies query (response.addRecord (some r) .additional) := by
  refine ⟨replies.id, replies.qr, replies.question, fun s answered member => ?_⟩
  unfold Packet.addRecord at member
  dsimp only at member
  split_ifs at member with additional
  · rcases List.mem_append.mp member with old | new
    · exact replies.present .additional (by decide) old
    · cases List.mem_singleton.mp new
  · exact replies.present s answered member

theorem Replies.apply (replies : Replies query response) (outcome : LookupOutcome) : Replies query (outcome.apply response) := by
  refine ⟨?_, ?_, ?_, fun s answered member => ?_⟩
  · rw [← replies.id]
    unfold LookupOutcome.apply
    cases outcome.rcode <;> cases outcome.authoritative <;> rfl
  · have authoritative : (if outcome.authoritative then response.header.setFlag Header.AA else response.header).getFlag Header.QR = true := by
      split_ifs
      · exact Header.getFlag_setFlag _ _ replies.qr
      · exact replies.qr
    unfold LookupOutcome.apply
    cases outcome.rcode with
    | none => exact authoritative
    | some value => exact (Header.getFlag_setRcode _ _).trans authoritative
  · unfold LookupOutcome.apply
    dsimp only
    rw [outcome.added_question, replies.question]
    rfl
  · rcases List.mem_append.mp member with old | new
    · exact replies.present s answered old
    · obtain ⟨_, _, absent⟩ := List.mem_map.mp new
      cases absent

theorem addQuestion_replies (query : Packet) (newId : BitVec 16) : Replies query (NameServer.addQuestion query ⟨⟨newId, 0⟩, fun _ => []⟩) := by
  unfold NameServer.addQuestion
  dsimp only
  refine ⟨?_, ?_, rfl, fun s answered member => ?_⟩
  · split_ifs <;> rfl
  · split_ifs
    · exact Header.getFlag_setFlag _ _ (Header.getFlag_setFlag_self _)
    · exact Header.getFlag_setFlag_self _
  · unfold Packet.addRecord at member
    dsimp only at member
    rw [if_neg answered] at member
    cases member

theorem addAnswers_replies (replies : Replies query response) : Replies query (NameServer.addAnswers lookup query response).1 := by
  unfold NameServer.addAnswers
  cases query.getQuestion with
  | none => exact replies
  | some question =>
    dsimp only
    split_ifs
    · exact (replies.setRcode NOTIMP).addRecord _
    · exact replies.setRcode REFUSED
    all_goals first | exact replies.apply _ | exact (replies.apply _).addRecord _

theorem query_replies (lookup : Name → BitVec 16 → BitVec 32 → Bool → LookupOutcome) (newId : BitVec 16) (query : Packet) :
    Replies query (NameServer.query lookup newId query) := by
  have replies := @addAnswers_replies lookup query _ (addQuestion_replies query newId)
  unfold NameServer.query
  dsimp only
  split_ifs
  · exact replies.setRcode SERVFAIL
  · exact replies

end Replies

section Wire

variable {query response : Packet} {rest : (MessageSection → List (Option Record)) → List Byte} {question : Record}

theorem u16_injective {a b : BitVec 16} (same : u16 a = u16 b) : a = b := by
  unfold u16 at same
  obtain ⟨high, low⟩ := List.cons_eq_cons.mp same
  have high' := congrArg BitVec.toNat high
  have low' := congrArg BitVec.toNat (List.cons_eq_cons.mp low).1
  simp only [BitVec.extractLsb'_toNat, Nat.shiftRight_eq_div_pow] at high' low'
  refine BitVec.eq_of_toNat_eq ?_
  have bound := a.isLt
  have bound' := b.isLt
  omega

/-- The octets of a response, and whether they are the reply to a query over UDP. -/
structure RepliesTo (query : Packet) (reply : List Byte) : Prop where
  id : reply.take 2 = u16 query.header.id
  qr : ∃ octet, reply[2]? = some octet ∧ octet.getLsbD 7 = true
  count : (reply.drop 4).take 2 = u16 (BitVec.ofNat 16 (query.sections .question).length)
  question : (query.sections .question).flatMap (·.elim [] questionToWire) <+: reply.drop 12
  size : reply.length ≤ max UDP.UDP_MSG_LENGTH (query.getOPT.elim 0 OPTRecord.getPayloadSize)

theorem Replies.toWire_none (replies : Replies query response) (absent : query.getQuestion = none) (n : Nat) :
    response.toWire rest n = .error .nullPointerException := by
  unfold Packet.toWire
  rw [if_pos]
  simp [replies.question, absent]

theorem Replies.toWire_some (replies : Replies query response) (present : query.getQuestion = some question) (n : Nat) :
    ∃ counts tail, counts.length = 6 ∧ response.toWire rest n =
      .ok ((u16 query.header.id ++ u16 response.header.flags ++ u16 1 ++ counts ++ questionToWire question ++ tail).take n) := by
  have real : ¬([MessageSection.question, .answer, .authority, .additional].any fun s => (response.sections s).contains none) = true := by
    simp [replies.question, present, replies.present .answer (by decide), replies.present .authority (by decide),
      replies.present .additional (by decide)]
  refine ⟨[.answer, .authority, .additional].flatMap fun s => u16 (BitVec.ofNat 16 (response.sections s).length), rest response.sections, rfl, ?_⟩
  unfold Packet.toWire
  rw [if_neg real]
  simp [Packet.headerToWire, replies.question, present, replies.id]

theorem questionToWire_length (question : Record) : (questionToWire question).length = question.name.toWire.length + 4 := by
  unfold questionToWire u16
  simp

section Whole

variable {id flags : BitVec 16} {counts question tail : List Byte}

theorem whole_id : (u16 id ++ u16 flags ++ u16 1 ++ counts ++ question ++ tail).take 2 = u16 id := by simp [u16]

theorem whole_flags : (u16 id ++ u16 flags ++ u16 1 ++ counts ++ question ++ tail)[2]? = some (flags.extractLsb' 8 8) := by simp [u16]

theorem whole_count : ((u16 id ++ u16 flags ++ u16 1 ++ counts ++ question ++ tail).drop 4).take 2 = u16 1 := by simp [u16]

theorem whole_questions (sixCounts : counts.length = 6) :
    (u16 id ++ u16 flags ++ u16 1 ++ counts ++ question ++ tail).drop 12 = question ++ tail := by
  rw [List.append_assoc _ question]
  exact List.drop_left' (by simp [u16, sixCounts])

end Whole

/-- A response is the reply when its one question was not cut. -/
theorem repliesTo_iff {flags : BitVec 16} {counts tail : List Byte} (sixCounts : counts.length = 6) {n : Nat} (qr : flags.getLsbD 15 = true)
    (first : query.getQuestion = some question) (accepted : query.Accepted)
    (bound : n ≤ max UDP.UDP_MSG_LENGTH (query.getOPT.elim 0 OPTRecord.getPayloadSize)) :
    RepliesTo query ((u16 query.header.id ++ u16 flags ++ u16 1 ++ counts ++ questionToWire question ++ tail).take n) ↔
      query.sections .question = [some question] ∧ 12 + (questionToWire question).length ≤ n := by
  have length := questionToWire_length question
  constructor
  · intro replies
    have count := replies.count
    rw [List.drop_take, List.take_take] at count
    have enough : 6 ≤ n := by
      have two := congrArg List.length count
      simp only [List.length_take] at two
      have : min (min 2 (n - 4)) _ = 2 := two
      omega
    rw [Nat.min_eq_left (by omega), whole_count] at count
    have one : query.sections .question = [some question] := by
      have counted := congrArg BitVec.toNat (u16_injective count)
      rw [BitVec.toNat_ofNat, Nat.mod_eq_of_lt accepted.count] at counted
      obtain ⟨only, single⟩ := List.length_eq_one_iff.mp counted.symm
      unfold Packet.getQuestion at first
      rw [single] at first ⊢
      exact congrArg (fun r => [r]) first
    have kept := replies.question.length_le
    rw [one, List.drop_take, List.length_take] at kept
    have kept : (questionToWire question).length ≤ n - 12 := by
      simp only [List.flatMap_cons, Option.elim_some, List.flatMap_nil, List.append_nil] at kept
      omega
    exact ⟨one, by omega⟩
  · rintro ⟨one, fits⟩
    refine ⟨?_, ⟨flags.extractLsb' 8 8, ?_, ?_⟩, ?_, ?_, ?_⟩
    · rw [List.take_take, Nat.min_eq_left (by omega), whole_id]
    · rw [List.getElem?_take_of_lt (by omega), whole_flags]
    · rw [BitVec.getLsbD_extractLsb']
      exact (Bool.true_and _).trans qr
    · rw [List.drop_take, List.take_take, Nat.min_eq_left (by omega), whole_count, one]
      rfl
    · rw [List.drop_take, whole_questions sixCounts, one]
      simp only [List.flatMap_cons, Option.elim_some, List.flatMap_nil, List.append_nil]
      exact List.prefix_take_iff.mpr ⟨List.prefix_append _ _, by omega⟩
    · exact (List.length_take_le _ _).trans bound

end Wire

/-- A query over UDP is answered exactly when it has one question, and its OPT record, if any, leaves room for the question. -/
theorem query_answered_iff (parser : MessageParser) (rest : (MessageSection → List (Option Record)) → List Byte)
    (lookup : Name → BitVec 16 → BitVec 32 → Bool → LookupOutcome) (newId : BitVec 16) (request : List Byte) (query : Packet)
    (parsed : parser.parse request = .ok query) :
    (∃ reply, AbstractProtocol.query parser rest (fun query => .ok (NameServer.query lookup newId query)) UDP.getMaxResponseLength newId request =
        .ok reply ∧ RepliesTo query reply) ↔
      ∃ question, query.sections .question = [some question] ∧
        ∀ opt, query.getOPT = some opt → 12 + (questionToWire question).length ≤ OPTRecord.getPayloadSize opt := by
  have accepted := parser.accepted request query parsed
  have replies := query_replies lookup newId query
  have logged : AbstractProtocol.logs (NameServer.query lookup newId query) = true := by
    unfold AbstractProtocol.logs
    simp [replies.present .answer (by decide)]
  have written : AbstractProtocol.query parser rest (fun query => .ok (NameServer.query lookup newId query)) UDP.getMaxResponseLength newId request =
      (NameServer.query lookup newId query).toWire rest (UDP.getMaxResponseLength (some query)) := by
    unfold AbstractProtocol.query
    rw [parsed]
    dsimp only
    rw [if_pos logged]
  have bound : UDP.getMaxResponseLength (some query) ≤ max UDP.UDP_MSG_LENGTH (query.getOPT.elim 0 OPTRecord.getPayloadSize) := by
    unfold UDP.getMaxResponseLength
    rw [Option.bind_some]
    cases query.getOPT with
    | none => exact Nat.le_max_left _ _
    | some opt => exact Nat.le_max_right _ _
  rw [written]
  cases first : query.getQuestion with
  | none =>
    rw [replies.toWire_none first]
    constructor
    · rintro ⟨_, absent, _⟩
      cases absent
    · rintro ⟨question, one, _⟩
      rw [Packet.getQuestion, one] at first
      cases first
  | some question =>
    obtain ⟨counts, tail, sixCounts, wire⟩ := @Replies.toWire_some query _ rest question replies first (UDP.getMaxResponseLength (some query))
    have iff := @repliesTo_iff query question _ counts tail sixCounts _ replies.qr first accepted bound
    rw [wire]
    have room (one : query.sections .question = [some question]) : 12 + (questionToWire question).length ≤ UDP.getMaxResponseLength (some query) ↔
        ∀ opt, query.getOPT = some opt → 12 + (questionToWire question).length ≤ OPTRecord.getPayloadSize opt := by
      have name := accepted.names question (by simp [one])
      have length := questionToWire_length question
      unfold UDP.getMaxResponseLength
      rw [Option.bind_some]
      cases query.getOPT with
      | none =>
        have : 12 + (questionToWire question).length ≤ UDP.UDP_MSG_LENGTH := by
          unfold UDP.UDP_MSG_LENGTH
          omega
        simp [this]
      | some opt => simp
    constructor
    · rintro ⟨reply, returned, answer⟩
      cases returned
      obtain ⟨one, fits⟩ := iff.mp answer
      exact ⟨question, one, (room one).mp fits⟩
    · rintro ⟨other, one, fits⟩
      have same : other = question := by
        rw [Packet.getQuestion, one] at first
        exact Option.some.inj first
      subst same
      exact ⟨_, rfl, iff.mpr ⟨one, (room one).mpr fits⟩⟩

section Sample

-- The address of `a.` is asked for, or nothing at all.
def sampleQuery : Packet := ⟨⟨0x1234, 0x0100⟩, fun s => if s = .question then [some ⟨⟨[[0x61]]⟩, 1, IN, 0, []⟩] else []⟩

def sampleRequest : List Byte := [0x12, 0x34, 0x01, 0x00, 0, 1, 0, 0, 0, 0, 0, 0, 1, 0x61, 0, 0, 1, 0, 1]

def emptyQuery : Packet := ⟨⟨0x1234, 0⟩, fun _ => []⟩

def emptyRequest : List Byte := [0x12, 0x34, 0, 0, 0, 0, 0, 0, 0, 0, 0, 0]

theorem sampleQuery_accepted : sampleQuery.Accepted where
  present s := by cases s <;> decide
  count := by decide
  names question asked := by
    cases List.mem_singleton.mp asked
    decide

theorem emptyQuery_accepted : emptyQuery.Accepted where
  present s := List.not_mem_nil
  count := by decide
  names question asked := absurd asked List.not_mem_nil

def sampleParser : MessageParser where
  parse wire := if wire = sampleRequest then .ok sampleQuery else if wire = emptyRequest then .ok emptyQuery else .error .wireParseException
  accepted wire query parsed := by
    split_ifs at parsed
    · cases parsed
      exact sampleQuery_accepted
    · cases parsed
      exact emptyQuery_accepted

def refusing (_ : Name) (_ : BitVec 16) (_ : BitVec 32) (_ : Bool) : LookupOutcome := ⟨fun _ => [], rfl, false, some REFUSED, false⟩

end Sample

theorem query_answered_iff_sample :
    (∃ reply, AbstractProtocol.query sampleParser (fun _ => []) (fun query => .ok (NameServer.query refusing 7 query)) UDP.getMaxResponseLength 7
        sampleRequest = .ok reply ∧ RepliesTo sampleQuery reply) ↔
      ∃ question, sampleQuery.sections .question = [some question] ∧
        ∀ opt, sampleQuery.getOPT = some opt → 12 + (questionToWire question).length ≤ OPTRecord.getPayloadSize opt :=
  query_answered_iff sampleParser (fun _ => []) refusing 7 sampleRequest sampleQuery rfl

/-- The null question of the response is met when it is written, after the last handler. -/
theorem query_unanswered : ¬∀ (parser : MessageParser) (rest : (MessageSection → List (Option Record)) → List Byte)
    (lookup : Name → BitVec 16 → BitVec 32 → Bool → LookupOutcome) (newId : BitVec 16) (request : List Byte) (query : Packet),
    parser.parse request = .ok query →
    ∃ reply, AbstractProtocol.query parser rest (fun query => .ok (NameServer.query lookup newId query)) UDP.getMaxResponseLength newId request =
      .ok reply ∧ RepliesTo query reply := by
  intro answered
  obtain ⟨reply, returned, _⟩ := answered sampleParser (fun _ => []) refusing 7 emptyRequest emptyQuery rfl
  have fails : AbstractProtocol.query sampleParser (fun _ => []) (fun query => .ok (NameServer.query refusing 7 query)) UDP.getMaxResponseLength 7
      emptyRequest = .error .nullPointerException := rfl
  rw [fails] at returned
  cases returned

end TrafficControl.TrafficRouter.Dns
