import TrafficControl.Lib.Base64
import TrafficControl.Lib.Hex
import TrafficControl.Lib.Sha1

set_option autoImplicit false

namespace ToCookie

def generatedByStr : String := "trafficcontrol-go-tocookie"

def dash : UInt8 := 45

structure Cookie where
  authData : String
  expiresUnix : Int64
  generatedBy : String

def utf8 (text : String) : List UInt8 := text.toList.flatMap String.utf8EncodeChar

/-- A character within a JSON string, as `json.Marshal` writes it. -/
def escape (c : Char) : List UInt8 :=
  if c = '"' ∨ c = '\\' then utf8 "\\" ++ String.utf8EncodeChar c
  else if c = '\n' then utf8 "\\n"
  else if c = '\r' then utf8 "\\r"
  else if c = '\t' then utf8 "\\t"
  else if c.toNat < 32 ∨ c = '<' ∨ c = '>' ∨ c = '&' then
    utf8 "\\u00" ++ [Hex.digit (c.toNat / 16), Hex.digit (c.toNat % 16)]
  else if c.toNat = 0x2028 ∨ c.toNat = 0x2029 then utf8 "\\u202" ++ [Hex.digit (c.toNat % 16)]
  else String.utf8EncodeChar c

def escaped (text : String) : List UInt8 := text.toList.flatMap escape

def decimal (n : Int) : List UInt8 :=
  (if n < 0 then [45] else []) ++ (Nat.toDigits 10 n.natAbs).map fun c => UInt8.ofNat c.toNat

def marshal (cookie : Cookie) : List UInt8 :=
  utf8 "\x7b\"auth_data\":\"" ++ escaped cookie.authData ++ utf8 "\",\"expires\":" ++
    decimal cookie.expiresUnix.toInt ++ utf8 ",\"by\":\"" ++ escaped cookie.generatedBy ++ utf8 "\"\x7d"

inductive ParseError where
  | noDashes (cookie : List UInt8)
  | noSignature (cookie : List UInt8)
  | base64 (offset : Nat)
  | signature (err : Hex.DecodeError)
  | badSignature
  | json (txtBytes : List UInt8) (err : String)
  | expired

/-- No value at all is a run-time panic. -/
abbrev Parsed := ExceptT ParseError Option

def orError {ε α : Type} (result : Except ε α) (wrap : ε → ParseError) : Parsed α :=
  ExceptT.mk (some (result.mapError wrap))

def slice (text : List UInt8) (low high : Int) : Parsed (List UInt8) :=
  if 0 ≤ low ∧ low ≤ high ∧ high ≤ text.length then pure ((text.take high.toNat).drop low.toNat) else ExceptT.mk none

def index (text : List UInt8) (byte : UInt8) : Int := (text.idxOf? byte).elim (-1) fun i => i

def lastIndex (text : List UInt8) (byte : UInt8) : Int :=
  (text.reverse.idxOf? byte).elim (-1) fun i => text.length - 1 - i

def checkHmac (message messageMAC key : List UInt8) : Bool := messageMAC == Sha1.hmac key message

section Parse

-- What `json.Unmarshal` makes of the bytes, and the current second.
variable (unmarshal : List UInt8 → Except String Cookie) (now : Int64)

def parse (secret cookie : List UInt8) : Parsed Cookie := do
  let dashPos := index cookie dash
  if dashPos = -1 then throw (.noDashes cookie)
  let lastDashPos := lastIndex cookie dash
  if lastDashPos = -1 then throw (.noDashes cookie)
  if cookie.length < lastDashPos + 1 then throw (.noSignature cookie)
  let base64Txt ← slice cookie 0 dashPos
  let txtBytes ← orError (Base64.decodeString base64Txt) .base64
  let base64TxtSig ← slice cookie 0 (lastDashPos - 1)
  let base64Sig ← slice cookie (lastDashPos + 1) cookie.length
  let sigBytes ← orError (Hex.decodeString base64Sig) .signature
  if !checkHmac base64TxtSig sigBytes secret then throw .badSignature
  let cookieData ← orError (unmarshal txtBytes) (.json txtBytes)
  if cookieData.expiresUnix - now < 0 then throw .expired
  return cookieData

end Parse

def newRawMsg (msg key : List UInt8) : List UInt8 :=
  let base64Msg := Base64.encodeToString msg
  base64Msg ++ [dash, dash] ++ Hex.encodeToString (Sha1.hmac key base64Msg)

def new (user : String) (expiration : Int64) (key : List UInt8) : List UInt8 :=
  newRawMsg (marshal { authData := user, expiresUnix := expiration, generatedBy := generatedByStr }) key

section Results

variable {α β : Type} {a : α} {b : β}

def Parsed.Returned (parsed : Parsed α) (a : α) : Prop := parsed.run = some (.ok a)

def Parsed.Panics (parsed : Parsed α) : Prop := parsed.run = none

theorem returned_bind {parsed : Parsed α} {next : α → Parsed β} :
    (parsed >>= next).Returned b ↔ ∃ a, parsed.Returned a ∧ (next a).Returned b := by
  unfold Parsed.Returned
  rw [ExceptT.run_bind]
  cases parsed.run with
  | none => simp
  | some result => cases result <;> simp

theorem panics_bind {parsed : Parsed α} {next : α → Parsed β} :
    (parsed >>= next).Panics ↔ parsed.Panics ∨ ∃ a, parsed.Returned a ∧ (next a).Panics := by
  unfold Parsed.Panics Parsed.Returned
  rw [ExceptT.run_bind]
  cases parsed.run with
  | none => simp
  | some result => cases result <;> simp

theorem returned_ite {condition : Prop} [Decidable condition] {first second : Parsed α} :
    (if condition then first else second).Returned a ↔
      condition ∧ first.Returned a ∨ ¬condition ∧ second.Returned a := by
  split <;> simp [*]

theorem panics_ite {condition : Prop} [Decidable condition] {first second : Parsed α} :
    (if condition then first else second).Panics ↔ condition ∧ first.Panics ∨ ¬condition ∧ second.Panics := by
  split <;> simp [*]

theorem returned_pure {other : α} : (pure other : Parsed α).Returned a ↔ other = a := by simp [Parsed.Returned]

theorem not_panics_pure : ¬(pure a : Parsed α).Panics := by simp [Parsed.Panics]

theorem not_returned_throw {e : ParseError} : ¬(throw e : Parsed α).Returned a := by simp [Parsed.Returned]

theorem not_panics_throw {e : ParseError} : ¬(throw e : Parsed α).Panics := by simp [Parsed.Panics]

theorem returned_orError {ε : Type} {result : Except ε α} {wrap : ε → ParseError} :
    (orError result wrap).Returned a ↔ result = .ok a := by
  cases result <;> simp [Parsed.Returned, orError, Except.mapError]

theorem not_panics_orError {ε : Type} {result : Except ε α} {wrap : ε → ParseError} :
    ¬(orError result wrap).Panics := by simp [Parsed.Panics, orError]

end Results

theorem idxOf?_append {before after : List UInt8} {byte : UInt8} (free : byte ∉ before) :
    (before ++ byte :: after).idxOf? byte = some before.length := by
  induction before with
  | nil => simp [List.idxOf?_cons]
  | cons first before ih =>
    obtain ⟨different, free⟩ := List.ne_and_not_mem_of_not_mem_cons free
    simp [List.idxOf?_cons, ih free, Ne.symm different]

theorem index_append {before after : List UInt8} {byte : UInt8} (free : byte ∉ before) :
    index (before ++ byte :: after) byte = before.length := by rw [index, idxOf?_append free, Option.elim_some]

theorem lastIndex_append {before after : List UInt8} {byte : UInt8} (free : byte ∉ after) :
    lastIndex (before ++ byte :: after) byte = before.length := by
  have reversed : (before ++ byte :: after).reverse = after.reverse ++ byte :: before.reverse := by simp
  rw [lastIndex, reversed, idxOf?_append (by simpa using free), Option.elim_some, List.length_append, List.length_cons,
    List.length_reverse]
  omega

/-- The text before the first dash of a cookie, the text before its last, and the text after its last. -/
structure Cuts (cookie base64Txt body base64Sig : List UInt8) : Prop where
  first : ∃ rest, cookie = base64Txt ++ dash :: rest
  txtFree : dash ∉ base64Txt
  last : cookie = body ++ dash :: base64Sig
  sigFree : dash ∉ base64Sig

theorem exists_cuts {cookie : List UInt8} (member : dash ∈ cookie) :
    ∃ base64Txt body base64Sig, Cuts cookie base64Txt body base64Sig := by
  obtain ⟨base64Txt, rest, first, txtFree⟩ := List.eq_append_cons_of_mem member
  obtain ⟨after, before, reversed, afterFree⟩ := List.eq_append_cons_of_mem (List.mem_reverse.mpr member)
  refine ⟨base64Txt, before.reverse, after.reverse, ⟨rest, first⟩, txtFree, ?_, by simpa using afterFree⟩
  rw [← List.reverse_reverse cookie, reversed]
  simp

section Slices

variable {cookie base64Txt body base64Sig : List UInt8} (cuts : Cuts cookie base64Txt body base64Sig)
include cuts

theorem Cuts.index_eq : index cookie dash = base64Txt.length := by
  obtain ⟨rest, rfl⟩ := cuts.first
  exact index_append cuts.txtFree

theorem Cuts.lastIndex_eq : lastIndex cookie dash = body.length := by
  rw [cuts.last]
  exact lastIndex_append cuts.sigFree

theorem Cuts.guards_pass :
    ¬(base64Txt.length : Int) = -1 ∧ ¬(body.length : Int) = -1 ∧ ¬(cookie.length : Int) < body.length + 1 := by
  rw [cuts.last, List.length_append, List.length_cons]
  omega

theorem Cuts.slice_txt : slice cookie 0 base64Txt.length = pure base64Txt := by
  obtain ⟨rest, rfl⟩ := cuts.first
  rw [slice, if_pos (by simp; omega)]
  simp

theorem Cuts.slice_sig : slice cookie (body.length + 1) cookie.length = pure base64Sig := by
  rw [cuts.last, slice, if_pos (by simp; omega)]
  have after : ((body.length : Int) + 1).toNat = (body ++ [dash]).length := by simp
  rw [after, Int.toNat_natCast, List.take_length, List.append_cons body dash base64Sig, List.drop_left]

theorem Cuts.slice_signed (nonempty : body ≠ []) : slice cookie 0 (body.length - 1) = pure body.dropLast := by
  have positive := List.length_pos_iff.mpr nonempty
  rw [cuts.last, slice, if_pos (by simp; omega)]
  have count : ((body.length : Int) - 1).toNat = body.length - 1 := by omega
  rw [count, Int.toNat_zero, List.drop_zero, List.take_append_of_le_length (by omega), List.dropLast_eq_take]

theorem Cuts.signed_returned {signed : List UInt8} :
    (slice cookie 0 (body.length - 1)).Returned signed ↔ body ≠ [] ∧ body.dropLast = signed := by
  by_cases empty : body = []
  · have outside : ¬(0 ≤ (0 : Int) ∧ 0 ≤ (body.length : Int) - 1 ∧ (body.length : Int) - 1 ≤ cookie.length) := by
      simp [empty]
    rw [slice, if_neg outside]
    simp [Parsed.Returned, empty]
  · rw [cuts.slice_signed empty, returned_pure]
    simp [empty]

theorem Cuts.signed_panics : (slice cookie 0 (body.length - 1)).Panics ↔ body = [] := by
  by_cases empty : body = []
  · have outside : ¬(0 ≤ (0 : Int) ∧ 0 ≤ (body.length : Int) - 1 ∧ (body.length : Int) - 1 ≤ cookie.length) := by
      simp [empty]
    rw [slice, if_neg outside]
    simp [Parsed.Panics, empty]
  · rw [cuts.slice_signed empty]
    simp [empty, not_panics_pure]

end Slices

section Parse

variable {unmarshal : List UInt8 → Except String Cookie} {now : Int64}
  {secret cookie base64Txt body base64Sig : List UInt8}

/-- When a cookie is accepted. The signature is of the text up to two characters before it. -/
theorem parse_returned (cuts : Cuts cookie base64Txt body base64Sig) {cookieData : Cookie} :
    (parse unmarshal now secret cookie).Returned cookieData ↔
      body ≠ [] ∧ Hex.decodeString base64Sig = .ok (Sha1.hmac secret body.dropLast) ∧
        (∃ txtBytes, Base64.decodeString base64Txt = .ok txtBytes ∧ unmarshal txtBytes = .ok cookieData) ∧
        ¬cookieData.expiresUnix - now < 0 := by
  obtain ⟨found, foundLast, signed⟩ := cuts.guards_pass
  simp only [parse, cuts.index_eq, cuts.lastIndex_eq, cuts.slice_txt, cuts.slice_sig, if_neg found, if_neg foundLast,
    if_neg signed, cuts.signed_returned, returned_bind, returned_orError, returned_ite, returned_pure,
    not_returned_throw, checkHmac, false_and, exists_false, and_false, false_or, exists_eq_left']
  constructor
  · rintro ⟨txtBytes, decoded, _, ⟨nonempty, rfl⟩, sigBytes, sig, verified, _, read, valid, rfl⟩
    obtain rfl : sigBytes = Sha1.hmac secret body.dropLast := by simpa using verified
    exact ⟨nonempty, sig, ⟨txtBytes, decoded, read⟩, valid⟩
  · rintro ⟨nonempty, sig, ⟨txtBytes, decoded, read⟩, valid⟩
    exact ⟨txtBytes, decoded, _, ⟨nonempty, rfl⟩, _, sig, by simp, _, read, valid, rfl⟩

theorem parse_panics (cuts : Cuts cookie base64Txt body base64Sig) :
    (parse unmarshal now secret cookie).Panics ↔
      (∃ txtBytes, Base64.decodeString base64Txt = .ok txtBytes) ∧ body = [] := by
  obtain ⟨found, foundLast, signed⟩ := cuts.guards_pass
  simp only [parse, cuts.index_eq, cuts.lastIndex_eq, cuts.slice_txt, cuts.slice_sig, if_neg found, if_neg foundLast,
    if_neg signed, cuts.signed_panics, panics_bind, panics_ite, returned_orError, returned_pure, not_panics_throw,
    not_panics_pure, not_panics_orError, false_or, and_false, exists_false, exists_eq_left', or_false,
    exists_and_right]

theorem parse_no_dash (free : dash ∉ cookie) :
    (parse unmarshal now secret cookie).run = some (.error (.noDashes cookie)) := by
  have absent : index cookie dash = -1 := by
    rw [index, List.idxOf?_eq_none_iff.mpr free, Option.elim_none]
  rw [parse, absent]
  rfl

end Parse

end ToCookie
