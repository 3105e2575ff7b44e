import Mathlib.Algebra.Ring.Int.Defs
import TrafficControl.TrafficOps.ToCookie.Cookie

set_option autoImplicit false

namespace ToCookie

/-- What `New` puts into a cookie. -/
def issued (user : String) (expiration : Int64) : Cookie where
  authData := user
  expiresUnix := expiration
  generatedBy := generatedByStr

/-- What the decoder does with the message of a cookie and with a message that breaks off. -/
structure Documented (unmarshal : List UInt8 → Except String Cookie) (cookie : Cookie) : Prop where
  whole : unmarshal (marshal cookie) = .ok cookie
  cut : ∀ kept < (marshal cookie).length, ∀ read, unmarshal ((marshal cookie).take kept) ≠ .ok read

/-- The cookie of `New` is accepted by `Parse`, with the user and the expiration it was made for. -/
def RoundTrips (unmarshal : List UInt8 → Except String Cookie) (now : Int64) (user : String) (expiration : Int64)
    (secret : List UInt8) : Prop :=
  ∃ cookie, (parse unmarshal now secret (new user expiration secret)).Returned cookie ∧
    cookie.authData = user ∧ cookie.expiresUnix = expiration

/-- The name starts at offset fourteen of the message, after a quote, and is all that can put a dash into it. -/
def NoDash (user : String) : Prop := ¬Base64.HasDash 2 34 (escaped user)

instance (user : String) : Decidable (NoDash user) := inferInstanceAs (Decidable (¬_))

theorem quiet_decimal (n : Int) : ∀ byte ∈ decimal n, Base64.Quiet byte := by
  intro byte member
  rcases List.mem_append.mp member with sign | digits
  · split at sign
    · obtain rfl := List.mem_singleton.mp sign
      decide
    · cases sign
  · obtain ⟨c, inDigits, rfl⟩ := List.mem_map.mp digits
    obtain ⟨low, high⟩ := Char.isDigit_iff_toNat.mp (Nat.isDigit_of_mem_toDigits (by decide) (by decide) inDigits)
    have low : 48 ≤ c.toNat := low
    have high : c.toNat ≤ 57 := high
    rw [Base64.Quiet, UInt8.toNat_ofNat_of_lt' (Nat.lt_of_le_of_lt high (by decide))]
    omega

/-- All that follows the name. -/
def messageEnd (expiration : Int64) : List UInt8 :=
  utf8 "\",\"expires\":" ++ decimal expiration.toInt ++ utf8 ",\"by\":\"" ++ escaped generatedByStr ++ utf8 "\"\x7d"

theorem quiet_messageEnd (expiration : Int64) : ∀ byte ∈ messageEnd expiration, Base64.Quiet byte := by
  simp only [messageEnd, List.forall_mem_append]
  exact ⟨⟨⟨⟨by decide +kernel, quiet_decimal _⟩, by decide +kernel⟩, by decide +kernel⟩, by decide +kernel⟩

theorem dash_mem_message (user : String) (expiration : Int64) :
    dash ∈ Base64.encodeToString (marshal (issued user expiration)) ↔ ¬NoDash user := by
  have parts : marshal (issued user expiration) =
      utf8 "\x7b\"auth_data\":\"" ++ (escaped user ++ messageEnd expiration) := by
    simp [marshal, issued, messageEnd]
  have start : ¬Base64.HasDash 0 0 (utf8 "\x7b\"auth_data\":\"") :=
    Base64.not_hasDash (by decide +kernel) 0 0
  have length : (utf8 "\x7b\"auth_data\":\"").length = 14 := by decide
  have quote : (utf8 "\x7b\"auth_data\":\"").getLastD 0 = 34 := by decide
  rw [dash, Base64.dash_mem_encodeToString _ 0, parts, Base64.hasDash_append _ _ _ _ (by decide), length, quote,
    Base64.hasDash_append _ _ _ _ (by decide), NoDash, not_not]
  simp [start, Base64.not_hasDash (quiet_messageEnd expiration)]

theorem not_expired {now expiration : Int64} (notPast : now ≤ expiration) :
    ¬expiration - now < 0 ↔ expiration.toInt - now.toInt < 2 ^ 63 := by
  have low := now.le_toInt
  have high := expiration.toInt_lt
  rw [Int64.le_iff_toInt_le] at notPast
  have wraps := Int.bmod_neg_iff (m := 2 ^ 64) (x := expiration.toInt - now.toInt) (by omega) (by omega)
  rw [Int64.lt_iff_toInt_lt, Int64.toInt_sub, Int64.toInt_zero, wraps]
  omega

section Parse

variable {unmarshal : List UInt8 → Except String Cookie} {now : Int64} {user : String} {expiration : Int64}

theorem new_eq (secret : List UInt8) : new user expiration secret =
    Base64.encodeToString (marshal (issued user expiration)) ++ [dash] ++
      dash :: Hex.encodeToString (Sha1.hmac secret (Base64.encodeToString (marshal (issued user expiration)))) := by
  simp [new, newRawMsg, issued]

/-- A dash in the text cuts the message short. -/
theorem parse_new_cut (documented : Documented unmarshal (issued user expiration)) (dashed : ¬NoDash user)
    (secret : List UInt8) (cookie : Cookie) :
    ¬(parse unmarshal now secret (new user expiration secret)).Returned cookie := by
  obtain ⟨base64Txt, rest, split, txtFree⟩ :=
    List.eq_append_cons_of_mem ((dash_mem_message user expiration).mpr dashed)
  have cuts : Cuts (new user expiration secret) base64Txt _ _ :=
    { first := ⟨_, by rw [new_eq, split, List.append_assoc, List.append_assoc, List.cons_append]⟩
      txtFree := txtFree
      last := new_eq secret
      sigFree := Hex.dash_not_mem_encodeToString _ }
  rw [parse_returned cuts]
  rintro ⟨-, -, ⟨txtBytes, decoded, read⟩, -⟩
  have start : base64Txt = (Base64.encodeToString (marshal (issued user expiration))).take base64Txt.length := by
    rw [split, List.take_left]
  rw [start] at decoded
  have shorter : base64Txt.length < (Base64.encodeToString (marshal (issued user expiration))).length := by
    rw [split, List.length_append, List.length_cons]
    omega
  obtain ⟨kept, bound, rfl⟩ := Base64.decodeString_cut shorter decoded
  exact documented.cut kept bound cookie read

theorem parse_new_whole (documented : Documented unmarshal (issued user expiration)) (free : NoDash user)
    (secret : List UInt8) (cookie : Cookie) :
    (parse unmarshal now secret (new user expiration secret)).Returned cookie ↔
      cookie = issued user expiration ∧ ¬expiration - now < 0 := by
  have txtFree : dash ∉ Base64.encodeToString (marshal (issued user expiration)) :=
    fun member => (dash_mem_message user expiration).mp member free
  have cuts : Cuts (new user expiration secret) _ _ _ :=
    { first := ⟨_, by rw [new_eq, List.append_assoc, List.singleton_append]⟩
      txtFree := txtFree
      last := new_eq secret
      sigFree := Hex.dash_not_mem_encodeToString _ }
  rw [parse_returned cuts]
  have signed : Hex.decodeString (Hex.encodeToString (Sha1.hmac secret
      (Base64.encodeToString (marshal (issued user expiration))))) = .ok (Sha1.hmac secret
        (Base64.encodeToString (marshal (issued user expiration)) ++ [dash]).dropLast) := by
    rw [Hex.decodeString_encodeToString, List.dropLast_concat]
  constructor
  · rintro ⟨-, -, ⟨txtBytes, decoded, read⟩, valid⟩
    obtain rfl := Except.ok.inj ((Base64.decodeString_encodeToString _).symm.trans decoded)
    obtain rfl := Except.ok.inj (documented.whole.symm.trans read)
    exact ⟨rfl, valid⟩
  · rintro ⟨rfl, valid⟩
    exact ⟨by simp, signed, ⟨_, Base64.decodeString_encodeToString _, documented.whole⟩, valid⟩

theorem roundTrips_iff (documented : Documented unmarshal (issued user expiration)) (notPast : now ≤ expiration)
    (secret : List UInt8) :
    RoundTrips unmarshal now user expiration secret ↔ NoDash user ∧ expiration.toInt - now.toInt < 2 ^ 63 := by
  rw [← not_expired notPast]
  by_cases free : NoDash user
  · simp only [RoundTrips, parse_new_whole documented free]
    constructor
    · rintro ⟨_, ⟨rfl, valid⟩, -⟩
      exact ⟨free, valid⟩
    · rintro ⟨-, valid⟩
      exact ⟨_, ⟨rfl, valid⟩, rfl, rfl⟩
  · constructor
    · rintro ⟨cookie, returned, -⟩
      exact absurd returned (parse_new_cut documented free secret cookie)
    · exact fun both => absurd both.1 free

end Parse

/-- A decoder that knows one message. -/
def reader (cookie : Cookie) (bytes : List UInt8) : Except String Cookie :=
  if bytes = marshal cookie then .ok cookie else .error "unexpected end of JSON input"

theorem documented_reader (cookie : Cookie) : Documented (reader cookie) cookie where
  whole := if_pos rfl
  cut := by
    intro kept bound read accepted
    have shorter : (marshal cookie).take kept ≠ marshal cookie := by
      intro same
      have lengths := congrArg List.length same
      rw [List.length_take] at lengths
      omega
    rw [reader, if_neg shorter] at accepted
    cases accepted

theorem roundTrips_admin :
    RoundTrips (reader (issued "admin" 1500003600)) 1500000000 "admin" 1500003600 (utf8 "secret") :=
  (roundTrips_iff (documented_reader _) (by decide) _).mpr ⟨by decide, by decide⟩

theorem not_roundTrips_tilde : Documented (reader (issued "~" 1500003600)) (issued "~" 1500003600) ∧
    (1500000000 : Int64) ≤ 1500003600 ∧
    ¬RoundTrips (reader (issued "~" 1500003600)) 1500000000 "~" 1500003600 (utf8 "secret") :=
  ⟨documented_reader _, by decide, fun ⟨cookie, returned, _⟩ =>
    parse_new_cut (documented_reader _) (by decide) (utf8 "secret") cookie returned⟩

end ToCookie
