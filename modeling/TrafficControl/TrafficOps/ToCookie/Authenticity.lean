import TrafficControl.TrafficOps.ToCookie.RoundTrip

set_option autoImplicit false

namespace ToCookie

/-- What an accepted cookie string is made of. A block of hyphens is part of the signed text, its last
two apart: these set the signature off. -/
structure Authentic (unmarshal : List UInt8 → Except String Cookie) (now : Int64) (secret cookie : List UInt8)
    (cookieData : Cookie) (base64Txt hyphens base64Sig : List UInt8) : Prop where
  parts : cookie = base64Txt ++ hyphens ++ base64Sig
  txtFree : dash ∉ base64Txt
  sigFree : dash ∉ base64Sig
  starts : hyphens.head? = some dash
  ends : hyphens.getLast? = some dash
  signed : ∀ count, hyphens = List.replicate (count + 2) dash →
    Hex.decodeString base64Sig = .ok (Sha1.hmac secret (base64Txt ++ List.replicate count dash))
  read : ∃ txtBytes, Base64.decodeString base64Txt = .ok txtBytes ∧ unmarshal txtBytes = .ok cookieData
  valid : now ≤ cookieData.expiresUnix ∨ cookieData.expiresUnix.toInt - now.toInt < -2 ^ 63

section Parse

variable {unmarshal : List UInt8 → Except String Cookie} {now : Int64}
  {secret cookie base64Txt body base64Sig : List UInt8}

theorem not_past {now expires : Int64} (valid : ¬expires - now < 0) :
    now ≤ expires ∨ expires.toInt - now.toInt < -2 ^ 63 := by
  have := now.le_toInt
  have := now.toInt_lt
  have := expires.le_toInt
  have := expires.toInt_lt
  have wraps := Int.bmod_neg_iff (m := 2 ^ 64) (x := expires.toInt - now.toInt) (by omega) (by omega)
  rw [Int64.lt_iff_toInt_lt, Int64.toInt_sub, Int64.toInt_zero, wraps] at valid
  rw [Int64.le_iff_toInt_le]
  omega

/-- The first dash is not after the last. -/
theorem Cuts.body_eq (cuts : Cuts cookie base64Txt body base64Sig) :
    ∃ between, body = base64Txt ++ between ∧ (between ++ [dash]).head? = some dash := by
  obtain ⟨rest, first⟩ := cuts.first
  rcases List.append_eq_append_iff.mp (first.symm.trans cuts.last) with ⟨between, whole, tail⟩ | ⟨between, whole, tail⟩
  · refine ⟨between, whole, ?_⟩
    cases between with
    | nil => rfl
    | cons byte between => simpa using (List.cons.inj tail).1.symm
  · cases between with
    | nil => exact ⟨[], by simpa using whole.symm, rfl⟩
    | cons byte between =>
      have same := (List.cons.inj tail).1
      exact absurd (by simp [whole, ← same]) cuts.txtFree

theorem only_dash (panics : (parse unmarshal now secret cookie).Panics) :
    cookie.head? = some dash ∧ cookie.count dash = 1 := by
  by_cases member : dash ∈ cookie
  · obtain ⟨base64Txt, body, base64Sig, cuts⟩ := exists_cuts member
    obtain ⟨-, rfl⟩ := (parse_panics cuts).mp panics
    rw [cuts.last, List.nil_append]
    exact ⟨rfl, by simp [List.count_eq_zero.mpr cuts.sigFree]⟩
  · rw [Parsed.Panics, parse_no_dash member] at panics
    cases panics

theorem authentic {cookieData : Cookie} (returned : (parse unmarshal now secret cookie).Returned cookieData) :
    ∃ base64Txt hyphens base64Sig, Authentic unmarshal now secret cookie cookieData base64Txt hyphens base64Sig := by
  have member : dash ∈ cookie := by
    by_contra free
    rw [Parsed.Returned, parse_no_dash free] at returned
    cases returned
  obtain ⟨base64Txt, body, base64Sig, cuts⟩ := exists_cuts member
  obtain ⟨-, sig, read, valid⟩ := (parse_returned cuts).mp returned
  obtain ⟨between, rfl, starts⟩ := cuts.body_eq
  refine ⟨base64Txt, between ++ [dash], base64Sig, ?_, cuts.txtFree, cuts.sigFree, starts, by simp, ?_, read,
    not_past valid⟩
  · rw [cuts.last]
    simp
  · intro count block
    have shorter : between = List.replicate count dash ++ [dash] := by
      rw [List.replicate_succ', List.append_cancel_right_eq, List.replicate_succ'] at block
      exact block
    rw [sig, shorter, ← List.append_assoc, List.dropLast_concat]

end Parse

theorem first_unique {before after before' after' : List UInt8} (free : dash ∉ before) (free' : dash ∉ before')
    (same : before ++ dash :: after = before' ++ dash :: after') : before = before' ∧ after = after' := by
  have lengths : (before.length : Int) = before'.length := by
    rw [← index_append free, ← index_append free', same]
  obtain ⟨first, rest⟩ := List.append_inj same (Int.ofNat.inj lengths)
  exact ⟨first, (List.cons.inj rest).2⟩

/-- The text of a cookie is signed without the two dashes that `New` sets before the signature. -/
theorem signed_without_dashes {user : String} {expiration : Int64} {secret base64Txt base64Sig : List UInt8} {count : Nat}
    (free : NoDash user)
    (dashes : Sha1.hmac secret (Base64.encodeToString (marshal (issued user expiration))) ≠
      Sha1.hmac secret (Base64.encodeToString (marshal (issued user expiration)) ++ [dash]))
    (parts : new user expiration secret = base64Txt ++ List.replicate (count + 1) dash ++ base64Sig)
    (txtFree : dash ∉ base64Txt) :
    Hex.decodeString base64Sig ≠ .ok (Sha1.hmac secret (base64Txt ++ List.replicate count dash)) := by
  have messageFree : dash ∉ Base64.encodeToString (marshal (issued user expiration)) :=
    fun member => (dash_mem_message user expiration).mp member free
  rw [new_eq, List.append_assoc, List.append_assoc, List.replicate_succ, List.singleton_append,
    List.cons_append] at parts
  obtain ⟨rfl, rest⟩ := first_unique messageFree txtFree parts
  intro sig
  rcases count with _ | _ | count
  · have odd : base64Sig.length % 2 = 1 := by
      rw [List.replicate_zero, List.nil_append] at rest
      rw [← rest, List.length_cons, Hex.length_encodeToString]
      omega
    rw [Hex.decodeString, if_pos odd] at sig
    cases sig
  · obtain rfl := (List.cons.inj rest).2
    rw [Hex.decodeString_encodeToString] at sig
    exact dashes (Except.ok.inj sig)
  · have inSig : dash ∈ Hex.encodeToString
        (Sha1.hmac secret (Base64.encodeToString (marshal (issued user expiration)))) := by
      rw [(List.cons.inj rest).2]
      exact List.mem_cons_self
    exact absurd inSig (Hex.dash_not_mem_encodeToString _)

end ToCookie
