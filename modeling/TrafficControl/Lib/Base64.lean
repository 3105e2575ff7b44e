import Mathlib.Data.List.Basic

set_option autoImplicit false

-- The unpadded base64 of the URL-safe alphabet, on bytes.
namespace Base64

/-- `A-Z`, `a-z`, `0-9`, `-` and `_`. -/
def alphabet : List UInt8 :=
  (List.range 26).map (fun i => UInt8.ofNat (65 + i)) ++ (List.range 26).map (fun i => UInt8.ofNat (97 + i)) ++
    (List.range 10).map (fun i => UInt8.ofNat (48 + i)) ++ [45, 95]

def encodeChar (sextet : Nat) : UInt8 := alphabet.getD sextet 0

def decodeChar (char : UInt8) : Option Nat := alphabet.idxOf? char

/-- Three bytes are four sextets; the bits that the last bytes leave over are zero. -/
def sextets : List UInt8 → List Nat
  | [] => []
  | [a] => [a.toNat / 4, a.toNat % 4 * 16]
  | [a, b] => [a.toNat / 4, a.toNat % 4 * 16 + b.toNat / 16, b.toNat % 16 * 4]
  | a :: b :: c :: bytes =>
    a.toNat / 4 :: (a.toNat % 4 * 16 + b.toNat / 16) :: (b.toNat % 16 * 4 + c.toNat / 64) :: c.toNat % 64 ::
      sextets bytes

def highByte (s t : Nat) : UInt8 := UInt8.ofNat (s * 4 + t / 16)

def midByte (t u : Nat) : UInt8 := UInt8.ofNat (t % 16 * 16 + u / 4)

def lowByte (u v : Nat) : UInt8 := UInt8.ofNat (u % 4 * 64 + v)

/-- A last sextet on its own is no byte. What is left over of two or three sextets is not looked at. -/
def bytesOf : List Nat → Option (List UInt8)
  | [] => some []
  | [_] => none
  | [s, t] => some [highByte s t]
  | [s, t, u] => some [highByte s t, midByte t u]
  | s :: t :: u :: v :: rest => (bytesOf rest).map ([highByte s t, midByte t u, lowByte u v] ++ ·)

def encodeToString (bytes : List UInt8) : List UInt8 := (sextets bytes).map encodeChar

def decodeChars : Nat → List UInt8 → Except Nat (List Nat)
  | _, [] => .ok []
  | offset, char :: chars =>
    match decodeChar char with
    | none => .error offset
    | some sextet => (decodeChars (offset + 1) chars).map (sextet :: ·)

/-- Line breaks are taken out first. An error says where the text stops being base64. -/
def decodeString (text : List UInt8) : Except Nat (List UInt8) :=
  let text := text.filter fun char => char != 10 && char != 13
  (decodeChars 0 text).bind fun values =>
    match bytesOf values with
    | some bytes => .ok bytes
    | none => .error (text.length - 1)

theorem decodeChar_encodeChar : ∀ sextet < 64, decodeChar (encodeChar sextet) = some sextet := by decide

theorem encodeChar_eq_dash : ∀ sextet < 64, (encodeChar sextet = 45 ↔ sextet = 62) := by decide

theorem encodeChar_keeps : ∀ sextet < 64, (encodeChar sextet != 10 && encodeChar sextet != 13) = true := by decide

theorem sextets_lt (bytes : List UInt8) : ∀ sextet ∈ sextets bytes, sextet < 64 := by
  induction bytes using sextets.induct with
  | case1 => simp [sextets]
  | case2 a =>
    have := a.toNat_lt
    simp only [sextets, List.forall_mem_cons, List.not_mem_nil, false_imp_iff, implies_true, and_true]
    omega
  | case3 a b =>
    have := a.toNat_lt
    have := b.toNat_lt
    simp only [sextets, List.forall_mem_cons, List.not_mem_nil, false_imp_iff, implies_true, and_true]
    omega
  | case4 a b c bytes ih =>
    have := a.toNat_lt
    have := b.toNat_lt
    have := c.toNat_lt
    simp only [sextets, List.forall_mem_cons]
    refine ⟨?_, ?_, ?_, ?_, ih⟩ <;> omega

theorem decodeChars_map (values : List Nat) (small : ∀ sextet ∈ values, sextet < 64) (offset : Nat) :
    decodeChars offset (values.map encodeChar) = .ok values := by
  induction values generalizing offset with
  | nil => rfl
  | cons sextet values ih =>
    rw [List.forall_mem_cons] at small
    simp only [List.map_cons, decodeChars, decodeChar_encodeChar sextet small.1, ih small.2]
    rfl

theorem decodeString_map (values : List Nat) (small : ∀ sextet ∈ values, sextet < 64) :
    decodeString (values.map encodeChar) =
      match bytesOf values with
      | some bytes => .ok bytes
      | none => .error (values.length - 1) := by
  have kept : (values.map encodeChar).filter (fun char => char != 10 && char != 13) = values.map encodeChar := by
    apply List.filter_eq_self.mpr
    intro char member
    obtain ⟨sextet, inValues, rfl⟩ := List.mem_map.mp member
    exact encodeChar_keeps sextet (small sextet inValues)
  simp only [decodeString, kept, decodeChars_map values small, List.length_map]
  rfl

theorem ofNat_eq {a : UInt8} {n : Nat} (same : n = a.toNat) : UInt8.ofNat n = a := by
  rw [same]
  exact UInt8.ofNat_toNat

theorem highByte_eq (a : UInt8) (t : Nat) (low : t / 16 = a.toNat % 4) : highByte (a.toNat / 4) t = a := by
  apply ofNat_eq
  omega

theorem midByte_eq (b : UInt8) (t u : Nat) (high : t % 16 = b.toNat / 16) (low : u / 4 = b.toNat % 16) :
    midByte t u = b := by
  apply ofNat_eq
  omega

theorem lowByte_eq (c : UInt8) (u : Nat) (high : u % 4 = c.toNat / 64) : lowByte u (c.toNat % 64) = c := by
  apply ofNat_eq
  omega

theorem bytesOf_group (a b c : UInt8) (rest : List Nat) :
    bytesOf (a.toNat / 4 :: (a.toNat % 4 * 16 + b.toNat / 16) :: (b.toNat % 16 * 4 + c.toNat / 64) ::
      c.toNat % 64 :: rest) = (bytesOf rest).map ([a, b, c] ++ ·) := by
  have := b.toNat_lt
  have := c.toNat_lt
  rw [bytesOf, highByte_eq a _ (by omega), midByte_eq b _ _ (by omega) (by omega), lowByte_eq c _ (by omega)]

theorem bytesOf_two (a b : UInt8) : bytesOf [a.toNat / 4, a.toNat % 4 * 16 + b.toNat / 16] = some [a] := by
  have := b.toNat_lt
  rw [bytesOf, highByte_eq a _ (by omega)]

theorem bytesOf_three (a b : UInt8) (n : Nat) (small : n < 4) :
    bytesOf [a.toNat / 4, a.toNat % 4 * 16 + b.toNat / 16, b.toNat % 16 * 4 + n] = some [a, b] := by
  have := b.toNat_lt
  rw [bytesOf, highByte_eq a _ (by omega), midByte_eq b _ _ (by omega) (by omega)]

theorem bytesOf_sextets (bytes : List UInt8) : bytesOf (sextets bytes) = some bytes := by
  induction bytes using sextets.induct with
  | case1 => rfl
  | case2 a => exact congrArg some (congrArg (· :: []) (highByte_eq a _ (by omega)))
  | case3 a b => exact bytesOf_three a b 0 (by decide)
  | case4 a b c bytes ih =>
    rw [sextets, bytesOf_group, ih]
    rfl

/-- What a cut text decodes to, where it decodes, is a proper prefix of the bytes. -/
theorem bytesOf_take {bytes decoded : List UInt8} {count : Nat} (cut : count < (sextets bytes).length)
    (decodes : bytesOf ((sextets bytes).take count) = some decoded) :
    ∃ kept < bytes.length, decoded = bytes.take kept := by
  induction bytes using sextets.induct generalizing count decoded with
  | case1 => exact absurd cut (Nat.not_lt_zero _)
  | case2 a =>
    match count, cut with
    | 0, _ => exact ⟨0, by simp, (Option.some.inj decodes).symm⟩
    | 1, _ => cases decodes
    | count + 2, cut => exact absurd cut (by simp [sextets])
  | case3 a b =>
    match count, cut with
    | 0, _ => exact ⟨0, by simp, (Option.some.inj decodes).symm⟩
    | 1, _ => cases decodes
    | 2, _ => exact ⟨1, by simp, (Option.some.inj ((bytesOf_two a b).symm.trans decodes)).symm⟩
    | count + 3, cut => exact absurd cut (by simp [sextets])
  | case4 a b c bytes ih =>
    match count, cut with
    | 0, _ => exact ⟨0, by simp, (Option.some.inj decodes).symm⟩
    | 1, _ => cases decodes
    | 2, _ => exact ⟨1, by simp, (Option.some.inj ((bytesOf_two a b).symm.trans decodes)).symm⟩
    | 3, _ =>
      have := c.toNat_lt
      exact ⟨2, by simp, (Option.some.inj ((bytesOf_three a b _ (by omega)).symm.trans decodes)).symm⟩
    | count + 4, cut =>
      simp only [sextets, List.take_succ_cons, bytesOf_group, Option.map_eq_some_iff] at decodes
      obtain ⟨rest, read, rfl⟩ := decodes
      obtain ⟨kept, shorter, rfl⟩ := ih (by simpa [sextets] using cut) read
      exact ⟨kept + 3, by simpa using shorter, rfl⟩

theorem decodeString_encodeToString (bytes : List UInt8) : decodeString (encodeToString bytes) = .ok bytes := by
  rw [encodeToString, decodeString_map _ (sextets_lt bytes), bytesOf_sextets]

theorem decodeString_cut {bytes decoded : List UInt8} {count : Nat} (cut : count < (encodeToString bytes).length)
    (decodes : decodeString ((encodeToString bytes).take count) = .ok decoded) :
    ∃ kept < bytes.length, decoded = bytes.take kept := by
  have small : ∀ sextet ∈ (sextets bytes).take count, sextet < 64 :=
    fun sextet member => sextets_lt bytes sextet (List.mem_of_mem_take member)
  rw [encodeToString, ← List.map_take, decodeString_map _ small] at decodes
  cases read : bytesOf ((sextets bytes).take count) with
  | none => simp [read] at decodes
  | some _ =>
    rw [read] at decodes
    obtain rfl := Except.ok.inj decodes
    exact bytesOf_take (by simpa [encodeToString] using cut) read

/-- Whether a dash is written within or right after these bytes. `phase` is their offset modulo three,
`before` the byte before them. -/
def HasDash : Nat → UInt8 → List UInt8 → Prop
  | _, _, [] => False
  | phase, before, byte :: bytes =>
    (if phase = 0 then byte.toNat / 4 = 62
      else if phase = 1 then before.toNat % 4 = 3 ∧ byte.toNat / 16 = 14
      else before.toNat % 16 = 15 ∧ byte.toNat / 64 = 2 ∨ byte.toNat % 64 = 62) ∨
    HasDash ((phase + 1) % 3) byte bytes

instance decidableHasDash : ∀ phase before bytes, Decidable (HasDash phase before bytes)
  | _, _, [] => isFalse id
  | phase, _, byte :: bytes =>
    have := decidableHasDash ((phase + 1) % 3) byte bytes
    inferInstanceAs (Decidable (_ ∨ _))

theorem hasDash_iff (bytes : List UInt8) (before : UInt8) : HasDash 0 before bytes ↔ 62 ∈ sextets bytes := by
  induction bytes using sextets.induct generalizing before with
  | case1 => simp [HasDash, sextets]
  | case2 a =>
    have := a.toNat_lt
    simp [HasDash, sextets]
    omega
  | case3 a b =>
    have := a.toNat_lt
    have := b.toNat_lt
    simp [HasDash, sextets]
    omega
  | case4 a b c bytes ih =>
    have := a.toNat_lt
    have := b.toNat_lt
    have := c.toNat_lt
    by_cases later : 62 ∈ sextets bytes
    · simp [HasDash, sextets, ih c, later]
    · simp [HasDash, sextets, ih c, later]
      omega

theorem dash_mem_encodeToString (bytes : List UInt8) (before : UInt8) :
    45 ∈ encodeToString bytes ↔ HasDash 0 before bytes := by
  rw [hasDash_iff, encodeToString, List.mem_map]
  constructor
  · rintro ⟨sextet, member, dash⟩
    rwa [← (encodeChar_eq_dash sextet (sextets_lt bytes sextet member)).mp dash]
  · exact fun member => ⟨62, member, by decide⟩

theorem hasDash_append (phase : Nat) (before : UInt8) (first second : List UInt8) (bound : phase < 3) :
    HasDash phase before (first ++ second) ↔
      HasDash phase before first ∨ HasDash ((phase + first.length) % 3) (first.getLastD before) second := by
  induction first generalizing phase before with
  | nil => simp [HasDash, Nat.mod_eq_of_lt bound]
  | cons byte bytes ih =>
    have phases : ((phase + 1) % 3 + bytes.length) % 3 = (phase + (byte :: bytes).length) % 3 := by
      rw [List.length_cons]
      omega
    rw [List.cons_append, HasDash, HasDash, ih _ _ (Nat.mod_lt _ (by decide)), phases, List.getLastD_cons, or_assoc]

/-- Bytes that no phase and no byte before them make a dash of. -/
def Quiet (byte : UInt8) : Prop := byte.toNat < 128 ∧ byte.toNat % 64 ≠ 62

instance (byte : UInt8) : Decidable (Quiet byte) := inferInstanceAs (Decidable (_ ∧ _))

theorem not_hasDash {bytes : List UInt8} (quiet : ∀ byte ∈ bytes, Quiet byte) (phase : Nat) (before : UInt8) :
    ¬HasDash phase before bytes := by
  induction bytes generalizing phase before with
  | nil => exact id
  | cons byte bytes ih =>
    rw [List.forall_mem_cons] at quiet
    obtain ⟨ascii, other⟩ := quiet.1
    rintro (here | later)
    · split_ifs at here <;> omega
    · exact ih quiet.2 _ _ later

end Base64
