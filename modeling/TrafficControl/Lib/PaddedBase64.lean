import TrafficControl.Lib.Base64

set_option autoImplicit false

-- The padded base64 of the standard alphabet, on bytes.
namespace PaddedBase64

open Base64 (highByte midByte lowByte highByte_eq midByte_eq lowByte_eq)

/-- `A-Z`, `a-z`, `0-9`, `+` and `/`. -/
def alphabet : List UInt8 :=
  (List.range 26).map (fun i => UInt8.ofNat (65 + i)) ++ (List.range 26).map (fun i => UInt8.ofNat (97 + i)) ++
    (List.range 10).map (fun i => UInt8.ofNat (48 + i)) ++ [43, 47]

def padding : UInt8 := 61

def encodeChar (sextet : Nat) : UInt8 := alphabet.getD sextet 0

def decodeChar (char : UInt8) : Option Nat := alphabet.idxOf? char

def encodeToString : List UInt8 → List UInt8
  | [] => []
  | [a] => [encodeChar (a.toNat / 4), encodeChar (a.toNat % 4 * 16), padding, padding]
  | [a, b] => [encodeChar (a.toNat / 4), encodeChar (a.toNat % 4 * 16 + b.toNat / 16), encodeChar (b.toNat % 16 * 4), padding]
  | a :: b :: c :: bytes =>
    encodeChar (a.toNat / 4) :: encodeChar (a.toNat % 4 * 16 + b.toNat / 16) ::
      encodeChar (b.toNat % 16 * 4 + c.toNat / 64) :: encodeChar (c.toNat % 64) :: encodeToString bytes

def decodeGroup (w x y z : UInt8) : Option (List UInt8) := do
  let s ← decodeChar w
  let t ← decodeChar x
  let u ← decodeChar y
  let v ← decodeChar z
  return [highByte s t, midByte t u, lowByte u v]

-- Padding stands only at the end; the bits that are left over are not looked at.
def decodeLast (w x y z : UInt8) : Option (List UInt8) :=
  if z = padding then do
    let s ← decodeChar w
    let t ← decodeChar x
    if y = padding then return [highByte s t]
    else
      let u ← decodeChar y
      return [highByte s t, midByte t u]
  else decodeGroup w x y z

def decodeGroups : List UInt8 → Option (List UInt8)
  | [] => some []
  | [w, x, y, z] => decodeLast w x y z
  | w :: x :: y :: z :: rest => do
    let bytes ← decodeGroup w x y z
    let later ← decodeGroups rest
    return bytes ++ later
  | _ => none

/-- Line breaks are skipped wherever they stand. -/
def decodeString (text : List UInt8) : Option (List UInt8) := decodeGroups (text.filter fun char => char != 10 && char != 13)

theorem decodeChar_encodeChar : ∀ sextet < 64, decodeChar (encodeChar sextet) = some sextet := by decide

def Coded (char : UInt8) : Prop := char ∈ alphabet ∨ char = padding

theorem encodeChar_mem : ∀ sextet < 64, encodeChar sextet ∈ alphabet := by decide

theorem coded_encodeToString (bytes : List UInt8) : ∀ char ∈ encodeToString bytes, Coded char := by
  have letter (sextet : Nat) (small : sextet < 64) : Coded (encodeChar sextet) := Or.inl (encodeChar_mem sextet small)
  have last : Coded padding := Or.inr rfl
  induction bytes using encodeToString.induct with
  | case1 => simp [encodeToString]
  | case2 a =>
    have := a.toNat_lt
    simp only [encodeToString, List.forall_mem_cons, List.not_mem_nil, false_imp_iff, implies_true, and_true]
    exact ⟨letter _ (by omega), letter _ (by omega), last, last⟩
  | case3 a b =>
    have := a.toNat_lt
    have := b.toNat_lt
    simp only [encodeToString, List.forall_mem_cons, List.not_mem_nil, false_imp_iff, implies_true, and_true]
    exact ⟨letter _ (by omega), letter _ (by omega), letter _ (by omega), last⟩
  | case4 a b c bytes ih =>
    have := a.toNat_lt
    have := b.toNat_lt
    have := c.toNat_lt
    simp only [encodeToString, List.forall_mem_cons]
    exact ⟨letter _ (by omega), letter _ (by omega), letter _ (by omega), letter _ (by omega), ih⟩

theorem encodeChar_ne_padding : ∀ sextet < 64, encodeChar sextet ≠ padding := by decide

theorem decodeGroup_encode (a b c : UInt8) :
    decodeGroup (encodeChar (a.toNat / 4)) (encodeChar (a.toNat % 4 * 16 + b.toNat / 16))
      (encodeChar (b.toNat % 16 * 4 + c.toNat / 64)) (encodeChar (c.toNat % 64)) = some [a, b, c] := by
  have := a.toNat_lt
  have := b.toNat_lt
  have := c.toNat_lt
  rw [decodeGroup, decodeChar_encodeChar _ (by omega), decodeChar_encodeChar _ (by omega),
    decodeChar_encodeChar _ (by omega), decodeChar_encodeChar _ (by omega)]
  change some [highByte _ _, midByte _ _, lowByte _ _] = _
  rw [highByte_eq a _ (by omega), midByte_eq b _ _ (by omega) (by omega), lowByte_eq c _ (by omega)]

theorem decodeGroups_encodeToString (bytes : List UInt8) : decodeGroups (encodeToString bytes) = some bytes := by
  induction bytes using encodeToString.induct with
  | case1 => rfl
  | case2 a =>
    have := a.toNat_lt
    rw [encodeToString, decodeGroups, decodeLast, if_pos rfl, decodeChar_encodeChar _ (by omega),
      decodeChar_encodeChar _ (by omega)]
    exact congrArg some (congrArg (· :: []) (highByte_eq a _ (by omega)))
  | case3 a b =>
    have := a.toNat_lt
    have := b.toNat_lt
    have third : encodeChar (b.toNat % 16 * 4) ≠ padding := encodeChar_ne_padding _ (by omega)
    rw [encodeToString, decodeGroups, decodeLast, if_pos rfl, decodeChar_encodeChar _ (by omega),
      decodeChar_encodeChar _ (by omega)]
    simp only [Option.bind_eq_bind, Option.bind_some, if_neg third]
    rw [decodeChar_encodeChar _ (by omega)]
    change some [highByte _ _, midByte _ _] = _
    rw [highByte_eq a _ (by omega), midByte_eq b _ _ (by omega) (by omega)]
  | case4 a b c bytes ih =>
    rw [encodeToString]
    cases later : encodeToString bytes with
    | nil =>
      rw [later] at ih
      obtain rfl : bytes = [] := (Option.some.inj ih).symm
      have := c.toNat_lt
      rw [decodeGroups, decodeLast, if_neg (encodeChar_ne_padding _ (by omega)), decodeGroup_encode]
    | cons char chars =>
      rw [later] at ih
      rw [decodeGroups, decodeGroup_encode, ih]
      · rfl
      · exact fun none => List.cons_ne_nil _ _ none

theorem decodeString_encodeToString (bytes : List UInt8) : decodeString (encodeToString bytes) = some bytes := by
  have kept : (encodeToString bytes).filter (fun char => char != 10 && char != 13) = encodeToString bytes := by
    have all : (alphabet.all fun char => char != 10 && char != 13) = true := by decide
    refine List.filter_eq_self.mpr fun char member => ?_
    rcases coded_encodeToString bytes char member with letter | rfl
    · exact List.all_eq_true.mp all char letter
    · decide
  rw [decodeString, kept, decodeGroups_encodeToString]

theorem length_decodeGroup {w x y z : UInt8} {bytes : List UInt8} (decodes : decodeGroup w x y z = some bytes) :
    bytes.length = 3 := by
  simp only [decodeGroup, Option.bind_eq_bind, Option.bind_eq_some_iff] at decodes
  obtain ⟨_, _, _, _, _, _, _, _, same⟩ := decodes
  cases same
  rfl

theorem length_decodeLast {w x y z : UInt8} {bytes : List UInt8} (decodes : decodeLast w x y z = some bytes) :
    bytes.length ≤ 3 := by
  unfold decodeLast at decodes
  split at decodes
  · simp only [Option.bind_eq_bind, Option.bind_eq_some_iff] at decodes
    obtain ⟨_, _, _, _, same⟩ := decodes
    split at same
    · cases same
      exact Nat.le_add_left 1 2
    · obtain ⟨_, _, same⟩ := Option.bind_eq_some_iff.mp same
      cases same
      exact Nat.le_add_left 2 1
  · exact Nat.le_of_eq (length_decodeGroup decodes)

/-- A text is longer than what it stands for. -/
theorem length_decodeString {text bytes : List UInt8} (decodes : decodeString text = some bytes) :
    bytes.length ≤ text.length := by
  have groups (chars bytes : List UInt8) (decodes : decodeGroups chars = some bytes) : bytes.length ≤ chars.length := by
    induction chars using decodeGroups.induct generalizing bytes with
    | case1 =>
      cases decodes
      exact Nat.le_refl 0
    | case2 w x y z =>
      exact Nat.le_trans (length_decodeLast decodes) (Nat.le_add_left 3 1)
    | case3 w x y z rest some_left ih =>
      rw [decodeGroups] at decodes
      · simp only [Option.bind_eq_bind, Option.bind_eq_some_iff] at decodes
        obtain ⟨first, group, later, tail, same⟩ := decodes
        cases same
        have front := length_decodeGroup group
        have back := ih later tail
        simp only [List.length_append, List.length_cons]
        omega
      · exact some_left
    | case4 chars none last many =>
      rw [decodeGroups] at decodes
      · cases decodes
      · exact none
      · exact last
      · exact many
  exact Nat.le_trans (groups _ bytes decodes) (List.length_filter_le _ text)

end PaddedBase64
