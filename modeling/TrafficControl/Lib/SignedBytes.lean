import Mathlib.Data.Nat.Bitwise
import Mathlib.Data.List.Basic

set_option autoImplicit false

namespace SignedBytes

abbrev Byte := BitVec 8

-- Bits are numbered from the most significant bit of the first byte.
def bit (bytes : List Byte) (i : Nat) : Bool := (bytes.getD (i / 8) 0).getMsbD (i % 8)

def firstNonzero (diff : Nat → Int) : Nat → Nat → Int
  | 0, _ => 0
  | remaining + 1, i => if diff i ≠ 0 then diff i else firstNonzero diff remaining (i + 1)

theorem firstNonzero_eq_zero (diff : Nat → Int) (remaining i : Nat) :
    firstNonzero diff remaining i = 0 ↔ ∀ k < remaining, diff (i + k) = 0 := by
  induction remaining generalizing i with
  | zero => simp [firstNonzero]
  | succ remaining ih =>
    simp only [firstNonzero]
    split_ifs with nonzero
    · simp only [nonzero, false_iff, not_forall]
      exact ⟨0, by omega, by simpa using nonzero⟩
    · rw [ih]
      constructor
      · intro zeros k inside
        cases k with
        | zero => simpa using nonzero
        | succ k => simpa [Nat.add_assoc, Nat.add_comm 1] using zeros k (by omega)
      · intro zeros k inside
        simpa [Nat.add_assoc, Nat.add_comm 1] using zeros (k + 1) (by omega)

theorem firstNonzero_neg (diff : Nat → Int) (remaining i : Nat) :
    firstNonzero diff remaining i < 0 ↔
      ∃ k < remaining, (∀ j < k, diff (i + j) = 0) ∧ diff (i + k) < 0 := by
  induction remaining generalizing i with
  | zero => simp [firstNonzero]
  | succ remaining ih =>
    simp only [firstNonzero]
    split_ifs with nonzero
    · constructor
      · exact fun negative => ⟨0, by omega, by simp, by simpa using negative⟩
      · rintro ⟨k, inside, zeros, negative⟩
        cases k with
        | zero => simpa using negative
        | succ k => exact absurd (by simpa using zeros 0 (by omega)) nonzero
    · rw [ih]
      push Not at nonzero
      constructor
      · rintro ⟨k, inside, zeros, negative⟩
        refine ⟨k + 1, by omega, ?_, by simpa [Nat.add_assoc, Nat.add_comm 1] using negative⟩
        intro j before
        cases j with
        | zero => simpa using nonzero
        | succ j => simpa [Nat.add_assoc, Nat.add_comm 1] using zeros j (by omega)
      · rintro ⟨k, inside, zeros, negative⟩
        cases k with
        | zero =>
          rw [Nat.add_zero, nonzero] at negative
          omega
        | succ k =>
          refine ⟨k, by omega, ?_, by simpa [Nat.add_assoc, Nat.add_comm 1] using negative⟩
          intro j before
          simpa [Nat.add_assoc, Nat.add_comm 1] using zeros (j + 1) (by omega)

theorem firstNonzero_swap (diff swapped : Nat → Int) (opposite : ∀ i, swapped i = -diff i)
    (remaining i : Nat) : firstNonzero swapped remaining i = -firstNonzero diff remaining i := by
  induction remaining generalizing i with
  | zero => rfl
  | succ remaining ih =>
    simp only [firstNonzero, opposite, ih]
    split_ifs <;> omega

-- The sign bit of a byte orders downwards, its other bits upwards.
def Precedes (length : Nat) (a b : Nat → Bool) : Prop :=
  ∃ p < length, (∀ q < p, a q = b q) ∧ a p = decide (p % 8 = 0) ∧ b p = !decide (p % 8 = 0)

theorem precedes_trans {la lb lc : Nat} {a b c : Nat → Bool}
    (ab : Precedes (min la lb) a b) (bc : Precedes (min lb lc) b c) : Precedes (min la lc) a c := by
  obtain ⟨p, pInside, pSame, pLow, pHigh⟩ := ab
  obtain ⟨q, qInside, qSame, qLow, qHigh⟩ := bc
  rcases Nat.lt_trichotomy p q with before | rfl | after
  · exact ⟨p, by omega, fun i inside => (pSame i inside).trans (qSame i (by omega)), pLow,
      (qSame p before).symm.trans pHigh⟩
  · rw [qLow] at pHigh
    cases h : decide (p % 8 = 0) <;> simp [h] at pHigh
  · exact ⟨q, by omega, fun i inside => (pSame i (by omega)).trans (qSame i inside),
      (pSame q after).trans qLow, qHigh⟩

theorem toInt_offset : ∀ x : Byte, x.toInt = ((x ^^^ 128#8).toNat : Int) - 128 := by decide

theorem offset_testBit (x : Byte) (i : Nat) (inside : i < 8) :
    (x ^^^ 128#8).toNat.testBit i = (x.getMsbD (7 - i) ^^ decide (i = 7)) := by
  have sign : ∀ i : Fin 8, (128#8).getLsbD i.val = decide (i.val = 7) := by decide
  have index : 8 - 1 - (7 - i) = i := by omega
  have within : 7 - i < 8 := by omega
  rw [BitVec.testBit_toNat, BitVec.getLsbD_xor, sign ⟨i, inside⟩, BitVec.getMsbD_eq_getLsbD, index]
  simp [within]

theorem byte_lt_of_precedes {x y : Byte} {p : Nat} (inside : p < 8)
    (same : ∀ q < p, x.getMsbD q = y.getMsbD q)
    (low : x.getMsbD p = decide (p = 0)) (high : y.getMsbD p = !decide (p = 0)) :
    x.toInt < y.toInt := by
  have top : decide (7 - p = 7) = decide (p = 0) := by simp only [decide_eq_decide]; omega
  have index : 7 - (7 - p) = p := by omega
  have smaller : (x ^^^ 128#8).toNat < (y ^^^ 128#8).toNat := by
    apply Nat.lt_of_testBit (7 - p)
    · rw [offset_testBit x _ (by omega), index, low, top, Bool.xor_self]
    · rw [offset_testBit y _ (by omega), index, high, top, Bool.not_xor_self]
    · intro j above
      by_cases within : j < 8
      · rw [offset_testBit x j within, offset_testBit y j within, same (7 - j) (by omega)]
      · rw [BitVec.testBit_toNat, BitVec.testBit_toNat, BitVec.getLsbD_of_ge _ _ (by omega),
          BitVec.getLsbD_of_ge _ _ (by omega)]
  rw [toInt_offset x, toInt_offset y]
  omega

theorem byte_difference {x y : Byte} (different : x ≠ y) :
    ∃ p < 8, (∀ q < p, x.getMsbD q = y.getMsbD q) ∧ x.getMsbD p ≠ y.getMsbD p := by
  by_contra absent
  push Not at absent
  apply different
  apply BitVec.eq_of_getMsbD_eq
  intro i inside
  induction i using Nat.strongRecOn with
  | ind i ih => exact absent i inside fun q before => ih q before (by omega)

theorem byte_lt_iff (x y : Byte) :
    x.toInt < y.toInt ↔ ∃ p < 8, (∀ q < p, x.getMsbD q = y.getMsbD q) ∧
      x.getMsbD p = decide (p = 0) ∧ y.getMsbD p = !decide (p = 0) := by
  constructor
  · intro less
    have different : x ≠ y := by
      rintro rfl
      omega
    obtain ⟨p, inside, same, differ⟩ := byte_difference different
    refine ⟨p, inside, same, ?_⟩
    by_contra other
    -- At the first difference the only other possibility is the opposite order.
    have low : y.getMsbD p = decide (p = 0) := by
      cases hx : x.getMsbD p <;> cases hy : y.getMsbD p <;> cases hp : decide (p = 0) <;> simp_all
    have high : x.getMsbD p = !decide (p = 0) := by
      cases hx : x.getMsbD p <;> cases hy : y.getMsbD p <;> cases hp : decide (p = 0) <;> simp_all
    have greater := byte_lt_of_precedes inside (fun q before => (same q before).symm) low high
    omega
  · rintro ⟨p, inside, same, low, high⟩
    exact byte_lt_of_precedes inside same low high

def maskedDiff (a b mask : List Byte) (i : Nat) : Int :=
  (a.getD i 0 &&& mask.getD i 0).toInt - (b.getD i 0 &&& mask.getD i 0).toInt

def compareMasked (a b mask : List Byte) (count : Nat) : Int :=
  firstNonzero (maskedDiff a b mask) count 0

theorem compareMasked_swap (a b mask : List Byte) (count : Nat) :
    compareMasked b a mask count = -compareMasked a b mask count :=
  firstNonzero_swap _ _ (fun i => by simp only [maskedDiff]; omega) count 0

theorem compareMasked_congr {mask mask' : List Byte} (same : ∀ i, bit mask i = bit mask' i)
    (a b : List Byte) (count : Nat) : compareMasked a b mask count = compareMasked a b mask' count := by
  have bytes (i : Nat) : mask.getD i 0 = mask'.getD i 0 := by
    apply BitVec.eq_of_getMsbD_eq
    intro k inside
    have byteIndex : (8 * i + k) / 8 = i := by omega
    have bitIndex : (8 * i + k) % 8 = k := by omega
    have bits := same (8 * i + k)
    rwa [bit, bit, byteIndex, bitIndex] at bits
  simp only [compareMasked, funext fun i => show maskedDiff a b mask i = maskedDiff a b mask' i by
    rw [maskedDiff, maskedDiff, bytes]]

section Masked

variable {a b mask : List Byte} {length : Nat} (masks : ∀ i, bit mask i = decide (i < length))
include masks

theorem masked_bit (bytes : List Byte) (i k : Nat) (inside : k < 8) :
    (bytes.getD i 0 &&& mask.getD i 0).getMsbD k = (bit bytes (8 * i + k) && decide (8 * i + k < length)) := by
  have byteIndex : (8 * i + k) / 8 = i := by omega
  have bitIndex : (8 * i + k) % 8 = k := by omega
  rw [← masks, BitVec.getMsbD_and, bit, bit, byteIndex, bitIndex]

theorem maskedDiff_eq_zero (i : Nat) :
    maskedDiff a b mask i = 0 ↔ ∀ k < 8, 8 * i + k < length → bit a (8 * i + k) = bit b (8 * i + k) := by
  have injective : maskedDiff a b mask i = 0 ↔ a.getD i 0 &&& mask.getD i 0 = b.getD i 0 &&& mask.getD i 0 := by
    rw [← BitVec.toInt_inj, maskedDiff]
    omega
  rw [injective]
  constructor
  · intro equal k inside within
    have bits := congrArg (BitVec.getMsbD · k) equal
    simp only [masked_bit masks _ i k inside, within, decide_true, Bool.and_true] at bits
    exact bits
  · intro agree
    apply BitVec.eq_of_getMsbD_eq
    intro k inside
    rw [masked_bit masks a i k inside, masked_bit masks b i k inside]
    by_cases within : 8 * i + k < length
    · rw [agree k inside within]
    · simp [within]

theorem maskedDiff_neg (i : Nat) :
    maskedDiff a b mask i < 0 ↔ ∃ k < 8, 8 * i + k < length ∧
      (∀ q < k, bit a (8 * i + q) = bit b (8 * i + q)) ∧
      bit a (8 * i + k) = decide (k = 0) ∧ bit b (8 * i + k) = !decide (k = 0) := by
  have order : maskedDiff a b mask i < 0 ↔
      (a.getD i 0 &&& mask.getD i 0).toInt < (b.getD i 0 &&& mask.getD i 0).toInt := by
    rw [maskedDiff]
    omega
  rw [order, byte_lt_iff]
  constructor
  · rintro ⟨k, inside, same, low, high⟩
    rw [masked_bit masks a i k inside] at low
    rw [masked_bit masks b i k inside] at high
    -- Masked bits are clear on both sides, so they cannot differ.
    have within : 8 * i + k < length := by
      by_contra outside
      cases h : decide (k = 0) <;> simp [outside, h] at low high
    refine ⟨k, inside, within, ?_, by simpa [within] using low, by simpa [within] using high⟩
    intro q before
    have := same q before
    rw [masked_bit masks a i q (by omega), masked_bit masks b i q (by omega)] at this
    simpa [show 8 * i + q < length by omega] using this
  · rintro ⟨k, inside, within, same, low, high⟩
    refine ⟨k, inside, ?_, by rw [masked_bit masks a i k inside, low]; simp [within],
      by rw [masked_bit masks b i k inside, high]; simp [within]⟩
    intro q before
    rw [masked_bit masks a i q (by omega), masked_bit masks b i q (by omega), same q before]

theorem compareMasked_eq_zero (count : Nat) (covers : length ≤ 8 * count) :
    compareMasked a b mask count = 0 ↔ ∀ i < length, bit a i = bit b i := by
  rw [compareMasked, firstNonzero_eq_zero]
  constructor
  · intro zeros i inside
    have zero := zeros (i / 8) (by omega)
    rw [Nat.zero_add, maskedDiff_eq_zero masks] at zero
    have same := zero (i % 8) (by omega) (by omega)
    rwa [Nat.div_add_mod] at same
  · intro agree k _
    rw [Nat.zero_add, maskedDiff_eq_zero masks]
    exact fun j _ within => agree _ within

theorem compareMasked_neg (count : Nat) (covers : length ≤ 8 * count) :
    compareMasked a b mask count < 0 ↔ Precedes length (bit a) (bit b) := by
  rw [compareMasked, firstNonzero_neg]
  simp only [Nat.zero_add, maskedDiff_neg masks, maskedDiff_eq_zero masks]
  constructor
  · rintro ⟨i, _, zeros, k, inside, within, same, low, high⟩
    have position : decide (k = 0) = decide ((8 * i + k) % 8 = 0) := by
      simp only [decide_eq_decide]
      omega
    refine ⟨8 * i + k, within, ?_, position ▸ low, position ▸ high⟩
    intro q before
    by_cases sameByte : 8 * i ≤ q
    · have := same (q - 8 * i) (by omega)
      rwa [Nat.add_sub_cancel' sameByte] at this
    · have := zeros (q / 8) (by omega) (q % 8) (by omega) (by omega)
      rwa [Nat.div_add_mod] at this
  · rintro ⟨p, inside, same, low, high⟩
    have position : 8 * (p / 8) + p % 8 = p := Nat.div_add_mod p 8
    exact ⟨p / 8, by omega, fun j before k _ _ => same _ (by omega), p % 8, by omega, by omega,
      fun q before => same _ (by omega), by rwa [position], by rwa [position]⟩

end Masked

end SignedBytes
