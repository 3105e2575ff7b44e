import Mathlib.Algebra.Ring.Int.Defs
import Mathlib.Algebra.Ring.Nat

set_option autoImplicit false

-- Two's complement integers and the doubles next to them, as values of `Int`.
namespace MachineInt

/-- What is left of a number in a signed integer of `width` bits. -/
def wrap (width : Nat) (n : Int) : Int := n.bmod (2 ^ width)

def Fits (width : Nat) (n : Int) : Prop := -2 ^ width ≤ n * 2 ∧ n * 2 < 2 ^ width

instance (width : Nat) (n : Int) : Decidable (Fits width n) := inferInstanceAs (Decidable (_ ∧ _))

theorem wrap_eq {width : Nat} {n : Int} (fits : Fits width n) : wrap width n = n := by
  have cast : ((2 ^ width : Nat) : Int) = 2 ^ width := by simp
  exact Int.bmod_eq_of_le_mul_two (by simpa only [cast] using fits.1) (by simpa only [cast] using fits.2)

theorem wrap_add_wrap (width : Nat) (m n : Int) : wrap width (m + wrap width n) = wrap width (m + n) :=
  Int.add_bmod_bmod

theorem wrap_wrap_add (width : Nat) (m n : Int) : wrap width (wrap width m + n) = wrap width (m + n) :=
  Int.bmod_add_bmod

theorem wrap_add_congr {width : Nat} {m m' n n' : Int} (left : wrap width m = wrap width m')
    (right : wrap width n = wrap width n') : wrap width (m + n) = wrap width (m' + n') := by
  rw [← wrap_wrap_add, ← wrap_add_wrap, left, right, wrap_add_wrap, wrap_wrap_add]

theorem fits_wrap (width : Nat) (n : Int) : Fits width (wrap width n) := by
  have positive : 0 < 2 ^ width := Nat.two_pow_pos width
  have low := Int.le_bmod (x := n) positive
  have high := Int.bmod_lt (x := n) positive
  have cast : ((2 ^ width : Nat) : Int) = 2 ^ width := by simp
  unfold Fits wrap
  omega

theorem natAbs_wrap_le (width : Nat) (n : Int) : (wrap width n).natAbs ≤ n.natAbs := by
  by_cases fits : Fits width n
  · rw [wrap_eq fits]
  · have wrapped := fits_wrap width n
    unfold Fits at fits wrapped
    omega

/-- The double nearest to a natural number, ties to even: a multiple of the last place of its
leading 53 bits. -/
def nearestDouble (n : Nat) : Nat :=
  let ulp := 2 ^ (n.log2 + 1 - 53)
  let quotient := n / ulp
  let remainder := n % ulp
  if 2 * remainder < ulp ∨ 2 * remainder = ulp ∧ quotient % 2 = 0 then quotient * ulp else (quotient + 1) * ulp

theorem nearestDouble_le (n : Nat) : nearestDouble n ≤ 2 * n := by
  have whole : n / 2 ^ (n.log2 + 1 - 53) * 2 ^ (n.log2 + 1 - 53) ≤ n := Nat.div_mul_le_self _ _
  have place : n ≠ 0 → 2 ^ (n.log2 + 1 - 53) ≤ n := by
    intro nonzero
    have smaller : 2 ^ (n.log2 + 1 - 53) ≤ 2 ^ n.log2 := Nat.pow_le_pow_right (by decide) (by omega)
    exact Nat.le_trans smaller (Nat.log2_self_le nonzero)
  unfold nearestDouble
  dsimp only
  by_cases zero : n = 0
  · simp [zero]
  · have bound := place zero
    split
    · omega
    · rw [Nat.add_mul, Nat.one_mul]
      omega

/-- A multiple of a power of two that leaves at most 53 bits is a double. -/
theorem nearestDouble_of_dvd {n k : Nat} (divides : 2 ^ k ∣ n) (short : n < 2 ^ (k + 53)) : nearestDouble n = n := by
  have place : 2 ^ (n.log2 + 1 - 53) ∣ n := by
    by_cases zero : n = 0
    · simp [zero]
    · have bits : n.log2 < k + 53 := (Nat.log2_lt zero).mpr short
      exact Nat.dvd_trans (Nat.pow_dvd_pow 2 (by omega)) divides
  have exact : n % 2 ^ (n.log2 + 1 - 53) = 0 := Nat.mod_eq_zero_of_dvd place
  have positive : 0 < 2 ^ (n.log2 + 1 - 53) := Nat.two_pow_pos _
  unfold nearestDouble
  dsimp only
  rw [exact, if_pos (Or.inl (by omega)), Nat.div_mul_cancel place]

theorem nearestDouble_small {n : Nat} (short : n < 2 ^ 53) : nearestDouble n = n :=
  nearestDouble_of_dvd (k := 0) (Nat.one_dvd n) (by simpa using short)

theorem nearestDouble_idem (n : Nat) : nearestDouble (nearestDouble n) = nearestDouble n := by
  by_cases short : n < 2 ^ 53
  · rw [nearestDouble_small short, nearestDouble_small short]
  · have nonzero : n ≠ 0 := by omega
    obtain ⟨k, log⟩ : ∃ k, n.log2 + 1 = k + 53 := ⟨n.log2 + 1 - 53, by
      have bits : 53 ≤ n.log2 := (Nat.le_log2 nonzero).mpr (by omega)
      omega⟩
    have quotient : n / 2 ^ k < 2 ^ 53 := by
      have top : n < 2 ^ (n.log2 + 1) := Nat.lt_log2_self
      rw [log, Nat.pow_add] at top
      exact Nat.div_lt_of_lt_mul top
    have multiple : ∃ m ≤ 2 ^ 53, nearestDouble n = m * 2 ^ k := by
      unfold nearestDouble
      rw [log, Nat.add_sub_cancel]
      dsimp only
      split
      · exact ⟨_, Nat.le_of_lt quotient, rfl⟩
      · exact ⟨_, quotient, rfl⟩
    obtain ⟨m, bound, same⟩ := multiple
    rw [same]
    by_cases full : m = 2 ^ 53
    · rw [full, ← Nat.pow_add]
      exact nearestDouble_of_dvd (k := 53 + k) (Nat.dvd_refl _) (Nat.pow_lt_pow_right (by decide) (by omega))
    · refine nearestDouble_of_dvd (Nat.dvd_mul_left _ m) ?_
      rw [Nat.add_comm, Nat.pow_add]
      exact Nat.mul_lt_mul_of_pos_right (by omega) (Nat.two_pow_pos k)

def toDouble (n : Int) : Int := n.sign * nearestDouble n.natAbs

theorem toDouble_neg (n : Int) : toDouble (-n) = -toDouble n := by
  simp [toDouble]

theorem toDouble_natCast (n : Nat) : toDouble n = nearestDouble n := by
  by_cases zero : n = 0
  · rw [zero]
    decide
  · rw [toDouble, Int.sign_eq_one_of_pos (by omega), Int.one_mul, Int.natAbs_natCast]

theorem toDouble_idem (n : Int) : toDouble (toDouble n) = toDouble n := by
  rcases Int.eq_nat_or_neg n with ⟨m, rfl | rfl⟩
  · rw [toDouble_natCast, toDouble_natCast, nearestDouble_idem]
  · rw [toDouble_neg, toDouble_neg, toDouble_natCast, toDouble_natCast, nearestDouble_idem]
theorem toDouble_nonneg {n : Int} (nonnegative : 0 ≤ n) : 0 ≤ toDouble n ∧ toDouble n ≤ 2 * n := by
  have bound := nearestDouble_le n.natAbs
  rcases Int.lt_trichotomy n 0 with negative | rfl | positive
  · omega
  · decide
  · rw [toDouble, Int.sign_eq_one_of_pos positive, Int.one_mul]
    omega

theorem toDouble_nonpos {n : Int} (nonpositive : n ≤ 0) : 2 * n ≤ toDouble n ∧ toDouble n ≤ 0 := by
  have bound := nearestDouble_le n.natAbs
  rcases Int.lt_trichotomy n 0 with negative | rfl | positive
  · rw [toDouble, Int.sign_eq_neg_one_of_neg negative]
    omega
  · decide
  · omega

/-- `Math.round((double) n / 2.0)`: halves are rounded up. -/
def roundHalf (n : Int) : Int := (toDouble n + 1) / 2

theorem roundHalf_nonneg {n : Int} (nonnegative : 0 ≤ n) : 0 ≤ roundHalf n ∧ roundHalf n ≤ n := by
  have between := toDouble_nonneg nonnegative
  unfold roundHalf
  omega

theorem roundHalf_nonpos {n : Int} (nonpositive : n ≤ 0) : n ≤ roundHalf n ∧ roundHalf n ≤ 0 := by
  have between := toDouble_nonpos nonpositive
  unfold roundHalf
  omega

example : roundHalf 9007199254740993 = 4503599627370496 := by decide

end MachineInt
