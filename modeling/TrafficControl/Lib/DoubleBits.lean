import Mathlib.Data.BitVec
import Mathlib.Order.Lattice

set_option autoImplicit false

-- Doubles of 64 bits as the keys of an ordered map, and their bit patterns as numbers that are counted up and down.
namespace DoubleBits

/-- All bits of the exponent are set, and one of the fraction. -/
def isNaN (bits : BitVec 64) : Bool := 2047 * 2 ^ 52 < bits.toNat % 2 ^ 63

def nanBits : BitVec 64 := 0x7ff8000000000000#64

/-- Of the patterns that are no number one stands for all. -/
structure Double where
  bits : BitVec 64
  canonical : isNaN bits = true → bits = nanBits
deriving DecidableEq

def nan : Double := ⟨nanBits, fun _ => rfl⟩

def longBitsToDouble (bits : BitVec 64) : Double :=
  if isNumber : isNaN bits = false then ⟨bits, fun nan => absurd nan (by rw [isNumber]; exact Bool.false_ne_true)⟩ else nan

section Order

/-- The place of a double in the order: the sign first, and -0.0 below 0.0. -/
def Double.rank (d : Double) : Int :=
  if d.bits.toNat < 2 ^ 63 then d.bits.toNat else 2 ^ 63 - 1 - d.bits.toNat

theorem rank_injective : Function.Injective Double.rank := by
  rintro ⟨a, _⟩ ⟨b, _⟩ same
  have a_range := a.isLt
  have b_range := b.isLt
  have bits : a = b := by
    apply BitVec.eq_of_toNat_eq
    simp only [Double.rank] at same
    split_ifs at same <;> omega
  subst bits
  rfl

/-- `Double.compareTo`. -/
instance : LinearOrder Double := LinearOrder.lift' Double.rank rank_injective

theorem lt_iff {a b : Double} : a < b ↔ a.rank < b.rank := Iff.rfl

/-- The primitive `<`, which is false for NaN and holds both zeros equal. -/
def less (a b : Double) : Bool :=
  !isNaN a.bits && !isNaN b.bits && decide (a.rank < b.rank) &&
    !(a.bits.toNat % 2 ^ 63 == 0 && b.bits.toNat % 2 ^ 63 == 0)

theorem less_nan (a : Double) : less a nan = false ∧ less nan a = false := by
  have flag : isNaN nan.bits = true := by decide
  simp [less, flag]

end Order

section Positive

/-- The double with a pattern that has no sign. -/
def ofBits (n : Nat) : Double := longBitsToDouble (BitVec.ofNat 64 n)

def infinityBits : Nat := 2047 * 2 ^ 52

variable {n : Nat}

theorem isNaN_ofNat (small : n ≤ infinityBits) : isNaN (BitVec.ofNat 64 n) = false := by
  unfold infinityBits at small
  rw [isNaN, decide_eq_false_iff_not, BitVec.toNat_ofNat]
  omega

theorem bits_ofBits (small : n ≤ infinityBits) : (ofBits n).bits = BitVec.ofNat 64 n := by
  rw [ofBits, longBitsToDouble, dif_pos (isNaN_ofNat small)]

theorem rank_ofBits (small : n ≤ infinityBits) : (ofBits n).rank = n := by
  have size : n < 2 ^ 63 := by
    unfold infinityBits at small
    omega
  have same : n % 2 ^ 64 = n := Nat.mod_eq_of_lt (by omega)
  rw [Double.rank, bits_ofBits small, BitVec.toNat_ofNat, same, if_pos size]

theorem ofBits_inj {m : Nat} (small : m ≤ infinityBits) (small' : n ≤ infinityBits) : ofBits m = ofBits n ↔ m = n := by
  refine ⟨fun same => ?_, fun same => same ▸ rfl⟩
  have ranks := congrArg Double.rank same
  rw [rank_ofBits small, rank_ofBits small'] at ranks
  exact Int.ofNat_inj.mp ranks

theorem ofBits_lt {m : Nat} (small : m ≤ infinityBits) (small' : n ≤ infinityBits) : ofBits m < ofBits n ↔ m < n := by
  rw [lt_iff, rank_ofBits small, rank_ofBits small']
  exact Int.ofNat_lt

theorem rank_nan : nan.rank = 0x7ff8000000000000 := by decide

theorem ofBits_lt_nan (small : n ≤ infinityBits) : ofBits n < nan := by
  rw [lt_iff, rank_ofBits small, rank_nan]
  unfold infinityBits at small
  omega

theorem less_ofBits {m : Nat} (small : m ≤ infinityBits) (small' : n ≤ infinityBits) (order : n ≤ m) :
    less (ofBits m) (ofBits n) = false := by
  have ranks : ¬(ofBits m).rank < (ofBits n).rank := by
    rw [rank_ofBits small, rank_ofBits small']
    omega
  simp [less, ranks]

end Positive

section Probing

variable (taken : Double → Bool)

def step (add : Bool) (bits : BitVec 64) : BitVec 64 := if add then bits + 1 else bits - 1

/-- The bits are stepped until their double is free; `none` stands for a loop that never ends. -/
def probe (add : Bool) : Nat → BitVec 64 → Option (BitVec 64)
  | 0, _ => none
  | tries + 1, bits =>
    let bits := step add bits
    if taken (longBitsToDouble bits) then probe add tries bits else some bits

variable {taken} {add : Bool}

/-- The loop ends at the first of the patterns ahead that is free. -/
theorem probe_eq {k tries : Nat} {bits : BitVec 64} (enough : k < tries)
    (passed : ∀ j < k, taken (longBitsToDouble ((step add)^[j + 1] bits)) = true)
    (free : taken (longBitsToDouble ((step add)^[k + 1] bits)) = false) :
    probe taken add tries bits = some ((step add)^[k + 1] bits) := by
  induction k generalizing tries bits with
  | zero =>
    obtain ⟨tries, rfl⟩ := Nat.exists_eq_add_one_of_ne_zero (Nat.ne_of_gt enough)
    have first : taken (longBitsToDouble (step add bits)) = false := free
    rw [probe]
    simp only [first, Bool.false_eq_true, if_false]
    rfl
  | succ k ih =>
    obtain ⟨tries, rfl⟩ := Nat.exists_eq_add_one_of_ne_zero (Nat.ne_of_gt (Nat.lt_of_le_of_lt (Nat.zero_le _) enough))
    have first : taken (longBitsToDouble (step add bits)) = true := passed 0 (Nat.succ_pos k)
    rw [probe]
    simp only [first, if_true]
    exact ih (Nat.lt_of_succ_lt_succ enough) (fun j inside => passed (j + 1) (Nat.succ_lt_succ inside)) free

theorem step_up (n : Nat) (j : Nat) : (step true)^[j] (BitVec.ofNat 64 n) = BitVec.ofNat 64 (n + j) := by
  induction j generalizing n with
  | zero => rfl
  | succ j ih =>
    have next : step true (BitVec.ofNat 64 n) = BitVec.ofNat 64 (n + 1) := by
      simp [step, BitVec.ofNat_add]
    rw [Function.iterate_succ_apply, next, ih, Nat.add_assoc, Nat.add_comm 1 j]

theorem step_down {n : Nat} {j : Nat} (small : n < 2 ^ 64) (inside : j ≤ n) :
    (step false)^[j] (BitVec.ofNat 64 n) = BitVec.ofNat 64 (n - j) := by
  induction j generalizing n with
  | zero => rfl
  | succ j ih =>
    have next : step false (BitVec.ofNat 64 n) = BitVec.ofNat 64 (n - 1) := by
      have one : (1 : BitVec 64).toNat = 1 := rfl
      apply BitVec.eq_of_toNat_eq
      simp only [step, Bool.false_eq_true, if_false, BitVec.toNat_sub, BitVec.toNat_ofNat, one]
      omega
    rw [Function.iterate_succ_apply, next, ih (by omega) (by omega), Nat.sub_sub, Nat.add_comm 1 j]

theorem longBitsToDouble_ofNat (n : Nat) : longBitsToDouble (BitVec.ofNat 64 n) = ofBits n := rfl

/-- Upwards the first free double above is found. -/
theorem probe_up {n y tries : Nat} (small : n ≤ infinityBits) (above : n < y) (near : y < n + tries)
    (passed : ∀ z, n < z → z < y → taken (ofBits z) = true) (free : taken (ofBits y) = false) :
    (probe taken true tries (ofBits n).bits).map longBitsToDouble = some (ofBits y) := by
  have last : n + (y - n - 1 + 1) = y := by omega
  rw [bits_ofBits small, probe_eq (k := y - n - 1) (by omega)]
  · rw [step_up, last]
    rfl
  · intro j inside
    rw [step_up, longBitsToDouble_ofNat]
    exact passed _ (by omega) (by omega)
  · rw [step_up, last]
    exact free

/-- Downwards the double below is found if it is free. -/
theorem probe_down {n tries : Nat} (small : n + 1 ≤ infinityBits) (enough : 0 < tries) (free : taken (ofBits n) = false) :
    (probe taken false tries (ofBits (n + 1)).bits).map longBitsToDouble = some (ofBits n) := by
  have short : n + 1 < 2 ^ 64 := by
    unfold infinityBits at small
    omega
  have next : (step false)^[0 + 1] (BitVec.ofNat 64 (n + 1)) = BitVec.ofNat 64 n := step_down short (Nat.le_add_left 1 n)
  rw [bits_ofBits small, probe_eq (k := 0) enough (fun j none => absurd none (Nat.not_lt_zero j))]
  · rw [next]
    rfl
  · rw [next]
    exact free

/-- Below 0.0 the pattern of all bits comes, which is no number. -/
theorem probe_zero {tries : Nat} (enough : 0 < tries) (free : taken nan = false) :
    (probe taken false tries (ofBits 0).bits).map longBitsToDouble = some nan := by
  have next : longBitsToDouble ((step false)^[0 + 1] (ofBits 0).bits) = nan := by decide
  rw [probe_eq (k := 0) enough (fun j none => absurd none (Nat.not_lt_zero j)) (next ▸ free), Option.map_some, next]

/-- From NaN the loop runs through all patterns that are no number before it comes to infinity. -/
theorem probe_nan {tries : Nat} (enough : 2 ^ 51 ≤ tries) (all : taken nan = true) (free : taken (ofBits infinityBits) = false) :
    (probe taken false tries nan.bits).map longBitsToDouble = some (ofBits infinityBits) := by
  obtain ⟨patterns, count⟩ : ∃ patterns, patterns + 1 = 2 ^ 51 := ⟨2 ^ 51 - 1, by decide⟩
  have start : nan.bits = BitVec.ofNat 64 (infinityBits + 2 ^ 51) := by decide
  have walk : ∀ j, j ≤ patterns + 1 → (step false)^[j] nan.bits = BitVec.ofNat 64 (infinityBits + (patterns + 1) - j) := by
    intro j inside
    rw [start, ← count, step_down _ (by omega)]
    unfold infinityBits
    omega
  have last : (step false)^[patterns + 1] nan.bits = BitVec.ofNat 64 infinityBits := by
    rw [walk _ le_rfl, Nat.add_sub_cancel]
  rw [probe_eq (k := patterns) (by omega)]
  · rw [last]
    rfl
  · intro j inside
    have pattern : isNaN (BitVec.ofNat 64 (infinityBits + (patterns + 1) - (j + 1))) = true := by
      unfold infinityBits
      rw [isNaN, decide_eq_true_iff, BitVec.toNat_ofNat]
      omega
    have number : ¬isNaN (BitVec.ofNat 64 (infinityBits + (patterns + 1) - (j + 1))) = false := by
      rw [pattern]
      decide
    rw [walk (j + 1) (by omega), longBitsToDouble, dif_neg number]
    exact all
  · rw [last]
    exact free

end Probing

section Naturals

/-- The pattern of a natural number that is a double. -/
def bitsOf (n : Nat) : Nat := if n = 0 then 0 else (1022 + n.log2) * 2 ^ 52 + n * 2 ^ 52 / 2 ^ n.log2

theorem bitsOf_large {n : Nat} (nonzero : n ≠ 0) : 1023 * 2 ^ 52 ≤ bitsOf n := by
  have whole : 2 ^ 52 ≤ n * 2 ^ 52 / 2 ^ n.log2 := by
    rw [Nat.le_div_iff_mul_le (Nat.two_pow_pos _), Nat.mul_comm]
    exact Nat.mul_le_mul_right _ (Nat.log2_self_le nonzero)
  rw [bitsOf, if_neg nonzero]
  omega

theorem bitsOf_le {n k : Nat} (small : n < 2 ^ k) : bitsOf n ≤ (1023 + k) * 2 ^ 52 := by
  unfold bitsOf
  split
  · exact Nat.zero_le _
  · next nonzero =>
    have place : n.log2 < k := (Nat.log2_lt nonzero).mpr small
    have fraction : n * 2 ^ 52 / 2 ^ n.log2 ≤ 2 * 2 ^ 52 := by
      rw [Nat.div_le_iff_le_mul_add_pred (Nat.two_pow_pos _)]
      have below := Nat.lt_log2_self (n := n)
      rw [Nat.pow_succ] at below
      have scaled : n * 2 ^ 52 ≤ 2 ^ n.log2 * 2 * 2 ^ 52 := Nat.mul_le_mul_right _ below.le
      rw [Nat.mul_assoc] at scaled
      exact scaled.trans (Nat.le_add_right _ _)
    omega

end Naturals

end DoubleBits
