import TrafficControl.Lib.SignedBytes

set_option autoImplicit false

namespace TrafficControl.TrafficRouter

open SignedBytes

structure InetAddress where
  bytes : List Byte
  family : bytes.length = 4 ∨ bytes.length = 16
deriving DecidableEq

def InetAddress.ipv4 (a b c d : Byte) : InetAddress := ⟨[a, b, c, d], by simp⟩

def InetAddress.isInet6 (address : InetAddress) : Bool := 4 < address.bytes.length

structure CidrAddress where
  address : InetAddress
  netmaskLength : Nat
  valid : netmaskLength ≤ 8 * address.bytes.length
deriving DecidableEq

namespace CidrAddress

-- `none` is the NetworkNodeException for a netmask outside the family's range.
def ofNetmask (address : InetAddress) (netmaskLength : Int) : Option CidrAddress :=
  if range : 0 ≤ netmaskLength ∧ netmaskLength ≤ 8 * address.bytes.length then
    some ⟨address, netmaskLength.toNat, by omega⟩
  else none

def ofAddress (address : InetAddress) : CidrAddress := ⟨address, 8 * address.bytes.length, le_rfl⟩

def hostBytes (cidr : CidrAddress) : List Byte := cidr.address.bytes

def isIpV6 (cidr : CidrAddress) : Bool := 4 < cidr.hostBytes.length

def setMaskBit (mask : List Byte) (i : Nat) : List Byte :=
  mask.modify (i / 8) (· ||| 1#8 <<< (7 - i % 8))

def maskBytes (cidr : CidrAddress) : List Byte :=
  (List.range cidr.netmaskLength).foldl setMaskBit (List.replicate cidr.hostBytes.length 0)

def compareTo (this other : CidrAddress) : Int :=
  let (mask, len) :=
    if other.netmaskLength < this.netmaskLength then (other.maskBytes, other.netmaskLength)
    else (this.maskBytes, this.netmaskLength)
  let numNetmaskBytes := (len + 7) / 8
  compareMasked this.hostBytes other.hostBytes mask numNetmaskBytes

def includesAddress (this other : CidrAddress) : Bool :=
  if other.netmaskLength ≤ this.netmaskLength then false
  else this.compareTo other == 0

def equals (this that : CidrAddress) : Bool :=
  this.netmaskLength == that.netmaskLength && this.hostBytes == that.hostBytes &&
    this.maskBytes == that.maskBytes

theorem equals_iff (this that : CidrAddress) : this.equals that = true ↔ this = that := by
  constructor
  · intro equal
    simp only [equals, Bool.and_eq_true, beq_iff_eq] at equal
    obtain ⟨⟨sameLength, sameHost⟩, _⟩ := equal
    rcases this with ⟨⟨bytes, _⟩, length, _⟩
    rcases that with ⟨⟨bytes', _⟩, length', _⟩
    simp only [hostBytes] at sameLength sameHost
    simp [sameLength, sameHost]
  · rintro rfl
    simp [equals]

-- The address bits as the network sees them, most significant first.
def hostBit (cidr : CidrAddress) : Nat → Bool := bit cidr.hostBytes

theorem setMaskBit_bit (mask : List Byte) (i p : Nat) (inside : i / 8 < mask.length) :
    bit (setMaskBit mask i) p = (bit mask p || decide (p = i)) := by
  have shifted : ∀ k q : Fin 8, (1#8 <<< (7 - k.val)).getMsbD q.val = decide (q.val = k.val) := by decide
  have single := shifted ⟨i % 8, Nat.mod_lt _ (by omega)⟩ ⟨p % 8, Nat.mod_lt _ (by omega)⟩
  simp only [bit, setMaskBit, List.getD_eq_getElem?_getD, List.getElem?_modify]
  by_cases sameByte : i / 8 = p / 8
  · rw [← sameByte, List.getElem?_eq_getElem inside]
    simp only [Option.map_eq_map, Option.map_some, if_true, Option.getD_some, BitVec.getMsbD_or, single]
    congr 1
    simp only [decide_eq_decide]
    omega
  · have different : p ≠ i := by
      rintro rfl
      exact sameByte rfl
    simp [sameByte, different]

theorem maskBytes_bit (cidr : CidrAddress) (i : Nat) :
    bit cidr.maskBytes i = decide (i < cidr.netmaskLength) := by
  have scan (n : Nat) (fits : n ≤ 8 * cidr.hostBytes.length) :
      let mask := (List.range n).foldl setMaskBit (List.replicate cidr.hostBytes.length 0)
      mask.length = cidr.hostBytes.length ∧ bit mask i = decide (i < n) := by
    induction n with
    | zero => simp [bit, List.getElem?_replicate]; split <;> simp
    | succ n ih =>
      obtain ⟨sameLength, prior⟩ := ih (by omega)
      simp only [List.range_succ, List.foldl_append, List.foldl_cons, List.foldl_nil]
      refine ⟨by simpa [setMaskBit] using sameLength, ?_⟩
      rw [setMaskBit_bit _ _ _ (by rw [sameLength]; omega), prior]
      simp only [← Bool.decide_or, decide_eq_decide]
      omega
  exact (scan cidr.netmaskLength cidr.valid).2

theorem compareTo_eq_zero (this other : CidrAddress) :
    this.compareTo other = 0 ↔
      ∀ i < min this.netmaskLength other.netmaskLength, this.hostBit i = other.hostBit i := by
  unfold compareTo
  split_ifs with longer
  · rw [Nat.min_eq_right (by omega)]
    exact compareMasked_eq_zero other.maskBytes_bit _ (by omega)
  · rw [Nat.min_eq_left (by omega)]
    exact compareMasked_eq_zero this.maskBytes_bit _ (by omega)

theorem compareTo_neg (this other : CidrAddress) :
    this.compareTo other < 0 ↔
      Precedes (min this.netmaskLength other.netmaskLength) this.hostBit other.hostBit := by
  unfold compareTo
  split_ifs with longer
  · rw [Nat.min_eq_right (by omega)]
    exact compareMasked_neg other.maskBytes_bit _ (by omega)
  · rw [Nat.min_eq_left (by omega)]
    exact compareMasked_neg this.maskBytes_bit _ (by omega)

theorem compareTo_swap (this other : CidrAddress) : other.compareTo this = -this.compareTo other := by
  rcases Nat.lt_trichotomy this.netmaskLength other.netmaskLength with shorter | same | longer
  · have notLonger : ¬other.netmaskLength < this.netmaskLength := by omega
    simp only [compareTo, shorter, notLonger, if_true, if_false, compareMasked_swap this.hostBytes]
  · have masks (i : Nat) : bit other.maskBytes i = bit this.maskBytes i := by
      rw [maskBytes_bit, maskBytes_bit, same]
    simp only [compareTo, same, Nat.lt_irrefl, if_false]
    rw [compareMasked_congr masks, compareMasked_swap this.hostBytes]
  · have notShorter : ¬this.netmaskLength < other.netmaskLength := by omega
    simp only [compareTo, longer, notShorter, if_true, if_false, compareMasked_swap this.hostBytes]

theorem compareTo_trans {a b c : CidrAddress} (ab : a.compareTo b < 0) (bc : b.compareTo c < 0) :
    a.compareTo c < 0 := by
  rw [compareTo_neg] at *
  exact precedes_trans ab bc

-- Two networks overlap when one's prefix begins the other's.
def Overlaps (this other : CidrAddress) : Prop :=
  ∀ i < min this.netmaskLength other.netmaskLength, this.hostBit i = other.hostBit i

theorem overlaps_comm {this other : CidrAddress} : this.Overlaps other ↔ other.Overlaps this := by
  simp only [Overlaps, Nat.min_comm this.netmaskLength, eq_comm]

-- `this` lies inside `outer`, which may be equally long.
def Within (this outer : CidrAddress) : Prop :=
  outer.netmaskLength ≤ this.netmaskLength ∧ ∀ i < outer.netmaskLength, this.hostBit i = outer.hostBit i

instance (this outer : CidrAddress) : Decidable (this.Within outer) :=
  inferInstanceAs (Decidable (_ ∧ _))

theorem within_refl (cidr : CidrAddress) : cidr.Within cidr := ⟨le_rfl, fun _ _ => rfl⟩

theorem within_trans {a b c : CidrAddress} (ab : a.Within b) (bc : b.Within c) : a.Within c :=
  ⟨bc.1.trans ab.1, fun i inside => (ab.2 i (inside.trans_le bc.1)).trans (bc.2 i inside)⟩

theorem overlaps_of_within {a b : CidrAddress} (ab : a.Within b) : a.Overlaps b :=
  fun i inside => ab.2 i (by omega)

theorem within_of_overlaps {a b : CidrAddress} (overlap : a.Overlaps b)
    (longer : b.netmaskLength ≤ a.netmaskLength) : a.Within b :=
  ⟨longer, fun i inside => overlap i (by omega)⟩

theorem overlaps_of_within_both {a b c : CidrAddress} (ab : a.Within b) (ac : a.Within c) : b.Overlaps c :=
  fun i inside => (ab.2 i (by omega)).symm.trans (ac.2 i (by omega))

theorem overlaps_outer {a b c : CidrAddress} (ab : a.Within b) (ac : a.Overlaps c) : b.Overlaps c :=
  fun i inside => (ab.2 i (by omega)).symm.trans (ac i (by have := ab.1; omega))

def Inside (this outer : CidrAddress) : Prop :=
  outer.netmaskLength < this.netmaskLength ∧ this.Within outer

def SamePrefix (this other : CidrAddress) : Prop :=
  this.netmaskLength = other.netmaskLength ∧ this.Within other

theorem samePrefix_refl (cidr : CidrAddress) : cidr.SamePrefix cidr := ⟨rfl, within_refl cidr⟩

theorem samePrefix_symm {a b : CidrAddress} (same : a.SamePrefix b) : b.SamePrefix a :=
  ⟨same.1.symm, same.1.le, fun i inside => (same.2.2 i (by have := same.1; omega)).symm⟩

theorem samePrefix_trans {a b c : CidrAddress} (ab : a.SamePrefix b) (bc : b.SamePrefix c) : a.SamePrefix c :=
  ⟨ab.1.trans bc.1, within_trans ab.2 bc.2⟩

theorem inside_of_within {a b c : CidrAddress} (ab : a.Within b) (bc : b.Inside c) : a.Inside c :=
  ⟨bc.1.trans_le ab.1, within_trans ab bc.2⟩

-- Overlapping networks are nested one way or the other.
theorem overlaps_cases {a b : CidrAddress} (overlap : a.Overlaps b) :
    a.Inside b ∨ a.SamePrefix b ∨ b.Inside a := by
  rcases Nat.lt_trichotomy b.netmaskLength a.netmaskLength with shorter | same | longer
  · exact Or.inl ⟨shorter, within_of_overlaps overlap shorter.le⟩
  · exact Or.inr (Or.inl ⟨same.symm, within_of_overlaps overlap same.le⟩)
  · exact Or.inr (Or.inr ⟨longer, within_of_overlaps (overlaps_comm.mp overlap) longer.le⟩)

theorem compareTo_neg_not_overlaps {a b : CidrAddress} (before : a.compareTo b < 0) : ¬a.Overlaps b := by
  intro overlap
  have zero := (compareTo_eq_zero a b).mpr overlap
  omega

theorem compareTo_pos {a b : CidrAddress} : 0 < a.compareTo b ↔ b.compareTo a < 0 := by
  have swap := compareTo_swap a b
  omega

theorem overlaps_congr {a b b' : CidrAddress} (same : b.SamePrefix b') : a.Overlaps b ↔ a.Overlaps b' := by
  have lengths := same.1
  constructor
  · exact fun overlap i inside => (overlap i (by omega)).trans (same.2.2 i (by omega))
  · exact fun overlap i inside => (overlap i (by omega)).trans (same.2.2 i (by omega)).symm

theorem compareTo_neg_congr {a b b' : CidrAddress} (same : b.SamePrefix b') :
    a.compareTo b < 0 ↔ a.compareTo b' < 0 := by
  have forwards {b b' : CidrAddress} (same : b.SamePrefix b') (before : a.compareTo b < 0) :
      a.compareTo b' < 0 := by
    rw [compareTo_neg] at *
    obtain ⟨p, inside, agree, low, high⟩ := before
    have lengths := same.1
    exact ⟨p, by omega, fun q earlier => (agree q earlier).trans (same.2.2 q (by omega)), low,
      (same.2.2 p (by omega)).symm.trans high⟩
  exact ⟨forwards same, forwards (samePrefix_symm same)⟩

theorem compareTo_pos_congr {a b b' : CidrAddress} (same : b.SamePrefix b') :
    0 < a.compareTo b ↔ 0 < a.compareTo b' := by
  have negative := compareTo_neg_congr (a := a) same
  have zero := overlaps_congr (a := a) same
  rw [Overlaps, ← compareTo_eq_zero, Overlaps, ← compareTo_eq_zero] at zero
  omega

theorem includesAddress_iff (this other : CidrAddress) :
    this.includesAddress other = true ↔ other.Inside this := by
  simp only [includesAddress]
  split_ifs with shorter
  · constructor
    · intro impossible
      contradiction
    · intro inside
      have := inside.1
      omega
  · rw [beq_iff_eq, compareTo_eq_zero]
    constructor
    · exact fun overlap => ⟨by omega, within_of_overlaps (overlaps_comm.mp overlap) (by omega)⟩
    · exact fun inside => overlaps_comm.mp (overlaps_of_within inside.2)

-- The network has no bits set after its prefix.
def ZeroHostBits (cidr : CidrAddress) : Prop := ∀ i, cidr.netmaskLength ≤ i → cidr.hostBit i = false

theorem zeroHostBits_iff (cidr : CidrAddress) : cidr.ZeroHostBits ↔
    ∀ i < 8 * cidr.hostBytes.length, cidr.netmaskLength ≤ i → cidr.hostBit i = false := by
  constructor
  · exact fun zero i _ => zero i
  · intro zero i later
    by_cases inside : i < 8 * cidr.hostBytes.length
    · exact zero i inside later
    · have outside : cidr.hostBytes.length ≤ i / 8 := by omega
      simp [hostBit, bit, outside]

instance (cidr : CidrAddress) : Decidable cidr.ZeroHostBits :=
  decidable_of_iff' _ cidr.zeroHostBits_iff

theorem eq_of_hostBit {a b : CidrAddress} (family : a.isIpV6 = b.isIpV6)
    (sameLength : a.netmaskLength = b.netmaskLength) (sameBits : ∀ i, a.hostBit i = b.hostBit i) : a = b := by
  rcases a with ⟨⟨bytes, bytesFamily⟩, length, valid⟩
  rcases b with ⟨⟨bytes', bytesFamily'⟩, length', valid'⟩
  have sizes : 4 < bytes.length ↔ 4 < bytes'.length := decide_eq_decide.mp family
  simp only [hostBit, hostBytes] at sameLength sameBits
  have sameSize : bytes.length = bytes'.length := by omega
  have sameBytes : bytes = bytes' := by
    apply List.ext_getElem sameSize
    intro i inside inside'
    apply BitVec.eq_of_getMsbD_eq
    intro k bound
    have bits := sameBits (8 * i + k)
    have byteIndex : (8 * i + k) / 8 = i := by omega
    have bitIndex : (8 * i + k) % 8 = k := by omega
    simpa [bit, byteIndex, bitIndex, inside, inside'] using bits
  subst sameBytes sameLength
  rfl

theorem eq_of_within {a b : CidrAddress} (family : a.isIpV6 = b.isIpV6) (aZero : a.ZeroHostBits)
    (bZero : b.ZeroHostBits) (inside : a.Within b) (sameLength : a.netmaskLength = b.netmaskLength) : a = b := by
  apply eq_of_hostBit family sameLength
  intro i
  by_cases prefixBit : i < b.netmaskLength
  · exact inside.2 i prefixBit
  · rw [aZero i (by omega), bZero i (by omega)]

end CidrAddress

end TrafficControl.TrafficRouter
