import TrafficControl.Lib.MachineInt
import Mathlib.Data.List.TakeWhile
import Mathlib.Data.Rat.Defs

set_option autoImplicit false

-- Decimal texts of doubles: the double nearest to a text, and the shortest text of a whole double.
namespace DoubleText

open MachineInt

/-- A finite double is the rational that it stands for; the two zeros are one. -/
inductive Double where
  | finite (value : Rat)
  | inf (negative : Bool)
  | nan
  deriving DecidableEq

section Nearest

/-- The whole number nearest to a quotient, ties to even. -/
def roundDiv (numerator denominator : Nat) : Nat :=
  let quotient := numerator / denominator
  let remainder := numerator % denominator
  if 2 * remainder < denominator ∨ 2 * remainder = denominator ∧ quotient % 2 = 0 then quotient else quotient + 1

-- The exponent of the last place of the doubles around a quotient.
def lastPlace (numerator denominator : Nat) : Int :=
  let log : Int := numerator.log2 - denominator.log2
  let exponent := if numerator * 2 ^ (-log).toNat < denominator * 2 ^ log.toNat then log - 1 else log
  max (exponent - 52) (-1074)

/-- The double nearest to a quotient, with no bound on its exponent. -/
def nearest (numerator denominator : Nat) : Rat :=
  let place := lastPlace numerator denominator
  let mantissa := roundDiv (numerator * 2 ^ (-place).toNat) (denominator * 2 ^ place.toNat)
  mkRat (mantissa * 2 ^ place.toNat : Nat) (2 ^ (-place).toNat)

theorem roundDiv_mul (n k : Nat) {d : Nat} (positive : 0 < d) (whole : n = k * d) : roundDiv n d = k := by
  subst whole
  unfold roundDiv
  dsimp only
  rw [Nat.mul_mod_left, if_pos (Or.inl (by omega)), Nat.mul_div_cancel k positive]

theorem nearestDouble_eq (n : Nat) :
    nearestDouble n = roundDiv n (2 ^ (n.log2 + 1 - 53)) * 2 ^ (n.log2 + 1 - 53) := by
  unfold nearestDouble roundDiv
  dsimp only
  split <;> rfl

theorem lastPlace_whole {n : Nat} (nonzero : n ≠ 0) : lastPlace n 1 = n.log2 - 52 := by
  have large : ¬ n < 2 ^ n.log2 := Nat.not_lt.mpr (Nat.log2_self_le nonzero)
  have one : Nat.log2 1 = 0 := by decide
  unfold lastPlace
  simp only [one, Int.natCast_zero, Int.sub_zero, Int.toNat_neg_natCast, Nat.pow_zero, Nat.mul_one, Int.toNat_natCast,
    Nat.one_mul, if_neg large]
  omega

theorem nearest_whole (n : Nat) : nearest n 1 = ((nearestDouble n : Int) : Rat) := by
  by_cases zero : n = 0
  · subst zero
    decide
  unfold nearest
  rw [lastPlace_whole zero]
  dsimp only
  by_cases short : n.log2 < 52
  · have below : ((n.log2 : Int) - 52).toNat = 0 := by omega
    have small : n < 2 ^ 53 := Nat.lt_of_lt_of_le Nat.lt_log2_self (Nat.pow_le_pow_right (by decide) (by omega))
    rw [below, roundDiv_mul _ (n * 2 ^ (-((n.log2 : Int) - 52)).toNat) (by decide) (by simp), nearestDouble_small small,
      Nat.pow_zero, Nat.mul_one, Int.natCast_mul, ← Rat.mkRat_one n]
    have cancelled := Rat.mkRat_mul_right (n := n) (d := 1) (a := 2 ^ (-((n.log2 : Int) - 52)).toNat) (by simp)
    rw [Nat.one_mul] at cancelled
    exact cancelled
  · have above : (-((n.log2 : Int) - 52)).toNat = 0 := by omega
    have place : ((n.log2 : Int) - 52).toNat = n.log2 + 1 - 53 := by omega
    rw [above, place, nearestDouble_eq, Nat.pow_zero, Nat.mul_one, Nat.one_mul]
    exact Rat.mkRat_one _

end Nearest

section Parse

def signed : List Char → Bool × List Char
  | '+' :: rest => (false, rest)
  | '-' :: rest => (true, rest)
  | s => (false, s)

/-- An exponent of five digits grows no further. -/
def exponentDigits (digits : List Char) : Nat :=
  digits.foldl (fun e c => if e < 10000 then e * 10 + (c.toNat - '0'.toNat) else e) 0

def exponent : List Char → Option Int
  | [] => some 0
  | c :: rest =>
    let (negative, digits) := signed rest
    if (c = 'e' ∨ c = 'E') ∧ digits ≠ [] ∧ digits.all Char.isDigit then
      let e : Int := exponentDigits digits
      some (if negative then -e else e)
    else none

def fractionOf : List Char → List Char × List Char
  | '.' :: rest => (rest.takeWhile Char.isDigit, rest.dropWhile Char.isDigit)
  | rest => ([], rest)

def ofDecimal (negative : Bool) (mantissa : Nat) (exponent : Int) : Option Double :=
  let magnitude := nearest (mantissa * 10 ^ exponent.toNat) (10 ^ (-exponent).toNat)
  if ((2 ^ 1024 : Int) : Rat) ≤ magnitude then none else some (.finite (if negative then -magnitude else magnitude))

def readFloat (s : List Char) : Option Double :=
  let (negative, s) := signed s
  let whole := s.takeWhile Char.isDigit
  let (fraction, rest) := fractionOf (s.dropWhile Char.isDigit)
  let digits := whole ++ fraction
  if digits = [] then none
  else (exponent rest).bind fun e => ofDecimal negative (Nat.ofDigitChars 10 digits 0) (e - fraction.length)

def special (s : List Char) : Option Double :=
  let lower := String.ofList (s.map Char.toLower)
  if lower ∈ ["inf", "infinity", "+inf", "+infinity"] then some (.inf false)
  else if lower ∈ ["-inf", "-infinity"] then some (.inf true)
  else if lower = "nan" then some .nan
  else none

/-- The double that a text stands for, if it is the text of a number and the number is not too large. -/
def parseFloat (s : String) : Option Double := (special s.toList).or (readFloat s.toList)

end Parse

section Print

/-- The first digits of a whole double that tell it from the others, and how many digits are left out. -/
def shortest (n : Nat) : Nat × Nat :=
  let dropped := (List.range ((Nat.toDigits 10 n).length + 1)).reverse.find? fun k =>
    nearestDouble (roundDiv n (10 ^ k) * 10 ^ k) = n
  let k := dropped.getD 0
  (roundDiv n (10 ^ k), k)

def twoDigits (n : Nat) : List Char := (if n < 10 then ['0'] else []) ++ Nat.toDigits 10 n

def scientific (d : Char) (ds : List Char) (dropped : Nat) : List Char :=
  d :: ((if ds = [] then [] else '.' :: ds) ++ 'e' :: '+' :: twoDigits (ds.length + dropped))

/-- From a million on, the text has an exponent. -/
def printNat (n : Nat) : List Char :=
  if n < 10 ^ 6 then Nat.toDigits 10 n
  else
    let (digits, dropped) := shortest n
    match Nat.toDigits 10 digits with
    | [] => []
    | d :: ds => scientific d ds dropped

/-- `%v` of a whole double. -/
def print (n : Int) : String := String.ofList ((if n < 0 then ['-'] else []) ++ printNat n.natAbs)

def decimals (places : Nat) (value : Rat) : String :=
  let n := roundDiv (value.num.natAbs * 10 ^ places) value.den
  let fraction := Nat.toDigits 10 (n % 10 ^ places)
  let digits := Nat.toDigits 10 (n / 10 ^ places) ++ '.' :: (List.replicate (places - fraction.length) '0' ++ fraction)
  String.ofList ((if value < 0 then ['-'] else []) ++ digits)

/-- `%f`, which rounds to six decimals. -/
def printFixed : Double → String
  | .finite value => decimals 6 value
  | .inf negative => if negative then "-Inf" else "+Inf"
  | .nan => "NaN"

/-- The conversion to `int64`, with what amd64 gives for a double out of range. -/
def toInt64 : Double → Int
  | .finite value =>
    let whole := value.num.tdiv value.den
    if -2 ^ 63 ≤ whole ∧ whole < 2 ^ 63 then whole else -2 ^ 63
  | _ => -2 ^ 63

def readsAs (value : Rat) (digits : Nat) (place : Int) : Bool :=
  nearest (digits * 10 ^ place.toNat) (10 ^ (-place).toNat) == value

-- The digits down to a place, rounded to a number that is still read as the double.
def digitsTo (value : Rat) (place : Int) : Option (Nat × Int) :=
  let numerator := value.num.natAbs * 10 ^ (-place).toNat
  let denominator := value.den * 10 ^ place.toNat
  let down := numerator / denominator
  let up := if numerator % denominator = 0 then down else down + 1
  match readsAs value down place, readsAs value up place with
  | true, true => some (roundDiv numerator denominator, place)
  | true, false => some (down, place)
  | false, true => some (up, place)
  | false, false => none

-- No double needs a place below the three hundred and twenty-fourth decimal.
def roundShortest (value : Rat) : Nat × Int :=
  let whole := (Nat.toDigits 10 (value.num.natAbs / value.den)).length
  let places := (List.range (whole + 325)).map fun k : Nat => (whole : Int) - (k : Int)
  (places.findSome? (digitsTo value)).getD (0, 0)

def pointed (digits : Nat) (place : Int) : List Char :=
  if 0 ≤ place then Nat.toDigits 10 digits ++ List.replicate place.toNat '0'
  else
    let decimals := (-place).toNat
    let fraction := Nat.toDigits 10 (digits % 10 ^ decimals)
    Nat.toDigits 10 (digits / 10 ^ decimals) ++ '.' :: (List.replicate (decimals - fraction.length) '0' ++ fraction)

/-- `FormatFloat` with the format `f` and the least number of digits that tells a double from the others. -/
def formatFloat (value : Rat) : List Char :=
  if value = 0 then ['0']
  else
    let (digits, place) := roundShortest (if value < 0 then -value else value)
    (if value < 0 then ['-'] else []) ++ pointed digits place

example : print 123456789 = "1.23456789e+08" := by decide +kernel

example : (formatFloat (nearest 12 10), formatFloat 2, formatFloat (-nearest 1 1000)) =
    ("1.2".toList, "2".toList, "-0.001".toList) := by decide +kernel

example : print (-1000000) = "-1e+06" := by decide +kernel

end Print

section Whole

theorem ofDecimal_whole (negative : Bool) (mantissa k : Nat) {n : Nat} (next : nearestDouble (mantissa * 10 ^ k) = n)
    (small : (n : Int) < 2 ^ 1024) : ofDecimal negative mantissa k = some (.finite (if negative then -(n : Int) else n : Int)) := by
  have below : ¬ ((2 ^ 1024 : Int) : Rat) ≤ ((n : Int) : Rat) := fun above => Int.not_le.mpr small (Rat.intCast_le_intCast.mp above)
  unfold ofDecimal
  simp only [Int.toNat_natCast, Int.toNat_neg_natCast, Nat.pow_zero, nearest_whole, next, if_neg below]
  cases negative <;> simp

def specials : List String := ["inf", "infinity", "+inf", "+infinity", "-inf", "-infinity", "nan"]

theorem special_none {s : List Char} (other : ∀ w ∈ specials, s.map Char.toLower ≠ w.toList) : special s = none := by
  have unlike : ∀ w ∈ specials, String.ofList (s.map Char.toLower) ≠ w := by
    intro w member same
    apply other w member
    rw [← same, String.toList_ofList]
  simp only [specials, List.forall_mem_cons] at unlike
  simp [special, unlike]

theorem special_digit {s : List Char} {c : Char} (member : c ∈ s) (digit : c.isDigit = true) : special s = none := by
  have digitless : (specials.all fun w => w.toList.all fun c => !c.isDigit) = true := by decide
  have lower : c.toLower = c := by
    obtain ⟨_, high⟩ := Char.isDigit_iff_toNat.mp digit
    have small : ¬ (c.val ≥ 'A'.val ∧ c.val ≤ 'Z'.val) := by
      rintro ⟨letter, _⟩
      have above : 'A'.toNat ≤ c.toNat := UInt32.le_iff_toNat_le.mp letter
      exact absurd (Nat.le_trans above high) (by decide)
    exact dif_neg small
  apply special_none
  intro w listed same
  have found := List.mem_map_of_mem (f := Char.toLower) member
  rw [lower, same] at found
  have letter := List.all_eq_true.mp (List.all_eq_true.mp digitless w listed) c found
  rw [digit] at letter
  cases letter

theorem readFloat_digits {s digits : List Char} {negative : Bool} (split : signed s = (negative, digits))
    (nonempty : digits ≠ []) (all : ∀ c ∈ digits, c.isDigit = true) :
    readFloat s = ofDecimal negative (Nat.ofDigitChars 10 digits 0) 0 := by
  have whole : digits.takeWhile Char.isDigit = digits := List.takeWhile_eq_self_iff.mpr all
  have rest : digits.dropWhile Char.isDigit = [] := List.dropWhile_eq_nil_iff.mpr all
  simp [readFloat, split, whole, rest, fractionOf, exponent, nonempty]

theorem signed_suffix (s : List Char) : (signed s).2 <:+ s := by
  unfold signed
  split
  · exact List.suffix_cons _ _
  · exact List.suffix_cons _ _
  · exact List.suffix_refl s

theorem below_overflow {n : Nat} (small : n ≤ 2 ^ 64) : (nearestDouble n : Int) < 2 ^ 1024 := by
  have twice := nearestDouble_le n
  have bits (k : Nat) (enough : 66 ≤ k) : (2 ^ 66 : Int) ≤ 2 ^ k := Int.ofNat_le.mpr (Nat.pow_le_pow_right (by decide) enough)
  have above := bits 1024 (by decide)
  omega

/-- Digits are read as the double next to their number. -/
theorem parseFloat_digits {s : String} {digits : List Char} {negative : Bool} (split : signed s.toList = (negative, digits))
    (nonempty : digits ≠ []) (all : ∀ c ∈ digits, c.isDigit = true) (small : Nat.ofDigitChars 10 digits 0 ≤ 2 ^ 64) :
    parseFloat s =
      some (.finite (toDouble (if negative then -(Nat.ofDigitChars 10 digits 0 : Int) else Nat.ofDigitChars 10 digits 0))) := by
  obtain ⟨c, rest, rfl⟩ := List.exists_cons_of_ne_nil nonempty
  have member : c ∈ s.toList := by
    have suffix := signed_suffix s.toList
    rw [split] at suffix
    exact suffix.subset (by simp)
  have read := ofDecimal_whole negative (Nat.ofDigitChars 10 (c :: rest) 0) 0 (by rw [Nat.pow_zero, Nat.mul_one])
    (below_overflow small)
  rw [parseFloat, special_digit member (all c (by simp)), Option.none_or, readFloat_digits split nonempty all]
  refine read.trans ?_
  cases negative
  · simp [toDouble_natCast]
  · simp [toDouble_neg, toDouble_natCast]

theorem toDigits_digit {n : Nat} : ∀ c ∈ Nat.toDigits 10 n, c.isDigit = true := fun _ =>
  Nat.isDigit_of_mem_toDigits (by decide) (by decide)

def NumeralChar (c : Char) : Prop := c.isDigit = true ∨ c = '.' ∨ c = '-'

theorem pointed_numeral {digits : Nat} {place : Int} {c : Char} (member : c ∈ pointed digits place) : NumeralChar c := by
  have zeros {n : Nat} (zero : c ∈ List.replicate n '0') : c.isDigit = true := by
    rw [List.eq_of_mem_replicate zero]
    decide
  unfold pointed at member
  split at member
  · rcases List.mem_append.mp member with digit | zero
    · exact Or.inl (toDigits_digit c digit)
    · exact Or.inl (zeros zero)
  · simp only [List.mem_append, List.mem_cons] at member
    rcases member with digit | point | zero | digit
    · exact Or.inl (toDigits_digit c digit)
    · exact Or.inr (Or.inl point)
    · exact Or.inl (zeros zero)
    · exact Or.inl (toDigits_digit c digit)

/-- The text of a double is made of digits, a point and a sign. -/
theorem formatFloat_numeral {value : Rat} {c : Char} (member : c ∈ formatFloat value) : NumeralChar c := by
  unfold formatFloat at member
  split at member
  · rw [List.mem_singleton] at member
    subst member
    exact Or.inl (by decide)
  · rcases List.mem_append.mp member with sign | number
    · split at sign
      · exact Or.inr (Or.inr (List.mem_singleton.mp sign))
      · cases sign
    · exact pointed_numeral number

theorem shortest_reads {n : Nat} (double : nearestDouble n = n) :
    nearestDouble ((shortest n).1 * 10 ^ (shortest n).2) = n := by
  unfold shortest
  dsimp only
  cases found : (List.range ((Nat.toDigits 10 n).length + 1)).reverse.find? fun k =>
      nearestDouble (roundDiv n (10 ^ k) * 10 ^ k) = n with
  | some k =>
    have reads := List.find?_some found
    exact of_decide_eq_true reads
  | none =>
    rw [Option.getD_none, Nat.pow_zero, Nat.mul_one, roundDiv_mul n n (by decide) (Nat.mul_one n).symm]
    exact double

theorem exponent_twoDigits {n : Nat} (small : n < 100) : exponent ('e' :: '+' :: twoDigits n) = some (n : Int) := by
  decide +revert

theorem fractionOf_scientific {ds rest : List Char} (all : ∀ c ∈ ds, c.isDigit = true) :
    fractionOf ((if ds = [] then [] else '.' :: ds) ++ 'e' :: rest) = (ds, 'e' :: rest) := by
  cases ds with
  | nil => rfl
  | cons c cs =>
    change ((c :: cs ++ 'e' :: rest).takeWhile _, (c :: cs ++ 'e' :: rest).dropWhile _) = _
    rw [List.takeWhile_append_of_pos all, List.dropWhile_append_of_pos all]
    exact congrArg (fun before => (before, 'e' :: rest)) (List.append_nil _)

theorem readFloat_scientific {s ds : List Char} {d : Char} {negative : Bool} {k : Nat}
    (split : signed s = (negative, scientific d ds k))
    (all : ∀ c ∈ d :: ds, c.isDigit = true) (short : ds.length + k < 100) :
    readFloat s = ofDecimal negative (Nat.ofDigitChars 10 (d :: ds) 0) k := by
  obtain ⟨first, others⟩ := List.forall_mem_cons.mp all
  have fraction : fractionOf (_ ++ 'e' :: '+' :: twoDigits (ds.length + k)) = _ := fractionOf_scientific others
  unfold scientific at split
  generalize text : (if ds = [] then [] else '.' :: ds) ++ 'e' :: '+' :: twoDigits (ds.length + k) = after at split fraction
  have rejected : after.takeWhile Char.isDigit = [] ∧ after.dropWhile Char.isDigit = after := by
    subst text
    cases ds <;> exact ⟨rfl, rfl⟩
  unfold readFloat
  simp only [split, List.takeWhile_cons, List.dropWhile_cons, first, if_true, rejected, fraction, List.singleton_append,
    exponent_twoDigits short]
  simp

theorem roundDiv_le (n d : Nat) : roundDiv n d ≤ n + 1 := by
  have quotient := Nat.div_le_self n d
  unfold roundDiv
  dsimp only
  split <;> omega

theorem length_toDigits_lt {n : Nat} (small : n ≤ 2 ^ 64 + 1) : (Nat.toDigits 10 n).length ≤ 20 :=
  (Nat.length_toDigits_le_iff (by decide) (by decide)).mpr (by omega)

theorem shortest_dropped {n : Nat} (small : n ≤ 2 ^ 64) : (shortest n).2 ≤ 20 := by
  have digits := length_toDigits_lt (n := n) (by omega)
  unfold shortest
  dsimp only
  cases found : (List.range ((Nat.toDigits 10 n).length + 1)).reverse.find? fun k =>
      nearestDouble (roundDiv n (10 ^ k) * 10 ^ k) = n with
  | none => simp
  | some k =>
    have member := List.mem_of_find?_eq_some found
    rw [List.mem_reverse, List.mem_range] at member
    rw [Option.getD_some]
    omega

theorem signed_minus (n : Int) {d : Char} (digit : d.isDigit = true) (rest : List Char) :
    signed ((if n < 0 then ['-'] else []) ++ d :: rest) = (decide (n < 0), d :: rest) := by
  by_cases negative : n < 0
  · simp [negative, signed]
  · have unsigned : signed (d :: rest) = (false, d :: rest) := by
      unfold signed
      split
      · next same => cases same; cases digit
      · next same => cases same; cases digit
      · rfl
    simp [negative, unsigned]

theorem signed_natAbs (n : Int) : (if decide (n < 0) = true then -(n.natAbs : Int) else n.natAbs) = n := by
  by_cases negative : n < 0
  · rw [if_pos (decide_eq_true negative)]
    omega
  · rw [if_neg (by simpa using negative)]
    omega

/-- The text of a whole double is read as that double. -/
theorem parseFloat_print {n : Int} (double : toDouble n = n) (small : n.natAbs ≤ 2 ^ 64) :
    parseFloat (print n) = some (.finite (n : Rat)) := by
  have magnitude : nearestDouble n.natAbs = n.natAbs := by
    rcases Int.eq_nat_or_neg n with ⟨m, rfl | rfl⟩
    · rw [toDouble_natCast] at double
      rw [Int.natAbs_natCast]
      omega
    · rw [toDouble_neg, toDouble_natCast] at double
      rw [Int.natAbs_neg, Int.natAbs_natCast]
      omega
  unfold print printNat
  by_cases plain : n.natAbs < 10 ^ 6
  · rw [if_pos plain]
    obtain ⟨d, ds, digits⟩ := List.exists_cons_of_ne_nil (Nat.toDigits_ne_nil (n := n.natAbs) (b := 10))
    have all := toDigits_digit (n := n.natAbs)
    have number : Nat.ofDigitChars 10 (d :: ds) 0 = n.natAbs := by rw [← digits, Nat.ofDigitChars_ten_toDigits]
    rw [digits] at all ⊢
    have split := signed_minus n (all d (by simp)) ds
    have read := parseFloat_digits (s := String.ofList _) (by rw [String.toList_ofList, split]) (by simp) all
      (by rw [number]; exact small)
    rw [read, number, signed_natAbs, double]
  · rw [if_neg plain]
    have reads := shortest_reads magnitude
    have quotient : (Nat.toDigits 10 (shortest n.natAbs).1).length ≤ 20 :=
      length_toDigits_lt (Nat.le_trans (roundDiv_le _ _) (Nat.succ_le_succ small))
    have dropped := shortest_dropped small
    have all := toDigits_digit (n := (shortest n.natAbs).1)
    have number := Nat.ofDigitChars_ten_toDigits (n := (shortest n.natAbs).1)
    obtain ⟨d, ds, digits⟩ := List.exists_cons_of_ne_nil (Nat.toDigits_ne_nil (n := (shortest n.natAbs).1) (b := 10))
    dsimp only
    rw [digits] at quotient all number ⊢
    rw [List.length_cons] at quotient
    have split : signed (_ ++ scientific d ds (shortest n.natAbs).2) = _ := signed_minus n (all d (by simp)) _
    change _ = (_, scientific d ds (shortest n.natAbs).2) at split
    rw [← number] at reads
    have suffix := signed_suffix ((if n < 0 then ['-'] else []) ++ scientific d ds (shortest n.natAbs).2)
    rw [split] at suffix
    have member := suffix.subset List.mem_cons_self
    rw [parseFloat, String.toList_ofList, special_digit member (all d (by simp)), Option.none_or,
      readFloat_scientific split all (by omega),
      ofDecimal_whole _ _ _ reads (magnitude ▸ below_overflow small), signed_natAbs]

/-- No number starts with a sign of comparison. -/
theorem parseFloat_comparator {s : String} {c : Char} {rest : List Char} (text : s.toList = c :: rest)
    (comparator : c ∈ ['=', '<', '>']) : parseFloat s = none := by
  have unlike : (['=', '<', '>'].all fun c => c.toLower = c ∧ c.isDigit = false ∧
      specials.all fun w => w.toList.head? ≠ some c) = true := by decide
  obtain ⟨lower, digitless, others⟩ := of_decide_eq_true (List.all_eq_true.mp unlike c comparator)
  have unsigned : signed (c :: rest) = (false, c :: rest) ∧ fractionOf (c :: rest) = ([], c :: rest) := by
    simp only [List.mem_cons, List.not_mem_nil, or_false] at comparator
    rcases comparator with rfl | rfl | rfl <;> exact ⟨rfl, rfl⟩
  rw [parseFloat, text, special_none]
  · simp [readFloat, unsigned, digitless]
  · intro w member same
    apply of_decide_eq_true (List.all_eq_true.mp others w member)
    rw [← same, List.map_cons, List.head?_cons, lower]

end Whole
end DoubleText
