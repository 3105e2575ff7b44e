import Mathlib.Algebra.Order.Ring.Unbundled.Rat
import Mathlib.Order.WithBot
import TrafficControl.TrafficMonitor.Health.TMParameters

set_option autoImplicit false

-- What a text of a threshold means for a value.
namespace TrafficControl.TrafficMonitor

open DoubleText

section Compare

/-- The place of a double among the numbers and the two infinities. -/
def level : Double → Option (WithBot (WithTop Rat))
  | .finite value => some ((value : WithTop Rat) : WithBot (WithTop Rat))
  | .inf true => some ⊥
  | .inf false => some ((⊤ : WithTop Rat) : WithBot (WithTop Rat))
  | .nan => none

def doubleEqual : Double → Double → Bool
  | .finite a, .finite b => a = b
  | .inf a, .inf b => a = b
  | _, _ => false

def doubleLess : Double → Double → Bool
  | .finite a, .finite b => a < b
  | .inf true, .finite _ => true
  | .finite _, .inf false => true
  | .inf true, .inf false => true
  | _, _ => false

-- Comparisons are all that `inThreshold` does with doubles.
def doubles (ofInt : Int → Double) (print print2 : Double → String) : Float64 Double :=
  ⟨ofInt, doubleEqual, doubleLess, print, print2⟩

/-- What a comparator says of a value and the number behind it. Nothing compares to what is no number. -/
def Compares (comparator : String) (val bound : Double) : Prop :=
  ∃ a b, level val = some a ∧ level bound = some b ∧
    (comparator = "=" ∧ a = b ∨ comparator = ">" ∧ b < a ∨ comparator = "<" ∧ a < b ∨
      comparator = ">=" ∧ b ≤ a ∨ comparator = "<=" ∧ a ≤ b)

theorem doubleEqual_iff {x y : Double} : doubleEqual x y = true ↔ ∃ a, level x = some a ∧ level y = some a := by
  cases x with
  | nan => simp [doubleEqual, level]
  | finite a =>
    cases y with
    | nan => simp [doubleEqual, level]
    | finite b => simp [doubleEqual, level, eq_comm]
    | inf negative => cases negative <;> simp [doubleEqual, level]
  | inf negative =>
    cases y with
    | nan => simp [doubleEqual, level]
    | finite b => cases negative <;> simp [doubleEqual, level]
    | inf other => cases negative <;> cases other <;> simp [doubleEqual, level]

theorem doubleLess_iff {x y : Double} :
    doubleLess x y = true ↔ ∃ a b, level x = some a ∧ level y = some b ∧ a < b := by
  cases x with
  | nan => simp [doubleLess, level]
  | finite a =>
    cases y with
    | nan => simp [doubleLess, level]
    | finite b => simp [doubleLess, level]
    | inf negative =>
      cases negative with
      | true => simp [doubleLess, level]
      | false =>
        have below : ((a : WithTop Rat) : WithBot (WithTop Rat)) < ((⊤ : WithTop Rat) : WithBot (WithTop Rat)) :=
          WithBot.coe_lt_coe.mpr (WithTop.coe_lt_top a)
        exact iff_of_true rfl ⟨_, _, rfl, rfl, below⟩
  | inf negative =>
    cases y with
    | nan => simp [doubleLess, level]
    | finite b => cases negative <;> simp [doubleLess, level]
    | inf other => cases negative <;> cases other <;> simp [doubleLess, level]

theorem inThreshold_iff (ofInt : Int → Double) (print print2 : Double → String) {t : HealthThreshold Double}
    (listed : t.comparator ∈ comparators) (val : Double) :
    inThreshold (doubles ofInt print print2) t val = true ↔ Compares t.comparator val t.val := by
  obtain ⟨bound, comparator⟩ := t
  have weak {x y : Double} : (doubleLess x y || doubleEqual x y) = true ↔
      ∃ a b, level x = some a ∧ level y = some b ∧ a ≤ b := by
    rw [Bool.or_eq_true, doubleLess_iff, doubleEqual_iff]
    constructor
    · rintro (⟨a, b, here, there, less⟩ | ⟨a, here, there⟩)
      · exact ⟨a, b, here, there, less.le⟩
      · exact ⟨a, a, here, there, le_refl a⟩
    · rintro ⟨a, b, here, there, within⟩
      rcases within.lt_or_eq with less | rfl
      · exact Or.inl ⟨a, b, here, there, less⟩
      · exact Or.inr ⟨a, here, there⟩
  have swapped : doubleEqual val bound = doubleEqual bound val := by
    rw [Bool.eq_iff_iff, doubleEqual_iff, doubleEqual_iff]
    exact exists_congr fun a => and_comm
  simp only [comparators, List.mem_cons, List.not_mem_nil, or_false] at listed
  rcases listed with rfl | rfl | rfl | rfl | rfl
  · simp [inThreshold, Compares, doubles, doubleEqual_iff]
  · have greater : Compares ">" val bound ↔ ∃ b a, level bound = some b ∧ level val = some a ∧ b < a := by
      simp only [Compares, String.reduceEq, false_and, true_and, false_or, or_false]
      constructor
      · rintro ⟨a, b, here, there, less⟩
        exact ⟨b, a, there, here, less⟩
      · rintro ⟨b, a, there, here, less⟩
        exact ⟨a, b, here, there, less⟩
    exact doubleLess_iff.trans greater.symm
  · simp [inThreshold, Compares, doubles, doubleLess_iff]
  · have greater : Compares ">=" val bound ↔ ∃ b a, level bound = some b ∧ level val = some a ∧ b ≤ a := by
      simp only [Compares, String.reduceEq, false_and, true_and, false_or, or_false]
      constructor
      · rintro ⟨a, b, here, there, less⟩
        exact ⟨b, a, there, here, less⟩
      · rintro ⟨b, a, there, here, less⟩
        exact ⟨a, b, here, there, less⟩
    simp only [inThreshold, doubles, swapped]
    exact weak.trans greater.symm
  · simp [inThreshold, Compares, doubles, weak]

end Compare

section Grammar

/-- A comparator of two characters and a number. -/
def TwoSigns (s : String) : Prop := ∃ sign ∈ [">=", "<="], ∃ valStr, s = sign ++ valStr ∧ (parseFloat valStr).isSome = true

theorem twoSigns_iff {s : String} : TwoSigns s ↔ ∃ t, Written s t ∧ t.comparator ∈ [">=", "<="] := by
  constructor
  · rintro ⟨sign, listed, valStr, rfl, number⟩
    obtain ⟨val, number⟩ := Option.isSome_iff_exists.mp number
    have known : sign ∈ comparators := by
      simp only [List.mem_cons, List.not_mem_nil, or_false] at listed
      rcases listed with rfl | rfl <;> decide
    exact ⟨⟨val, sign⟩, ⟨sign, valStr, rfl, number, Or.inr ⟨known, rfl⟩⟩, listed⟩
  · rintro ⟨t, ⟨comparator, valStr, rfl, number, ⟨_, default⟩ | ⟨_, own⟩⟩, listed⟩
    · rw [default] at listed
      exact absurd listed (by decide)
    · exact ⟨comparator, own ▸ listed, valStr, rfl, by rw [number]; rfl⟩

theorem Written.comparator_mem {s : String} {t : HealthThreshold Double} (written : Written s t) :
    t.comparator ∈ comparators := by
  obtain ⟨_, _, _, _, ⟨_, default⟩ | ⟨listed, own⟩⟩ := written
  · rw [default]
    decide
  · exact own ▸ listed

/-- The text is read as what it says, and the threshold compares values so. -/
def ReadAsWritten (s : String) : Prop :=
  (∀ t, strToThreshold s = .ok t ↔ Written s t) ∧
    ∀ ofInt print print2 t, strToThreshold s = .ok t → ∀ val,
      inThreshold (doubles ofInt print print2) t val = true ↔ Compares t.comparator val t.val

theorem readAsWritten_iff (s : String) : ReadAsWritten s ↔ ¬TwoSigns s := by
  have compared : ∀ ofInt print print2 t, strToThreshold s = .ok t → ∀ val,
      inThreshold (doubles ofInt print print2) t val = true ↔ Compares t.comparator val t.val := by
    intro ofInt print print2 t parsed val
    exact inThreshold_iff ofInt print print2 (strToThreshold_iff.mp parsed).1.comparator_mem val
  rw [ReadAsWritten, and_iff_left compared, twoSigns_iff]
  constructor
  · rintro exact ⟨t, written, listed⟩
    exact (strToThreshold_iff.mp ((exact t).mpr written)).2 listed
  · intro single t
    rw [strToThreshold_iff]
    exact and_iff_left_of_imp fun written listed => single ⟨t, written, listed⟩

end Grammar

section Profiles

variable {raw : AList fun _ : String => RawValue}

/-- The other parameters have the types that they should have. -/
def Typed (raw : AList fun _ : String => RawValue) : Prop :=
  (∃ v, unmarshalInt raw "health.connection.timeout" = .ok v) ∧ (∃ v, unmarshalString raw "health.polling.url" = .ok v) ∧
    ∃ v, unmarshalInt raw "history.count" = .ok v

def ThresholdValue (raw : AList fun _ : String => RawValue) (vStr : String) : Prop :=
  ∃ entry ∈ raw.entries, ∃ stat, entry.1 = thresholdPrefix ++ stat ∧ vStr = entry.2.print

/-- A profile of well-formed thresholds is accepted. -/
def AcceptsWritten (raw : AList fun _ : String => RawValue) : Prop :=
  Typed raw ∧ (∀ vStr, ThresholdValue raw vStr → ∃ t, Written vStr t) → ∃ decoded, unmarshalJSON raw = .ok decoded

theorem thresholds_of_accepted {entries : List ((_ : String) × RawValue)}
    {thresholds thresholds' : AList fun _ : String => HealthThreshold Double}
    (read : entries.foldlM unmarshalThreshold thresholds = .ok thresholds') :
    ∀ entry ∈ entries, ∀ stat, entry.1 = thresholdPrefix ++ stat → ∃ t, strToThreshold entry.2.print = .ok t := by
  induction entries generalizing thresholds with
  | nil => simp
  | cons entry entries ih =>
    rw [List.foldlM_cons] at read
    obtain ⟨next, first, rest⟩ := ExceptList.bind_ok read
    refine List.forall_mem_cons.mpr ⟨fun stat name => ?_, ih rest⟩
    rcases unmarshalThreshold_ok first with ⟨unlike, _⟩ | ⟨_, t, _, parsed, _⟩
    · rw [after_iff.mpr name] at unlike
      cases unlike
    · exact ⟨t, parsed⟩

theorem accepted_iff (typed : Typed raw) : (∃ decoded, unmarshalJSON raw = .ok decoded) ↔
    ∀ vStr, ThresholdValue raw vStr → ∃ t, strToThreshold vStr = .ok t := by
  obtain ⟨⟨timeout, timeoutRead⟩, ⟨url, urlRead⟩, count, countRead⟩ := typed
  constructor
  · rintro ⟨decoded, accepted⟩ vStr ⟨entry, member, stat, name, rfl⟩
    exact thresholds_of_accepted (unmarshalJSON_ok.mp accepted).2.2.2.2 entry member stat name
  · intro parsed
    obtain ⟨thresholds, read⟩ := thresholds_some ∅ fun entry member stat name => parsed _ ⟨entry, member, stat, name, rfl⟩
    exact ⟨⟨timeout, url, "", count, thresholds⟩, unmarshalJSON_ok.mpr ⟨timeoutRead, urlRead, rfl, countRead, read⟩⟩

theorem acceptsWritten_iff : AcceptsWritten raw ↔
    (Typed raw ∧ (∀ vStr, ThresholdValue raw vStr → ∃ t, Written vStr t) →
      ∀ vStr, ThresholdValue raw vStr → ¬TwoSigns vStr) := by
  refine forall_congr' fun ⟨typed, written⟩ => ?_
  rw [accepted_iff typed]
  refine forall_congr' fun vStr => forall_congr' fun listed => ?_
  obtain ⟨t, shown⟩ := written vStr listed
  rw [twoSigns_iff]
  constructor
  · rintro ⟨t', parsed⟩ ⟨other, written', listed⟩
    obtain ⟨written, single⟩ := strToThreshold_iff.mp parsed
    exact single (written.unique written' ▸ listed)
  · intro single
    exact ⟨t, strToThreshold_iff.mpr ⟨shown, fun listed => single ⟨t, shown, listed⟩⟩⟩

end Profiles

/-- Both the texts that are read as they are written and the profiles that are accepted are those without a comparator of
two characters. -/
theorem thresholdGrammar_iff (s : String) (raw : AList fun _ : String => RawValue) :
    (ReadAsWritten s ↔ ¬TwoSigns s) ∧ (AcceptsWritten raw ↔
      (Typed raw ∧ (∀ vStr, ThresholdValue raw vStr → ∃ t, Written vStr t) →
        ∀ vStr, ThresholdValue raw vStr → ¬TwoSigns vStr)) :=
  ⟨readAsWritten_iff s, acceptsWritten_iff⟩

theorem not_thresholdGrammar : ¬((∀ s, ReadAsWritten s) ∧ ∀ raw, AcceptsWritten raw) := by
  rintro ⟨read, _⟩
  have number : (parseFloat "42").isSome = true := by decide +kernel
  exact (readAsWritten_iff ">=42").mp (read _) ⟨">=", by decide, "42", rfl, number⟩

end TrafficControl.TrafficMonitor
