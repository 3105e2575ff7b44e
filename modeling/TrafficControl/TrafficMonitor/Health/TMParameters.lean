import TrafficControl.Lib.DoubleText
import TrafficControl.Lib.ExceptList
import TrafficControl.TrafficMonitor.Health.Cache

set_option autoImplicit false

namespace TrafficControl.TrafficMonitor

open MachineInt DoubleText ExceptList

/-- A value of the `map[string]interface{}` that the parameters are first read into. Traffic Ops writes whole numbers, and
the doubles next to them are whole. -/
inductive RawValue where
  | float64 (value : Int)
  | string (value : String)
  deriving DecidableEq

-- `%v`.
def RawValue.print : RawValue → String
  | float64 value => DoubleText.print value
  | string value => value

structure TMParameters where
  healthConnectionTimeout : Int
  healthPollingURL : String
  healthPollingFormat : String
  historyCount : Int
  thresholds : AList fun _ : String => HealthThreshold Double

def defaultHealthThresholdComparator : String := "<"

def comparators : List String := ["=", ">", "<", ">=", "<="]

-- The text after `start`, for a text that has it first.
def after (start s : String) : Option String :=
  if start.toList <+: s.toList then some (String.ofList (s.toList.drop start.toList.length)) else none

theorem after_iff {start s rest : String} : after start s = some rest ↔ s = start ++ rest := by
  have lists : s = start ++ rest ↔ s.toList = start.toList ++ rest.toList := by
    rw [← String.toList_append, String.toList_inj]
  rw [lists, after]
  constructor
  · intro found
    split at found
    · next starts =>
      obtain ⟨others, text⟩ := starts
      cases found
      rw [← text, String.toList_ofList, List.drop_left]
    · cases found
  · intro text
    rw [if_pos ⟨_, text.symm⟩, text, List.drop_left, String.ofList_toList]

def parseThreshold (valStr comparator : String) : Except String (HealthThreshold Double) :=
  match parseFloat valStr with
  | none => .error "invalid threshold: NaN"
  | some val => .ok ⟨val, comparator⟩

def strToThreshold (s : String) : Except String (HealthThreshold Double) :=
  match comparators.findSome? fun comparator => (after comparator s).map fun valStr => (valStr, comparator) with
  | some (valStr, comparator) => parseThreshold valStr comparator
  | none => parseThreshold s defaultHealthThresholdComparator

/-- What a text of the documented form says: a number, and the comparator before it or the default one. -/
def Written (s : String) (t : HealthThreshold Double) : Prop :=
  ∃ comparator valStr, s = comparator ++ valStr ∧ parseFloat valStr = some t.val ∧
    (comparator = "" ∧ t.comparator = defaultHealthThresholdComparator ∨
      comparator ∈ comparators ∧ t.comparator = comparator)

def isSign (c : Char) : Bool := c ∈ ['=', '<', '>']

theorem takeWhile_number {valStr : String} {val : Double} (number : parseFloat valStr = some val) :
    valStr.toList.takeWhile isSign = [] := by
  cases text : valStr.toList with
  | nil => rfl
  | cons c rest =>
    have unsigned : isSign c = false := by
      cases sign : isSign c with
      | false => rfl
      | true =>
        rw [parseFloat_comparator text (of_decide_eq_true sign)] at number
        cases number
    rw [List.takeWhile_cons, unsigned]
    rfl

theorem takeWhile_comparator {comparator valStr : String} {val : Double}
    (listed : comparator = "" ∨ comparator ∈ comparators) (number : parseFloat valStr = some val) :
    (comparator ++ valStr).toList.takeWhile isSign = comparator.toList := by
  have signs : (("" :: comparators).all fun comparator => comparator.toList.all isSign) = true := by decide
  have all := List.all_eq_true.mp (List.all_eq_true.mp signs comparator (List.mem_cons.mpr listed))
  rw [String.toList_append, List.takeWhile_append_of_pos all, takeWhile_number number, List.append_nil]

theorem Written.unique {s : String} {t t' : HealthThreshold Double} (written : Written s t) (written' : Written s t') :
    t = t' := by
  obtain ⟨comparator, valStr, text, number, shown⟩ := written
  obtain ⟨comparator', valStr', text', number', shown'⟩ := written'
  have signs := takeWhile_comparator (shown.imp And.left And.left) number
  have signs' := takeWhile_comparator (shown'.imp And.left And.left) number'
  rw [← text] at signs
  rw [← text', signs, String.toList_inj] at signs'
  subst signs'
  rw [text, String.append_right_inj] at text'
  subst text'
  have vals : t.val = t'.val := Option.some.inj (number.symm.trans number')
  have empty : "" ∉ comparators := by decide
  have same : t.comparator = t'.comparator := by
    rcases shown with ⟨rfl, default⟩ | ⟨listed, own⟩
    · rcases shown' with ⟨_, default'⟩ | ⟨listed', _⟩
      · rw [default, default']
      · exact absurd listed' empty
    · rcases shown' with ⟨rfl, _⟩ | ⟨_, own'⟩
      · exact absurd listed empty
      · rw [own, own']
  cases t
  cases t'
  simp_all

theorem parseThreshold_ok {valStr comparator : String} {t : HealthThreshold Double}
    (parsed : parseThreshold valStr comparator = .ok t) : parseFloat valStr = some t.val ∧ t.comparator = comparator := by
  unfold parseThreshold at parsed
  split at parsed
  · cases parsed
  · next number =>
    cases parsed
    exact ⟨number, rfl⟩

theorem strToThreshold_default {s : String} (plain : s.toList.takeWhile isSign = []) :
    strToThreshold s = parseThreshold s defaultHealthThresholdComparator := by
  have starts : ∀ comparator ∈ comparators, comparator.toList.takeWhile isSign ≠ [] ∧
      comparator.toList.all isSign = true := by decide
  have unmatched : (comparators.findSome? fun comparator =>
      (after comparator s).map fun valStr => (valStr, comparator)) = none := by
    rw [List.findSome?_eq_none_iff]
    intro comparator listed
    cases found : after comparator s with
    | none => rfl
    | some valStr =>
      rw [after_iff.mp found, String.toList_append] at plain
      obtain ⟨some, all⟩ := starts comparator listed
      rw [List.takeWhile_append_of_pos (List.all_eq_true.mp all), List.append_eq_nil_iff] at plain
      exact absurd (by rw [plain.1]; rfl) some
  rw [strToThreshold, unmatched]

theorem strToThreshold_comparator {comparator valStr : String} (single : comparator ∈ ["=", ">", "<"]) :
    strToThreshold (comparator ++ valStr) = parseThreshold valStr comparator := by
  simp only [List.mem_cons, List.not_mem_nil, or_false] at single
  rcases single with rfl | rfl | rfl <;> simp [strToThreshold, comparators, after, String.toList_append]

theorem parseThreshold_sign (valStr comparator : String) : ∀ t, parseThreshold ("=" ++ valStr) comparator ≠ .ok t := by
  intro t parsed
  have text : ("=" ++ valStr).toList = '=' :: valStr.toList := String.toList_append
  obtain ⟨number, _⟩ := parseThreshold_ok parsed
  rw [parseFloat_comparator text (by decide)] at number
  cases number

theorem strToThreshold_written {s : String} {t : HealthThreshold Double} (parsed : strToThreshold s = .ok t) :
    Written s t := by
  unfold strToThreshold at parsed
  split at parsed
  · next valStr comparator found =>
    obtain ⟨tried, listed, found⟩ := List.exists_of_findSome?_eq_some found
    obtain ⟨rest, text, same⟩ := Option.map_eq_some_iff.mp found
    cases same
    obtain ⟨number, own⟩ := parseThreshold_ok parsed
    exact ⟨comparator, valStr, after_iff.mp text, number, Or.inr ⟨listed, own⟩⟩
  · obtain ⟨number, default⟩ := parseThreshold_ok parsed
    exact ⟨"", s, by rw [String.empty_append], number, Or.inl ⟨rfl, default⟩⟩

/-- A comparator of two characters is taken for its first one, and what is left is no number. -/
theorem strToThreshold_iff {s : String} {t : HealthThreshold Double} :
    strToThreshold s = .ok t ↔ Written s t ∧ t.comparator ∉ [">=", "<="] := by
  have parse (valStr comparator : String) (number : parseFloat valStr = some t.val) (own : t.comparator = comparator) :
      parseThreshold valStr comparator = .ok t := by
    subst own
    simp only [parseThreshold, number]
  have read : Written s t → (strToThreshold s = .ok t ↔ t.comparator ∉ [">=", "<="]) := by
    rintro ⟨comparator, valStr, rfl, number, ⟨rfl, default⟩ | ⟨listed, own⟩⟩
    · rw [String.empty_append, strToThreshold_default (takeWhile_number number), parse valStr _ number default, default]
      exact iff_of_true rfl (by decide)
    · rw [own]
      simp only [comparators, List.mem_cons, List.not_mem_nil, or_false] at listed
      rcases listed with rfl | rfl | rfl | rfl | rfl
      · rw [strToThreshold_comparator (by decide), parse valStr _ number own]
        exact iff_of_true rfl (by decide)
      · rw [strToThreshold_comparator (by decide), parse valStr _ number own]
        exact iff_of_true rfl (by decide)
      · rw [strToThreshold_comparator (by decide), parse valStr _ number own]
        exact iff_of_true rfl (by decide)
      · have split : ">=" ++ valStr = ">" ++ ("=" ++ valStr) := by rw [← String.append_assoc]; rfl
        rw [split, strToThreshold_comparator (by decide)]
        simp [parseThreshold_sign]
      · have split : "<=" ++ valStr = "<" ++ ("=" ++ valStr) := by rw [← String.append_assoc]; rfl
        rw [split, strToThreshold_comparator (by decide)]
        simp [parseThreshold_sign]
  constructor
  · intro parsed
    have written := strToThreshold_written parsed
    exact ⟨written, (read written).mp parsed⟩
  · rintro ⟨written, single⟩
    exact (read written).mpr single

section UnmarshalJSON

-- A range over the map visits its values in the order of its entries, which is any.
variable (raw : AList fun _ : String => RawValue)

-- A number that does not fit is the least one, as amd64 has it.
def toInt (v : Int) : Int := if Fits 64 v then v else -2 ^ 63

def unmarshalInt (name : String) : Except String Int :=
  match raw.lookup name with
  | none => .ok 0
  | some (.float64 v) => .ok (toInt v)
  | some vi => .error ("Unmarshalling TMParameters " ++ name ++ " expected integer, got " ++ vi.print)

def unmarshalString (name : String) : Except String String :=
  match raw.lookup name with
  | none => .ok ""
  | some (.string v) => .ok v
  | some vi => .error ("Unmarshalling TMParameters " ++ name ++ " expected string, got " ++ vi.print)

def thresholdPrefix : String := "health.threshold."

def unmarshalThreshold (thresholds : AList fun _ : String => HealthThreshold Double) (entry : (_ : String) × RawValue) :
    Except String (AList fun _ : String => HealthThreshold Double) :=
  match after thresholdPrefix entry.1 with
  | none => .ok thresholds
  | some stat =>
    match strToThreshold entry.2.print with
    | .error _ => .error ("Unmarshalling TMParameters `health.threshold.` parameter value not of the form `(>|)(=|)\\d+`: " ++
        "stat '" ++ stat ++ "' value '" ++ entry.2.print ++ "'")
    | .ok t => .ok (thresholds.insert stat t)

def unmarshalJSON : Except String TMParameters := do
  let healthConnectionTimeout ← unmarshalInt raw "health.connection.timeout"
  let healthPollingURL ← unmarshalString raw "health.polling.url"
  let historyCount ← unmarshalInt raw "history.count"
  let thresholds ← raw.entries.foldlM unmarshalThreshold ∅
  return {
    healthConnectionTimeout
    healthPollingURL
    healthPollingFormat := ""
    historyCount
    thresholds }

variable {raw}

theorem unmarshalJSON_ok {decoded : TMParameters} : unmarshalJSON raw = .ok decoded ↔
    unmarshalInt raw "health.connection.timeout" = .ok decoded.healthConnectionTimeout ∧
    unmarshalString raw "health.polling.url" = .ok decoded.healthPollingURL ∧
    decoded.healthPollingFormat = "" ∧
    unmarshalInt raw "history.count" = .ok decoded.historyCount ∧
    raw.entries.foldlM unmarshalThreshold ∅ = .ok decoded.thresholds := by
  unfold unmarshalJSON
  constructor
  · intro accepted
    obtain ⟨timeout, timeoutRead, accepted⟩ := bind_ok accepted
    obtain ⟨url, urlRead, accepted⟩ := bind_ok accepted
    obtain ⟨count, countRead, accepted⟩ := bind_ok accepted
    obtain ⟨thresholds, thresholdsRead, accepted⟩ := bind_ok accepted
    cases accepted
    exact ⟨timeoutRead, urlRead, rfl, countRead, thresholdsRead⟩
  · rintro ⟨timeoutRead, urlRead, format, countRead, thresholdsRead⟩
    obtain ⟨timeout, url, _, count, thresholds⟩ := decoded
    cases format
    rw [timeoutRead, urlRead, countRead, thresholdsRead]
    rfl

theorem unmarshalThreshold_ok {thresholds thresholds' : AList fun _ : String => HealthThreshold Double}
    {entry : (_ : String) × RawValue} (read : unmarshalThreshold thresholds entry = .ok thresholds') :
    (after thresholdPrefix entry.1 = none ∧ thresholds' = thresholds) ∨
      ∃ stat t, after thresholdPrefix entry.1 = some stat ∧ strToThreshold entry.2.print = .ok t ∧
        thresholds' = thresholds.insert stat t := by
  unfold unmarshalThreshold at read
  split at read
  · next unlike => exact Or.inl ⟨unlike, (Except.ok.inj read).symm⟩
  · next stat found =>
    split at read
    · cases read
    · next t parsed => exact Or.inr ⟨stat, t, found, parsed, (Except.ok.inj read).symm⟩

theorem thresholds_some {entries : List ((_ : String) × RawValue)} (thresholds : AList fun _ : String => HealthThreshold Double)
    (parsed : ∀ entry ∈ entries, ∀ stat, entry.1 = thresholdPrefix ++ stat → ∃ t, strToThreshold entry.2.print = .ok t) :
    ∃ thresholds', entries.foldlM unmarshalThreshold thresholds = .ok thresholds' := by
  induction entries generalizing thresholds with
  | nil => exact ⟨thresholds, rfl⟩
  | cons entry entries ih =>
    obtain ⟨first, others⟩ := List.forall_mem_cons.mp parsed
    rw [List.foldlM_cons]
    cases found : after thresholdPrefix entry.1 with
    | none =>
      have read : unmarshalThreshold thresholds entry = .ok thresholds := by simp only [unmarshalThreshold, found]
      rw [read]
      exact ih thresholds others
    | some stat =>
      obtain ⟨t, threshold⟩ := first stat (after_iff.mp found)
      have read : unmarshalThreshold thresholds entry = .ok (thresholds.insert stat t) := by
        simp only [unmarshalThreshold, found, threshold]
      rw [read]
      exact ih _ others

theorem thresholds_lookup {entries : List ((_ : String) × RawValue)} (distinct : entries.NodupKeys)
    {thresholds thresholds' : AList fun _ : String => HealthThreshold Double}
    (read : entries.foldlM unmarshalThreshold thresholds = .ok thresholds') (stat : String) :
    match entries.dlookup (thresholdPrefix ++ stat) with
    | none => thresholds'.lookup stat = thresholds.lookup stat
    | some v => ∃ t, strToThreshold v.print = .ok t ∧ thresholds'.lookup stat = some t := by
  induction entries generalizing thresholds with
  | nil =>
    cases read
    rfl
  | cons entry entries ih =>
    obtain ⟨name, value⟩ := entry
    obtain ⟨absent, distinct⟩ := List.nodupKeys_cons.mp distinct
    rw [List.foldlM_cons] at read
    obtain ⟨next, first, rest⟩ := bind_ok read
    have found := ih distinct rest
    by_cases same : name = thresholdPrefix ++ stat
    · subst same
      rw [List.dlookup_eq_none.mpr absent] at found
      rw [List.dlookup_cons_eq]
      rcases unmarshalThreshold_ok first with ⟨unlike, _⟩ | ⟨stat', t, names, parsed, rfl⟩
      · rw [after_iff.mpr rfl] at unlike
        cases unlike
      · cases (after_iff.mpr rfl).symm.trans names
        exact ⟨t, parsed, found.trans (AList.lookup_insert _)⟩
    · rw [List.dlookup_cons_ne entries ⟨name, value⟩ (Ne.symm same)]
      generalize entries.dlookup (thresholdPrefix ++ stat) = later at found ⊢
      cases later with
      | some v => exact found
      | none =>
        refine found.trans ?_
        rcases unmarshalThreshold_ok first with ⟨_, rfl⟩ | ⟨stat', t, names, _, rfl⟩
        · rfl
        · have other : stat ≠ stat' := fun equal => same (equal ▸ after_iff.mp names)
          exact AList.lookup_insert_ne other

end UnmarshalJSON

end TrafficControl.TrafficMonitor
