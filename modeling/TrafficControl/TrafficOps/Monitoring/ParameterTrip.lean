import TrafficControl.TrafficMonitor.Health.TMParameters
import TrafficControl.TrafficOps.Monitoring.Profiles

set_option autoImplicit false

-- The parameters of a profile, from `getProfiles` to `TMParameters`.
namespace Monitoring

open MachineInt DoubleText PutAll TrafficControl.TrafficMonitor

-- What the JSON of a value is read as.
def received : ParameterValue → RawValue
  | .int value => .float64 (toDouble value)
  | .string value => .string value

/-- A map that the JSON of the parameters is read into. -/
def Read (raw : AList fun _ : String => RawValue) (parameters : AList fun _ : String => ParameterValue) : Prop :=
  ∀ name, raw.lookup name = (parameters.lookup name).map received

def integerNames : List String := ["health.connection.timeout", "history.count"]

structure WellFormed (parameters : List Parameter) : Prop where
  integers : ∀ parameter ∈ parameters, parameter.name ∈ integerNames → ∃ n, atoi parameter.value = .ok n
  thresholds : ∀ parameter ∈ parameters, ∀ stat, parameter.name = thresholdPrefix ++ stat → ∃ t, Written parameter.value t

structure Carried (decoded : TMParameters) (parameter : Parameter) : Prop where
  timeout : parameter.name = "health.connection.timeout" → atoi parameter.value = .ok decoded.healthConnectionTimeout
  url : parameter.name = "health.polling.url" → decoded.healthPollingURL = parameter.value
  format : parameter.name = "health.polling.format" → decoded.healthPollingFormat = parameter.value
  count : parameter.name = "history.count" → atoi parameter.value = .ok decoded.historyCount
  threshold : ∀ stat, parameter.name = thresholdPrefix ++ stat →
    ∃ t, Written parameter.value t ∧ decoded.thresholds.lookup stat = some t

/-- However the map is ordered, it is accepted and carries every parameter. -/
def Survive (parameters : List Parameter) (sent : AList fun _ : String => ParameterValue) : Prop :=
  ∀ raw, Read raw sent → ∃ decoded, unmarshalJSON raw = .ok decoded ∧ ∀ parameter ∈ parameters, Carried decoded parameter

-- Two parameters of one name say the same.
structure Agree (parameter other : Parameter) : Prop where
  integers : parameter.name ∈ integerNames → ∀ n, atoi parameter.value = .ok n → atoi other.value = .ok n
  url : parameter.name = "health.polling.url" → other.value = parameter.value
  thresholds : ∀ stat, parameter.name = thresholdPrefix ++ stat → ∀ t, Written parameter.value t → Written other.value t

structure Transferable (parameters : List Parameter) : Prop where
  integers : ∀ parameter ∈ parameters, parameter.name ∈ integerNames → ∀ n, atoi parameter.value = .ok n → toDouble n = n
  url : ∀ parameter ∈ parameters, parameter.name = "health.polling.url" → ∀ n, atoi parameter.value ≠ .ok n
  format : ∀ parameter ∈ parameters, parameter.name = "health.polling.format" → parameter.value = ""
  thresholds : ∀ parameter ∈ parameters, ∀ stat, parameter.name = thresholdPrefix ++ stat →
    ∀ t, Written parameter.value t → t.comparator ∉ [">=", "<="]
  agree : ∀ parameter ∈ parameters, ∀ other ∈ parameters, other.name = parameter.name → Agree parameter other

section Integers

theorem parseDigits_ok {n un : Nat} {digits : List Char} (parsed : parseDigits n digits = .ok un) :
    (∀ c ∈ digits, c.isDigit = true) ∧ un = Nat.ofDigitChars 10 digits n := by
  induction digits generalizing n with
  | nil =>
    cases parsed
    simp
  | cons c digits ih =>
    unfold parseDigits at parsed
    split at parsed
    · cases parsed
    · split at parsed
      · cases parsed
      · next digit _ =>
        obtain ⟨all, number⟩ := ih parsed
        refine ⟨List.forall_mem_cons.mpr ⟨by simpa using digit, all⟩, ?_⟩
        rw [number, Nat.ofDigitChars_cons, Nat.mul_comm]

theorem parseUint_ok {digits : List Char} {un : Nat} (parsed : parseUint digits = .ok un) :
    digits ≠ [] ∧ (∀ c ∈ digits, c.isDigit = true) ∧ un = Nat.ofDigitChars 10 digits 0 := by
  unfold parseUint at parsed
  split at parsed
  · cases parsed
  · next nonempty => exact ⟨nonempty, parseDigits_ok parsed⟩

theorem parseInt_eq (s : String) : parseInt s = match parseUint (signed s.toList).2 with
    | .error .ErrSyntax => (0, some .ErrSyntax)
    | .error .ErrRange => (if (signed s.toList).1 then -2 ^ 63 else 2 ^ 63 - 1, some .ErrRange)
    | .ok un =>
      if !(signed s.toList).1 ∧ 2 ^ 63 ≤ un then (2 ^ 63 - 1, some .ErrRange)
      else if (signed s.toList).1 ∧ 2 ^ 63 < un then (-2 ^ 63, some .ErrRange)
      else (if (signed s.toList).1 then -un else un, none) := rfl

theorem atoi_digits {s : String} {n : Int} (parsed : atoi s = .ok n) : ∃ negative digits,
    signed s.toList = (negative, digits) ∧ digits ≠ [] ∧ (∀ c ∈ digits, c.isDigit = true) ∧
      Nat.ofDigitChars 10 digits 0 ≤ 2 ^ 63 ∧ Fits 64 n ∧
      n = if negative then -(Nat.ofDigitChars 10 digits 0 : Int) else Nat.ofDigitChars 10 digits 0 := by
  rw [atoi, parseInt_eq] at parsed
  generalize signed s.toList = read at parsed ⊢
  obtain ⟨negative, digits⟩ := read
  refine ⟨negative, digits, rfl, ?_⟩
  split at parsed
  · cases parsed
  · cases parsed
  · next un digitsParsed =>
    obtain ⟨nonempty, all, number⟩ := parseUint_ok digitsParsed
    subst number
    split at parsed
    · cases parsed
    · next small =>
      split at parsed
      · cases parsed
      · next large =>
        cases parsed
        refine ⟨nonempty, all, ?_, ?_, rfl⟩
        · cases negative <;> simp at small large <;> omega
        · cases negative <;> simp [Fits] at small large ⊢ <;> omega

theorem parseFloat_atoi {s : String} {n : Int} (parsed : atoi s = .ok n) :
    parseFloat s = some (.finite (toDouble n)) := by
  obtain ⟨negative, digits, split, nonempty, all, small, _, rfl⟩ := atoi_digits parsed
  exact parseFloat_digits split nonempty all (by omega)

theorem toInt_toDouble {n : Int} (fits : Fits 64 n) : toInt (toDouble n) = n ↔ toDouble n = n := by
  unfold toInt
  split
  · rfl
  · next unfit =>
    constructor
    · intro least
      subst least
      exact absurd (by decide) unfit
    · intro same
      rw [same] at unfit
      exact absurd fits unfit
theorem natAbs_toDouble {n : Int} (fits : Fits 64 n) : (toDouble n).natAbs ≤ 2 ^ 64 := by
  unfold Fits at fits
  rcases Int.le_total 0 n with nonnegative | nonpositive
  · have bounds := toDouble_nonneg nonnegative
    omega
  · have bounds := toDouble_nonpos nonpositive
    omega

end Integers

section Values

theorem received_integer {value : String} {n : Int} (parsed : atoi value = .ok n) :
    received (parameterValue value) = .float64 (toDouble n) := by
  rw [parameterValue, parsed]
  rfl

theorem received_text {value : String} (text : ∀ n, atoi value ≠ .ok n) :
    received (parameterValue value) = .string value := by
  unfold parameterValue
  split
  · next n parsed => exact absurd parsed (text n)
  · rfl

theorem written_number {s : String} {val : Double} (number : parseFloat s = some val) {t : HealthThreshold Double} :
    Written s t ↔ t = ⟨val, defaultHealthThresholdComparator⟩ := by
  have written : Written s ⟨val, defaultHealthThresholdComparator⟩ :=
    ⟨"", s, by rw [String.empty_append], number, Or.inl ⟨rfl, rfl⟩⟩
  constructor
  · exact fun other => other.unique written
  · rintro rfl
    exact written

/-- The text that a value is printed as after the trip says what the parameter says. -/
theorem written_print {value : String} {t : HealthThreshold Double} :
    Written (received (parameterValue value)).print t ↔ Written value t := by
  cases parsed : atoi value with
  | ok n =>
    obtain ⟨_, _, _, _, _, _, fits, _⟩ := atoi_digits parsed
    have printed := parseFloat_print (toDouble_idem n) (natAbs_toDouble fits)
    rw [received_integer parsed, RawValue.print, written_number printed, written_number (parseFloat_atoi parsed)]
  | error e =>
    have text : ∀ n, atoi value ≠ .ok n := fun n integer => by
      rw [parsed] at integer
      cases integer
    rw [received_text text, RawValue.print]

end Values

section Trip

variable {parameters : List Parameter} {raw : AList fun _ : String => RawValue}

theorem read_encode : ∃ raw, Read raw (encode parameters) := by
  refine ⟨putAll Parameter.name (fun parameter => received (parameterValue parameter.value)) ∅ parameters, fun name => ?_⟩
  rw [encode, lookup_putAll, lookup_putAll, AList.lookup_empty, AList.lookup_empty, Option.or_none, Option.or_none,
    Option.map_map]
  rfl

theorem read_some (read : Read raw (encode parameters)) {name : String} {value : RawValue}
    (found : raw.lookup name = some value) :
    ∃ parameter ∈ parameters, parameter.name = name ∧ value = received (parameterValue parameter.value) := by
  rw [read name] at found
  obtain ⟨sent, held, rfl⟩ := Option.map_eq_some_iff.mp found
  obtain ⟨parameter, member, own, rfl⟩ := lookup_putAll_empty held
  exact ⟨parameter, member, own, rfl⟩

theorem read_member (read : Read raw (encode parameters)) {parameter : Parameter} (member : parameter ∈ parameters) :
    ∃ last ∈ parameters, last.name = parameter.name ∧
      raw.lookup parameter.name = some (received (parameterValue last.value)) := by
  have present : parameter.name ∈ encode parameters := (mem_putAll_empty parameter.name).mpr ⟨parameter, member, rfl⟩
  obtain ⟨sent, found⟩ := Option.isSome_iff_exists.mp (AList.lookup_isSome.mpr present)
  have arrived := read parameter.name
  rw [found, Option.map_some] at arrived
  obtain ⟨last, own, named, value⟩ := read_some read arrived
  exact ⟨last, own, named, arrived.trans (congrArg some value)⟩

theorem read_absent (read : Read raw (encode parameters)) {name : String}
    (absent : ∀ parameter ∈ parameters, parameter.name ≠ name) : raw.lookup name = none := by
  cases found : raw.lookup name with
  | none => rfl
  | some value =>
    obtain ⟨parameter, member, own, _⟩ := read_some read found
    exact absurd own (absent parameter member)

theorem unmarshalInt_read (read : Read raw (encode parameters)) {parameter : Parameter} (member : parameter ∈ parameters)
    {n : Int} (same : ∀ other ∈ parameters, other.name = parameter.name → atoi other.value = .ok n) :
    unmarshalInt raw parameter.name = .ok n ↔ toDouble n = n := by
  obtain ⟨last, own, named, found⟩ := read_member read member
  have parsed := same last own named
  obtain ⟨_, _, _, _, _, _, fits, _⟩ := atoi_digits parsed
  rw [received_integer parsed] at found
  simp only [unmarshalInt, found, Except.ok.injEq, toInt_toDouble fits]

theorem unmarshalString_read (read : Read raw (encode parameters)) {parameter : Parameter} (member : parameter ∈ parameters)
    (same : ∀ other ∈ parameters, other.name = parameter.name → other.value = parameter.value) :
    unmarshalString raw parameter.name = .ok parameter.value ↔ ∀ n, atoi parameter.value ≠ .ok n := by
  obtain ⟨last, own, named, found⟩ := read_member read member
  rw [same last own named] at found
  cases parsed : atoi parameter.value with
  | ok n =>
    rw [received_integer parsed] at found
    simp [unmarshalString, found]
  | error e =>
    rw [received_text (by simp [parsed])] at found
    simp [unmarshalString, found]

theorem unmarshalThresholds_read (read : Read raw (encode parameters)) {thresholds : AList fun _ : String => HealthThreshold Double}
    (accepted : raw.entries.foldlM unmarshalThreshold ∅ = .ok thresholds) {parameter : Parameter}
    (member : parameter ∈ parameters) {stat : String} (named : parameter.name = thresholdPrefix ++ stat) :
    ∃ last ∈ parameters, last.name = parameter.name ∧
      ∃ t, Written last.value t ∧ t.comparator ∉ [">=", "<="] ∧ thresholds.lookup stat = some t := by
  obtain ⟨last, own, sameName, found⟩ := read_member read member
  have lookups := thresholds_lookup raw.nodupKeys accepted stat
  have entry : raw.entries.dlookup (thresholdPrefix ++ stat) = some (received (parameterValue last.value)) := named ▸ found
  rw [entry] at lookups
  obtain ⟨t, parsed, held⟩ := lookups
  obtain ⟨written, single⟩ := strToThreshold_iff.mp parsed
  exact ⟨last, own, sameName, t, written_print.mp written, single, held⟩

theorem Carried.agree {decoded : TMParameters} {parameter other : Parameter} (carried : Carried decoded parameter)
    (carriedOther : Carried decoded other) (same : other.name = parameter.name) : Agree parameter other where
  integers := by
    intro listed n parsed
    simp only [integerNames, List.mem_cons, List.not_mem_nil, or_false] at listed
    rcases listed with timeout | count
    · rw [← parsed, carried.timeout timeout, carriedOther.timeout (same.trans timeout)]
    · rw [← parsed, carried.count count, carriedOther.count (same.trans count)]
  url := fun url => (carriedOther.url (same.trans url)).symm.trans (carried.url url)
  thresholds := by
    intro stat named t written
    obtain ⟨held, writtenHeld, found⟩ := carried.threshold stat named
    obtain ⟨heldOther, writtenOther, foundOther⟩ := carriedOther.threshold stat (same.trans named)
    cases found.symm.trans foundOther
    rw [written.unique writtenHeld]
    exact writtenOther

theorem transferable_of_carried (read : Read raw (encode parameters)) {decoded : TMParameters}
    (accepted : unmarshalJSON raw = .ok decoded) (carried : ∀ parameter ∈ parameters, Carried decoded parameter) :
    Transferable parameters := by
  obtain ⟨timeoutRead, urlRead, formatRead, countRead, thresholdsRead⟩ := unmarshalJSON_ok.mp accepted
  refine ⟨?_, ?_, ?_, ?_, fun parameter member other memberOther => (carried parameter member).agree (carried other memberOther)⟩
  · intro parameter member listed n parsed
    have same (other : Parameter) (memberOther : other ∈ parameters) (sameName : other.name = parameter.name) :
        atoi other.value = .ok n :=
      ((carried parameter member).agree (carried other memberOther) sameName).integers listed n parsed
    have integer := unmarshalInt_read read member same
    simp only [integerNames, List.mem_cons, List.not_mem_nil, or_false] at listed
    rcases listed with timeout | count
    · have own := Except.ok.inj (parsed.symm.trans ((carried parameter member).timeout timeout))
      rw [timeout, own] at integer
      rw [own]
      exact integer.mp timeoutRead
    · have own := Except.ok.inj (parsed.symm.trans ((carried parameter member).count count))
      rw [count, own] at integer
      rw [own]
      exact integer.mp countRead
  · intro parameter member url
    have same (other : Parameter) (memberOther : other ∈ parameters) (sameName : other.name = parameter.name) :
        other.value = parameter.value :=
      ((carried parameter member).agree (carried other memberOther) sameName).url url
    apply (unmarshalString_read read member same).mp
    rw [url, urlRead, (carried parameter member).url url]
  · intro parameter member format
    rw [← (carried parameter member).format format, formatRead]
  · intro parameter member stat named t written
    obtain ⟨last, own, sameName, held, writtenLast, single, _⟩ := unmarshalThresholds_read read thresholdsRead member named
    have writtenAlso := ((carried last own).agree (carried parameter member) sameName.symm).thresholds stat (sameName.trans named)
      held writtenLast
    rw [written.unique writtenAlso]
    exact single

theorem unmarshalInt_exists (wellFormed : WellFormed parameters) (transferable : Transferable parameters)
    (read : Read raw (encode parameters)) {name : String} (listed : name ∈ integerNames) :
    ∃ n, unmarshalInt raw name = .ok n ∧ ∀ parameter ∈ parameters, parameter.name = name → atoi parameter.value = .ok n := by
  by_cases present : ∃ parameter ∈ parameters, parameter.name = name
  · obtain ⟨parameter, member, rfl⟩ := present
    obtain ⟨n, parsed⟩ := wellFormed.integers parameter member listed
    have same (other : Parameter) (memberOther : other ∈ parameters) (sameName : other.name = parameter.name) :
        atoi other.value = .ok n :=
      (transferable.agree parameter member other memberOther sameName).integers listed n parsed
    exact ⟨n, (unmarshalInt_read read member same).mpr (transferable.integers parameter member listed n parsed), same⟩
  · have absent : ∀ parameter ∈ parameters, parameter.name ≠ name := fun parameter member own => present ⟨parameter, member, own⟩
    exact ⟨0, by simp [unmarshalInt, read_absent read absent], fun parameter member own => absurd own (absent parameter member)⟩

theorem unmarshalString_exists (transferable : Transferable parameters) (read : Read raw (encode parameters)) :
    ∃ url, unmarshalString raw "health.polling.url" = .ok url ∧
      ∀ parameter ∈ parameters, parameter.name = "health.polling.url" → url = parameter.value := by
  by_cases present : ∃ parameter ∈ parameters, parameter.name = "health.polling.url"
  · obtain ⟨parameter, member, url⟩ := present
    have same (other : Parameter) (memberOther : other ∈ parameters) (sameName : other.name = parameter.name) :
        other.value = parameter.value :=
      (transferable.agree parameter member other memberOther sameName).url url
    have text := (unmarshalString_read read member same).mpr (transferable.url parameter member url)
    rw [url] at text
    exact ⟨parameter.value, text, fun other memberOther named => (same other memberOther (named.trans url.symm)).symm⟩
  · have absent : ∀ parameter ∈ parameters, parameter.name ≠ "health.polling.url" :=
      fun parameter member own => present ⟨parameter, member, own⟩
    exact ⟨"", by simp [unmarshalString, read_absent read absent],
      fun parameter member own => absurd own (absent parameter member)⟩

theorem unmarshalThresholds_exists (wellFormed : WellFormed parameters) (transferable : Transferable parameters)
    (read : Read raw (encode parameters)) :
    ∃ thresholds, raw.entries.foldlM unmarshalThreshold ∅ = .ok thresholds := by
  apply thresholds_some
  intro entry member stat named
  have found : raw.lookup entry.1 = some entry.2 := AList.mem_lookup_iff.mpr member
  obtain ⟨parameter, own, sameName, value⟩ := read_some read found
  obtain ⟨t, written⟩ := wellFormed.thresholds parameter own stat (sameName.trans named)
  have single := transferable.thresholds parameter own stat (sameName.trans named) t written
  rw [value]
  exact ⟨t, strToThreshold_iff.mpr ⟨written_print.mpr written, single⟩⟩

theorem survive_iff (wellFormed : WellFormed parameters) :
    Survive parameters (encode parameters) ↔ Transferable parameters := by
  constructor
  · intro survive
    obtain ⟨raw, read⟩ : ∃ raw, Read raw (encode parameters) := read_encode
    obtain ⟨decoded, accepted, carried⟩ := survive raw read
    exact transferable_of_carried read accepted carried
  · intro transferable raw read
    have timeoutListed : "health.connection.timeout" ∈ integerNames := by decide
    have countListed : "history.count" ∈ integerNames := by decide
    obtain ⟨timeout, timeoutRead, timeouts⟩ := unmarshalInt_exists wellFormed transferable read timeoutListed
    obtain ⟨count, countRead, counts⟩ := unmarshalInt_exists wellFormed transferable read countListed
    obtain ⟨url, urlRead, urls⟩ := unmarshalString_exists transferable read
    obtain ⟨thresholds, thresholdsRead⟩ := unmarshalThresholds_exists wellFormed transferable read
    refine ⟨⟨timeout, url, "", count, thresholds⟩,
      unmarshalJSON_ok.mpr ⟨timeoutRead, urlRead, rfl, countRead, thresholdsRead⟩, fun parameter member => ?_⟩
    refine ⟨timeouts parameter member, urls parameter member, fun format => ?_, counts parameter member, fun stat named => ?_⟩
    · exact (transferable.format parameter member format).symm
    · obtain ⟨last, own, sameName, t, written, _, held⟩ := unmarshalThresholds_read read thresholdsRead member named
      have agree := transferable.agree last own parameter member sameName.symm
      exact ⟨t, agree.thresholds stat (sameName.trans named) t written, held⟩

/-- The parameters of a profile survive the trip exactly when no text but those of the integers is taken for one, no integer
loses digits as a double, no format is asked for, no comparator has two characters, and no name says two things. -/
theorem parameters_survive_iff {db : List Parameter} {caches : List Cache} {routers : List Router} {profiles : Profiles}
    (produced : getProfiles db caches routers = .ok profiles) {cache : Cache} (used : cache ∈ caches) {profile : Profile}
    (found : profiles.lookup cache.profile = some profile) (wellFormed : WellFormed (parametersOf db cache.profile)) :
    Survive (parametersOf db cache.profile) profile.parameters ↔ Transferable (parametersOf db cache.profile) := by
  obtain ⟨own, known, parameters⟩ := getProfiles_parameters produced used
  cases known.symm.trans found
  rw [parameters]
  exact survive_iff wellFormed

end Trip

def edgeCache : Cache := ⟨"EDGE1", "EDGE"⟩

def edgeParameter (name value : String) : Parameter := ⟨"EDGE1", name, cacheMonitorConfigFile, value⟩

-- Parameters of one profile, all with names of their own.
theorem agree_of_distinct {parameters : List Parameter} (distinct : (parameters.map Parameter.name).Nodup) :
    ∀ parameter ∈ parameters, ∀ other ∈ parameters, other.name = parameter.name → Agree parameter other := by
  intro parameter member other memberOther same
  cases List.inj_on_of_nodup_map distinct memberOther member same
  exact ⟨fun _ _ => id, fun _ => rfl, fun _ _ _ => id⟩

theorem written_integer {s : String} {n : Int} (parsed : atoi s = .ok n) : ∃ t, Written s t :=
  ⟨_, (written_number (parseFloat_atoi parsed)).mpr rfl⟩

theorem edgeParameters_survive :
    let db := [edgeParameter "history.count" "30", edgeParameter "health.threshold.loadavg" "25"]
    ∃ profiles profile, getProfiles db [edgeCache] [] = .ok profiles ∧ profiles.lookup "EDGE1" = some profile ∧
      Survive (parametersOf db "EDGE1") profile.parameters := by
  intro db
  have rows : parametersOf db edgeCache.profile = db := rfl
  have count : atoi "30" = .ok 30 := rfl
  have loadavg : atoi "25" = .ok 25 := rfl
  have wellFormed : WellFormed db := by
    constructor
    · exact List.forall_mem_cons.mpr ⟨fun _ => ⟨30, count⟩, List.forall_mem_singleton.mpr fun _ => ⟨25, loadavg⟩⟩
    · exact List.forall_mem_cons.mpr ⟨fun _ _ => written_integer count,
        List.forall_mem_singleton.mpr fun _ _ => written_integer loadavg⟩
  have transferable : Transferable db := by
    refine ⟨?_, ?_, ?_, ?_, agree_of_distinct (by decide)⟩
    · refine List.forall_mem_cons.mpr ⟨fun _ n parsed => ?_, List.forall_mem_singleton.mpr fun _ n parsed => ?_⟩
      · cases count.symm.trans parsed
        decide
      · cases loadavg.symm.trans parsed
        decide
    · have named : ∀ parameter ∈ db, parameter.name ≠ "health.polling.url" := by decide
      exact fun parameter member url => absurd url (named parameter member)
    · decide
    · have plain {s : String} {n : Int} (parsed : atoi s = .ok n) (t : HealthThreshold Double) (written : Written s t) :
          t.comparator ∉ [">=", "<="] := by
        have single : defaultHealthThresholdComparator ∉ [">=", "<="] := by decide
        rw [(written_number (parseFloat_atoi parsed)).mp written]
        exact single
      exact List.forall_mem_cons.mpr ⟨fun _ _ => plain count, List.forall_mem_singleton.mpr fun _ _ => plain loadavg⟩
  have used : edgeCache ∈ [edgeCache] := List.mem_cons_self
  rw [← rows] at wellFormed transferable
  exact ⟨_, _, rfl, rfl, (parameters_survive_iff rfl used rfl wellFormed).mpr transferable⟩

/-- A comparator of two characters rejects the profile, and the format is dropped. -/
theorem not_parameters_survive :
    let threshold := [edgeParameter "health.threshold.loadavg" ">=42"]
    let format := [edgeParameter "health.polling.format" "noop"]
    (∃ profiles profile, getProfiles threshold [edgeCache] [] = .ok profiles ∧ profiles.lookup "EDGE1" = some profile ∧
      WellFormed (parametersOf threshold "EDGE1") ∧ ¬ Survive (parametersOf threshold "EDGE1") profile.parameters) ∧
    ∃ profiles profile, getProfiles format [edgeCache] [] = .ok profiles ∧ profiles.lookup "EDGE1" = some profile ∧
      WellFormed (parametersOf format "EDGE1") ∧ ¬ Survive (parametersOf format "EDGE1") profile.parameters := by
  intro threshold format
  have written : Written ">=42" ⟨.finite (toDouble 42), ">="⟩ :=
    ⟨">=", "42", rfl, parseFloat_atoi rfl, Or.inr ⟨by decide, rfl⟩⟩
  have other : "health.threshold.loadavg" ∉ integerNames ∧ "health.polling.format" ∉ integerNames := by decide
  have unlike : after thresholdPrefix "health.polling.format" = none := by decide
  have thresholdFormed : WellFormed threshold :=
    ⟨List.forall_mem_singleton.mpr fun listed => absurd listed other.1,
      List.forall_mem_singleton.mpr fun _ _ => ⟨_, written⟩⟩
  have formatFormed : WellFormed format := by
    refine ⟨List.forall_mem_singleton.mpr fun listed => absurd listed other.2,
      List.forall_mem_singleton.mpr fun stat named => ?_⟩
    cases unlike.symm.trans (after_iff.mpr named)
  refine ⟨⟨_, _, rfl, rfl, thresholdFormed, fun survive => ?_⟩, _, _, rfl, rfl, formatFormed, fun survive => ?_⟩
  · have transferable := (survive_iff thresholdFormed).mp survive
    exact transferable.thresholds _ List.mem_cons_self "loadavg" rfl _ written (by decide)
  · have transferable := (survive_iff formatFormed).mp survive
    exact absurd (transferable.format _ List.mem_cons_self rfl) (by decide)

end Monitoring
