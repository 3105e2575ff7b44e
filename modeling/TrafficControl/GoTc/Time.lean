import TrafficControl.Lib.TimeLayout
import TrafficControl.Lib.Trim

set_option autoImplicit false

namespace GoTc

open TimeLayout (Chunk ParseError Fields wholeHours)
open Calendar (dayNumber daysIn)

/-- Wraps a time to allow indication of invalid times. -/
structure Time where
  time : TimeLayout.Time
  valid : Bool
deriving DecidableEq

def Time.zero : Time := ⟨.zero, false⟩

-- "2006-01-02 15:04:05-07"
def timeLayout : List Chunk :=
  [.longYear, .char '-', .zeroMonth, .char '-', .zeroDay, .space, .hour, .char ':', .zeroMinute, .char ':', .zeroSecond,
    .numShortTZ]

section Methods

/-- What a database column holds is a time or something else. -/
def Time.scan : Option TimeLayout.Time → Time
  | some time => ⟨time, true⟩
  | none => .zero

def Time.value (t : Time) : Option TimeLayout.Time := if t.valid then some t.time else none

def Time.marshalJSON (t : Time) : List Char := '"' :: TimeLayout.format timeLayout t.time ++ ['"']

/-- The target keeps the validity that it had. -/
def Time.unmarshalJSON (target : Time) (b : List Char) : Time × Option ParseError :=
  let s := Trim.trim (· = '"') b
  if s = "null".toList then ({ target with time := .zero }, none)
  else match TimeLayout.parse timeLayout s with
    | .ok time => ({ target with time }, none)
    | .error err => ({ target with time := .zero }, some err)

end Methods

section RoundTrip

/-- A time that the layout writes whole, but for its zone. -/
structure Plain (time : TimeLayout.Time) : Prop where
  seconds : time.nanos = 0
  year : 0 ≤ time.clock.date.year ∧ time.clock.date.year ≤ 9999

def SameInstant (time time' : TimeLayout.Time) : Prop := time.unix = time'.unix ∧ time.nanos = time'.nanos

/-- A valid time comes back valid and at its instant, to be written as such, and an invalid one invalid. -/
structure Time.RoundTrips (target t : Time) : Prop where
  valid : t.valid = true → ∃ time, SameInstant time t.time ∧
    target.unmarshalJSON t.marshalJSON = (⟨time, true⟩, none) ∧ (target.unmarshalJSON t.marshalJSON).1.value = some time
  invalid : t.valid = false → (target.unmarshalJSON t.marshalJSON).1.valid = false

theorem unmarshalJSON_valid (target : Time) (b : List Char) : (target.unmarshalJSON b).1.valid = target.valid := by
  unfold Time.unmarshalJSON
  dsimp only
  split
  · rfl
  · cases TimeLayout.parse timeLayout (Trim.trim (· = '"') b) <;> rfl

variable {time : TimeLayout.Time}

-- What the text of a time says, at the whole hours of its zone.
def fieldsOf (time : TimeLayout.Time) : Fields :=
  let clock := time.clock
  ⟨clock.date.year, clock.date.month, clock.date.day, clock.hour, clock.min, clock.sec, 0, wholeHours time.offset * 3600⟩

/-- Up to the zone all is read back. -/
theorem parseChunks_clock (plain : Plain time) :
    TimeLayout.parseChunks timeLayout .none (TimeLayout.format timeLayout time) =
      TimeLayout.parseChunks [.numShortTZ] { fieldsOf time with zoneOffset := -1 } (TimeLayout.format [.numShortTZ] time) := by
  have text : (TimeLayout.format [.hour, .char ':', .zeroMinute, .char ':', .zeroSecond, .numShortTZ] time).head? ≠ some ' ' := by
    obtain ⟨digit, isDigit, first⟩ := @TimeLayout.pad_head
      (TimeLayout.format [.char ':', .zeroMinute, .char ':', .zeroSecond, .numShortTZ] time) 2 time.clock.hour
    rw [TimeLayout.format, List.flatMap_cons, TimeLayout.Chunk.format, ← TimeLayout.format, first]
    rintro same
    rw [Option.some.inj same] at isDigit
    cases isDigit
  have whole : (TimeLayout.format [.numShortTZ] time).head? ≠ some '.' := by
    rw [TimeLayout.format, List.flatMap_cons, TimeLayout.Chunk.format, TimeLayout.formatZone]
    split <;> simp
  unfold timeLayout
  rw [TimeLayout.parseChunks_format (TimeLayout.parse_longYear plain.year),
    TimeLayout.parseChunks_format (TimeLayout.parse_char '-'), TimeLayout.parseChunks_format TimeLayout.parse_zeroMonth,
    TimeLayout.parseChunks_format (TimeLayout.parse_char '-'), TimeLayout.parseChunks_format TimeLayout.parse_zeroDay,
    TimeLayout.parseChunks_format (TimeLayout.parse_space text), TimeLayout.parseChunks_format TimeLayout.parse_hour,
    TimeLayout.parseChunks_format (TimeLayout.parse_char ':'), TimeLayout.parseChunks_format TimeLayout.parse_zeroMinute,
    TimeLayout.parseChunks_format (TimeLayout.parse_char ':'),
    TimeLayout.parseChunks_format (TimeLayout.parse_zeroSecond whole)]
  rfl

/-- What is read back: the clock of a time, at the whole hours of its zone. -/
def atWholeHours (time : TimeLayout.Time) : TimeLayout.Time :=
  ⟨time.unix + (time.offset - wholeHours time.offset * 3600), 0, wholeHours time.offset * 3600⟩

theorem fieldsOf_time (time : TimeLayout.Time) : (fieldsOf time).time = atWholeHours time := by
  have seconds := TimeLayout.clock_seconds time
  have zone : wholeHours time.offset * 3600 ≠ -1 := by omega
  have same : (⟨time.clock.date.year, time.clock.date.month, time.clock.date.day⟩ : Calendar.Date) = time.clock.date := rfl
  unfold Fields.time fieldsOf atWholeHours
  dsimp only
  rw [if_neg zone]
  simp only [Int.toNat_natCast, same]
  congr 1
  omega

theorem parse_short (plain : Plain time) (short : (wholeHours time.offset).natAbs < 100) :
    TimeLayout.parse timeLayout (TimeLayout.format timeLayout time) = .ok (atWholeHours time) := by
  have chunks : TimeLayout.parseChunks timeLayout .none (TimeLayout.format timeLayout time) = .ok (fieldsOf time) := by
    rw [parseChunks_clock plain, TimeLayout.parseChunks_format (TimeLayout.parse_numShortTZ short)]
    rfl
  have day := (TimeLayout.clock_valid time).day
  have inMonth : ¬ ((fieldsOf time).day < 1 ∨ (daysIn (fieldsOf time).month.toNat (fieldsOf time).year : Int) < (fieldsOf time).day) := by
    simp only [fieldsOf, Int.toNat_natCast]
    omega
  rw [TimeLayout.parse, chunks]
  simp only [bind, Except.bind, if_neg inMonth, fieldsOf_time]
  rfl

theorem parse_long (plain : Plain time) (long : 100 ≤ (wholeHours time.offset).natAbs) :
    ∃ err, TimeLayout.parse timeLayout (TimeLayout.format timeLayout time) = .error err := by
  obtain ⟨zone, c, after, read⟩ := TimeLayout.parseZone_long long
  have text : TimeLayout.format [.numShortTZ] time = TimeLayout.formatZone time.offset := List.append_nil _
  rw [TimeLayout.parse, parseChunks_clock plain, text]
  simp only [TimeLayout.parseChunks, Chunk.parse, read, TimeLayout.orBad]
  exact ⟨_, rfl⟩

theorem format_ends (plain : Plain time) : ∃ first last : Char, first.isDigit = true ∧ last.isDigit = true ∧
    (TimeLayout.format timeLayout time).head? = some first ∧ (TimeLayout.format timeLayout time).getLast? = some last := by
  obtain ⟨first, first_digit, head⟩ := @TimeLayout.pad_head (TimeLayout.format timeLayout.tail time) 4
    time.clock.date.year.natAbs
  obtain ⟨last, last_digit, back⟩ := TimeLayout.pad_last 2 ((time.offset.tdiv 60).natAbs / 60)
    (TimeLayout.format timeLayout.dropLast time ++ [if time.offset.tdiv 60 < 0 then '-' else '+'])
  have year : ¬ time.clock.date.year < 0 := by
    have range := plain.year
    omega
  refine ⟨first, last, first_digit, last_digit, ?_, ?_⟩
  · rw [← head]
    simp [timeLayout, TimeLayout.format, TimeLayout.Chunk.format, TimeLayout.appendInt, year]
  · rw [← back]
    simp [timeLayout, TimeLayout.format, TimeLayout.Chunk.format, TimeLayout.formatZone]

theorem trim_marshalJSON {t : Time} (plain : Plain t.time) :
    Trim.trim (· = '"') t.marshalJSON = TimeLayout.format timeLayout t.time := by
  obtain ⟨first, last, first_digit, last_digit, head, back⟩ := format_ends plain
  have unquoted : ∀ c : Char, c.isDigit = true → decide (c = '"') = false := by
    intro c isDigit
    refine decide_eq_false ?_
    rintro rfl
    cases isDigit
  have wrapped : t.marshalJSON = ['"'] ++ (TimeLayout.format timeLayout t.time ++ ['"']) := rfl
  rw [wrapped, Trim.trim_wrapped _ (by simp) (by simp), Trim.trim_eq_self_iff, head, back]
  exact ⟨unquoted first first_digit, unquoted last last_digit⟩

theorem format_ne_null (plain : Plain time) : TimeLayout.format timeLayout time ≠ "null".toList := by
  obtain ⟨first, _, first_digit, _, head, _⟩ := format_ends plain
  intro null
  rw [null] at head
  rw [← Option.some.inj head] at first_digit
  cases first_digit

section Unmarshal

variable (target : Time) {t : Time} (plain : Plain t.time)
include plain

theorem unmarshalJSON_ok {new : TimeLayout.Time}
    (parsed : TimeLayout.parse timeLayout (TimeLayout.format timeLayout t.time) = .ok new) :
    target.unmarshalJSON t.marshalJSON = (⟨new, target.valid⟩, none) := by
  unfold Time.unmarshalJSON
  dsimp only
  rw [trim_marshalJSON plain, parsed]
  exact if_neg (format_ne_null plain)

theorem unmarshalJSON_error {err : ParseError}
    (parsed : TimeLayout.parse timeLayout (TimeLayout.format timeLayout t.time) = .error err) :
    target.unmarshalJSON t.marshalJSON = (⟨.zero, target.valid⟩, some err) := by
  unfold Time.unmarshalJSON
  dsimp only
  rw [trim_marshalJSON plain, parsed]
  exact if_neg (format_ne_null plain)

end Unmarshal

theorem sameInstant_iff (plain : Plain time) : SameInstant (atWholeHours time) time ↔ 3600 ∣ time.offset := by
  have cut : wholeHours time.offset * 3600 = time.offset ↔ 3600 ∣ time.offset :=
    ⟨fun whole => ⟨wholeHours time.offset, by omega⟩, Int.tdiv_mul_cancel⟩
  rw [← cut]
  constructor
  · rintro ⟨unix, _⟩
    have same : time.unix + (time.offset - wholeHours time.offset * 3600) = time.unix := unix
    omega
  · intro whole
    refine ⟨?_, plain.seconds.symm⟩
    simp only [atWholeHours, whole]
    omega

theorem short_iff {offset : Int} : (wholeHours offset).natAbs < 100 ↔ offset.natAbs < 360000 := by
  rw [wholeHours, Int.natAbs_tdiv]
  exact Nat.div_lt_iff_lt_mul (by decide)

/-- A time comes back as it was if the target has its validity and its zone is of whole hours, below a hundred. -/
theorem marshalled_roundTrips_iff (target t : Time) (plain : t.valid = true → Plain t.time) :
    target.RoundTrips t ↔
      target.valid = t.valid ∧ (t.valid = true → 3600 ∣ t.time.offset ∧ t.time.offset.natAbs < 360000) := by
  cases valid : t.valid with
  | false =>
    constructor
    · intro trip
      have invalid := trip.invalid valid
      rw [unmarshalJSON_valid] at invalid
      exact ⟨invalid, nofun⟩
    · rintro ⟨same, _⟩
      refine ⟨fun other => ?_, fun _ => ?_⟩
      · rw [valid] at other
        cases other
      · rw [unmarshalJSON_valid, same]
  | true =>
    have writes := plain valid
    constructor
    · intro trip
      obtain ⟨time, instant, result, _⟩ := trip.valid valid
      have short : (wholeHours t.time.offset).natAbs < 100 := by
        by_contra long
        obtain ⟨err, parsed⟩ := parse_long writes (Nat.le_of_not_lt long)
        rw [unmarshalJSON_error target writes parsed] at result
        cases (Prod.mk.inj result).2
      rw [unmarshalJSON_ok target writes (parse_short writes short)] at result
      obtain ⟨same, flag⟩ := Time.mk.inj (Prod.mk.inj result).1
      rw [← same, sameInstant_iff writes] at instant
      exact ⟨flag, fun _ => ⟨instant, short_iff.mp short⟩⟩
    · rintro ⟨flag, zone⟩
      obtain ⟨whole, near⟩ := zone rfl
      have result := unmarshalJSON_ok target writes (parse_short writes (short_iff.mpr near))
      rw [flag] at result
      refine ⟨fun _ => ⟨atWholeHours t.time, (sameInstant_iff writes).mpr whole, result, ?_⟩, fun other => ?_⟩
      · rw [result]
        rfl
      · rw [valid] at other
        cases other

-- 1996-12-19 16:39:57 UTC
def sample : TimeLayout.Time := ⟨851013597, 0, 0⟩

theorem sample_plain : Plain sample := ⟨rfl, by decide, by decide⟩

theorem sample_roundTrips : Time.RoundTrips ⟨.zero, true⟩ ⟨sample, true⟩ :=
  (marshalled_roundTrips_iff ⟨.zero, true⟩ ⟨sample, true⟩ fun _ => sample_plain).mpr ⟨rfl, fun _ => by decide⟩

/-- Into a fresh target the valid time is read as invalid. -/
theorem sample_invalid : Plain sample ∧ ¬ Time.RoundTrips .zero ⟨sample, true⟩ ∧
    (Time.zero.unmarshalJSON (Time.marshalJSON ⟨sample, true⟩)).1 = ⟨sample, false⟩ := by
  have result : Time.zero.unmarshalJSON (Time.marshalJSON ⟨sample, true⟩) = (⟨sample, false⟩, none) := by
    decide
  refine ⟨⟨rfl, by decide, by decide⟩, fun trip => ?_, congrArg Prod.fst result⟩
  obtain ⟨time, _, valid, _⟩ := trip.valid rfl
  rw [result] at valid
  cases (Time.mk.inj (Prod.mk.inj valid).1).2

end RoundTrip

end GoTc
