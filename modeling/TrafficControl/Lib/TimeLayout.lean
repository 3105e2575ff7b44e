import TrafficControl.Lib.Calendar

set_option autoImplicit false

-- Times in zones, and their texts under a layout.
namespace TimeLayout

open Calendar

/-- A time is a second from 1970 on and a part of it, seen in a zone of some seconds east of UTC. -/
structure Time where
  unix : Int
  nanos : Nat
  offset : Int
deriving DecidableEq

/-- The first second of the year 1. -/
def Time.zero : Time := ⟨-62135596800, 0, 0⟩

inductive Chunk where
  | longYear
  | zeroMonth
  | zeroDay
  | hour
  | zeroMinute
  | zeroSecond
  | numShortTZ
  | space
  | char (c : Char)
deriving DecidableEq

def Chunk.text : Chunk → String
  | longYear => "2006"
  | zeroMonth => "01"
  | zeroDay => "02"
  | hour => "15"
  | zeroMinute => "04"
  | zeroSecond => "05"
  | numShortTZ => "-07"
  | space => " "
  | char c => c.toString

-- The days of the year 1 to 1970.
def unixDay : Int := 719162

section Format

def pad (width n : Nat) : List Char := List.replicate (width - (Nat.toDigits 10 n).length) '0' ++ Nat.toDigits 10 n

def appendInt (x : Int) (width : Nat) : List Char := (if x < 0 then ['-'] else []) ++ pad width x.natAbs

structure Clock where
  date : Date
  hour : Nat
  min : Nat
  sec : Nat
deriving DecidableEq

def Time.clock (t : Time) : Clock :=
  let wall := t.unix + t.offset
  let second := (wall % 86400).toNat
  ⟨Calendar.date (wall / 86400 + unixDay), second / 3600, second / 60 % 60, second % 60⟩

-- The hours alone, with a sign that is decided by the minutes.
def formatZone (offset : Int) : List Char :=
  let zone := offset.tdiv 60
  (if zone < 0 then '-' else '+') :: pad 2 (zone.natAbs / 60)

def Chunk.format (t : Time) : Chunk → List Char
  | longYear => appendInt t.clock.date.year 4
  | zeroMonth => pad 2 t.clock.date.month
  | zeroDay => pad 2 t.clock.date.day
  | hour => pad 2 t.clock.hour
  | zeroMinute => pad 2 t.clock.min
  | zeroSecond => pad 2 t.clock.sec
  | numShortTZ => formatZone t.offset
  | space => [' ']
  | char c => [c]

def format (layout : List Chunk) (t : Time) : List Char := layout.flatMap (Chunk.format t)

end Format

section Parse

structure ParseError where
  layoutElem : String
  valueElem : List Char
  message : String
deriving DecidableEq

structure Fields where
  year : Int
  month : Int
  day : Int
  hour : Int
  min : Int
  sec : Int
  nsec : Nat
  zoneOffset : Int
deriving DecidableEq

def Fields.none : Fields := ⟨0, 1, 1, 0, 0, 0, 0, -1⟩

def digit (c : Char) : Nat := c.toNat - '0'.toNat

def leadingDigits (s : List Char) : Option Nat :=
  if s.all Char.isDigit then some (s.foldl (fun n c => n * 10 + digit c) 0) else none

/-- A sign may stand in front, and nothing behind. -/
def atoi : List Char → Option Int
  | '-' :: s => (leadingDigits s).map fun n => -n
  | '+' :: s => (leadingDigits s).map fun n => n
  | s => (leadingDigits s).map fun n => n

/-- One digit or two, or two if the number is fixed. -/
def getnum (fixed : Bool) : List Char → Option (Int × List Char)
  | c :: d :: s =>
    if c.isDigit = false then none
    else if d.isDigit then some ((digit c * 10 + digit d : Nat), s)
    else if fixed then none
    else some ((digit c : Nat), d :: s)
  | [c] => if c.isDigit ∧ fixed = false then some ((digit c : Nat), []) else none
  | [] => none

-- A number that cannot be read is zero when its range is looked at.
def numbered (chunk : Chunk) (fixed : Bool) (outside : Int → Bool) (name : String) (value : List Char) :
    Except ParseError (Int × List Char) :=
  let read := getnum fixed value
  let (number, rest) := read.getD (0, value)
  if outside number then .error ⟨chunk.text, rest, ": " ++ name ++ " out of range"⟩
  else if read.isNone then .error ⟨chunk.text, rest, ""⟩
  else .ok (number, rest)

def parseYear (value : List Char) : Option (Int × List Char) :=
  if value.length < 4 ∨ value.head?.any Char.isDigit = false then none
  else (atoi (value.take 4)).map fun year => (year, value.drop 4)

-- A fraction of a second that the layout does not have.
def fraction (value : List Char) : Except ParseError (Nat × List Char) :=
  match value with
  | '.' :: c :: rest =>
    if c.isDigit then
      let digits := (c :: rest).takeWhile Char.isDigit
      let after := (c :: rest).dropWhile Char.isDigit
      let ns := digits.foldl (fun n c => n * 10 + digit c) 0
      if 2 ^ 63 ≤ ns then .error ⟨Chunk.zeroSecond.text, after, ""⟩
      else if 10 ^ 9 ≤ ns then .error ⟨Chunk.zeroSecond.text, after, ": fractional second out of range"⟩
      else .ok (ns * 10 ^ (9 - digits.length), after)
    else .ok (0, value)
  | _ => .ok (0, value)

def parseZone : List Char → Option (Int × List Char)
  | sign :: h :: h' :: rest =>
    match atoi [h, h'] with
    | none => none
    | some hours =>
      if sign = '+' then some (hours * 3600, rest)
      else if sign = '-' then some (-(hours * 3600), rest)
      else none
  | _ => none

def orBad {α : Type} (chunk : Chunk) (value : List Char) (read : Option α) : Except ParseError α :=
  match read with
  | none => .error ⟨chunk.text, value, ""⟩
  | some result => .ok result

def Chunk.parse (fields : Fields) (value : List Char) (chunk : Chunk) : Except ParseError (Fields × List Char) :=
  match chunk with
  | longYear => (orBad chunk value (parseYear value)).map fun (year, rest) => ({ fields with year }, rest)
  | zeroMonth => (numbered chunk true (fun n => n ≤ 0 || 12 < n) "month" value).map fun (month, rest) =>
      ({ fields with month }, rest)
  | zeroDay => (numbered chunk true (· < 0) "day" value).map fun (day, rest) => ({ fields with day }, rest)
  | hour => (numbered chunk false (fun n => n < 0 || 24 ≤ n) "hour" value).map fun (number, rest) =>
      ({ fields with hour := number }, rest)
  | zeroMinute => (numbered chunk true (fun n => n < 0 || 60 ≤ n) "minute" value).map fun (min, rest) =>
      ({ fields with min }, rest)
  | zeroSecond => do
      let (sec, rest) ← numbered chunk true (fun n => n < 0 || 60 ≤ n) "second" value
      let (nsec, rest) ← fraction rest
      return ({ fields with sec, nsec }, rest)
  | numShortTZ => (orBad chunk value (parseZone value)).map fun (zoneOffset, rest) => ({ fields with zoneOffset }, rest)
  | space => match value with
      | c :: _ => if c = ' ' then .ok (fields, value.dropWhile (· = ' ')) else .error ⟨chunk.text, value, ""⟩
      | [] => .ok (fields, [])
  | char c => match value with
      | d :: rest => if d = c then .ok (fields, rest) else .error ⟨chunk.text, value, ""⟩
      | [] => .error ⟨chunk.text, value, ""⟩

def parseChunks : List Chunk → Fields → List Char → Except ParseError Fields
  | [], fields, value => if value = [] then .ok fields else .error ⟨"", value, ": extra text: " ++ String.ofList value⟩
  | chunk :: layout, fields, value => do
    let (fields, rest) ← chunk.parse fields value
    parseChunks layout fields rest

/-- Without a zone the time is one of UTC. -/
def Fields.time (fields : Fields) : Time :=
  let day := dayNumber ⟨fields.year, fields.month.toNat, fields.day.toNat⟩ - unixDay
  let utc := day * 86400 + fields.hour * 3600 + fields.min * 60 + fields.sec
  if fields.zoneOffset = -1 then ⟨utc, fields.nsec, 0⟩ else ⟨utc - fields.zoneOffset, fields.nsec, fields.zoneOffset⟩

def parse (layout : List Chunk) (value : List Char) : Except ParseError Time := do
  let fields ← parseChunks layout .none value
  if fields.day < 1 ∨ (daysIn fields.month.toNat fields.year : Int) < fields.day then
    .error ⟨"", [], ": day out of range"⟩
  else return fields.time

end Parse

section Texts

variable {fields : Fields} {rest : List Char}

theorem pad_two : ∀ n < 100, pad 2 n = [Nat.digitChar (n / 10), Nat.digitChar (n % 10)] := by decide

theorem digitChar_digit : ∀ n < 10, (Nat.digitChar n).isDigit = true ∧ digit (Nat.digitChar n) = n := by decide

theorem pad_isDigit (width n : Nat) : ∀ c ∈ pad width n, c.isDigit = true := by
  intro c member
  rcases List.mem_append.mp member with zero | digit
  · rw [List.eq_of_mem_replicate zero]
    decide
  · exact Nat.isDigit_of_mem_toDigits (by decide) (by decide) digit

theorem pad_ne_nil (width n : Nat) : pad width n ≠ [] := List.append_ne_nil_of_right_ne_nil _ Nat.toDigits_ne_nil

theorem pad_head (width n : Nat) : ∃ c, c.isDigit = true ∧ (pad width n ++ rest).head? = some c := by
  have nonempty := pad_ne_nil width n
  refine ⟨(pad width n).head nonempty, pad_isDigit width n _ (List.head_mem nonempty), ?_⟩
  rw [List.head?_append, List.head?_eq_some_head nonempty, Option.some_or]

theorem pad_last (width n : Nat) (front : List Char) : ∃ c, c.isDigit = true ∧ (front ++ pad width n).getLast? = some c := by
  have nonempty := pad_ne_nil width n
  refine ⟨(pad width n).getLast nonempty, pad_isDigit width n _ (List.getLast_mem nonempty), ?_⟩
  rw [List.getLast?_append, List.getLast?_eq_some_getLast nonempty, Option.some_or]

/-- One place more is one digit more. -/
theorem pad_succ {width n : Nat} (positive : 0 < width) : pad (width + 1) n = pad width (n / 10) ++ [Nat.digitChar (n % 10)] := by
  unfold pad
  by_cases small : n < 10
  · rw [Nat.toDigits_of_lt_base small, Nat.div_eq_of_lt small, Nat.mod_eq_of_lt small]
    obtain ⟨width, rfl⟩ := Nat.exists_eq_add_one_of_ne_zero (Nat.ne_of_gt positive)
    have zero : Nat.toDigits 10 0 = ['0'] := by decide
    rw [zero]
    simp [List.replicate_succ']
  · have split := Nat.toDigits_append_toDigits (b := 10) (n := n / 10) (d := n % 10) (by decide) (by omega) (by omega)
    have last : n % 10 < 10 := by omega
    rw [Nat.div_add_mod, Nat.toDigits_of_lt_base last] at split
    rw [← split]
    simp

theorem pad_four {n : Nat} (small : n < 10000) : pad 4 n =
    [Nat.digitChar (n / 1000), Nat.digitChar (n / 100 % 10), Nat.digitChar (n / 10 % 10), Nat.digitChar (n % 10)] := by
  have first : n / 10 / 10 / 10 = n / 1000 := by omega
  have second : n / 10 / 10 % 10 = n / 100 % 10 := by omega
  rw [pad_succ (by decide), pad_succ (by decide), pad_two _ (by omega), first, second]
  rfl

theorem getnum_pad {n : Nat} (small : n < 100) (fixed : Bool) : getnum fixed (pad 2 n ++ rest) = some ((n : Int), rest) := by
  obtain ⟨tens, tens_value⟩ := digitChar_digit (n / 10) (by omega)
  obtain ⟨ones, ones_value⟩ := digitChar_digit (n % 10) (by omega)
  have whole : n / 10 * 10 + n % 10 = n := by omega
  rw [pad_two n small]
  simp only [List.cons_append, List.nil_append, getnum, tens, ones, tens_value, ones_value, whole, if_true, Bool.true_eq_false,
    if_false]

theorem numbered_pad {n : Nat} (small : n < 100) {fixed : Bool} {outside : Int → Bool} (inside : outside n = false)
    (chunk : Chunk) (name : String) : numbered chunk fixed outside name (pad 2 n ++ rest) = .ok ((n : Int), rest) := by
  simp [numbered, getnum_pad small, inside]

theorem parse_longYear {t : Time} (range : 0 ≤ t.clock.date.year ∧ t.clock.date.year ≤ 9999) :
    Chunk.longYear.parse fields (Chunk.longYear.format t ++ rest) = .ok ({ fields with year := t.clock.date.year }, rest) := by
  obtain ⟨n, year⟩ := Int.eq_ofNat_of_zero_le range.1
  have small : n < 10000 := by omega
  obtain ⟨isDigit₁, value₁⟩ := digitChar_digit (n / 1000) (by omega)
  obtain ⟨isDigit₂, value₂⟩ := digitChar_digit (n / 100 % 10) (by omega)
  obtain ⟨isDigit₃, value₃⟩ := digitChar_digit (n / 10 % 10) (by omega)
  obtain ⟨isDigit₄, value₄⟩ := digitChar_digit (n % 10) (by omega)
  have whole : ((n / 1000 * 10 + n / 100 % 10) * 10 + n / 10 % 10) * 10 + n % 10 = n := by omega
  have read : atoi (pad 4 n) = some (n : Int) := by
    rw [pad_four small, atoi]
    · simp [leadingDigits, isDigit₁, isDigit₂, isDigit₃, isDigit₄, value₁, value₂, value₃, value₄, whole]
    · intro s same
      rw [(List.cons.inj same).1] at isDigit₁
      cases isDigit₁
    · intro s same
      rw [(List.cons.inj same).1] at isDigit₁
      cases isDigit₁
  have parsed : parseYear (pad 4 n ++ rest) = some ((n : Int), rest) := by
    have text := pad_four small
    unfold parseYear
    rw [if_neg (by simp [text, isDigit₁])]
    have front : (pad 4 n ++ rest).take 4 = pad 4 n := by simp [text]
    have back : (pad 4 n ++ rest).drop 4 = rest := by simp [text]
    rw [front, back, read]
    rfl
  have text : Chunk.longYear.format t = pad 4 n := by
    simp [Chunk.format, appendInt, year]
  rw [text, Chunk.parse, parsed, year]
  rfl

theorem atoi_pair {a b : Nat} (first : a < 10) (second : b < 10) :
    atoi [Nat.digitChar a, Nat.digitChar b] = some ((a * 10 + b : Nat) : Int) := by
  obtain ⟨isDigit, value⟩ := digitChar_digit a first
  obtain ⟨isDigit', value'⟩ := digitChar_digit b second
  rw [atoi]
  · simp [leadingDigits, isDigit, isDigit', value, value']
  · intro s same
    rw [(List.cons.inj same).1] at isDigit
    cases isDigit
  · intro s same
    rw [(List.cons.inj same).1] at isDigit
    cases isDigit

/-- The hours of an offset, without what is less than an hour. -/
def wholeHours (offset : Int) : Int := offset.tdiv 3600

theorem zone_hours (offset : Int) : (offset.tdiv 60).natAbs / 60 = (wholeHours offset).natAbs := by
  rw [wholeHours, Int.natAbs_tdiv, Int.natAbs_tdiv]
  exact Nat.div_div_eq_div_mul offset.natAbs 60 60

theorem wholeHours_sign (offset : Int) : if offset.tdiv 60 < 0 then wholeHours offset ≤ 0 else 0 ≤ wholeHours offset := by
  have hours := zone_hours offset
  by_cases nonnegative : 0 ≤ offset
  · have east := Int.tdiv_nonneg nonnegative (by decide : (0 : Int) ≤ 60)
    rw [if_neg (by omega)]
    exact Int.tdiv_nonneg nonnegative (by decide)
  · obtain ⟨n, rfl⟩ : ∃ n : Nat, offset = -n := ⟨offset.natAbs, by omega⟩
    have nonpositive : wholeHours (-n) ≤ 0 := by
      rw [wholeHours, Int.neg_tdiv]
      exact Int.neg_nonpos_of_nonneg (Int.tdiv_nonneg (Int.natCast_nonneg n) (by decide))
    split
    · exact nonpositive
    · next east =>
      rw [Int.neg_tdiv] at east hours
      have some_minutes := Int.tdiv_nonneg (Int.natCast_nonneg n) (by decide : (0 : Int) ≤ 60)
      omega

theorem parseZone_formatZone {offset : Int} (short : (wholeHours offset).natAbs < 100) :
    parseZone (formatZone offset ++ rest) = some (wholeHours offset * 3600, rest) := by
  unfold formatZone
  dsimp only
  rw [zone_hours, pad_two _ short]
  have hours := atoi_pair (a := (wholeHours offset).natAbs / 10) (b := (wholeHours offset).natAbs % 10) (by omega) (by omega)
  simp only [List.cons_append, List.nil_append, parseZone, hours]
  have sign := wholeHours_sign offset
  by_cases west : offset.tdiv 60 < 0
  · rw [if_pos west] at sign
    have value : -(((wholeHours offset).natAbs / 10 * 10 + (wholeHours offset).natAbs % 10 : Nat) * 3600 : Int) =
        wholeHours offset * 3600 := by omega
    rw [if_pos west, if_neg (by decide), if_pos rfl, value]
  · rw [if_neg west] at sign
    have value : (((wholeHours offset).natAbs / 10 * 10 + (wholeHours offset).natAbs % 10 : Nat) * 3600 : Int) =
        wholeHours offset * 3600 := by omega
    rw [if_neg west, if_pos rfl, value]

/-- Of three digits or more the zone takes two. -/
theorem parseZone_long {offset : Int} (long : 100 ≤ (wholeHours offset).natAbs) :
    ∃ zone c after, parseZone (formatZone offset) = some (zone, c :: after) := by
  unfold formatZone
  dsimp only
  rw [zone_hours]
  generalize (wholeHours offset).natAbs = n at long
  have digits : ∀ c ∈ Nat.toDigits 10 n, c.isDigit = true := fun _ => Nat.isDigit_of_mem_toDigits (by decide) (by decide)
  have three : ¬ (Nat.toDigits 10 n).length ≤ 2 := fun few =>
    absurd ((Nat.length_toDigits_le_iff (by decide) (by decide)).mp few) (by omega)
  have bare : pad 2 n = Nat.toDigits 10 n := by
    rw [pad, Nat.sub_eq_zero_of_le (by omega), List.replicate_zero, List.nil_append]
  rw [bare]
  rcases split : Nat.toDigits 10 n with _ | ⟨a, _ | ⟨b, _ | ⟨c, after⟩⟩⟩
  · simp [split] at three
  · simp [split] at three
  · simp [split] at three
  rw [split] at digits
  have first := digits a (by simp)
  have second := digits b (by simp)
  have read : atoi [a, b] = some (((0 * 10 + digit a) * 10 + digit b : Nat) : Int) := by
    rw [atoi]
    · simp [leadingDigits, first, second]
    · intro s same
      rw [(List.cons.inj same).1] at first
      cases first
    · intro s same
      rw [(List.cons.inj same).1] at first
      cases first
  generalize (((0 * 10 + digit a) * 10 + digit b : Nat) : Int) = hours at read
  by_cases west : offset.tdiv 60 < 0
  · rw [if_pos west]
    have parsed : parseZone ('-' :: a :: b :: c :: after) = some (-(hours * 3600), c :: after) := by
      simp only [parseZone, read]
      exact (if_neg (by decide)).trans (if_pos trivial)
    exact ⟨_, c, after, parsed⟩
  · rw [if_neg west]
    have parsed : parseZone ('+' :: a :: b :: c :: after) = some (hours * 3600, c :: after) := by
      simp only [parseZone, read]
      exact if_pos trivial
    exact ⟨_, c, after, parsed⟩

section Clock

variable (t : Time)

theorem clock_hour : t.clock.hour < 24 := by
  simp only [Time.clock]
  omega

theorem clock_min : t.clock.min < 60 := by
  simp only [Time.clock]
  omega

theorem clock_sec : t.clock.sec < 60 := by
  simp only [Time.clock]
  omega

/-- The clock shows the second of its zone. -/
theorem clock_seconds : (dayNumber t.clock.date - unixDay) * 86400 + t.clock.hour * 3600 + t.clock.min * 60 + t.clock.sec =
    t.unix + t.offset := by
  simp only [Time.clock, dayNumber_date]
  omega

theorem clock_valid : t.clock.date.Valid := date_valid _

end Clock

section Chunks

variable {t : Time}

theorem daysIn_le (month : Nat) (year : Int) : daysIn month year ≤ 31 := by
  have table : ∀ leap, ∀ index < 12, (monthLengths leap).getD index 0 ≤ 31 := by decide
  rcases Nat.lt_or_ge (month - 1) 12 with inYear | outside
  · exact table (isLeap year) (month - 1) inYear
  · rw [daysIn, List.getD_eq_getElem?_getD, List.getElem?_eq_none outside]
    exact Nat.zero_le 31

theorem parse_zeroMonth : Chunk.zeroMonth.parse fields (Chunk.zeroMonth.format t ++ rest) =
    .ok ({ fields with month := t.clock.date.month }, rest) := by
  have month := (clock_valid t).month
  have inside : (fun n : Int => (n ≤ 0 || 12 < n : Bool)) t.clock.date.month = false := by
    simp
    omega
  rw [Chunk.format, Chunk.parse, numbered_pad (by omega) inside]
  rfl

theorem parse_zeroDay : Chunk.zeroDay.parse fields (Chunk.zeroDay.format t ++ rest) =
    .ok ({ fields with day := t.clock.date.day }, rest) := by
  have day := (clock_valid t).day
  have month := daysIn_le t.clock.date.month t.clock.date.year
  rw [Chunk.format, Chunk.parse, numbered_pad (by omega) (by simp)]
  rfl

theorem parse_hour : Chunk.hour.parse fields (Chunk.hour.format t ++ rest) =
    .ok ({ fields with hour := t.clock.hour }, rest) := by
  have hour := clock_hour t
  have inside : (fun n : Int => (n < 0 || 24 ≤ n : Bool)) t.clock.hour = false := by
    simp
    omega
  rw [Chunk.format, Chunk.parse, numbered_pad (by omega) inside]
  rfl

theorem parse_zeroMinute : Chunk.zeroMinute.parse fields (Chunk.zeroMinute.format t ++ rest) =
    .ok ({ fields with min := t.clock.min }, rest) := by
  have min := clock_min t
  have inside : (fun n : Int => (n < 0 || 60 ≤ n : Bool)) t.clock.min = false := by
    simp
    omega
  rw [Chunk.format, Chunk.parse, numbered_pad (by omega) inside]
  rfl

/-- Behind the seconds no point follows that would be read as a fraction. -/
theorem parse_zeroSecond (whole : rest.head? ≠ some '.') : Chunk.zeroSecond.parse fields (Chunk.zeroSecond.format t ++ rest) =
    .ok ({ fields with sec := t.clock.sec, nsec := 0 }, rest) := by
  have sec := clock_sec t
  have inside : (fun n : Int => (n < 0 || 60 ≤ n : Bool)) t.clock.sec = false := by
    simp
    omega
  have no_fraction : fraction rest = .ok (0, rest) := by
    unfold fraction
    split
    · simp at whole
    · rfl
  rw [Chunk.format, Chunk.parse, numbered_pad (by omega) inside]
  simp only [bind, Except.bind, no_fraction]
  rfl

theorem parse_numShortTZ (short : (wholeHours t.offset).natAbs < 100) :
    Chunk.numShortTZ.parse fields (Chunk.numShortTZ.format t ++ rest) =
    .ok ({ fields with zoneOffset := wholeHours t.offset * 3600 }, rest) := by
  rw [Chunk.format, Chunk.parse, parseZone_formatZone short]
  rfl

theorem parse_char (c : Char) : (Chunk.char c).parse fields ((Chunk.char c).format t ++ rest) = .ok (fields, rest) := by
  simp [Chunk.format, Chunk.parse]

theorem parse_space (text : rest.head? ≠ some ' ') : Chunk.space.parse fields (Chunk.space.format t ++ rest) = .ok (fields, rest) := by
  have bare : rest.dropWhile (· = ' ') = rest := by
    cases rest with
    | nil => rfl
    | cons c rest =>
      refine List.dropWhile_cons_of_neg ?_
      simpa using text
  simp [Chunk.format, Chunk.parse, bare]

theorem parseChunks_format {chunk : Chunk} {layout : List Chunk} {next : Fields}
    (read : chunk.parse fields (chunk.format t ++ format layout t) = .ok (next, format layout t)) :
    parseChunks (chunk :: layout) fields (format (chunk :: layout) t) = parseChunks layout next (format layout t) := by
  have text : format (chunk :: layout) t = chunk.format t ++ format layout t := List.flatMap_cons
  rw [text, parseChunks, read]
  rfl

end Chunks

end Texts

end TimeLayout
