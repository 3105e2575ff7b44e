import TrafficControl.TrafficMonitor.Cache.Data

set_option autoImplicit false

namespace TrafficControl.TrafficMonitor

open MachineInt

-- What `GetVitals` does with a `float64`, and the texts of `strconv`.
structure FloatText (α : Type) where
  ofInt : Int → α
  div : α → α → α
  toInt : α → Int
  quote : String → String
  parseFloat : String → Except String α

-- `unicode.IsSpace`.
def isSpace (c : Char) : Bool :=
  c ∈ ['\t', '\n', '\x0b', '\x0c', '\r', ' ', '\x85', '\xa0', '\u1680', '\u2028', '\u2029', '\u202f', '\u205f', '\u3000'] ∨
    '\u2000' ≤ c ∧ c ≤ '\u200a'

def fields (s : String) : List String := ((s.toList.splitOnP isSpace).filter (· ≠ [])).map String.ofList

inductive NumErr where
  | ErrSyntax
  | ErrRange

def NumErr.error : NumErr → String
  | ErrSyntax => "invalid syntax"
  | ErrRange => "value out of range"

-- The digits after those of `n`, in base 10. A number that gets too large is not read to its end.
def parseDigits : Nat → List Char → Except NumErr Nat
  | n, [] => .ok n
  | n, c :: rest =>
    if !c.isDigit then .error .ErrSyntax
    else if 2 ^ 64 ≤ n * 10 + (c.toNat - '0'.toNat) then .error .ErrRange
    else parseDigits (n * 10 + (c.toNat - '0'.toNat)) rest

def parseUint (s : List Char) : Except NumErr Nat := if s = [] then .error .ErrSyntax else parseDigits 0 s

-- `ParseInt(s, 10, 64)`. A number out of range is returned with its error, cut to the range.
def parseInt (s : String) : Int × Option NumErr :=
  let (negative, digits) := match s.toList with
    | '+' :: rest => (false, rest)
    | '-' :: rest => (true, rest)
    | digits => (false, digits)
  match parseUint digits with
  | .error .ErrSyntax => (0, some .ErrSyntax)
  | .error .ErrRange => (if negative then -2 ^ 63 else 2 ^ 63 - 1, some .ErrRange)
  | .ok un =>
    if !negative ∧ 2 ^ 63 ≤ un then (2 ^ 63 - 1, some .ErrRange)
    else if negative ∧ 2 ^ 63 < un then (-2 ^ 63, some .ErrRange)
    else (if negative then -un else un, none)

def atoi (s : String) : Except NumErr Int := (parseInt s).2.elim (.ok (parseInt s).1) .error

variable {α : Type}

def setErr (newResult : PolledResult α) (err : String) : PolledResult α :=
  { newResult with error := some err, available := false }

variable (float64 : FloatText α)

def numError (num : String) (err : NumErr) : String :=
  "strconv.ParseInt: parsing " ++ float64.quote num ++ ": " ++ err.error

def kbpsOut (newResult prevResult : PolledResult α) : Int :=
  let elapsedTimeInSecs :=
    float64.div (float64.ofInt (wrap 64 (newResult.time - prevResult.time))) (float64.ofInt 1000000000)
  let kbits := (wrap 64 (wrap 64 (newResult.bytesOut - prevResult.bytesOut) * 8)).tdiv 1000
  float64.toInt (float64.div (float64.ofInt kbits) elapsedTimeInSecs)

-- The part of `GetVitals` after the load average. Too few numbers are a panic, `none`.
def getNetVitals (newResult : PolledResult α) (prevResult : Option (PolledResult α)) : Option (PolledResult α) :=
  match (newResult.system.procNetDev.toList.splitOn ':').map String.ofList with
  | _ :: part :: _ => do
    let numbers := fields part
    let (bytesOut, err) := parseInt (← numbers[8]?)
    let newResult := { newResult with bytesOut }
    match err with
    | some err =>
      return setErr newResult ("Error converting BytesOut from procnetdev: " ++ numError float64 (← numbers[8]?) err)
    | none =>
      let (bytesIn, err) := parseInt (← numbers[0]?)
      let newResult := { newResult with bytesIn }
      match err with
      | some err =>
        return setErr newResult ("Error converting BytesIn from procnetdev: " ++ numError float64 (← numbers[0]?) err)
      | none =>
        let kbps := match prevResult with
          | some prevResult => if prevResult.bytesOut = 0 then newResult.vitals.kbpsOut else kbpsOut float64 newResult prevResult
          | none => newResult.vitals.kbpsOut
        let maxKbpsOut := wrap 64 (newResult.system.infSpeed * 1000)
        return { newResult with vitals := { newResult.vitals with kbpsOut := kbps, maxKbpsOut } }
  | _ => setErr newResult "Error parsing procnetdev: no fields found"

/-- A result that was never seen is the zero value, without bytes. -/
def getVitals (newResult : PolledResult α) (prevResult : Option (PolledResult α)) : Option (PolledResult α) :=
  let procLoadavg := newResult.system.procLoadavg
  match newResult.error, fields procLoadavg with
  | some _, _ => newResult
  | none, [] => setErr newResult ("Can't make sense of '" ++ procLoadavg ++ "' as a load average for " ++ newResult.id)
  | none, oneMin :: _ =>
    match float64.parseFloat oneMin with
    | .error err => setErr newResult ("Error converting load average string '" ++ procLoadavg ++ "': " ++ err)
    | .ok oneMinAvg =>
      getNetVitals float64 { newResult with vitals := { newResult.vitals with loadAvg := oneMinAvg } } prevResult

theorem getNetVitals_id {newResult result : PolledResult α} {prevResult : Option (PolledResult α)}
    (got : getNetVitals float64 newResult prevResult = some result) : result.id = newResult.id := by
  unfold getNetVitals at got
  split at got
  · simp only [Option.bind_eq_bind, Option.bind_eq_some_iff, Option.pure_def] at got
    obtain ⟨outText, -, got⟩ := got
    split at got
    · obtain ⟨text, -, got⟩ := Option.bind_eq_some_iff.mp got
      exact Option.some.inj got ▸ rfl
    · obtain ⟨inText, -, got⟩ := Option.bind_eq_some_iff.mp got
      split at got
      · obtain ⟨text, -, got⟩ := Option.bind_eq_some_iff.mp got
        exact Option.some.inj got ▸ rfl
      · exact Option.some.inj got ▸ rfl
  · exact Option.some.inj got ▸ rfl

theorem getVitals_id {newResult result : PolledResult α} {prevResult : Option (PolledResult α)}
    (got : getVitals float64 newResult prevResult = some result) : result.id = newResult.id := by
  unfold getVitals at got
  dsimp only at got
  split at got
  · exact Option.some.inj got ▸ rfl
  · exact Option.some.inj got ▸ rfl
  · split at got
    · exact Option.some.inj got ▸ rfl
    · have same := getNetVitals_id float64 got
      exact same

end TrafficControl.TrafficMonitor
