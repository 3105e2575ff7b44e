import Mathlib.Logic.Function.Basic
import TrafficControl.TrafficMonitor.ToWrap.CRConfigHistory

set_option autoImplicit false

namespace TrafficControl.TrafficMonitor

open Runs

structure ByteTime where
  bytes : String
  time : Int
  stats : CRConfigStats

-- What Traffic Ops answers, and what `json.Unmarshal` makes of it.
structure CRConfigResponse where
  bytes : String
  err : Option String
  stats : Except String CRConfigStats

/-- How far a call of `CRConfigRaw` is. One that dereferences nil does not return. -/
inductive CRConfigCall where
  | waiting
  | received (bytes : String) (stats : CRConfigStats)
  | valid (bytes : String) (stats : CRConfigStats)
  | returned (bytes : String) (err : Option String)
  | panicked

-- The last CRConfig of the CDN is nil until one is set.
structure CRConfigSession where
  lastCRConfig : Option ByteTime
  calls : Nat → CRConfigCall

inductive CRConfigEvent where
  | receive (call : Nat) (response : CRConfigResponse)
  | validate (call : Nat)
  | set (call : Nat) (now : Int)

namespace CRConfigSession

def new : CRConfigSession := ⟨none, fun _ => .waiting⟩

def received (response : CRConfigResponse) : CRConfigCall :=
  match response.err, response.stats with
  | some err, _ => .returned response.bytes (some err)
  | none, .error err => .returned response.bytes (some ("invalid JSON: " ++ err))
  | none, .ok stats => .received response.bytes stats

-- `format` is that of a time with `time.RFC3339Nano`.
variable (format : Int → String)

def crConfigValid (last : Option ByteTime) (crc : CRConfigStats) : Option (Option String) :=
  match last with
  | none => some none
  | some last =>
    match last.stats.dateUnixSeconds with
    | none => some none
    | some lastDate => do
      let lastCDN ← last.stats.cdnName
      let cdn ← crc.cdnName
      if lastCDN ≠ cdn then
        return some ("CRConfig.Stats.CDN " ++ cdn ++ " different than last received CRConfig.Stats.CDNName " ++ lastCDN ++
          " received at " ++ format last.time)
      match crc.dateUnixSeconds with
      | none => return some "CRConfig.Stats.Date missing"
      | some date =>
        if date < lastDate then
          return some ("CRConfig.Stats.Date " ++ toString date ++ " older than last received CRConfig.Stats.Date " ++
            toString lastDate ++ " received at " ++ format last.time)
        return none

def validated (last : Option ByteTime) (bytes : String) (crc : CRConfigStats) : CRConfigCall :=
  match crConfigValid format last crc with
  | none => .panicked
  | some (some err) => .returned bytes (some ("invalid CRConfig: " ++ err))
  | some none => .valid bytes crc

-- Reading the last CRConfig and setting it are two critical sections.
def step (s : CRConfigSession) (event : CRConfigEvent) : Option CRConfigSession :=
  match event with
  | .receive call response =>
    match s.calls call with
    | .waiting => some { s with calls := Function.update s.calls call (received response) }
    | _ => none
  | .validate call =>
    match s.calls call with
    | .received bytes crc =>
      some { s with calls := Function.update s.calls call (validated format s.lastCRConfig bytes crc) }
    | _ => none
  | .set call now =>
    match s.calls call with
    | .valid bytes crc => some ⟨some ⟨bytes, now, crc⟩, Function.update s.calls call (.returned bytes none)⟩
    | _ => none

theorem step_cases {s s' : CRConfigSession} {event : CRConfigEvent} (stepped : step format s event = some s') :
    (∃ call response, event = .receive call response ∧ s.calls call = .waiting ∧
      s' = { s with calls := Function.update s.calls call (received response) }) ∨
    (∃ call bytes crc, event = .validate call ∧ s.calls call = .received bytes crc ∧
      s' = { s with calls := Function.update s.calls call (validated format s.lastCRConfig bytes crc) }) ∨
    ∃ call now bytes crc, event = .set call now ∧ s.calls call = .valid bytes crc ∧
      s' = ⟨some ⟨bytes, now, crc⟩, Function.update s.calls call (.returned bytes none)⟩ := by
  cases event with
  | receive call response =>
    simp only [step] at stepped
    split at stepped
    · next waiting => exact Or.inl ⟨call, response, rfl, waiting, (Option.some.inj stepped).symm⟩
    · cases stepped
  | validate call =>
    simp only [step] at stepped
    split at stepped
    · next bytes crc received => exact Or.inr (Or.inl ⟨call, bytes, crc, rfl, received, (Option.some.inj stepped).symm⟩)
    · cases stepped
  | set call now =>
    simp only [step] at stepped
    split at stepped
    · next bytes crc valid => exact Or.inr (Or.inr ⟨call, now, bytes, crc, rfl, valid, (Option.some.inj stepped).symm⟩)
    · cases stepped

/-- Both have a date, and the first is not the older one. -/
def NotOlder (crc past : CRConfigStats) : Prop :=
  ∃ date pastDate, crc.dateUnixSeconds = some date ∧ past.dateUnixSeconds = some pastDate ∧ pastDate ≤ date

/-- What is stored at some time is not older than what was stored before. -/
def NeverDecreases (events : List CRConfigEvent) : Prop :=
  ∀ past between future, events = past ++ between ++ future →
    ∀ s t, run (step format) new past = some s → run (step format) s between = some t →
      ∀ last, s.lastCRConfig = some last → ∃ next, t.lastCRConfig = some next ∧ NotOlder next.stats last.stats

-- The response has a date, if it is a CRConfig at all.
def Dated : CRConfigEvent → Prop
  | .receive _ response => ∀ crc, response.stats = .ok crc → crc.dateUnixSeconds.isSome
  | _ => True

/-- When a call sets its CRConfig, no other one that has passed the check is about to set an older one. -/
def Unchallenged (s : CRConfigSession) : CRConfigEvent → Prop
  | .set call _ => ∀ bytes crc, s.calls call = .valid bytes crc → ∀ other otherBytes otherCrc, other ≠ call →
      s.calls other = .valid otherBytes otherCrc → NotOlder otherCrc crc
  | _ => True

theorem notOlder_refl {crc : CRConfigStats} (dated : crc.dateUnixSeconds.isSome) : NotOlder crc crc := by
  obtain ⟨date, present⟩ := Option.isSome_iff_exists.mp dated
  exact ⟨date, date, present, present, Int.le_refl _⟩

theorem NotOlder.trans {newest newer crc : CRConfigStats} (last : NotOlder newest newer) (first : NotOlder newer crc) :
    NotOlder newest crc := by
  obtain ⟨date, middle, newest, newer, late⟩ := last
  obtain ⟨middle', past, newer', crc, early⟩ := first
  obtain rfl := Option.some.inj (newer.symm.trans newer')
  exact ⟨date, past, newest, crc, Int.le_trans early late⟩

theorem notOlder_of_valid {last : ByteTime} {crc : CRConfigStats} (lastDated : last.stats.dateUnixSeconds.isSome)
    (dated : crc.dateUnixSeconds.isSome) (valid : crConfigValid format (some last) crc = some none) :
    NotOlder crc last.stats := by
  obtain ⟨lastDate, lastPresent⟩ := Option.isSome_iff_exists.mp lastDated
  obtain ⟨date, present⟩ := Option.isSome_iff_exists.mp dated
  simp only [crConfigValid, lastPresent, present, Option.bind_eq_bind, Option.bind_eq_some_iff] at valid
  obtain ⟨lastCDN, -, cdn, -, valid⟩ := valid
  split_ifs at valid with apart older
  · simp at valid
  · simp at valid
  · exact ⟨date, lastDate, present, lastPresent, by omega⟩

-- A call that has passed the check has not been overtaken.
def CallInOrder (last : Option ByteTime) : CRConfigCall → Prop
  | .received _ crc => crc.dateUnixSeconds.isSome
  | .valid _ crc => crc.dateUnixSeconds.isSome ∧ ∀ stored, last = some stored → NotOlder crc stored.stats
  | _ => True

structure InOrder (s : CRConfigSession) : Prop where
  stored : ∀ last, s.lastCRConfig = some last → last.stats.dateUnixSeconds.isSome
  calls : ∀ call, CallInOrder s.lastCRConfig (s.calls call)

theorem inOrder_new : InOrder new :=
  ⟨fun _ stored => absurd stored nofun, fun _ => trivial⟩

theorem callInOrder_received {response : CRConfigResponse} {call : Nat} (dated : Dated (.receive call response))
    (last : Option ByteTime) : CallInOrder last (received response) := by
  unfold received
  split
  · trivial
  · trivial
  · next crc _ parsed => exact dated crc parsed

theorem callInOrder_validated {last : Option ByteTime} (stored : ∀ l, last = some l → l.stats.dateUnixSeconds.isSome)
    {crc : CRConfigStats} (dated : crc.dateUnixSeconds.isSome) (bytes : String) :
    CallInOrder last (validated format last bytes crc) := by
  unfold validated
  split
  · trivial
  · trivial
  · next valid =>
    refine ⟨dated, ?_⟩
    rintro l rfl
    exact notOlder_of_valid format (stored l rfl) dated valid

theorem inOrder_step {s s' : CRConfigSession} {event : CRConfigEvent} (order : InOrder s) (dated : Dated event)
    (unchallenged : Unchallenged s event) (stepped : step format s event = some s') :
    InOrder s' ∧ ∀ last, s.lastCRConfig = some last → ∃ next, s'.lastCRConfig = some next ∧ NotOlder next.stats last.stats := by
  have same : ∀ last, s.lastCRConfig = some last → ∃ next, s.lastCRConfig = some next ∧ NotOlder next.stats last.stats :=
    fun last stored => ⟨last, stored, notOlder_refl (order.stored last stored)⟩
  obtain ⟨call, response, rfl, -, rfl⟩ | ⟨call, bytes, crc, rfl, waiting, rfl⟩ | ⟨call, now, bytes, crc, rfl, checked, rfl⟩ :=
    step_cases format stepped
  · refine ⟨⟨order.stored, ?_⟩, same⟩
    exact (Function.forall_update_iff _ fun _ => CallInOrder s.lastCRConfig).mpr
      ⟨callInOrder_received dated _, fun other _ => order.calls other⟩
  · refine ⟨⟨order.stored, ?_⟩, same⟩
    have crcDated := order.calls call
    rw [waiting] at crcDated
    exact (Function.forall_update_iff _ fun _ => CallInOrder s.lastCRConfig).mpr
      ⟨callInOrder_validated format order.stored crcDated bytes, fun other _ => order.calls other⟩
  · have own := order.calls call
    rw [checked] at own
    refine ⟨⟨?_, ?_⟩, fun last stored => ⟨_, rfl, own.2 last stored⟩⟩
    · rintro last stored
      obtain rfl := Option.some.inj stored
      exact own.1
    · refine (Function.forall_update_iff _ fun _ => CallInOrder _).mpr ⟨trivial, fun other apart => ?_⟩
      have there := order.calls other
      cases phase : s.calls other with
      | waiting => trivial
      | received otherBytes otherCrc =>
        rw [phase] at there
        exact there
      | valid otherBytes otherCrc =>
        rw [phase] at there
        refine ⟨there.1, fun stored now => ?_⟩
        obtain rfl := Option.some.inj now
        exact unchallenged bytes crc checked other otherBytes otherCrc apart phase
      | returned _ _ => trivial
      | panicked => trivial

theorem inOrder_run {s t : CRConfigSession} {events : List CRConfigEvent} (order : InOrder s)
    (dated : ∀ event ∈ events, Dated event) (unchallenged : Throughout (step format) Unchallenged s events)
    (ran : run (step format) s events = some t) :
    InOrder t ∧ ∀ last, s.lastCRConfig = some last → ∃ next, t.lastCRConfig = some next ∧ NotOlder next.stats last.stats := by
  induction events generalizing s with
  | nil =>
    obtain rfl := Option.some.inj ran
    exact ⟨order, fun last stored => ⟨last, stored, notOlder_refl (order.stored last stored)⟩⟩
  | cons event events ih =>
    obtain ⟨s', stepped, rest⟩ := run_cons ran
    obtain ⟨order', kept⟩ := inOrder_step format order (dated event List.mem_cons_self) unchallenged.1 stepped
    obtain ⟨ordered, later⟩ := ih order' (fun e member => dated e (List.mem_cons_of_mem _ member))
      (unchallenged.2 s' stepped) rest
    refine ⟨ordered, fun last stored => ?_⟩
    obtain ⟨middle, there, first⟩ := kept last stored
    obtain ⟨next, here, second⟩ := later middle there
    exact ⟨next, here, second.trans first⟩

theorem neverDecreases_of_unchallenged {events : List CRConfigEvent} (dated : ∀ event ∈ events, Dated event)
    (unchallenged : Throughout (step format) Unchallenged new events) : NeverDecreases format events := by
  rintro past between future rfl s t before ran
  obtain ⟨early, -⟩ := throughout_append.mp unchallenged
  obtain ⟨first, second⟩ := throughout_append.mp early
  obtain ⟨order, -⟩ := inOrder_run format inOrder_new (fun event member => dated event (by simp [member])) first before
  exact (inOrder_run format order (fun event member => dated event (by simp [member])) (second s before) ran).2

theorem valid_kept {s s' : CRConfigSession} {event : CRConfigEvent} {call : Nat} {bytes : String} {crc : CRConfigStats}
    (checked : s.calls call = .valid bytes crc) (stepped : step format s event = some s') :
    s'.calls call = .valid bytes crc ∨ ∃ now, event = .set call now := by
  obtain ⟨other, response, rfl, waiting, rfl⟩ | ⟨other, _, _, rfl, received, rfl⟩ | ⟨other, now, _, _, rfl, -, rfl⟩ :=
    step_cases format stepped
  · have apart : call ≠ other := by
      rintro rfl
      cases waiting.symm.trans checked
    exact Or.inl (by simpa [apart] using checked)
  · have apart : call ≠ other := by
      rintro rfl
      cases received.symm.trans checked
    exact Or.inl (by simpa [apart] using checked)
  · by_cases own : call = other
    · exact Or.inr ⟨now, by rw [own]⟩
    · exact Or.inl (by simpa [own] using checked)

/-- A call that has passed the check ends by setting its CRConfig. -/
theorem set_of_valid {s t : CRConfigSession} {events : List CRConfigEvent} {call : Nat} {bytes : String} {crc : CRConfigStats}
    (checked : s.calls call = .valid bytes crc) (ran : run (step format) s events = some t)
    (finished : t.calls call ≠ .valid bytes crc) : ∃ between now future u, events = between ++ .set call now :: future ∧
      run (step format) s between = some u ∧ u.calls call = .valid bytes crc := by
  induction events generalizing s with
  | nil =>
    obtain rfl := Option.some.inj ran
    exact absurd checked finished
  | cons event events ih =>
    obtain ⟨s', stepped, rest⟩ := run_cons ran
    rcases valid_kept format checked stepped with still | ⟨now, rfl⟩
    · obtain ⟨between, now, future, u, rfl, before, there⟩ := ih still rest
      exact ⟨event :: between, now, future, u, rfl, by rw [run, stepped]; exact before, there⟩
    · exact ⟨[], now, events, s, rfl, rfl, checked⟩

theorem unchallenged_of_neverDecreases {events : List CRConfigEvent} {t : CRConfigSession}
    (ran : run (step format) new events = some t) (finished : ∀ call bytes crc, t.calls call ≠ .valid bytes crc)
    (kept : NeverDecreases format events) : Throughout (step format) Unchallenged new events := by
  refine throughout_of_splits ?_
  rintro past event future rfl s before
  rw [run_append, before] at ran
  obtain ⟨s', stepped, rest⟩ := run_cons ran
  cases event with
  | receive _ _ => trivial
  | validate _ => trivial
  | set call now =>
    intro bytes crc checked other otherBytes otherCrc apart phase
    have after : run (step format) new (past ++ [.set call now]) = some s' := by
      rw [run_append, before]
      simp [run, stepped]
    obtain ⟨held, still⟩ : s'.lastCRConfig = some ⟨bytes, now, crc⟩ ∧ s'.calls other = .valid otherBytes otherCrc := by
      simp only [step, checked] at stepped
      obtain rfl := Option.some.inj stepped
      exact ⟨rfl, (Function.update_of_ne apart _ _).trans phase⟩
    obtain ⟨between, now', last, u, rfl, reached, there⟩ :=
      set_of_valid format still rest (finished other otherBytes otherCrc)
    obtain ⟨v, overtaken, stored⟩ : ∃ v, run (step format) s' (between ++ [.set other now']) = some v ∧
        v.lastCRConfig = some ⟨otherBytes, now', otherCrc⟩ := by
      rw [run_append, reached]
      simp only [Option.bind_some, run, step, there]
      exact ⟨_, rfl, rfl⟩
    obtain ⟨next, found, newer⟩ := kept (past ++ [.set call now]) (between ++ [.set other now']) last
      (by simp) s' v after overtaken _ held
    obtain rfl := Option.some.inj (stored.symm.trans found)
    exact newer

/-- The accepted CRConfig never goes back in time when each call that sets one is unchallenged, and where no
call is left between its check and its store, only then. -/
theorem neverDecreases_iff {events : List CRConfigEvent} (dated : ∀ event ∈ events, Dated event) :
    (Throughout (step format) Unchallenged new events → NeverDecreases format events) ∧
    ∀ t, run (step format) new events = some t → (∀ call bytes crc, t.calls call ≠ .valid bytes crc) →
      (NeverDecreases format events ↔ Throughout (step format) Unchallenged new events) :=
  ⟨neverDecreases_of_unchallenged format dated, fun _ ran finished =>
    ⟨unchallenged_of_neverDecreases format ran finished, neverDecreases_of_unchallenged format dated⟩⟩

section TwoCalls

def snapshot (date : Int) : CRConfigResponse := ⟨"\x7b\x7d", none, .ok ⟨some "over-the-top", some date⟩⟩

-- The second call is checked after the first one is done.
def oneByOne : List CRConfigEvent :=
  [.receive 0 (snapshot 100), .receive 1 (snapshot 200), .validate 0, .set 0 1, .validate 1, .set 1 2]

-- Both calls are checked before one is done.
def overtaking : List CRConfigEvent :=
  [.receive 0 (snapshot 100), .receive 1 (snapshot 200), .validate 0, .validate 1, .set 1 1, .set 0 2]

theorem neverDecreases_oneByOne : NeverDecreases toString oneByOne := by
  refine (neverDecreases_iff toString ?_).1 ?_
  · simp [oneByOne, Dated, snapshot]
  · refine ⟨trivial, fun _ stepped => ?_⟩
    obtain rfl := Option.some.inj stepped
    refine ⟨trivial, fun _ stepped => ?_⟩
    obtain rfl := Option.some.inj stepped
    refine ⟨trivial, fun _ stepped => ?_⟩
    obtain rfl := Option.some.inj stepped
    refine ⟨?_, fun _ stepped => ?_⟩
    · intro bytes crc checked other otherBytes otherCrc apart phase
      by_cases one : other = 1
      · subst one
        cases phase
      · simp [Function.update_of_ne, apart, one, new] at phase
    obtain rfl := Option.some.inj stepped
    refine ⟨trivial, fun _ stepped => ?_⟩
    obtain rfl := Option.some.inj stepped
    refine ⟨?_, fun _ _ => trivial⟩
    intro bytes crc checked other otherBytes otherCrc apart phase
    by_cases zero : other = 0
    · subst zero
      cases phase
    · simp [Function.update_of_ne, apart, zero, new] at phase

/-- The CRConfig that was checked first is set last, and replaces a newer one. -/
theorem overtaking_decreases : (∀ event ∈ overtaking, Dated event) ∧ ¬NeverDecreases toString overtaking := by
  refine ⟨by simp [overtaking, Dated, snapshot], fun kept => ?_⟩
  obtain ⟨next, stored, date, past, there, here, notOlder⟩ :=
    kept (overtaking.take 5) (overtaking.drop 5) [] rfl _ _ rfl rfl _ rfl
  obtain rfl := Option.some.inj stored
  obtain rfl := Option.some.inj there
  obtain rfl := Option.some.inj here
  exact absurd notOlder (by decide)

end TwoCalls

end CRConfigSession

end TrafficControl.TrafficMonitor
