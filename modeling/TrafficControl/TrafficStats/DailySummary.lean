import TrafficControl.Lib.Calendar
import TrafficControl.Lib.Runs

set_option autoImplicit false

-- The daily summaries of Traffic Stats, over the ticks and the configuration refreshes of its main loop.
namespace TrafficStats

open Calendar Runs

/-- An instant in nanoseconds since 1970, and how far the clocks of the zone that it is told in are ahead of UTC. -/
structure Time where
  instant : Int
  offset : Int

def hour : Int := 3600000000000

def utcDay (instant : Int) : Int := instant / (24 * hour)

-- Day 719162 after the first of January of the year 1 is the first one of 1970.
def Time.day (t : Time) : Nat := dayOfMonth (utcDay (t.instant + t.offset) + 719162)

-- The first of January of the year 1.
def zeroTime : Time := ⟨-719162 * (24 * hour), 0⟩

def truncate (instant d : Int) : Int := instant - instant % d

structure Summary where
  now : Int
  startTime : Int
  endTime : Int
  deriving DecidableEq

def summarize (now : Int) : Summary :=
  let startTime := truncate now (24 * hour) + -24 * hour
  ⟨now, startTime, startTime + 24 * hour⟩

def calcDailySummary (now : Time) (connected : Bool) (lastSummaryTime : Time) : Option Summary :=
  if lastSummaryTime.day ≠ now.day then
    if connected then some (summarize now.instant) else none
  else none

structure State where
  clock : Int
  -- what the last refresh brought
  lastSummaryTime : Time
  -- what Traffic Ops reports
  recorded : Option Time
  -- the last one first
  summaries : List Summary

/-- A tick comes with what its summary is stored as, and a refresh with whether Traffic Ops answers the question for the
last summary. -/
inductive Event where
  | tick (now : Time) (connected : Bool) (stored : Option Time)
  | refresh (answered : Bool)

def latest : Option Time → Option Time → Option Time
  | some recorded, some stored => some (if recorded.instant ≤ stored.instant then stored else recorded)
  | recorded, none => recorded
  | none, stored => stored

/-- The time of a tick is not before that of the tick before. -/
def step (s : State) : Event → Option State
  | .tick now connected stored =>
    if now.instant < s.clock then none
    else match calcDailySummary now connected s.lastSummaryTime with
      | some summary => some
        { s with clock := now.instant, recorded := latest s.recorded stored, summaries := summary :: s.summaries }
      | none => some { s with clock := now.instant }
  | .refresh answered =>
    some { s with lastSummaryTime := (if answered then s.recorded else none).getD zeroTime }

/-- The process starts with the last summary of another one before it, if there is one. -/
def start (clock : Int) (lastSummaryTime : Time) (last : Option { instant : Int // instant ≤ clock }) : State where
  clock := clock
  lastSummaryTime := lastSummaryTime
  recorded := some lastSummaryTime
  summaries := (last.map fun instant => summarize instant.val).toList

def Once (s : State) : Prop := (s.summaries.map fun summary => (summary.startTime, summary.endTime)).Nodup

/-- On a day after that of the last summary, a tick computes the summary of exactly the day before its own. -/
def Prompt (s : State) : Event → Prop
  | .tick now connected _ => ∀ last, s.summaries.head? = some last → s.clock ≤ now.instant →
      utcDay last.now < utcDay now.instant → calcDailySummary now connected s.lastSummaryTime =
        some ⟨now.instant, (utcDay now.instant - 1) * (24 * hour), utcDay now.instant * (24 * hour)⟩
  | .refresh _ => True

def OnceADay (s : State) (events : List Event) : Prop := Always step Once s events ∧ Throughout step Prompt s events

/-- The days of the month that are compared differ, and the database answers, exactly when the last summary is of another
UTC day. -/
def InStep (s : State) : Event → Prop
  | .tick now connected _ => ∀ last, s.summaries.head? = some last → s.clock ≤ now.instant →
      (s.lastSummaryTime.day ≠ now.day ∧ connected = true ↔ utcDay last.now ≠ utcDay now.instant)
  | .refresh _ => True

section Summaries

variable {now : Time} {connected : Bool} {lastSummaryTime : Time}

theorem summarize_eq (now : Int) : summarize now = ⟨now, (utcDay now - 1) * (24 * hour), utcDay now * (24 * hour)⟩ := by
  have startTime : truncate now (24 * hour) + -24 * hour = (utcDay now - 1) * (24 * hour) := by
    unfold truncate utcDay hour
    omega
  have endTime : (utcDay now - 1) * (24 * hour) + 24 * hour = utcDay now * (24 * hour) := by
    unfold hour
    omega
  unfold summarize
  dsimp only
  rw [startTime, endTime]

theorem calcDailySummary_some : calcDailySummary now connected lastSummaryTime = some (summarize now.instant) ↔
    lastSummaryTime.day ≠ now.day ∧ connected = true := by
  simp [calcDailySummary]

theorem calcDailySummary_cases (now : Time) (connected : Bool) (lastSummaryTime : Time) :
    calcDailySummary now connected lastSummaryTime = some (summarize now.instant) ∨
      calcDailySummary now connected lastSummaryTime = none := by
  unfold calcDailySummary
  split
  · cases connected <;> simp
  · simp

end Summaries

section Steps

/-- Every summary is of its time, and the list goes back in time. -/
structure Ordered (s : State) : Prop where
  own : ∀ summary ∈ s.summaries, summary = summarize summary.now
  past : ∀ summary ∈ s.summaries, summary.now ≤ s.clock
  sorted : s.summaries.Pairwise fun later earlier => earlier.now ≤ later.now

variable {s s' : State} {now : Time} {connected : Bool} {stored : Option Time}

theorem step_tick (stepped : step s (.tick now connected stored) = some s') : s.clock ≤ now.instant ∧ s'.clock = now.instant ∧
    (calcDailySummary now connected s.lastSummaryTime = some (summarize now.instant) ∧
        s'.summaries = summarize now.instant :: s.summaries ∨
      calcDailySummary now connected s.lastSummaryTime = none ∧ s'.summaries = s.summaries) := by
  unfold step at stepped
  dsimp only at stepped
  split at stepped
  · cases stepped
  · next onTime =>
    rcases calcDailySummary_cases now connected s.lastSummaryTime with computed | skipped
    · rw [computed] at stepped
      cases stepped
      exact ⟨Int.not_lt.mp onTime, rfl, Or.inl ⟨computed, rfl⟩⟩
    · rw [skipped] at stepped
      cases stepped
      exact ⟨Int.not_lt.mp onTime, rfl, Or.inr ⟨skipped, rfl⟩⟩

theorem step_refresh {answered : Bool} (stepped : step s (.refresh answered) = some s') :
    s'.clock = s.clock ∧ s'.summaries = s.summaries := by
  cases stepped
  exact ⟨rfl, rfl⟩

theorem step_ordered {event : Event} (ordered : Ordered s) (stepped : step s event = some s') : Ordered s' := by
  obtain ⟨own, past, sorted⟩ := ordered
  cases event with
  | refresh answered =>
    cases stepped
    exact ⟨own, past, sorted⟩
  | tick now connected stored =>
    obtain ⟨onTime, clock, ⟨_, summaries⟩ | ⟨_, summaries⟩⟩ := step_tick stepped
    · refine ⟨?_, ?_, ?_⟩ <;> rw [summaries]
      · exact List.forall_mem_cons.mpr ⟨rfl, own⟩
      · rw [clock]
        refine List.forall_mem_cons.mpr ⟨Int.le_refl _, fun summary member => ?_⟩
        exact Int.le_trans (past summary member) onTime
      · refine List.pairwise_cons.mpr ⟨fun summary member => ?_, sorted⟩
        exact Int.le_trans (past summary member) onTime
    · refine ⟨?_, ?_, ?_⟩ <;> rw [summaries]
      · exact own
      · rw [clock]
        exact fun summary member => Int.le_trans (past summary member) onTime
      · exact sorted

theorem start_ordered (clock : Int) (lastSummaryTime : Time) (last : Option { instant : Int // instant ≤ clock }) :
    Ordered (start clock lastSummaryTime last) := by
  cases last with
  | none => exact ⟨by simp [start], by simp [start], by simp [start]⟩
  | some instant => exact ⟨by simp [start, summarize], by simp [start, summarize, instant.property], by simp [start]⟩

theorem start_once (clock : Int) (lastSummaryTime : Time) (last : Option { instant : Int // instant ≤ clock }) :
    Once (start clock lastSummaryTime last) := by
  cases last <;> simp [Once, start]

theorem interval_eq_iff {summary : Summary} (own : summary = summarize summary.now) (now : Int) :
    (summary.startTime, summary.endTime) = ((summarize now).startTime, (summarize now).endTime) ↔
      utcDay summary.now = utcDay now := by
  obtain ⟨start, finish⟩ : summary.startTime = (utcDay summary.now - 1) * (24 * hour) ∧
      summary.endTime = utcDay summary.now * (24 * hour) := by
    rw [own, summarize_eq]
    exact ⟨rfl, rfl⟩
  rw [start, finish, summarize_eq, Prod.mk.injEq]
  unfold hour
  dsimp only
  omega

/-- A tick repeats a summary exactly when it computes one on the day of the last. -/
def Repeats (s : State) : Event → Prop
  | .tick now connected _ => ∃ last, s.summaries.head? = some last ∧ s.clock ≤ now.instant ∧
      utcDay last.now = utcDay now.instant ∧ s.lastSummaryTime.day ≠ now.day ∧ connected = true
  | .refresh _ => False

theorem repeated_iff (ordered : Ordered s) {now : Int} (onTime : s.clock ≤ now) :
    (∃ summary ∈ s.summaries, utcDay summary.now = utcDay now) ↔
      ∃ last, s.summaries.head? = some last ∧ utcDay last.now = utcDay now := by
  obtain ⟨_, past, sorted⟩ := ordered
  cases summaries : s.summaries with
  | nil => simp
  | cons last earlier =>
    rw [summaries] at past sorted
    have newest := past last List.mem_cons_self
    simp only [List.head?_cons, Option.some.injEq, exists_eq_left']
    constructor
    · rintro ⟨summary, member, same⟩
      rcases List.mem_cons.mp member with rfl | earlier
      · exact same
      · have older := List.rel_of_pairwise_cons sorted earlier
        unfold utcDay hour at same ⊢
        omega
    · exact fun same => ⟨last, List.mem_cons_self, same⟩

theorem step_once_iff {event : Event} (ordered : Ordered s) (once : Once s) (stepped : step s event = some s') :
    Once s' ↔ ¬ Repeats s event := by
  cases event with
  | refresh answered =>
    cases stepped
    exact iff_of_true once id
  | tick now connected stored =>
    obtain ⟨onTime, _, ⟨computed, summaries⟩ | ⟨skipped, summaries⟩⟩ := step_tick stepped
    · have decided := calcDailySummary_some.mp computed
      have fresh : Once s' ↔ ¬ ∃ summary ∈ s.summaries, utcDay summary.now = utcDay now.instant := by
        unfold Once at once ⊢
        rw [summaries, List.map_cons, List.nodup_cons, and_iff_left once, List.mem_map]
        refine not_congr (exists_congr fun summary => and_congr_right fun member => ?_)
        exact interval_eq_iff (ordered.own summary member) now.instant
      rw [fresh, repeated_iff ordered onTime]
      simp [Repeats, onTime, decided]
    · have undecided : ¬ (s.lastSummaryTime.day ≠ now.day ∧ connected = true) := by
        rw [← calcDailySummary_some, skipped]
        exact nofun
      have same : Once s' ↔ Once s := by rw [Once, Once, summaries]
      exact iff_of_true (same.mpr once) fun ⟨_, _, _, _, decided⟩ => undecided decided

theorem inStep_iff {event : Event} (ordered : Ordered s) : InStep s event ↔ ¬ Repeats s event ∧ Prompt s event := by
  cases event with
  | refresh answered => simp [InStep, Repeats, Prompt]
  | tick now connected stored =>
    simp only [InStep, Repeats, Prompt, ← summarize_eq, calcDailySummary_some]
    constructor
    · intro inStep
      refine ⟨fun ⟨last, newest, onTime, same, decided⟩ => (inStep last newest onTime).mp decided same, ?_⟩
      intro last newest onTime later
      exact (inStep last newest onTime).mpr (Int.ne_of_lt later)
    · rintro ⟨unrepeated, prompt⟩ last newest onTime
      constructor
      · exact fun decided same => unrepeated ⟨last, newest, onTime, same, decided⟩
      · intro other
        have before := ordered.past last (List.mem_of_head? newest)
        apply prompt last newest onTime
        unfold utcDay hour at other ⊢
        omega

end Steps

/-- In a run there is one summary a day exactly when all of its ticks are in step. -/
theorem onceADay_iff (clock : Int) (lastSummaryTime : Time) (last : Option { instant : Int // instant ≤ clock })
    (events : List Event) : OnceADay (start clock lastSummaryTime last) events ↔
      Throughout step InStep (start clock lastSummaryTime last) events := by
  have ordered := start_ordered clock lastSummaryTime last
  have kept : ∀ s event s', Ordered s → step s event = some s' → Ordered s' := fun _ _ _ => step_ordered
  have unrepeated : Always step Once (start clock lastSummaryTime last) events ↔
      Throughout step (fun s event => ¬ Repeats s event) (start clock lastSummaryTime last) events := by
    refine always_iff_throughout kept (fun _ _ _ => step_once_iff) ?_ ordered (start_once clock lastSummaryTime last) events
    intro s event blocked repeats
    cases event with
    | refresh answered => exact repeats
    | tick now connected stored =>
      obtain ⟨_, _, onTime, _⟩ := repeats
      rw [step, if_neg (Int.not_lt.mpr onTime)] at blocked
      split at blocked <;> cases blocked
  rw [OnceADay, unrepeated, ← throughout_and]
  exact throughout_iff kept (fun _ _ ordered => (inStep_iff ordered).symm) ordered events

/-- What keeps a tick in step: all clocks are on UTC, the last refresh came after the last summary, which was stored on its
own day, less than four weeks have gone by, and the database answers. -/
def Timely (s : State) : Event → Prop
  | .tick now connected _ => ∀ last, s.summaries.head? = some last → s.clock ≤ now.instant →
      now.offset = 0 ∧ s.lastSummaryTime.offset = 0 ∧ utcDay s.lastSummaryTime.instant = utcDay last.now ∧
        utcDay now.instant < utcDay last.now + 28 ∧ connected = true
  | .refresh _ => True

theorem inStep_of_timely {s : State} {event : Event} (ordered : Ordered s) (timely : Timely s event) : InStep s event := by
  cases event with
  | refresh answered => trivial
  | tick now connected stored =>
    intro last newest onTime
    obtain ⟨ticked, reported, stored, soon, connected⟩ := timely last newest onTime
    have before := ordered.past last (List.mem_of_head? newest)
    have later : utcDay last.now ≤ utcDay now.instant := Int.ediv_le_ediv (by decide) (Int.le_trans before onTime)
    rw [Time.day, Time.day, ticked, reported, Int.add_zero, Int.add_zero, stored, and_iff_left connected]
    refine not_congr ⟨fun same => ?_, fun same => by rw [same]⟩
    rcases Int.lt_or_eq_of_le later with earlier | equal
    · exact absurd same.symm (dayOfMonth_ne (by omega) (by omega))
    · exact equal

theorem onceADay_of_timely {clock : Int} {lastSummaryTime : Time} {last : Option { instant : Int // instant ≤ clock }}
    {events : List Event} (timely : Throughout step Timely (start clock lastSummaryTime last) events) :
    OnceADay (start clock lastSummaryTime last) events := by
  have ordered := start_ordered clock lastSummaryTime last
  have kept : ∀ s event s', Ordered s → step s event = some s' → Ordered s' := fun _ _ _ => step_ordered
  have agree : ∀ s event, Ordered s → (Timely s event ↔ Timely s event ∧ InStep s event) := fun _ _ ordered =>
    ⟨fun timely => ⟨timely, inStep_of_timely ordered timely⟩, And.left⟩
  have both := (throughout_iff kept agree ordered events).mp timely
  exact (onceADay_iff clock lastSummaryTime last events).mpr (throughout_and.mp both).2

-- Seconds of the second of January 2018.
def newYear (seconds : Int) : Time := ⟨(17533 * 86400 + seconds) * 1000000000, 0⟩

/-- Two ticks a minute apart at the beginning of a day, with no refresh between them, compute one summary twice. -/
theorem not_onceADay : ¬ OnceADay (start (newYear (-86370)).instant (newYear (-86370)) (some ⟨_, Int.le_refl _⟩))
    [.tick (newYear 10) true (some (newYear 12)), .tick (newYear 70) true (some (newYear 72))] := by
  intro onceADay
  have first : step (start (newYear (-86370)).instant (newYear (-86370)) (some ⟨_, Int.le_refl _⟩))
      (.tick (newYear 10) true (some (newYear 12))) = some ⟨(newYear 10).instant, newYear (-86370), some (newYear 12),
        [summarize (newYear 10).instant, summarize (newYear (-86370)).instant]⟩ := by
    rfl
  have twice := (onceADay.1.2 _ first).2 _ rfl
  unfold Always Once at twice
  exact absurd twice (by decide)

end TrafficStats
