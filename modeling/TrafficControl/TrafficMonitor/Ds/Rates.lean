import TrafficControl.Lib.DoubleText
import TrafficControl.Lib.MachineInt
import TrafficControl.Lib.Runs
import TrafficControl.TrafficMonitor.DsData.Data
import Mathlib.Algebra.Order.Field.Rat
import Mathlib.Algebra.Order.Field.Basic

set_option autoImplicit false

-- The rates that Traffic Monitor computes from one poll to the next.
namespace TrafficControl.TrafficMonitor.Ds

open DsData MachineInt Runs

section Code

variable {α : Type} (arith : Arith α)

/-- Whether there was an error comes with the data. -/
def addLastStat (lastData : LastStatData α) (newStat newStatTime : Int) : LastStatData α × Bool :=
  if lastData.time = newStatTime then (lastData, false)
  else if newStat < lastData.stat then ({ lastData with stat := newStat, time := newStatTime }, true)
  else if newStatTime < lastData.time then (lastData, true)
  else
    let perSec :=
      if lastData.stat ≠ 0 then
        arith.div (arith.ofInt (wrap 64 (newStat - lastData.stat))) (arith.seconds (newStatTime - lastData.time))
      else lastData.perSec
    ({ perSec := perSec, stat := newStat, time := newStatTime }, false)

def addLastStats (lastData : LastStatsData α) (newStats : StatCacheStats α) (newStatsTime : Int) :
    LastStatsData α × Bool :=
  let bytes := addLastStat arith lastData.bytes newStats.outBytes newStatsTime
  let status2xx := addLastStat arith lastData.status2xx newStats.status2xx newStatsTime
  let status3xx := addLastStat arith lastData.status3xx newStats.status3xx newStatsTime
  let status4xx := addLastStat arith lastData.status4xx newStats.status4xx newStatsTime
  let status5xx := addLastStat arith lastData.status5xx newStats.status5xx newStatsTime
  ({ bytes := bytes.1, status2xx := status2xx.1, status3xx := status3xx.1, status4xx := status4xx.1
     status5xx := status5xx.1 }, bytes.2 || status2xx.2 || status3xx.2 || status4xx.2 || status5xx.2)

def latestBytes (p : PrecomputedData α) : Int × Int := if p.outBytes = 0 then (0, 0) else (p.outBytes, p.time)

def lastCache (cacheName : String) (lastStats : LastStats α) : LastStatsData α :=
  (lastStats.caches.lookup cacheName).getD (.empty arith)

/-- An error leaves the stats as they were. -/
def addCachePerSecStats (cacheName : String) (lastStats : LastStats α) (precomputed : PrecomputedData α) : LastStats α :=
  let (outBytes, outBytesTime) := latestBytes precomputed
  let lastStat := lastCache arith cacheName lastStats
  match addLastStat arith lastStat.bytes outBytes outBytesTime with
  | (_, true) => lastStats
  | (bytes, false) => { lastStats with caches := lastStats.caches.insert cacheName { lastStat with bytes := bytes } }

end Code

theorem last_addLastStats {α : Type} (arith : Arith α) (c : Counter) (lastData : LastStatsData α)
    (newStats : StatCacheStats α) (t : Int) :
    c.last (addLastStats arith lastData newStats t).1 = (addLastStat arith (c.last lastData) (c.value newStats) t).1 := by
  cases c <;> rfl

/-- Exact numbers. -/
def exact : Arith Rat where
  zero := 0
  add := (· + ·)
  div := (· / ·)
  ofInt := fun n => n
  toInt := fun x => x.num.tdiv x.den
  seconds := fun d => d / 10 ^ 9
  less := fun x y => x < y
  print2 := DoubleText.decimals 2

structure Poll where
  value : Int
  time : Int

/-- What a poll should do to the record of a counter. -/
structure Law (last : LastStatData Rat) (poll : Poll) (next : LastStatData Rat) : Prop where
  nonneg : 0 ≤ next.perSec
  unchanged : poll.value = last.stat → next.perSec = last.perSec ∧ next.time = last.time
  larger : last.stat < poll.value → last.stat ≠ 0 →
    next = { perSec := (poll.value - last.stat) / ((poll.time - last.time) / 10 ^ 9), stat := poll.value, time := poll.time }
  smaller : poll.value < last.stat → next = { last with stat := poll.value, time := poll.time }

/-- A record after polls up to a time. -/
structure Recorded (last : LastStatData Rat) (clock : Int) : Prop where
  rate : 0 ≤ last.perSec
  nonneg : 0 ≤ last.stat
  time : last.time ≤ clock

/-- Polls at increasing times. -/
def Polls {ε : Type} (poll : ε → Poll) (valid : ε → Prop) : Int → List ε → Prop
  | _, [] => True
  | clock, event :: events => (clock < (poll event).time ∧ valid event) ∧ Polls poll valid (poll event).time events

section OnePoll

variable {last : LastStatData Rat} {clock : Int} {poll : Poll}

theorem addLastStat_smaller (recorded : Recorded last clock) (later : clock < poll.time) (smaller : poll.value < last.stat) :
    addLastStat exact last poll.value poll.time = ({ last with stat := poll.value, time := poll.time }, true) := by
  have bound := recorded.time
  have new : last.time ≠ poll.time := by omega
  rw [addLastStat, if_neg new, if_pos smaller]

theorem addLastStat_larger (recorded : Recorded last clock) (later : clock < poll.time) (notSmaller : last.stat ≤ poll.value)
    (fits : Fits 64 poll.value) : addLastStat exact last poll.value poll.time =
      ({ perSec := if last.stat ≠ 0 then (poll.value - last.stat) / ((poll.time - last.time) / 10 ^ 9) else last.perSec
         stat := poll.value, time := poll.time }, false) := by
  have bound := recorded.time
  have nonneg := recorded.nonneg
  have new : last.time ≠ poll.time := by omega
  have notBefore : ¬poll.time < last.time := by omega
  have whole : wrap 64 (poll.value - last.stat) = poll.value - last.stat := by
    refine wrap_eq ?_
    unfold Fits at fits ⊢
    omega
  rw [addLastStat, if_neg new, if_neg (Int.not_lt.mpr notSmaller), if_neg notBefore, whole]
  simp [exact]

theorem rate_nonneg (recorded : Recorded last clock) (later : clock < poll.time) (notSmaller : last.stat ≤ poll.value) :
    (0 : Rat) ≤ (poll.value - last.stat) / ((poll.time - last.time) / 10 ^ 9) := by
  have bound := recorded.time
  have values : (last.stat : Rat) ≤ poll.value := Int.cast_le.mpr notSmaller
  have times : (last.time : Rat) ≤ poll.time := Int.cast_le.mpr (by omega)
  exact div_nonneg (sub_nonneg.mpr values) (div_nonneg (sub_nonneg.mpr times) (by norm_num))

theorem addLastStat_recorded (recorded : Recorded last clock) (later : clock < poll.time) (nonneg : 0 ≤ poll.value)
    (fits : Fits 64 poll.value) : Recorded (addLastStat exact last poll.value poll.time).1 poll.time := by
  by_cases smaller : poll.value < last.stat
  · rw [addLastStat_smaller recorded later smaller]
    exact ⟨recorded.rate, nonneg, le_refl _⟩
  · have notSmaller := Int.not_lt.mp smaller
    rw [addLastStat_larger recorded later notSmaller fits]
    refine ⟨?_, nonneg, le_refl _⟩
    dsimp only
    split
    · exact rate_nonneg recorded later notSmaller
    · exact recorded.rate

/-- Only an unchanged value goes wrong: it is recorded as a change. -/
theorem addLastStat_law (recorded : Recorded last clock) (later : clock < poll.time) (nonneg : 0 ≤ poll.value)
    (fits : Fits 64 poll.value) : Law last poll (addLastStat exact last poll.value poll.time).1 ↔ poll.value ≠ last.stat := by
  constructor
  · intro law same
    have kept := (law.unchanged same).2
    rw [addLastStat_larger recorded later same.ge fits] at kept
    have bound := recorded.time
    dsimp only at kept
    omega
  · intro changed
    have rate := (addLastStat_recorded recorded later nonneg fits).rate
    refine ⟨rate, fun same => absurd same changed, fun larger nonzero => ?_, fun smaller => ?_⟩
    · rw [addLastStat_larger recorded later larger.le fits, if_pos nonzero]
    · rw [addLastStat_smaller recorded later smaller]

/-- The cache path does not store what comes with an error. -/
def storeOk (last : LastStatData Rat) (poll : Poll) : LastStatData Rat :=
  match addLastStat exact last poll.value poll.time with
  | (_, true) => last
  | (next, false) => next

theorem storeOk_smaller (recorded : Recorded last clock) (later : clock < poll.time) (smaller : poll.value < last.stat) :
    storeOk last poll = last := by
  rw [storeOk, addLastStat_smaller recorded later smaller]

theorem storeOk_larger (recorded : Recorded last clock) (later : clock < poll.time) (notSmaller : last.stat ≤ poll.value)
    (fits : Fits 64 poll.value) : storeOk last poll = (addLastStat exact last poll.value poll.time).1 := by
  rw [storeOk, addLastStat_larger recorded later notSmaller fits]

theorem storeOk_recorded (recorded : Recorded last clock) (later : clock < poll.time) (nonneg : 0 ≤ poll.value)
    (fits : Fits 64 poll.value) : Recorded (storeOk last poll) poll.time := by
  by_cases smaller : poll.value < last.stat
  · rw [storeOk_smaller recorded later smaller]
    have bound := recorded.time
    exact ⟨recorded.rate, recorded.nonneg, by omega⟩
  · rw [storeOk_larger recorded later (Int.not_lt.mp smaller) fits]
    exact addLastStat_recorded recorded later nonneg fits

/-- There a smaller value goes wrong too. -/
theorem storeOk_law (recorded : Recorded last clock) (later : clock < poll.time) (nonneg : 0 ≤ poll.value)
    (fits : Fits 64 poll.value) : Law last poll (storeOk last poll) ↔ last.stat < poll.value := by
  by_cases smaller : poll.value < last.stat
  · refine iff_of_false (fun law => ?_) (by omega)
    have stored := congrArg LastStatData.stat (law.smaller smaller)
    rw [storeOk_smaller recorded later smaller] at stored
    exact smaller.ne' stored
  · have notSmaller := Int.not_lt.mp smaller
    rw [storeOk_larger recorded later notSmaller fits, addLastStat_law recorded later nonneg fits]
    omega

end OnePoll

section Sequences

variable {σ ε : Type} (view : σ → LastStatData Rat) {next : σ → ε → σ} {poll : ε → Poll} {valid : ε → Prop}
  {rel : Int → Int → Prop}

/-- Where the law of one poll is a relation between the recorded value and the new one, the law of a sequence of polls is
that relation from each to the next. -/
theorem lawful_iff
    (kept : ∀ s e clock, Recorded (view s) clock → clock < (poll e).time → valid e →
      Recorded (view (next s e)) (poll e).time)
    (law : ∀ s e clock, Recorded (view s) clock → clock < (poll e).time → valid e →
      (Law (view s) (poll e) (view (next s e)) ↔ rel (view s).stat (poll e).value))
    (stored : ∀ s e clock, Recorded (view s) clock → clock < (poll e).time → valid e → rel (view s).stat (poll e).value →
      (view (next s e)).stat = (poll e).value)
    {s : σ} {clock : Int} (recorded : Recorded (view s) clock) {events : List ε} (polls : Polls poll valid clock events) :
    Throughout (fun s e => some (next s e)) (fun s e => Law (view s) (poll e) (view (next s e))) s events ↔
      List.IsChain rel ((view s).stat :: events.map fun e => (poll e).value) := by
  induction events generalizing s clock with
  | nil => exact iff_of_true trivial (List.IsChain.singleton _)
  | cons e events ih =>
    obtain ⟨⟨later, allowed⟩, polls⟩ := polls
    simp only [Throughout, Option.some.injEq, forall_eq', List.map_cons, List.isChain_cons_cons]
    rw [law s e clock recorded later allowed]
    refine and_congr_right fun related => ?_
    rw [ih (kept s e clock recorded later allowed) polls, stored s e clock recorded later allowed related]

end Sequences

section Paths

/-- The polls of a counter of a delivery service and a cache, whatever the other counters are. -/
def dsPoll (c : Counter) (event : StatCacheStats Rat × Int) : Poll := ⟨c.value event.1, event.2⟩

def cachePoll (event : PrecomputedData Rat) : Poll := ⟨event.outBytes, event.time⟩

def dsNext (s : LastStatsData Rat) (event : StatCacheStats Rat × Int) : LastStatsData Rat :=
  (addLastStats exact s event.1 event.2).1

/-- The law at every poll but the first, which finds no record. -/
def DsLawful (c : Counter) : List (StatCacheStats Rat × Int) → Prop
  | [] => True
  | first :: rest =>
    Throughout (fun s e => some (dsNext s e)) (fun s e => Law (c.last s) (dsPoll c e) (c.last (dsNext s e)))
      (dsNext (.empty exact) first) rest

def CacheLawful (cacheName : String) (start : LastStats Rat) : List (PrecomputedData Rat) → Prop
  | [] => True
  | first :: rest =>
    Throughout (fun s e => some (addCachePerSecStats exact cacheName s e))
      (fun s e => Law (lastCache exact cacheName s).bytes (cachePoll e)
        (lastCache exact cacheName (addCachePerSecStats exact cacheName s e)).bytes)
      (addCachePerSecStats exact cacheName start first) rest

theorem lastCache_addCachePerSecStats (cacheName : String) (s : LastStats Rat) {event : PrecomputedData Rat}
    (nonzero : event.outBytes ≠ 0) : (lastCache exact cacheName (addCachePerSecStats exact cacheName s event)).bytes =
      storeOk (lastCache exact cacheName s).bytes (cachePoll event) := by
  unfold addCachePerSecStats storeOk
  rw [latestBytes, if_neg nonzero]
  dsimp only [cachePoll]
  rcases addLastStat exact (lastCache exact cacheName s).bytes event.outBytes event.time with ⟨bytes, _ | _⟩
  · simp [lastCache]
  · rfl

theorem empty_recorded : Recorded (.empty exact) 0 := ⟨le_refl _, le_refl _, le_refl _⟩

theorem addLastStat_stat {last : LastStatData Rat} {clock : Int} {poll : Poll} (recorded : Recorded last clock)
    (later : clock < poll.time) (fits : Fits 64 poll.value) :
    (addLastStat exact last poll.value poll.time).1.stat = poll.value := by
  by_cases smaller : poll.value < last.stat
  · rw [addLastStat_smaller recorded later smaller]
  · rw [addLastStat_larger recorded later (Int.not_lt.mp smaller) fits]

theorem dsLawful_iff (c : Counter) {polls : List (StatCacheStats Rat × Int)}
    (polled : Polls (dsPoll c) (fun e => 0 ≤ c.value e.1 ∧ Fits 64 (c.value e.1)) 0 polls) :
    DsLawful c polls ↔ List.IsChain (· ≠ ·) (polls.map fun e => c.value e.1) := by
  cases polls with
  | nil => exact iff_of_true trivial .nil
  | cons first rest =>
    obtain ⟨⟨later, nonneg, fits⟩, polled⟩ := polled
    have next (s : LastStatsData Rat) (e : StatCacheStats Rat × Int) : c.last (dsNext s e) =
        (addLastStat exact (c.last s) (dsPoll c e).value (dsPoll c e).time).1 := last_addLastStats ..
    have empty : Recorded (c.last (.empty exact)) 0 := by cases c <;> exact empty_recorded
    have recorded : Recorded (c.last (dsNext (.empty exact) first)) first.2 := by
      rw [next]
      exact addLastStat_recorded empty later nonneg fits
    have start : (c.last (dsNext (.empty exact) first)).stat = c.value first.1 := by
      rw [next]
      exact addLastStat_stat empty later fits
    rw [List.map_cons, ← start]
    refine lawful_iff c.last ?_ ?_ ?_ recorded polled
    · intro s e clock recorded later ⟨nonneg, fits⟩
      rw [next]
      exact addLastStat_recorded recorded later nonneg fits
    · intro s e clock recorded later ⟨nonneg, fits⟩
      rw [next, addLastStat_law recorded later nonneg fits]
      exact ne_comm
    · intro s e clock recorded later ⟨_, fits⟩ _
      rw [next]
      exact addLastStat_stat recorded later fits

theorem cacheLawful_iff {cacheName : String} {start : LastStats Rat} (fresh : start.caches.lookup cacheName = none)
    {results : List (PrecomputedData Rat)}
    (precomputed : Polls cachePoll (fun e => 0 < e.outBytes ∧ Fits 64 e.outBytes) 0 results) :
    CacheLawful cacheName start results ↔ List.IsChain (· < ·) (results.map PrecomputedData.outBytes) := by
  cases results with
  | nil => exact iff_of_true trivial .nil
  | cons first rest =>
    obtain ⟨⟨later, positive, fits⟩, precomputed⟩ := precomputed
    have empty : Recorded (lastCache exact cacheName start).bytes 0 := by
      rw [lastCache, fresh]
      exact empty_recorded
    have grows : (lastCache exact cacheName start).bytes.stat < first.outBytes := by
      rw [lastCache, fresh]
      exact positive
    have recorded : Recorded (lastCache exact cacheName (addCachePerSecStats exact cacheName start first)).bytes first.time := by
      rw [lastCache_addCachePerSecStats _ _ positive.ne']
      exact storeOk_recorded empty later positive.le fits
    have started : (lastCache exact cacheName (addCachePerSecStats exact cacheName start first)).bytes.stat =
        first.outBytes := by
      rw [lastCache_addCachePerSecStats _ _ positive.ne', storeOk_larger empty later grows.le fits]
      exact addLastStat_stat empty later fits
    rw [List.map_cons, ← started]
    refine lawful_iff (fun s => (lastCache exact cacheName s).bytes) ?_ ?_ ?_ recorded precomputed
    · intro s e clock recorded later ⟨positive, fits⟩
      rw [lastCache_addCachePerSecStats _ _ positive.ne']
      exact storeOk_recorded recorded later positive.le fits
    · intro s e clock recorded later ⟨positive, fits⟩
      rw [lastCache_addCachePerSecStats _ _ positive.ne']
      exact storeOk_law recorded later positive.le fits
    · intro s e clock recorded later ⟨positive, fits⟩ grows
      rw [lastCache_addCachePerSecStats _ _ positive.ne', storeOk_larger recorded later grows.le fits]
      exact addLastStat_stat recorded later fits

/-- The rates follow the law exactly when the values never stay, and those of a cache when they always grow. -/
theorem rates_iff (c : Counter) {polls : List (StatCacheStats Rat × Int)}
    (polled : Polls (dsPoll c) (fun e => 0 ≤ c.value e.1 ∧ Fits 64 (c.value e.1)) 0 polls) {cacheName : String}
    {start : LastStats Rat} (fresh : start.caches.lookup cacheName = none) {results : List (PrecomputedData Rat)}
    (precomputed : Polls cachePoll (fun e => 0 < e.outBytes ∧ Fits 64 e.outBytes) 0 results) :
    (DsLawful c polls ↔ List.IsChain (· ≠ ·) (polls.map fun e => c.value e.1)) ∧
      (CacheLawful cacheName start results ↔ List.IsChain (· < ·) (results.map PrecomputedData.outBytes)) :=
  ⟨dsLawful_iff c polled, cacheLawful_iff fresh precomputed⟩

def served (bytes : Int) : StatCacheStats Rat where
  outBytes := bytes
  isAvailable := true
  status5xx := 0
  status4xx := 0
  status3xx := 0
  status2xx := 0
  inBytes := 0
  kbps := 0
  tps5xx := 0
  tps4xx := 0
  tps3xx := 0
  tps2xx := 0
  errorString := ""
  tpsTotal := 0

def result (bytes seconds : Int) : PrecomputedData Rat where
  deliveryServiceStats := ∅
  outBytes := bytes
  maxKbps := 0
  errors := []
  reporting := true
  time := seconds * 10 ^ 9

theorem rates_iff_served :
    (DsLawful .bytes [(served 100, 1), (served 300, 2)] ↔ List.IsChain (· ≠ ·) ([100, 300] : List Int)) ∧
      (CacheLawful "edge" ⟨∅, ∅⟩ [result 100 1, result 300 2] ↔ List.IsChain (· < ·) ([100, 300] : List Int)) := by
  have polled : Polls (dsPoll .bytes) (fun e => 0 ≤ Counter.bytes.value e.1 ∧ Fits 64 (Counter.bytes.value e.1)) 0
      [(served 100, 1), (served 300, 2)] := by simp [Polls, dsPoll, Counter.value, served, Fits]
  have precomputed : Polls cachePoll (fun e => 0 < e.outBytes ∧ Fits 64 e.outBytes) 0 [result 100 1, result 300 2] := by
    simp [Polls, cachePoll, result, Fits]
  have fresh : (⟨∅, ∅⟩ : LastStats Rat).caches.lookup "edge" = none := rfl
  exact rates_iff .bytes polled fresh precomputed

/-- A value that stays takes its rate away, and a cache whose counter starts anew keeps the old record. -/
theorem not_rates : ¬DsLawful .bytes [(served 100, 1), (served 300, 2), (served 300, 3)] ∧
    ¬CacheLawful "edge" ⟨∅, ∅⟩ [result 300 1, result 100 2] := by
  constructor
  · rw [dsLawful_iff .bytes (by simp [Polls, dsPoll, Counter.value, served, Fits])]
    simp [served, Counter.value]
  · rw [cacheLawful_iff rfl (by simp [Polls, cachePoll, result, Fits])]
    simp [result]

end Paths

end TrafficControl.TrafficMonitor.Ds
