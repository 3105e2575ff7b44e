import Mathlib.Algebra.BigOperators.Group.List.Basic
import Mathlib.Algebra.Order.Field.Basic
import Mathlib.Algebra.Order.Field.Rat
import Mathlib.Algebra.Order.Ring.Rat
import Mathlib.Tactic.FieldSimp
import Mathlib.Tactic.Ring
import TrafficControl.TrafficMonitor.Cache.Data

set_option autoImplicit false

-- Summaries of the histories of stats, in exact arithmetic.
namespace TrafficControl.TrafficMonitor.Datareq

open RunLength

structure StatSummaryStat (α : Type) where
  dataPointCount : Int
  start : α
  stop : α
  high : α
  low : α
  average : α
  startTime : Int
  endTime : Int
deriving DecidableEq

structure Filter where
  useStat : String → Bool
  useCache : String → Bool

section Code

variable {α : Type} [Field α] [LinearOrder α] (float64 : Float64 α)

def addDataPoint (fVal : α) (ssStat : StatSummaryStat α) : StatSummaryStat α :=
  let dataPointCount := ssStat.dataPointCount + 1
  let average := ssStat.average - ssStat.average / (dataPointCount : α)
  { ssStat with dataPointCount, average := average + fVal / (dataPointCount : α) }

-- A value that is not a number is left out.
def addVal (ssStat : StatSummaryStat α) (val : ResultStatVal α) : StatSummaryStat α :=
  match toNumeric float64 val.val with
  | none => ssStat
  | some fVal =>
    let ssStat := (addDataPoint fVal)^[val.span] ssStat
    let ssStat := if fVal < ssStat.low then { ssStat with low := fVal } else ssStat
    if ssStat.high < fVal then { ssStat with high := fVal } else ssStat

def msPerNs : Int := 1000000

-- The entry of one stat, or none where it is skipped.
def summarize (statHistory : List (ResultStatVal α)) : Option (StatSummaryStat α) :=
  match statHistory.getLast?, statHistory.head? with
  | some oldest, some newest =>
    match toNumeric float64 oldest.val, toNumeric float64 newest.val with
    | some oldestVal, some newestVal =>
      some (statHistory.foldl (addVal float64)
        { dataPointCount := 0, start := oldestVal, stop := newestVal, high := newestVal, low := newestVal, average := 0,
          startTime := oldest.time.tdiv msPerNs, endTime := newest.time.tdiv msPerNs })
    | _, _ => none
  | _, _ => none

def statPrefix : List Char := ['a', 't', 's', '.']

-- The stat of a key of the summary.
def statName (key : String) : Option String :=
  if statPrefix.isPrefixOf key.toList then some (String.ofList (key.toList.drop statPrefix.length)) else none

def createStatSummary (statResultHistory : ResultStatHistory α) (filter : Filter) : String → Option (String → Option (StatSummaryStat α)) :=
  fun cache =>
    if filter.useCache cache then
      (statResultHistory cache).map fun stats key =>
        (statName key).bind fun statName =>
          if filter.useStat statName then (stats statName).bind (summarize float64) else none
    else none

end Code

section Summary

variable {α : Type} [Field α] [LinearOrder α] [IsStrictOrderedRing α] {float64 : Float64 α}

/-- The plain statistics of a sequence of values, newest first. -/
structure Summarizes (sequence : List α) (ssStat : StatSummaryStat α) : Prop where
  dataPointCount : ssStat.dataPointCount = sequence.length
  average : ssStat.average = sequence.sum / sequence.length
  high : ssStat.high ∈ sequence ∧ ∀ value ∈ sequence, value ≤ ssStat.high
  low : ssStat.low ∈ sequence ∧ ∀ value ∈ sequence, ssStat.low ≤ value
  start : sequence.getLast? = some ssStat.start
  stop : sequence.head? = some ssStat.stop

variable (float64) in
/-- Each value is repeated as often as its span says. -/
def expanded (statHistory : List (ResultStatVal α)) : List α :=
  statHistory.flatMap fun entry => List.replicate entry.span ((toNumeric float64 entry.val).getD 0)

/-- What the loop has seen of a sequence when it began with the newest value. -/
structure Seen (newest : α) (sequence : List α) (ssStat : StatSummaryStat α) : Prop where
  dataPointCount : ssStat.dataPointCount = sequence.length
  average : ssStat.average * sequence.length = sequence.sum
  high : (ssStat.high = newest ∨ ssStat.high ∈ sequence) ∧ ∀ value ∈ sequence, value ≤ ssStat.high
  low : (ssStat.low = newest ∨ ssStat.low ∈ sequence) ∧ ∀ value ∈ sequence, ssStat.low ≤ value

section DataPoints

variable {fVal : α} {sequence : List α} {ssStat : StatSummaryStat α}

/-- A data point brings the count and the mean forward. -/
theorem addDataPoint_count (count : ssStat.dataPointCount = sequence.length) (mean : ssStat.average * sequence.length = sequence.sum) :
    (addDataPoint fVal ssStat).dataPointCount = (sequence ++ [fVal]).length ∧
      (addDataPoint fVal ssStat).average * (sequence ++ [fVal]).length = (sequence ++ [fVal]).sum := by
  have positive : (sequence.length : α) + 1 ≠ 0 := Nat.cast_add_one_ne_zero _
  refine ⟨?_, ?_⟩
  · simp [addDataPoint, count]
  · simp only [addDataPoint, count, List.length_append, List.length_singleton, List.sum_append, List.sum_singleton]
    push_cast
    field_simp
    rw [add_sub_cancel_right, mean]

theorem iterate_count (count : ssStat.dataPointCount = sequence.length) (mean : ssStat.average * sequence.length = sequence.sum) (n : Nat) :
    ((addDataPoint fVal)^[n] ssStat).dataPointCount = (sequence ++ List.replicate n fVal).length ∧
      ((addDataPoint fVal)^[n] ssStat).average * (sequence ++ List.replicate n fVal).length = (sequence ++ List.replicate n fVal).sum := by
  induction n with
  | zero => simpa using ⟨count, mean⟩
  | succ n ih =>
    rw [Function.iterate_succ_apply', List.replicate_succ', ← List.append_assoc]
    exact addDataPoint_count ih.1 ih.2

omit [LinearOrder α] [IsStrictOrderedRing α] in
/-- The data points change nothing else. -/
theorem iterate_frame (fVal : α) (ssStat : StatSummaryStat α) (n : Nat) :
    ((addDataPoint fVal)^[n] ssStat).high = ssStat.high ∧ ((addDataPoint fVal)^[n] ssStat).low = ssStat.low ∧
      ((addDataPoint fVal)^[n] ssStat).start = ssStat.start ∧ ((addDataPoint fVal)^[n] ssStat).stop = ssStat.stop := by
  induction n with
  | zero => exact ⟨rfl, rfl, rfl, rfl⟩
  | succ n ih =>
    rw [Function.iterate_succ_apply']
    exact ih

end DataPoints

section Loop

variable {newest fVal : α} {sequence : List α} {ssStat : StatSummaryStat α} {val : ResultStatVal α}

omit [IsStrictOrderedRing α] in
/-- What is kept of the extremes. -/
theorem addVal_extremes (numeric : toNumeric float64 val.val = some fVal) :
    (addVal float64 ssStat val).high = max ssStat.high fVal ∧ (addVal float64 ssStat val).low = min ssStat.low fVal := by
  obtain ⟨high, low, _, _⟩ := iterate_frame fVal ssStat val.span
  unfold addVal
  rw [numeric]
  dsimp only
  rw [← high, ← low]
  split_ifs with lower higher higher
  · exact ⟨(max_eq_right higher.le).symm, (min_eq_right lower.le).symm⟩
  · exact ⟨(max_eq_left (not_lt.mp higher)).symm, (min_eq_right lower.le).symm⟩
  · exact ⟨(max_eq_right higher.le).symm, (min_eq_left (not_lt.mp lower)).symm⟩
  · exact ⟨(max_eq_left (not_lt.mp higher)).symm, (min_eq_left (not_lt.mp lower)).symm⟩

theorem addVal_seen (seen : Seen newest sequence ssStat) (numeric : toNumeric float64 val.val = some fVal) (positive : 0 < val.span) :
    Seen newest (sequence ++ List.replicate val.span fVal) (addVal float64 ssStat val) := by
  obtain ⟨count, mean⟩ := @iterate_count _ _ _ _ fVal _ _ seen.dataPointCount seen.average val.span
  obtain ⟨high, low⟩ := @addVal_extremes _ _ _ float64 fVal ssStat val numeric
  obtain ⟨highFrom, highBound⟩ := seen.high
  obtain ⟨lowFrom, lowBound⟩ := seen.low
  have member (value : α) : value ∈ sequence ++ List.replicate val.span fVal ↔ value ∈ sequence ∨ value = fVal := by
    rw [List.mem_append, List.mem_replicate]
    simp [Nat.ne_of_gt positive]
  have counts : (addVal float64 ssStat val).dataPointCount = ((addDataPoint fVal)^[val.span] ssStat).dataPointCount ∧
      (addVal float64 ssStat val).average = ((addDataPoint fVal)^[val.span] ssStat).average := by
    unfold addVal
    rw [numeric]
    dsimp only
    split_ifs <;> exact ⟨rfl, rfl⟩
  refine ⟨counts.1.trans count, counts.2 ▸ mean, ?_, ?_⟩
  · rw [high]
    constructor
    · rcases max_choice ssStat.high fVal with same | same
      · rw [same, member]
        exact highFrom.imp_right Or.inl
      · rw [same, member]
        exact Or.inr (Or.inr rfl)
    · intro value inSequence
      rcases (member value).mp inSequence with old | rfl
      · exact (highBound value old).trans (le_max_left _ _)
      · exact le_max_right _ _
  · rw [low]
    constructor
    · rcases min_choice ssStat.low fVal with same | same
      · rw [same, member]
        exact lowFrom.imp_right Or.inl
      · rw [same, member]
        exact Or.inr (Or.inr rfl)
    · intro value inSequence
      rcases (member value).mp inSequence with old | rfl
      · exact (min_le_left _ _).trans (lowBound value old)
      · exact min_le_right _ _

omit [IsStrictOrderedRing α] in
theorem addVal_frame (ssStat : StatSummaryStat α) (val : ResultStatVal α) :
    (addVal float64 ssStat val).start = ssStat.start ∧ (addVal float64 ssStat val).stop = ssStat.stop := by
  unfold addVal
  cases toNumeric float64 val.val with
  | none => exact ⟨rfl, rfl⟩
  | some fVal =>
    obtain ⟨_, _, start, stop⟩ := iterate_frame fVal ssStat val.span
    dsimp only
    split_ifs <;> exact ⟨start, stop⟩

variable (float64) in
/-- The histories of the property: all values are numbers and all spans positive. -/
def Numeric (statHistory : List (ResultStatVal α)) : Prop :=
  ∀ entry ∈ statHistory, (∃ fVal, toNumeric float64 entry.val = some fVal) ∧ 0 < entry.span

theorem foldl_addVal_seen {statHistory : List (ResultStatVal α)} (numeric : Numeric float64 statHistory) (seen : Seen newest sequence ssStat) :
    Seen newest (sequence ++ expanded float64 statHistory) (statHistory.foldl (addVal float64) ssStat) := by
  induction statHistory generalizing sequence ssStat with
  | nil => simpa [expanded] using seen
  | cons entry rest ih =>
    obtain ⟨⟨fVal, value⟩, positive⟩ := numeric entry List.mem_cons_self
    have later := ih (fun other member => numeric other (List.mem_cons_of_mem _ member)) (addVal_seen seen value positive)
    have split : expanded float64 (entry :: rest) = List.replicate entry.span fVal ++ expanded float64 rest := by
      rw [expanded, List.flatMap_cons, value]
      rfl
    rw [split, ← List.append_assoc]
    exact later

omit [IsStrictOrderedRing α] in
theorem foldl_addVal_frame (statHistory : List (ResultStatVal α)) (ssStat : StatSummaryStat α) :
    (statHistory.foldl (addVal float64) ssStat).start = ssStat.start ∧ (statHistory.foldl (addVal float64) ssStat).stop = ssStat.stop := by
  induction statHistory generalizing ssStat with
  | nil => exact ⟨rfl, rfl⟩
  | cons entry rest ih =>
    obtain ⟨start, stop⟩ := @addVal_frame _ _ _ float64 ssStat entry
    obtain ⟨start', stop'⟩ := ih (addVal float64 ssStat entry)
    exact ⟨start'.trans start, stop'.trans stop⟩

end Loop

section Entry

variable {statHistory front rest : List (ResultStatVal α)} {entry : ResultStatVal α} {fVal : α}

omit [LinearOrder α] [IsStrictOrderedRing α] in
theorem head_expanded (value : toNumeric float64 entry.val = some fVal) (positive : 0 < entry.span) :
    (expanded float64 (entry :: rest)).head? = some fVal := by
  obtain ⟨n, span⟩ := Nat.exists_eq_succ_of_ne_zero (Nat.ne_of_gt positive)
  rw [expanded, List.flatMap_cons, value, span, List.replicate_succ]
  rfl

omit [LinearOrder α] [IsStrictOrderedRing α] in
theorem getLast_expanded (value : toNumeric float64 entry.val = some fVal) (positive : 0 < entry.span) :
    (expanded float64 (front ++ [entry])).getLast? = some fVal := by
  obtain ⟨n, span⟩ := Nat.exists_eq_succ_of_ne_zero (Nat.ne_of_gt positive)
  rw [expanded, List.flatMap_append, List.flatMap_singleton, value, span, Option.getD_some, List.replicate_succ', ← List.append_assoc,
    List.getLast?_concat]

/-- The loop over a history that is not empty summarizes it. -/
theorem summarize_spec (numeric : Numeric float64 statHistory) (some_ : statHistory ≠ []) :
    ∃ ssStat, summarize float64 statHistory = some ssStat ∧ Summarizes (expanded float64 statHistory) ssStat := by
  obtain ⟨newest, rest, entries⟩ := List.exists_cons_of_ne_nil some_
  obtain ⟨front, oldest, entries'⟩ := (List.eq_nil_or_concat statHistory).resolve_left some_
  rw [List.concat_eq_append] at entries'
  obtain ⟨⟨newestVal, newestNumber⟩, newestSpan⟩ := numeric newest (entries ▸ List.mem_cons_self)
  obtain ⟨⟨oldestVal, oldestNumber⟩, oldestSpan⟩ := numeric oldest (entries' ▸ List.mem_append_right _ List.mem_cons_self)
  have newestFirst : statHistory.head? = some newest := by rw [entries, List.head?_cons]
  have oldestLast : statHistory.getLast? = some oldest := by rw [entries', List.getLast?_concat]
  have begins : (expanded float64 statHistory).head? = some newestVal := entries ▸ head_expanded newestNumber newestSpan
  have ends : (expanded float64 statHistory).getLast? = some oldestVal := entries' ▸ getLast_expanded oldestNumber oldestSpan
  have member : newestVal ∈ expanded float64 statHistory := List.mem_of_mem_head? begins
  unfold summarize
  rw [newestFirst, oldestLast]
  dsimp only
  rw [newestNumber, oldestNumber]
  refine ⟨_, rfl, ?_⟩
  generalize starting : (⟨0, oldestVal, newestVal, newestVal, newestVal, 0, oldest.time.tdiv msPerNs, newest.time.tdiv msPerNs⟩ :
    StatSummaryStat α) = initial
  have seen : Seen newestVal [] initial := by
    subst starting
    exact ⟨rfl, by simp, ⟨Or.inl rfl, by simp⟩, Or.inl rfl, by simp⟩
  obtain ⟨count, mean, ⟨highFrom, highBound⟩, lowFrom, lowBound⟩ := foldl_addVal_seen numeric seen
  rw [List.nil_append] at count mean highFrom highBound lowFrom lowBound
  obtain ⟨start, stop⟩ := @foldl_addVal_frame _ _ _ float64 statHistory initial
  have nonzero : ((expanded float64 statHistory).length : α) ≠ 0 := by
    have positive := List.length_pos_of_mem member
    exact Nat.cast_ne_zero.mpr (Nat.ne_of_gt positive)
  refine ⟨count, (eq_div_iff nonzero).mpr mean, ⟨?_, highBound⟩, ⟨?_, lowBound⟩, ?_, ?_⟩
  · exact highFrom.elim (fun same => same ▸ member) id
  · exact lowFrom.elim (fun same => same ▸ member) id
  · rw [ends, start, ← starting]
  · rw [begins, stop, ← starting]

omit [IsStrictOrderedRing α] in
/-- A sequence has one count, mean, maximum and minimum. -/
theorem Summarizes.unique {sequence : List α} {ssStat ssStat' : StatSummaryStat α} (first : Summarizes sequence ssStat)
    (second : Summarizes sequence ssStat') : ssStat.dataPointCount = ssStat'.dataPointCount ∧ ssStat.average = ssStat'.average ∧
      ssStat.high = ssStat'.high ∧ ssStat.low = ssStat'.low :=
  ⟨first.dataPointCount.trans second.dataPointCount.symm, first.average.trans second.average.symm,
    le_antisymm (second.high.2 _ first.high.1) (first.high.2 _ second.high.1),
    le_antisymm (first.low.2 _ second.low.1) (second.low.2 _ first.low.1)⟩

variable (float64) in
/-- Entries with the value of one entry, whose spans add to its span. -/
structure SplitOf (entry : ResultStatVal α) (parts : List (ResultStatVal α)) : Prop where
  value : ∀ part ∈ parts, toNumeric float64 part.val = toNumeric float64 entry.val
  positive : ∀ part ∈ parts, 0 < part.span
  span : (parts.map (·.span)).sum = entry.span

omit [LinearOrder α] [IsStrictOrderedRing α] in
theorem expanded_split {parts : List (ResultStatVal α)} (value : ∀ part ∈ parts, toNumeric float64 part.val = toNumeric float64 entry.val) :
    expanded float64 parts = List.replicate (parts.map (·.span)).sum ((toNumeric float64 entry.val).getD 0) := by
  induction parts with
  | nil => rfl
  | cons part parts ih =>
    have later := ih fun other member => value other (List.mem_cons_of_mem _ member)
    rw [expanded] at later ⊢
    rw [List.flatMap_cons, later, value part List.mem_cons_self, List.map_cons, List.sum_cons, List.replicate_add]

omit [LinearOrder α] [IsStrictOrderedRing α] in
theorem expanded_splits {pieces : List (List (ResultStatVal α))} (splits : List.Forall₂ (SplitOf float64) statHistory pieces) :
    expanded float64 pieces.flatten = expanded float64 statHistory := by
  induction splits with
  | nil => rfl
  | cons split _ ih =>
    rw [List.flatten_cons, expanded, List.flatMap_append, ← expanded, ← expanded, ih, expanded_split split.value, split.span]
    rfl

omit [Field α] [LinearOrder α] [IsStrictOrderedRing α] in
theorem numeric_splits {pieces : List (List (ResultStatVal α))} (splits : List.Forall₂ (SplitOf float64) statHistory pieces)
    (numeric : Numeric float64 statHistory) : Numeric float64 pieces.flatten ∧ (statHistory ≠ [] → pieces.flatten ≠ []) := by
  induction splits with
  | nil => exact ⟨numeric, id⟩
  | @cons entry parts rest pieces split _ ih =>
    obtain ⟨⟨fVal, value⟩, positive⟩ := numeric entry List.mem_cons_self
    refine ⟨fun part member => ?_, fun _ none => ?_⟩
    · rw [List.flatten_cons] at member
      rcases List.mem_append.mp member with inParts | later
      · exact ⟨⟨fVal, (split.value part inParts).trans value⟩, split.positive part inParts⟩
      · exact (ih fun other inRest => numeric other (List.mem_cons_of_mem _ inRest)).1 part later
    · have noParts : parts = [] := (List.append_eq_nil_iff.mp none).1
      have span := split.span
      rw [noParts] at span
      exact Nat.ne_of_gt positive span.symm

end Entry

section Histories

-- The history of a stat of a cache.
def Holds (statResultHistory : ResultStatHistory α) (cache name : String) (statHistory : List (ResultStatVal α)) : Prop :=
  (statResultHistory cache).bind (fun stats => stats name) = some statHistory

-- What the summary says under the name of a stat.
def summaryOf (summary : String → Option (String → Option (StatSummaryStat α))) (cache name : String) : Option (StatSummaryStat α) :=
  (summary cache).bind fun ssStats => ssStats ("ats." ++ name)

theorem statName_prefixed (name : String) : statName ("ats." ++ name) = some name := by
  have text : ("ats." ++ name).toList = statPrefix ++ name.toList := String.toList_append
  unfold statName
  rw [text, if_pos (by simp), List.drop_left, String.ofList_toList]

omit [IsStrictOrderedRing α] in
theorem summaryOf_createStatSummary {statResultHistory : ResultStatHistory α} {filter : Filter} {cache name : String}
    {statHistory : List (ResultStatVal α)} (useCache : filter.useCache cache = true) (useStat : filter.useStat name = true)
    (holds : Holds statResultHistory cache name statHistory) :
    summaryOf (createStatSummary float64 statResultHistory filter) cache name = summarize float64 statHistory := by
  obtain ⟨stats, ofCache, ofStat⟩ := Option.bind_eq_some_iff.mp holds
  unfold summaryOf createStatSummary
  rw [if_pos useCache, ofCache]
  simp [statName_prefixed, useStat, ofStat]

/-- The entry of a stat has the plain statistics of its expanded history, and a history split into runs of the same values has the
same count, mean, maximum and minimum. -/
theorem createStatSummary_correct {statResultHistory : ResultStatHistory α} {filter : Filter} {cache name : String}
    {statHistory : List (ResultStatVal α)} (useCache : filter.useCache cache = true) (useStat : filter.useStat name = true)
    (holds : Holds statResultHistory cache name statHistory) (numeric : Numeric float64 statHistory) :
    (statHistory = [] ∧ summaryOf (createStatSummary float64 statResultHistory filter) cache name = none) ∨
      ∃ ssStat, summaryOf (createStatSummary float64 statResultHistory filter) cache name = some ssStat ∧
        Summarizes (expanded float64 statHistory) ssStat ∧
        ∀ (other : ResultStatHistory α) (pieces : List (List (ResultStatVal α))), Holds other cache name pieces.flatten →
          List.Forall₂ (SplitOf float64) statHistory pieces →
          ∃ ssStat', summaryOf (createStatSummary float64 other filter) cache name = some ssStat' ∧
            ssStat'.dataPointCount = ssStat.dataPointCount ∧ ssStat'.average = ssStat.average ∧
              ssStat'.high = ssStat.high ∧ ssStat'.low = ssStat.low := by
  rw [summaryOf_createStatSummary useCache useStat holds]
  by_cases none : statHistory = []
  · exact Or.inl ⟨none, by rw [none]; rfl⟩
  obtain ⟨ssStat, made, summarizes⟩ := summarize_spec numeric none
  refine Or.inr ⟨ssStat, made, summarizes, fun other pieces holds' splits => ?_⟩
  rw [summaryOf_createStatSummary useCache useStat holds']
  obtain ⟨numeric', some_⟩ := numeric_splits splits numeric
  obtain ⟨ssStat', made', summarizes'⟩ := summarize_spec numeric' (some_ none)
  rw [expanded_splits splits] at summarizes'
  exact ⟨ssStat', made', summarizes'.unique summarizes⟩

section Samples

def rationals : Float64 Rat := ⟨fun value => value, fun a b => a == b, fun a b => decide (a < b), toString, toString⟩

def sampleHistory : List (ResultStatVal Rat) := [⟨.int 4, 2000000, 1⟩, ⟨.int 1, 1000000, 2⟩]

theorem createStatSummary_correct_sample : ∃ ssStat,
    summaryOf (createStatSummary rationals (fun _ => some fun _ => some sampleHistory) ⟨fun _ => true, fun _ => true⟩) "edge" "bandwidth" =
        some ssStat ∧ Summarizes [4, 1, 1] ssStat := by
  have numeric : Numeric rationals sampleHistory := by
    intro entry member
    rcases List.mem_cons.mp member with rfl | member
    · exact ⟨⟨4, rfl⟩, by decide⟩
    · rw [List.mem_singleton.mp member]
      exact ⟨⟨1, rfl⟩, by decide⟩
  have correct := @createStatSummary_correct Rat _ _ _ rationals (fun _ => some fun _ => some sampleHistory)
    ⟨fun _ => true, fun _ => true⟩ "edge" "bandwidth" sampleHistory rfl rfl rfl numeric
  obtain ⟨ssStat, made, summarizes, _⟩ := correct.resolve_left fun empty => List.cons_ne_nil _ _ empty.1
  exact ⟨ssStat, made, summarizes⟩

end Samples

end Histories

end Summary

end TrafficControl.TrafficMonitor.Datareq
