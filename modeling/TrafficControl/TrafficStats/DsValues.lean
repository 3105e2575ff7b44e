import TrafficControl.Lib.ExceptList
import TrafficControl.TrafficMonitor.DsData.Json

set_option autoImplicit false

-- The points that Traffic Stats makes of the delivery service stats of Traffic Monitor.
namespace TrafficStats.DsValues

open DottedNames DoubleText TrafficControl.TrafficMonitor TrafficControl.TrafficMonitor.DsData

/-- `tags`, without `deliveryservice` and `cdn`. -/
structure Tags where
  cachegroup : String
  type : Option String
  deriving DecidableEq

structure Point where
  name : String
  deliveryservice : String
  cdn : String
  tags : Tags
  value : Double
  -- in nanoseconds
  time : Int
  deriving DecidableEq

structure Metric where
  dsName : String
  dsMetric : String
  time : Int
  value : String

inductive Outcome where
  -- the index of the panic is out of range
  | outOfRange
  | unmarshalError
  | sent (bps : List Point)

def split (s : String) : List String := (s.toList.splitOn '.').map String.ofList

def contains (s word : String) : Bool := word.toList <:+: s.toList

/-- A slice does not fit the string that a value is decoded to; null leaves it empty. -/
def unmarshal (dsName : String) (entry : Sigma fun _ : String => StatOld) : Option Metric :=
  match entry.2.value with
  | .text value => some { dsName := dsName, dsMetric := entry.1, time := entry.2.time, value := value }
  | .slice none => some { dsName := dsName, dsMetric := entry.1, time := entry.2.time, value := "" }
  | .slice (some _) => none

def unmarshalAll (json : List (String × Metrics)) : Option (List Metric) :=
  (json.flatMap fun ds => ds.2.entries.map (unmarshal ds.1)).mapM id

def readName (dsMetric : String) : Option (Tags × String) :=
  let s := split dsMetric
  if contains dsMetric "type." then do
    let statName ← s[2]?
    let type ← s[1]?
    some ({ cachegroup := "all", type := some type }, statName)
  else if contains dsMetric "total." then do
    let cachegroup ← s[0]?
    let statName ← s[1]?
    some ({ cachegroup := cachegroup, type := none }, statName)
  else do
    let cachegroup ← s[1]?
    let statName ← s[2]?
    some ({ cachegroup := cachegroup, type := none }, statName)

section Points

-- `newPoint` says whether `influx.NewPoint` makes the point, and `validTime` is the bound when an entry is looked at.
variable (newPoint : Point → Bool) (validTime : String → String → Int) (cdnName : String)

def point (metric : Metric) (tags : Tags) (statName : String) : Point where
  name := statName
  deliveryservice := metric.dsName
  cdn := cdnName
  tags := tags
  value := (parseFloat metric.value).getD (.finite 0)
  time := metric.time * 1000000

/-- The points of one metric, at most one; `none` where an index is out of range. -/
def calcMetric (metric : Metric) : Option (List Point) :=
  if metric.time < validTime metric.dsName metric.dsMetric then some []
  else (readName metric.dsMetric).map fun (tags, statName) =>
    let pt := point cdnName metric tags statName
    if newPoint pt then [pt] else []

def calcDsValues (json : List (String × Metrics)) : Outcome :=
  match unmarshalAll json with
  | none => .unmarshalError
  | some metrics =>
    match metrics.mapM (calcMetric newPoint validTime cdnName) with
    | none => .outOfRange
    | some bps => .sent bps.flatten

end Points

/-- The tags of the points that are of a source. -/
def sourceTags : Source → Tags
  | .group name => { cachegroup := name, type := none }
  | .type t => { cachegroup := "all", type := some t.string }
  | .total => { cachegroup := "total", type := none }

/-- A cache group whose name survives. -/
def Plain : Source → Prop
  | .group name => '.' ∉ name.toList ∧ ¬"type".toList <:+ name.toList ∧ ¬"total".toList <:+ name.toList
  | .type _ => True
  | .total => True

section Names

variable {name : String}

theorem contains_iff {s : String} {parts : List (List Char)} {last : List Char}
    (splits : s.toList.splitOn '.' = parts ++ [last]) {word dotted : String} (whole : '.' ∉ word.toList)
    (chars : dotted.toList = word.toList ++ ['.']) : contains s dotted = true ↔ ∃ part ∈ parts, word.toList <:+ part := by
  rw [contains, decide_eq_true_iff, chars, infix_iff whole, splits, List.dropLast_concat]

theorem contains_type {s : String} {parts : List (List Char)} {last : List Char}
    (splits : s.toList.splitOn '.' = parts ++ [last]) :
    contains s "type." = true ↔ ∃ part ∈ parts, "type".toList <:+ part :=
  contains_iff splits (by decide) (by decide)

theorem contains_total {s : String} {parts : List (List Char)} {last : List Char}
    (splits : s.toList.splitOn '.' = parts ++ [last]) :
    contains s "total." = true ↔ ∃ part ∈ parts, "total".toList <:+ part :=
  contains_iff splits (by decide) (by decide)

theorem front_total : Source.total.front.toList.splitOn '.' = ["total".toList] := List.splitOn_eq_singleton (by decide)

theorem front_type (t : CacheType) : (Source.type t).front.toList.splitOn '.' = ["type".toList, t.string.toList] := by
  cases t <;> decide

theorem front_group (group : String) :
    (Source.group group).front.toList.splitOn '.' = "location".toList :: group.toList.splitOn '.' := by
  have chars : (Source.group group).front.toList = "location".toList ++ '.' :: group.toList := by simp [Source.front]
  rw [chars, split_cons_part (by decide)]

theorem key_parts {source : Source} {parts : List (List Char)} (fronts : source.front.toList.splitOn '.' = parts)
    (member : name ∈ statNames) : (source.key name).toList.splitOn '.' = parts ++ [name.toList] := by
  rw [split_key member, fronts]

theorem readName_total (member : name ∈ statNames) :
    readName (Source.total.key name) = some (sourceTags .total, name) := by
  have parts := key_parts front_total member
  have noType : contains (Source.total.key name) "type." ≠ true := by
    rw [Ne, contains_type parts]
    simp only [List.mem_singleton, exists_eq_left]
    decide
  have total : contains (Source.total.key name) "total." = true := by
    rw [contains_total parts]
    exact ⟨_, List.mem_singleton_self _, List.suffix_rfl⟩
  rw [readName, if_neg noType, if_pos total, split, parts]
  simp [sourceTags]

theorem readName_type (t : CacheType) (member : name ∈ statNames) :
    readName ((Source.type t).key name) = some (sourceTags (.type t), name) := by
  have parts := key_parts (front_type t) member
  have type : contains ((Source.type t).key name) "type." = true := by
    rw [contains_type parts]
    exact ⟨_, List.mem_cons_self, List.suffix_rfl⟩
  rw [readName, if_pos type, split, parts]
  simp [sourceTags]

theorem readName_group (group : String) (member : name ∈ statNames) :
    readName ((Source.group group).key name) = some (sourceTags (.group group), name) ↔ Plain (.group group) := by
  have parts := key_parts (front_group group) member
  have hasType := contains_type parts
  have hasTotal := contains_total parts
  by_cases dotted : '.' ∈ group.toList
  · obtain ⟨first, rest, splits, whole⟩ := List.eq_append_cons_of_mem dotted
    refine iff_of_false ?_ fun plain => plain.1 dotted
    rw [splits, split_cons_part whole] at parts
    rw [readName, split, parts]
    split
    · intro read
      simp [sourceTags] at read
    · split
      · intro read
        simp [sourceTags] at read
        obtain ⟨rfl, -⟩ := read
        exact absurd dotted (by decide)
      · intro read
        simp [sourceTags] at read
        obtain ⟨rfl, -⟩ := read
        exact absurd dotted (by simpa using whole)
  · rw [List.splitOn_eq_singleton dotted] at parts hasType hasTotal
    simp only [List.mem_cons, List.not_mem_nil, or_false, exists_eq_or_imp, exists_eq_left] at hasType hasTotal
    rw [readName, split, parts]
    have notType : ¬"type".toList <:+ "location".toList := by decide
    have notTotal : ¬"total".toList <:+ "location".toList := by decide
    simp only [notType, notTotal, false_or] at hasType hasTotal
    simp only [Plain, dotted, not_false_eq_true, true_and, ← hasType, ← hasTotal]
    by_cases type : contains ((Source.group group).key name) "type." = true
    · simp [sourceTags, type]
    · by_cases total : contains ((Source.group group).key name) "total." = true
      · have other : "location" ≠ group := by
          rintro rfl
          exact notTotal (hasTotal.mp total)
        simp [sourceTags, type, total, other]
      · simp [sourceTags, type, total]

theorem readName_iff {source : Source} (member : name ∈ statNames) :
    readName (source.key name) = some (sourceTags source, name) ↔ Plain source := by
  cases source with
  | group group => exact readName_group group member
  | type t => exact iff_of_true (readName_type t member) trivial
  | total => exact iff_of_true (readName_total member) trivial

theorem readName_long {dsMetric : String} (long : 3 ≤ (dsMetric.toList.splitOn '.').length) : readName dsMetric ≠ none := by
  have parts : 3 ≤ (split dsMetric).length := by rwa [split, List.length_map]
  have first := List.getElem?_eq_getElem (show 0 < (split dsMetric).length by omega)
  have second := List.getElem?_eq_getElem (show 1 < (split dsMetric).length by omega)
  have third := List.getElem?_eq_getElem (show 2 < (split dsMetric).length by omega)
  unfold readName
  simp only [first, second, third]
  split
  · nofun
  · split <;> nofun

theorem readName_statKey (source : Source) (member : name ∈ statNames) : readName (source.statKey name) ≠ none := by
  have positive (source : Source) : 1 ≤ (source.front.toList.splitOn '.').length :=
    List.length_pos_iff.mpr (List.splitOn_ne_nil _ _)
  unfold Source.statKey
  split
  · refine readName_long ?_
    rw [split_doubled member, List.length_cons, List.length_append]
    have := positive source
    simp only [List.length_singleton]
    omega
  · cases source with
    | group group =>
      refine readName_long ?_
      have := List.length_pos_iff.mpr (List.splitOn_ne_nil '.' group.toList)
      rw [key_parts (front_group group) member, List.length_append, List.length_cons, List.length_singleton]
      omega
    | type t =>
      rw [readName_type t member]
      nofun
    | total =>
      rw [readName_total member]
      nofun

theorem readName_common (member : name ∈ commonNames) : readName name = none := by
  have parts : name.toList.splitOn '.' = [] ++ [name.toList] := List.splitOn_eq_singleton (commonName_dotless member)
  have noType : contains name "type." ≠ true := by simp [contains_type parts]
  have noTotal : contains name "total." ≠ true := by simp [contains_total parts]
  rw [readName, if_neg noType, if_neg noTotal, split, parts]
  rfl

end Names

section Survival

variable (newPoint : Point → Bool) (validTime : String → String → Int) (cdnName : String) (filter : DSStatFilter)
  (stats : Stats Double)

/-- Among the points sent is one that was made of the entry with this name. -/
def Produces (ds key : String) (pt : Point) : Prop :=
  ∃ bps data entry metric points,
    calcDsValues newPoint validTime cdnName (stats.json filter) = .sent bps ∧ pt ∈ bps ∧
      (ds, data) ∈ stats.json filter ∧ entry ∈ data.entries ∧ entry.1 = key ∧ unmarshal ds entry = some metric ∧
        calcMetric newPoint validTime cdnName metric = some points ∧ pt ∈ points

def Published (ds : String) (stat : Stat Double) : Prop :=
  stats.deliveryService.lookup ds = some stat ∧ filter.useDeliveryService ds = true

structure Survives : Prop where
  inRange : calcDsValues newPoint validTime cdnName (stats.json filter) ≠ .outOfRange
  named : ∀ ds stat, Published filter stats ds stat → ∀ source name text, Emitted filter stat source name (.text text) →
    ∃ pt, Produces newPoint validTime cdnName filter stats ds (source.key name) pt ∧ pt.name = name ∧
      pt.tags = sourceTags source
  apart : ∀ ds stat, Published filter stats ds stat → ∀ source other name name' text text',
    Emitted filter stat source name (.text text) → Emitted filter stat other name' (.text text') → source ≠ other →
      ∀ pt pt', Produces newPoint validTime cdnName filter stats ds (source.key name) pt →
        Produces newPoint validTime cdnName filter stats ds (other.key name') pt' → pt.tags ≠ pt'.tags

/-- The list of disabled locations is let through, which no string can be decoded from. -/
def Unreadable : Prop :=
  filter.useStat "disabledLocations" = true ∧
    ∃ ds stat, Published filter stats ds stat ∧ stat.commonStats.cachesDisabled ≠ none

structure Filed : Prop where
  inRange : Unreadable filter stats ∨ ∀ ds stat, Published filter stats ds stat → ∀ name ∈ commonNames,
    filter.useStat name = true → stats.time.tdiv 1000000 < validTime ds name
  named : ∀ ds stat, Published filter stats ds stat → ∀ source name text, Emitted filter stat source name (.text text) →
    ¬Unreadable filter stats ∧ validTime ds (source.key name) ≤ stats.time.tdiv 1000000 ∧ Plain source ∧
      newPoint (point cdnName { dsName := ds, dsMetric := source.key name, time := stats.time.tdiv 1000000, value := text }
        (sourceTags source) name) = true

end Survival

section Decoding

variable {newPoint : Point → Bool} {validTime : String → String → Int} {cdnName : String} {filter : DSStatFilter}
  {stats : Stats Double}

theorem unmarshal_none_iff {ds : String} {entry : Sigma fun _ : String => StatOld} :
    unmarshal ds entry = none ↔ ∃ locations, entry.2.value = .slice (some locations) := by
  unfold unmarshal
  split <;> simp_all

theorem unmarshalAll_none_iff : unmarshalAll (stats.json filter) = none ↔ Unreadable filter stats := by
  simp only [unmarshalAll, ExceptList.option_mapM_none_iff, List.mem_flatMap, List.mem_map, id]
  constructor
  · rintro ⟨_, ⟨⟨ds, data⟩, json, entry, member, rfl⟩, unread⟩
    obtain ⟨stat, found, use, rfl⟩ := mem_json.mp json
    obtain ⟨locations, slice⟩ := unmarshal_none_iff.mp unread
    obtain ⟨passes, disabled⟩ := lookup_slice (AList.mem_lookup_iff.mpr member) slice
    exact ⟨passes, ds, stat, ⟨found, use⟩, by simp [disabled]⟩
  · rintro ⟨passes, ds, stat, ⟨found, use⟩, disabled⟩
    obtain ⟨locations, same⟩ := Option.ne_none_iff_exists'.mp disabled
    have member : ("disabledLocations", StatValue.slice (some locations)) ∈ commonStats stat.commonStats := by
      simp [commonStats, same]
    have entry := AList.mem_lookup_iff.mp (lookup_common (t := stats.time.tdiv 1000000) member passes)
    exact ⟨none, ⟨_, mem_json.mpr ⟨stat, found, use, rfl⟩, _, entry, rfl⟩, rfl⟩

theorem mem_unmarshalAll {json : List (String × Metrics)} {metrics : List Metric} (read : unmarshalAll json = some metrics)
    {metric : Metric} : metric ∈ metrics ↔
      ∃ ds data entry, (ds, data) ∈ json ∧ entry ∈ data.entries ∧ unmarshal ds entry = some metric := by
  rw [ExceptList.mem_option_mapM read]
  simp only [List.mem_flatMap, List.mem_map, id, exists_eq_right, Prod.exists]
  constructor
  · rintro ⟨ds, data, json, entry, member, same⟩
    exact ⟨ds, data, entry, json, member, same⟩
  · rintro ⟨ds, data, entry, json, member, same⟩
    exact ⟨ds, data, json, entry, member, same⟩

theorem exists_unmarshal {json : List (String × Metrics)} {metrics : List Metric} (read : unmarshalAll json = some metrics)
    {ds : String} {data : Metrics} (present : (ds, data) ∈ json) {entry : Sigma fun _ : String => StatOld}
    (member : entry ∈ data.entries) : ∃ metric ∈ metrics, unmarshal ds entry = some metric := by
  cases own : unmarshal ds entry with
  | none =>
    have unread : unmarshalAll json = none := ExceptList.option_mapM_none_iff.mpr
      ⟨none, List.mem_flatMap.mpr ⟨_, present, List.mem_map.mpr ⟨entry, member, own⟩⟩, rfl⟩
    rw [unread] at read
    cases read
  | some metric => exact ⟨metric, (mem_unmarshalAll read).mpr ⟨ds, data, entry, present, member, own⟩, rfl⟩

theorem unmarshal_names {ds : String} {entry : Sigma fun _ : String => StatOld} {metric : Metric}
    (read : unmarshal ds entry = some metric) :
    metric.dsName = ds ∧ metric.dsMetric = entry.1 ∧ metric.time = entry.2.time := by
  unfold unmarshal at read
  split at read
  · cases read
    exact ⟨rfl, rfl, rfl⟩
  · cases read
    exact ⟨rfl, rfl, rfl⟩
  · cases read

theorem calcMetric_none_iff {metric : Metric} : calcMetric newPoint validTime cdnName metric = none ↔
    validTime metric.dsName metric.dsMetric ≤ metric.time ∧ readName metric.dsMetric = none := by
  unfold calcMetric
  split
  · next old => simp [Int.not_le.mpr old]
  · next recent => simp [Int.not_lt.mp recent]

theorem calcDsValues_outOfRange_iff {json : List (String × Metrics)} :
    calcDsValues newPoint validTime cdnName json = .outOfRange ↔
      ∃ metrics, unmarshalAll json = some metrics ∧
        ∃ metric ∈ metrics, calcMetric newPoint validTime cdnName metric = none := by
  unfold calcDsValues
  cases read : unmarshalAll json with
  | none => simp
  | some metrics =>
    simp only [Option.some.injEq, exists_eq_left', ← ExceptList.option_mapM_none_iff]
    cases metrics.mapM (calcMetric newPoint validTime cdnName) <;> simp

theorem calcDsValues_sent {json : List (String × Metrics)} {bps : List Point}
    (sent : calcDsValues newPoint validTime cdnName json = .sent bps) : ∃ metrics, unmarshalAll json = some metrics ∧
      ∀ pt, pt ∈ bps ↔ ∃ metric ∈ metrics, ∃ points, calcMetric newPoint validTime cdnName metric = some points ∧ pt ∈ points := by
  unfold calcDsValues at sent
  split at sent
  · cases sent
  · next metrics read =>
    split at sent
    · cases sent
    · next all made =>
      cases sent
      refine ⟨metrics, read, fun pt => ?_⟩
      simp only [List.mem_flatten, ExceptList.mem_option_mapM made]
      constructor
      · rintro ⟨points, ⟨metric, member, made⟩, here⟩
        exact ⟨metric, member, points, made, here⟩
      · rintro ⟨metric, member, points, made, here⟩
        exact ⟨points, ⟨metric, member, made⟩, here⟩

theorem calcDsValues_unread {json : List (String × Metrics)}
    (unread : calcDsValues newPoint validTime cdnName json = .unmarshalError) : unmarshalAll json = none := by
  unfold calcDsValues at unread
  split at unread
  · next none => exact none
  · split at unread <;> cases unread

theorem outOfRange_iff : calcDsValues newPoint validTime cdnName (stats.json filter) = .outOfRange ↔
    ¬Unreadable filter stats ∧ ∃ ds stat, Published filter stats ds stat ∧ ∃ name ∈ commonNames,
      filter.useStat name = true ∧ validTime ds name ≤ stats.time.tdiv 1000000 := by
  rw [calcDsValues_outOfRange_iff]
  constructor
  · rintro ⟨metrics, read, metric, member, unnamed⟩
    refine ⟨fun unreadable => ?_, ?_⟩
    · rw [unmarshalAll_none_iff.mpr unreadable] at read
      cases read
    · obtain ⟨ds, data, entry, json, present, own⟩ := (mem_unmarshalAll read).mp member
      obtain ⟨stat, found, use, rfl⟩ := mem_json.mp json
      obtain ⟨rfl, metricName, time⟩ := unmarshal_names own
      have found' := AList.mem_lookup_iff.mpr present
      rw [lookup_time found'] at time
      rw [calcMetric_none_iff, metricName, time] at unnamed
      refine ⟨_, stat, ⟨found, use⟩, entry.1, ?_⟩
      rcases mem_statJson.mp (AList.lookup_isSome.mp (Option.isSome_of_eq_some found')) with common | ⟨source, c, name, -, name', -, key⟩
      · exact ⟨common.1, common.2, unnamed.1⟩
      · rw [← key] at unnamed
        exact absurd unnamed.2 (readName_statKey source name')
  · rintro ⟨readable, ds, stat, ⟨found, use⟩, name, member, passes, recent⟩
    have all : unmarshalAll (stats.json filter) ≠ none := fun unread => readable (unmarshalAll_none_iff.mp unread)
    obtain ⟨metrics, read⟩ := Option.ne_none_iff_exists'.mp all
    have present : name ∈ statJson filter (stats.time.tdiv 1000000) stat := mem_statJson.mpr (Or.inl ⟨member, passes⟩)
    obtain ⟨data, found'⟩ := Option.isSome_iff_exists.mp (AList.lookup_isSome.mpr present)
    have json := mem_json.mpr ⟨stat, found, use, rfl⟩
    obtain ⟨metric, own, unmarshals⟩ := exists_unmarshal read json (AList.mem_lookup_iff.mp found')
    obtain ⟨rfl, metricName, time⟩ := unmarshal_names unmarshals
    refine ⟨metrics, read, metric, own, calcMetric_none_iff.mpr ?_⟩
    rw [metricName, time, lookup_time found']
    exact ⟨recent, readName_common member⟩

theorem mem_calcMetric {metric : Metric} {points : List Point}
    (made : calcMetric newPoint validTime cdnName metric = some points) {pt : Point} : pt ∈ points ↔
      validTime metric.dsName metric.dsMetric ≤ metric.time ∧ ∃ tags statName,
        readName metric.dsMetric = some (tags, statName) ∧ newPoint pt = true ∧ pt = point cdnName metric tags statName := by
  unfold calcMetric at made
  split at made
  · next old =>
    cases made
    simp [Int.not_le.mpr old]
  · next recent =>
    obtain ⟨⟨tags, statName⟩, named, rfl⟩ := Option.map_eq_some_iff.mp made
    simp only [named, Int.not_lt.mp recent, true_and, Option.some.injEq, Prod.mk.injEq]
    constructor
    · intro member
      split at member
      · next accepted =>
        obtain rfl := List.mem_singleton.mp member
        exact ⟨tags, statName, ⟨rfl, rfl⟩, accepted, rfl⟩
      · cases member
    · rintro ⟨_, _, ⟨rfl, rfl⟩, accepted, rfl⟩
      simp [accepted]

/-- What is made of a published stat. -/
theorem produces_iff {ds : String} {stat : Stat Double} (published : Published filter stats ds stat) {source : Source}
    {name text : String} (emitted : Emitted filter stat source name (.text text)) {pt : Point} :
    Produces newPoint validTime cdnName filter stats ds (source.key name) pt ↔
      (∃ bps, calcDsValues newPoint validTime cdnName (stats.json filter) = .sent bps) ∧
        validTime ds (source.key name) ≤ stats.time.tdiv 1000000 ∧
          ∃ tags statName, readName (source.key name) = some (tags, statName) ∧ newPoint pt = true ∧
            pt = point cdnName
              { dsName := ds, dsMetric := source.key name, time := stats.time.tdiv 1000000, value := text } tags statName := by
  have found := lookup_emitted (t := stats.time.tdiv 1000000) emitted
  constructor
  · rintro ⟨bps, data, ⟨key, old⟩, metric, points, sent, -, json, member, rfl, own, made, here⟩
    obtain ⟨stat', found', use, rfl⟩ := mem_json.mp json
    obtain rfl := Option.some.inj (published.1.symm.trans found')
    obtain rfl := Option.some.inj (found.symm.trans (AList.mem_lookup_iff.mpr member))
    cases own
    exact ⟨⟨bps, sent⟩, (mem_calcMetric made).mp here⟩
  · rintro ⟨⟨bps, sent⟩, made⟩
    obtain ⟨metrics, read, points⟩ := calcDsValues_sent sent
    have json := mem_json.mpr ⟨stat, published.1, published.2, rfl⟩
    have entry := AList.mem_lookup_iff.mp found
    have own := (mem_unmarshalAll read).mpr ⟨ds, _, _, json, entry, rfl⟩
    obtain ⟨tags, statName, named, -⟩ := made.2
    have defined : ∃ made, calcMetric newPoint validTime cdnName
        { dsName := ds, dsMetric := source.key name, time := stats.time.tdiv 1000000, value := text } = some made := by
      refine Option.ne_none_iff_exists'.mp fun unnamed => ?_
      have none := (calcMetric_none_iff.mp unnamed).2
      rw [named] at none
      cases none
    obtain ⟨list, listed⟩ := defined
    have here := (mem_calcMetric listed).mpr made
    exact ⟨bps, _, _, _, list, sent, (points pt).mpr ⟨_, own, list, listed, here⟩, json, entry, rfl, rfl, listed, here⟩

theorem sourceTags_injective {source other : Source} (plain : Plain source) (plain' : Plain other)
    (same : sourceTags source = sourceTags other) : source = other := by
  have noTotal {name : String} (plain : Plain (.group name)) : name ≠ "total" := by
    rintro rfl
    exact plain.2.2 List.suffix_rfl
  cases source with
  | group name =>
    cases other with
    | group name' => simpa [sourceTags] using same
    | type t => simp [sourceTags] at same
    | total => exact absurd (congrArg Tags.cachegroup same) (noTotal plain)
  | type t =>
    cases other with
    | group name' => simp [sourceTags] at same
    | type t' =>
      have names : t.string = t'.string := by simpa [sourceTags] using same
      exact congrArg Source.type (CacheType.string_injective names)
    | total => simp [sourceTags] at same
  | total =>
    cases other with
    | group name' => exact absurd (congrArg Tags.cachegroup same).symm (noTotal plain')
    | type t => simp [sourceTags] at same
    | total => rfl

end Decoding

section Failures

def zeroStats : StatCacheStats Double where
  outBytes := 0
  isAvailable := false
  status5xx := 0
  status4xx := 0
  status3xx := 0
  status2xx := 0
  inBytes := .finite 0
  kbps := .finite 0
  tps5xx := .finite 0
  tps4xx := .finite 0
  tps3xx := .finite 0
  tps2xx := .finite 0
  errorString := ""
  tpsTotal := .finite 0

def oneGroup (name : String) : Stat Double where
  commonStats :=
    { cachesConfiguredNum := 0, cachesReporting := ∅, errorStr := "", statusStr := "", isHealthy := false
      isAvailable := false, cachesAvailableNum := 0, cachesDisabled := none }
  cacheGroups := AList.singleton name zeroStats
  types := ∅
  caches := ∅
  totalStats := zeroStats

def oneService (group : String) : Stats Double where
  deliveryService := AList.singleton "ds" (oneGroup group)
  time := 0

def wildcard (word : String) : DSStatFilter where
  statsToUse := [word]
  wildcard := true
  dsType := .Invalid
  deliveryServices := []
  dsTypes := fun _ => .Invalid

end Failures

end TrafficStats.DsValues
