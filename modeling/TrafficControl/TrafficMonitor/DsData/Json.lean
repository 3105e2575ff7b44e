import TrafficControl.Lib.DottedNames
import TrafficControl.Lib.DoubleText
import TrafficControl.Lib.PutAll
import TrafficControl.TrafficMonitor.DsData.Data
import TrafficControl.TrafficMonitor.ToData.Data

set_option autoImplicit false

-- The names under which `Stats.JSON` publishes the stats of the delivery services.
namespace TrafficControl.TrafficMonitor.DsData

open DottedNames DoubleText PutAll

structure DSStatFilter where
  statsToUse : List String
  wildcard : Bool
  dsType : DSType
  deliveryServices : List String
  dsTypes : String → DSType

namespace DSStatFilter

variable (f : DSStatFilter)

def useDeliveryService (name : String) : Bool :=
  if f.deliveryServices.length ≠ 0 ∧ name ∉ f.deliveryServices then false
  else if f.dsType ≠ .Invalid ∧ f.dsTypes name ≠ f.dsType then false
  else true

def useStat (statName : String) : Bool :=
  if f.statsToUse.length = 0 then true
  else if !f.wildcard then statName ∈ f.statsToUse
  else f.statsToUse.any fun statToUse => statToUse.toList <:+: statName.toList

end DSStatFilter

inductive StatValue where
  | text (value : String)
  | slice (value : Option (List String))

structure StatOld where
  time : Int
  value : StatValue

abbrev Metrics := AList fun _ : String => StatOld

section Items

variable (filter : DSStatFilter) (t : Int)

-- What `add` puts for the stats that the filter lets through.
def used (key : String → String) (named : List (String × StatValue)) : List (String × StatOld) :=
  (named.filter fun stat => filter.useStat stat.1).map fun (name, val) => (key name, { time := t, value := val })

def commonStats (c : StatCommon) : List (String × StatValue) :=
  [("caches-configured", .text (toString c.cachesConfiguredNum)),
    ("caches-reporting", .text (toString c.cachesReporting.entries.length)),
    ("error-string", .text c.errorStr),
    ("status", .text c.statusStr),
    ("isHealthy", .text (toString c.isHealthy)),
    ("isAvailable", .text (toString c.isAvailable)),
    ("caches-available", .text (toString c.cachesAvailableNum)),
    ("disabledLocations", .slice c.cachesDisabled)]

def addCommonData (s : Metrics) (c : StatCommon) : Metrics :=
  putAll Prod.fst Prod.snd s (used filter t id (commonStats c))

def cacheStats (c : StatCacheStats Double) : List (String × StatValue) :=
  [("out_bytes", .text (toString c.outBytes)),
    ("isAvailable", .text (toString c.isAvailable)),
    ("status_5xx", .text (toString c.status5xx)),
    ("status_4xx", .text (toString c.status4xx)),
    ("status_3xx", .text (toString c.status3xx)),
    ("status_2xx", .text (toString c.status2xx)),
    ("in_bytes", .text (toString (toInt64 c.inBytes))),
    ("kbps", .text (toString (toInt64 c.kbps))),
    ("tps_5xx", .text (printFixed c.tps5xx)),
    ("tps_4xx", .text (printFixed c.tps4xx)),
    ("tps_3xx", .text (printFixed c.tps3xx)),
    ("tps_2xx", .text (printFixed c.tps2xx)),
    ("error-string", .text c.errorString),
    ("tps_total", .text (printFixed c.tpsTotal))]

def addStatCacheStats (s : Metrics) (c : StatCacheStats Double) (start : String) : Metrics :=
  let key name := if name = "isAvailable" ∨ name = "error-string" then "location." ++ start ++ name else start ++ name
  putAll Prod.fst Prod.snd s (used filter t key (cacheStats c))

def statJson (stat : Stat Double) : Metrics :=
  let s := addCommonData filter t ∅ stat.commonStats
  let s := stat.cacheGroups.entries.foldl (fun s group => addStatCacheStats filter t s group.2 ("location." ++ group.1 ++ ".")) s
  let s := stat.types.entries.foldl (fun s type => addStatCacheStats filter t s type.2 ("type." ++ type.1.string ++ ".")) s
  addStatCacheStats filter t s stat.totalStats "total."

end Items

/-- The time is in milliseconds. -/
def Stats.json (s : Stats Double) (filter : DSStatFilter) : List (String × Metrics) :=
  let now := s.time.tdiv 1000000
  (s.deliveryService.entries.filter fun entry => filter.useDeliveryService entry.1).map fun entry =>
    (entry.1, statJson filter now entry.2)

/-- What a set of cache stats is of. -/
inductive Source where
  | group (name : String)
  | type (t : CacheType)
  | total
  deriving DecidableEq

namespace Source

def front : Source → String
  | .group name => "location." ++ name
  | .type t => "type." ++ t.string
  | .total => "total"

def key (source : Source) (name : String) : String := source.front ++ "." ++ name

def statKey (source : Source) (name : String) : String :=
  if name = "isAvailable" ∨ name = "error-string" then "location." ++ (source.front ++ ".") ++ name else source.key name

theorem front_injective {source other : Source} (same : source.front = other.front) : source = other := by
  have chars := congrArg String.toList same
  cases source with
  | group name =>
    cases other with
    | group name' =>
      have names : name.toList = name'.toList := by simpa [front] using chars
      exact congrArg Source.group (String.toList_injective names)
    | type t => simp [front] at chars
    | total => simp [front] at chars
  | type t =>
    cases other with
    | group name' => simp [front] at chars
    | type t' =>
      have names : t.string.toList = t'.string.toList := by simpa [front] using chars
      exact congrArg Source.type (CacheType.string_injective (String.toList_injective names))
    | total => simp [front] at chars
  | total =>
    cases other with
    | group name' => simp [front] at chars
    | type t => simp [front] at chars
    | total => rfl

end Source

def Stat.sources (stat : Stat Double) : List (Source × StatCacheStats Double) :=
  (stat.cacheGroups.entries.map fun group => (.group group.1, group.2)) ++
    ((stat.types.entries.map fun type => (.type type.1, type.2)) ++ [(.total, stat.totalStats)])

def statNames : List String :=
  ["out_bytes", "isAvailable", "status_5xx", "status_4xx", "status_3xx", "status_2xx", "in_bytes", "kbps", "tps_5xx",
    "tps_4xx", "tps_3xx", "tps_2xx", "error-string", "tps_total"]

def commonNames : List String :=
  ["caches-configured", "caches-reporting", "error-string", "status", "isHealthy", "isAvailable", "caches-available",
    "disabledLocations"]

theorem cacheStats_names (c : StatCacheStats Double) : (cacheStats c).map Prod.fst = statNames := rfl

theorem commonStats_names (c : StatCommon) : (commonStats c).map Prod.fst = commonNames := rfl

theorem statName_dotless {name : String} (member : name ∈ statNames) : '.' ∉ name.toList := by
  have all : (statNames.all fun name => decide ('.' ∉ name.toList)) = true := by decide
  exact of_decide_eq_true (List.all_eq_true.mp all name member)

theorem commonName_dotless {name : String} (member : name ∈ commonNames) : '.' ∉ name.toList := by
  have all : (commonNames.all fun name => decide ('.' ∉ name.toList)) = true := by decide
  exact of_decide_eq_true (List.all_eq_true.mp all name member)

theorem mem_statNames {c : StatCacheStats Double} {name : String} {val : StatValue} (member : (name, val) ∈ cacheStats c) :
    name ∈ statNames :=
  List.mem_map_of_mem (f := Prod.fst) member

theorem split_key {source : Source} {name : String} (member : name ∈ statNames) :
    (source.key name).toList.splitOn '.' = source.front.toList.splitOn '.' ++ [name.toList] := by
  have chars : (source.key name).toList = source.front.toList ++ '.' :: name.toList := by simp [Source.key]
  rw [chars, split_append_last (statName_dotless member)]

theorem split_doubled {source : Source} {name : String} (member : name ∈ statNames) :
    ("location." ++ (source.front ++ ".") ++ name).toList.splitOn '.' =
      "location".toList :: (source.front.toList.splitOn '.' ++ [name.toList]) := by
  have chars : ("location." ++ (source.front ++ ".") ++ name).toList =
      "location".toList ++ '.' :: (source.front.toList ++ '.' :: name.toList) := by simp
  rw [chars, split_cons_part (by decide), split_append_last (statName_dotless member)]

/-- The published names of the counted stats tell the stats apart. -/
theorem statKey_eq_key {source other : Source} {name stat : String} (member : name ∈ statNames) (counted : stat ∈ statNames)
    (plain : ¬(stat = "isAvailable" ∨ stat = "error-string")) (same : other.statKey name = source.key stat) :
    other = source ∧ name = stat := by
  have parts := congrArg (fun key : String => key.toList.splitOn '.') same
  simp only [split_key counted] at parts
  unfold Source.statKey at same parts
  split at parts
  · next doubled =>
    rw [split_doubled member, ← List.cons_append] at parts
    have names := List.append_inj_right' parts rfl
    obtain rfl := String.toList_injective (List.singleton_inj.mp names)
    exact absurd doubled plain
  · next single =>
    rw [if_neg single] at same
    rw [split_key member] at parts
    have names := List.append_inj_right' parts rfl
    obtain rfl := String.toList_injective (List.singleton_inj.mp names)
    refine ⟨Source.front_injective ?_, rfl⟩
    have chars := congrArg String.toList same
    have fronts : other.front.toList = source.front.toList := by simpa [Source.key] using chars
    exact String.toList_injective fronts

section Lookups

variable {filter : DSStatFilter} {t : Int} {stat : Stat Double}

def items (filter : DSStatFilter) (t : Int) (stat : Stat Double) : List (String × StatOld) :=
  used filter t id (commonStats stat.commonStats) ++
    stat.sources.flatMap fun source => used filter t source.1.statKey (cacheStats source.2)

theorem addStatCacheStats_front (s : Metrics) (c : StatCacheStats Double) (source : Source) :
    addStatCacheStats filter t s c (source.front ++ ".") =
      putAll Prod.fst Prod.snd s (used filter t source.statKey (cacheStats c)) :=
  rfl

theorem statJson_eq : statJson filter t stat = putAll Prod.fst Prod.snd ∅ (items filter t stat) := by
  have total : "total." = Source.total.front ++ "." := rfl
  have group (name : String) : "location." ++ name ++ "." = (Source.group name).front ++ "." := rfl
  have type (type : CacheType) : "type." ++ type.string ++ "." = (Source.type type).front ++ "." := rfl
  simp only [statJson, total, group, type, addStatCacheStats_front, addCommonData, items, Stat.sources, putAll,
    List.foldl_append, List.foldl_flatMap, List.foldl_map, List.foldl_cons, List.foldl_nil]

theorem mem_used {key : String → String} {named : List (String × StatValue)} {item : String × StatOld} :
    item ∈ used filter t key named ↔
      ∃ name val, (name, val) ∈ named ∧ filter.useStat name = true ∧ item = (key name, { time := t, value := val }) := by
  simp only [used, List.mem_map, List.mem_filter, Prod.exists]
  constructor
  · rintro ⟨name, val, ⟨member, use⟩, rfl⟩
    exact ⟨name, val, member, use, rfl⟩
  · rintro ⟨name, val, member, use, rfl⟩
    exact ⟨name, val, ⟨member, use⟩, rfl⟩

theorem mem_statJson {key : String} : key ∈ statJson filter t stat ↔
    key ∈ commonNames ∧ filter.useStat key = true ∨
      ∃ source c name, (source, c) ∈ stat.sources ∧ name ∈ statNames ∧ filter.useStat name = true ∧
        source.statKey name = key := by
  rw [statJson_eq, mem_putAll_empty]
  simp only [items, List.mem_append, List.mem_flatMap, mem_used]
  constructor
  · rintro ⟨_, ⟨name, val, member, use, rfl⟩ | ⟨⟨source, c⟩, ofStat, name, val, member, use, rfl⟩, rfl⟩
    · exact Or.inl ⟨List.mem_map_of_mem (f := Prod.fst) member, use⟩
    · exact Or.inr ⟨source, c, name, ofStat, mem_statNames member, use, rfl⟩
  · rintro (⟨member, use⟩ | ⟨source, c, name, ofStat, member, use, rfl⟩)
    · rw [← commonStats_names stat.commonStats] at member
      obtain ⟨⟨_, val⟩, stat, rfl⟩ := List.mem_map.mp member
      exact ⟨_, Or.inl ⟨_, val, stat, use, rfl⟩, rfl⟩
    · rw [← cacheStats_names c] at member
      obtain ⟨⟨_, val⟩, stat, rfl⟩ := List.mem_map.mp member
      exact ⟨_, Or.inr ⟨(source, c), ofStat, _, val, stat, use, rfl⟩, rfl⟩

/-- A counted stat that the filter lets through. -/
def Emitted (filter : DSStatFilter) (stat : Stat Double) (source : Source) (name : String) (val : StatValue) : Prop :=
  ∃ c, (source, c) ∈ stat.sources ∧ (name, val) ∈ cacheStats c ∧ filter.useStat name = true ∧
    ¬(name = "isAvailable" ∨ name = "error-string")

theorem Emitted.name_mem {source : Source} {name : String} {val : StatValue} (emitted : Emitted filter stat source name val) :
    name ∈ statNames := by
  obtain ⟨c, -, member, -⟩ := emitted
  exact mem_statNames member

theorem sources_unique {source : Source} {c c' : StatCacheStats Double} (member : (source, c) ∈ stat.sources)
    (other : (source, c') ∈ stat.sources) : c = c' := by
  simp only [Stat.sources, List.mem_append, List.mem_map, List.mem_singleton, Prod.mk.injEq] at member other
  cases source with
  | group name =>
    simp only [Source.group.injEq, reduceCtorEq, false_and, and_false, exists_false, or_false] at member other
    obtain ⟨⟨_, _⟩, group, rfl, rfl⟩ := member
    obtain ⟨⟨_, _⟩, group', rfl, rfl⟩ := other
    exact stat.cacheGroups.nodupKeys.eq_of_mk_mem group group'
  | type type =>
    simp only [Source.type.injEq, reduceCtorEq, false_and, and_false, exists_false, or_false, false_or] at member other
    obtain ⟨⟨_, _⟩, type, rfl, rfl⟩ := member
    obtain ⟨⟨_, _⟩, type', rfl, rfl⟩ := other
    exact stat.types.nodupKeys.eq_of_mk_mem type type'
  | total =>
    simp only [reduceCtorEq, false_and, and_false, exists_false, false_or, true_and] at member other
    exact member.trans other.symm

theorem cacheStats_unique {c : StatCacheStats Double} {name : String} {val other : StatValue}
    (member : (name, val) ∈ cacheStats c) (second : (name, other) ∈ cacheStats c) : val = other := by
  have distinct : ((cacheStats c).map Prod.fst).Nodup := by
    rw [cacheStats_names]
    decide
  exact congrArg Prod.snd (List.inj_on_of_nodup_map distinct member second rfl)

theorem commonStats_unique {c : StatCommon} {name : String} {val other : StatValue} (member : (name, val) ∈ commonStats c)
    (second : (name, other) ∈ commonStats c) : val = other := by
  have distinct : ((commonStats c).map Prod.fst).Nodup := by
    rw [commonStats_names]
    decide
  exact congrArg Prod.snd (List.inj_on_of_nodup_map distinct member second rfl)

theorem statKey_dotted (source : Source) (name : String) : '.' ∈ (source.statKey name).toList := by
  unfold Source.statKey Source.key
  split <;> simp

theorem lookup_mem {key : String} {data : StatOld} (found : (statJson filter t stat).lookup key = some data) :
    (key, data) ∈ items filter t stat := by
  rw [statJson_eq] at found
  obtain ⟨item, put, rfl, rfl⟩ := lookup_putAll_empty found
  exact put

theorem lookup_time {key : String} {data : StatOld} (found : (statJson filter t stat).lookup key = some data) :
    data.time = t := by
  rcases List.mem_append.mp (lookup_mem found) with put | ofStats
  · obtain ⟨name, val, -, -, same⟩ := mem_used.mp put
    exact (Prod.mk.inj same).2 ▸ rfl
  · obtain ⟨source, -, put⟩ := List.mem_flatMap.mp ofStats
    obtain ⟨name, val, -, -, same⟩ := mem_used.mp put
    exact (Prod.mk.inj same).2 ▸ rfl

theorem lookup_common {name : String} {val : StatValue} (member : (name, val) ∈ commonStats stat.commonStats)
    (use : filter.useStat name = true) : (statJson filter t stat).lookup name = some { time := t, value := val } := by
  have common := List.mem_map_of_mem (f := Prod.fst) member
  obtain ⟨data, found⟩ := Option.isSome_iff_exists.mp (AList.lookup_isSome.mpr (mem_statJson.mpr (Or.inl ⟨common, use⟩)))
  rw [found]
  rcases List.mem_append.mp (lookup_mem found) with put | ofStats
  · obtain ⟨other, val', member', -, same⟩ := mem_used.mp put
    obtain ⟨rfl, rfl⟩ := Prod.mk.inj same
    rw [commonStats_unique member member']
  · obtain ⟨⟨source, c⟩, -, put⟩ := List.mem_flatMap.mp ofStats
    obtain ⟨other, val', -, -, same⟩ := mem_used.mp put
    obtain ⟨rfl, -⟩ := Prod.mk.inj same
    exact absurd (statKey_dotted source other) (commonName_dotless common)

theorem lookup_emitted {source : Source} {name : String} {val : StatValue} (emitted : Emitted filter stat source name val) :
    (statJson filter t stat).lookup (source.key name) = some { time := t, value := val } := by
  obtain ⟨c, ofSource, member, use, plain⟩ := emitted
  have key : source.statKey name = source.key name := if_neg plain
  have present : source.key name ∈ statJson filter t stat :=
    mem_statJson.mpr (Or.inr ⟨source, c, name, ofSource, mem_statNames member, use, key⟩)
  obtain ⟨data, found⟩ := Option.isSome_iff_exists.mp (AList.lookup_isSome.mpr present)
  rw [found]
  rcases List.mem_append.mp (lookup_mem found) with common | ofStats
  · obtain ⟨other, val, member, -, same⟩ := mem_used.mp common
    obtain ⟨own, rfl⟩ := Prod.mk.inj same
    have dotted := statKey_dotted source name
    rw [key, own] at dotted
    exact absurd dotted (commonName_dotless (List.mem_map_of_mem (f := Prod.fst) member))
  · obtain ⟨⟨other, c'⟩, ofOther, put⟩ := List.mem_flatMap.mp ofStats
    obtain ⟨name', val', member', -, same⟩ := mem_used.mp put
    obtain ⟨own, rfl⟩ := Prod.mk.inj same
    obtain ⟨rfl, rfl⟩ := statKey_eq_key (mem_statNames member') (mem_statNames member) plain own.symm
    obtain rfl := sources_unique ofSource ofOther
    rw [cacheStats_unique member member']

theorem cacheStats_text {c : StatCacheStats Double} {name : String} {val : StatValue} (member : (name, val) ∈ cacheStats c) :
    ∃ text, val = .text text := by
  have all : ∀ stat ∈ cacheStats c, ∃ text, stat.2 = .text text := by simp [cacheStats]
  exact all _ member

theorem lookup_slice {key : String} {data : StatOld} {locations : List String}
    (found : (statJson filter t stat).lookup key = some data) (slice : data.value = .slice (some locations)) :
    filter.useStat "disabledLocations" = true ∧ stat.commonStats.cachesDisabled = some locations := by
  rcases List.mem_append.mp (lookup_mem found) with put | ofStats
  · obtain ⟨name, val, member, use, same⟩ := mem_used.mp put
    obtain ⟨rfl, rfl⟩ := Prod.mk.inj same
    have only : ∀ entry ∈ commonStats stat.commonStats, entry.2 = .slice (some locations) →
        entry.1 = "disabledLocations" ∧ stat.commonStats.cachesDisabled = some locations := by simp [commonStats]
    obtain ⟨name, disabled⟩ := only _ member slice
    exact ⟨name ▸ use, disabled⟩
  · obtain ⟨⟨source, c⟩, -, put⟩ := List.mem_flatMap.mp ofStats
    obtain ⟨name, val, member, -, same⟩ := mem_used.mp put
    obtain ⟨rfl, rfl⟩ := Prod.mk.inj same
    obtain ⟨text, rfl⟩ := cacheStats_text member
    cases slice

theorem mem_json {s : Stats Double} {ds : String} {data : Metrics} : (ds, data) ∈ s.json filter ↔
    ∃ stat, s.deliveryService.lookup ds = some stat ∧ filter.useDeliveryService ds = true ∧
      data = statJson filter (s.time.tdiv 1000000) stat := by
  simp only [Stats.json, List.mem_map, List.mem_filter]
  constructor
  · rintro ⟨⟨ds, stat⟩, ⟨member, use⟩, same⟩
    obtain ⟨rfl, rfl⟩ := Prod.mk.inj same
    exact ⟨stat, AList.mem_lookup_iff.mpr member, use, rfl⟩
  · rintro ⟨stat, found, use, rfl⟩
    exact ⟨⟨ds, stat⟩, ⟨AList.mem_lookup_iff.mp found, use⟩, rfl⟩

end Lookups

end TrafficControl.TrafficMonitor.DsData
