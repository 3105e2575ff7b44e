import TrafficControl.TrafficRouter.Dns.CanonicalOrder
import TrafficControl.TrafficRouter.Dns.DynamicZone

set_option autoImplicit false

namespace TrafficControl.TrafficRouter.Dns

open Record

-- The superdomains come last.
def ZoneKey.compareTo (this zk : ZoneKey) : Int :=
  let i := this.name.compareTo zk.name
  if i < 0 then 1 else if 0 < i then -1 else 0

/-- The map of a zone cache. Each zone was loaded from its key. -/
structure ZoneMap where
  entries : ZoneCache
  loaded : ∀ entry ∈ entries, entry.2.origin = entry.1.name

theorem loadZone_origin {env : Environment} {zoneKey : ZoneKey} {zone : Zone} (loaded : (loadZone env zoneKey).2 = some zone) :
    zone.origin = (loadZone env zoneKey).1.name := by
  have made : ∀ {origin : Name} {records : List Record} {zone : Zone}, newZone env origin records = some zone → zone.origin = origin := by
    intro origin records zone accepted
    unfold newZone at accepted
    split_ifs at accepted
    rw [← Option.some.inj accepted]
  unfold loadZone at loaded ⊢
  split_ifs at loaded ⊢
  · obtain ⟨records, _, accepted⟩ := Option.bind_eq_some_iff.mp loaded
    exact made accepted
  · exact made loaded

namespace ZoneMap

variable (zoneMap : ZoneMap)

def sortedKeys (qtype : BitVec 16) : List ZoneKey :=
  let sorted := (zoneMap.entries.map Prod.fst).insertionSort fun a b => a.compareTo b ≤ 0
  if qtype = DS then sorted.reverse else sorted

def getZone (name : Name) (qtype : BitVec 16) : Option Zone :=
  (zoneMap.sortedKeys qtype).findSome? fun key =>
    (getIfPresent zoneMap.entries key).filter fun zone => name.subdomain zone.origin

end ZoneMap

section Order

variable {a b c : ZoneKey}

theorem ZoneKey.compareTo_le : a.compareTo b ≤ 0 ↔ b.name.compareTo a.name ≤ 0 := by
  have swap := @Name.compareTo_swap a.name b.name
  unfold ZoneKey.compareTo
  dsimp only
  split_ifs <;> omega

instance : Std.Total fun a b : ZoneKey => a.compareTo b ≤ 0 :=
  ⟨fun a b => by
    rw [ZoneKey.compareTo_le, ZoneKey.compareTo_le]
    exact Name.compareTo_total b.name a.name⟩

instance : IsTrans ZoneKey fun a b => a.compareTo b ≤ 0 :=
  ⟨fun a b c first second => by
    rw [ZoneKey.compareTo_le] at first second ⊢
    exact Name.compareTo_le_trans second first⟩

theorem ZoneKey.equals_name (same : a.equals b = true) : a.name.equals b.name = true := by
  unfold ZoneKey.equals at same
  rw [Bool.and_eq_true, Bool.and_eq_true] at same
  exact same.1.1

end Order

section Lookup

variable {zoneMap : ZoneMap} {name : Name} {qtype : BitVec 16}

theorem mem_sortedKeys {key : ZoneKey} : key ∈ zoneMap.sortedKeys qtype ↔ ∃ entry ∈ zoneMap.entries, entry.1 = key := by
  unfold ZoneMap.sortedKeys
  dsimp only
  split_ifs
  · rw [List.mem_reverse, List.mem_insertionSort, List.mem_map]
  · rw [List.mem_insertionSort, List.mem_map]

/-- The zone under a key of the map has the origin that the key names. -/
theorem getIfPresent_loaded {key : ZoneKey} (member : key ∈ zoneMap.sortedKeys qtype) :
    ∃ entry ∈ zoneMap.entries, getIfPresent zoneMap.entries key = some entry.2 ∧ entry.2.origin.canonical = key.name.canonical := by
  obtain ⟨entry, inMap, rfl⟩ := mem_sortedKeys.mp member
  have itself : entry.1.equals entry.1 = true := by simp [ZoneKey.equals, Name.equals]
  cases found : zoneMap.entries.find? fun other => other.1.equals entry.1 with
  | none => exact absurd itself (by simpa using List.find?_eq_none.mp found entry inMap)
  | some other =>
    refine ⟨other, List.mem_of_find?_eq_some found, by rw [getIfPresent, found]; rfl, ?_⟩
    have same := ZoneKey.equals_name (List.find?_some (p := fun other : ZoneKey × Zone => other.1.equals entry.1) found)
    rw [zoneMap.loaded other (List.mem_of_find?_eq_some found)]
    exact Name.equals_iff.mp same

theorem Name.compareTo_congr {a a' b b' : Name} (first : a.canonical = a'.canonical) (second : b.canonical = b'.canonical) :
    a.compareTo b = a'.compareTo b' := by
  rw [Name.compareTo, Name.compareTo, first, second]

theorem Name.subdomain_congr {a b b' : Name} (same : b.canonical = b'.canonical) : a.subdomain b = a.subdomain b' := by
  rw [Name.subdomain, Name.subdomain, same]

theorem getZone_none_iff : zoneMap.getZone name qtype = none ↔ ∀ entry ∈ zoneMap.entries, name.subdomain entry.2.origin = false := by
  unfold ZoneMap.getZone
  rw [List.findSome?_eq_none_iff]
  constructor
  · intro none entry inMap
    have member : entry.1 ∈ zoneMap.sortedKeys qtype := mem_sortedKeys.mpr ⟨entry, inMap, rfl⟩
    obtain ⟨other, _, loaded, origin⟩ := getIfPresent_loaded member
    have missed := none entry.1 member
    rw [loaded, Option.filter_eq_none_iff] at missed
    rw [zoneMap.loaded entry inMap, ← Name.subdomain_congr origin, ← Bool.not_eq_true]
    exact missed other.2 rfl
  · intro none key member
    obtain ⟨entry, inMap, loaded, _⟩ := getIfPresent_loaded member
    rw [loaded, Option.filter_eq_none_iff]
    rintro zone ⟨⟩
    rw [none entry inMap]
    exact Bool.false_ne_true

theorem sortedKeys_pairwise : (zoneMap.sortedKeys qtype).Pairwise fun a b =>
    if qtype = DS then a.name.compareTo b.name ≤ 0 else b.name.compareTo a.name ≤ 0 := by
  have sorted := List.pairwise_insertionSort (fun a b : ZoneKey => a.compareTo b ≤ 0) (zoneMap.entries.map Prod.fst)
  simp only [ZoneKey.compareTo_le] at sorted
  unfold ZoneMap.sortedKeys
  dsimp only
  split_ifs
  · rw [List.pairwise_reverse]
    simpa only [ZoneKey.compareTo_le] using sorted
  · simpa only [ZoneKey.compareTo_le] using sorted

/-- The zone that is found encloses the name, and the order of the keys puts no other such zone before it. -/
theorem getZone_first {zone : Zone} (found : zoneMap.getZone name qtype = some zone) :
    (∃ entry ∈ zoneMap.entries, entry.2 = zone) ∧ name.subdomain zone.origin = true ∧
      ∀ entry ∈ zoneMap.entries, name.subdomain entry.2.origin = true →
        if qtype = DS then zone.origin.compareTo entry.2.origin ≤ 0 else entry.2.origin.compareTo zone.origin ≤ 0 := by
  obtain ⟨before, key, after, split, hit, missed⟩ := List.findSome?_eq_some_iff.mp found
  have member : key ∈ zoneMap.sortedKeys qtype := by
    rw [split]
    exact List.mem_append_right _ List.mem_cons_self
  obtain ⟨entry, inMap, loaded, origin⟩ := getIfPresent_loaded member
  rw [loaded] at hit
  obtain ⟨same, encloses⟩ := Option.filter_eq_some_iff.mp hit
  obtain rfl := Option.some.inj same
  refine ⟨⟨entry, inMap, rfl⟩, encloses, fun other inMap' encloses' => ?_⟩
  have member' : other.1 ∈ zoneMap.sortedKeys qtype := mem_sortedKeys.mpr ⟨other, inMap', rfl⟩
  have later : other.1 ∉ before := fun earlier => by
    obtain ⟨third, _, loaded', origin'⟩ := getIfPresent_loaded member'
    have miss := missed other.1 earlier
    rw [loaded', Option.filter_eq_none_iff] at miss
    rw [zoneMap.loaded other inMap', ← Name.subdomain_congr origin'] at encloses'
    exact miss third.2 rfl encloses'
  have pairs := @sortedKeys_pairwise zoneMap qtype
  rw [split] at member' pairs
  rw [zoneMap.loaded other inMap', Name.compareTo_congr origin rfl, Name.compareTo_congr rfl origin]
  rcases List.mem_cons.mp ((List.mem_append.mp member').resolve_left later) with first | second
  · rw [first, Name.compareTo_zero.mpr (Name.equals_iff.mpr rfl)]
    exact (ite_self _).mpr le_rfl
  · exact (List.pairwise_cons.mp (List.pairwise_append.mp pairs).2.1).1 other.1 second

/-- Of two origins that enclose a name, one that is not later in the canonical order is not longer. -/
theorem length_le_of_compareTo {a b : Name} (first : name.subdomain a = true) (second : name.subdomain b = true)
    (order : a.compareTo b ≤ 0) : a.labels.length ≤ b.labels.length := by
  by_contra longer
  have shorter := Nat.not_le.mp longer
  have before := Name.compareTo_of_subdomain (Name.subdomain_of_subdomains second first shorter.le) shorter
  rw [Name.compareTo_swap] at before
  omega

/-- The zone of the longest origin that encloses the name, but of the shortest one for DS. -/
theorem getZone_closest (zoneMap : ZoneMap) (name : Name) (qtype : BitVec 16) :
    (zoneMap.getZone name qtype = none ↔ ∀ entry ∈ zoneMap.entries, name.subdomain entry.2.origin = false) ∧
      ∀ zone, zoneMap.getZone name qtype = some zone →
        (∃ entry ∈ zoneMap.entries, entry.2 = zone) ∧ name.subdomain zone.origin = true ∧
        (qtype ≠ DS → ∀ entry ∈ zoneMap.entries, name.subdomain entry.2.origin = true →
          entry.2.origin.labels.length ≤ zone.origin.labels.length) ∧
        (qtype = DS → ∀ entry ∈ zoneMap.entries, name.subdomain entry.2.origin = true →
          zone.origin.labels.length ≤ entry.2.origin.labels.length) := by
  refine ⟨getZone_none_iff, fun zone found => ?_⟩
  obtain ⟨inMap, encloses, first⟩ := getZone_first found
  refine ⟨inMap, encloses, fun other entry member encloses' => ?_, fun same entry member encloses' => ?_⟩
  · have order := first entry member encloses'
    rw [if_neg other] at order
    exact length_le_of_compareTo encloses' encloses order
  · have order := first entry member encloses'
    rw [if_pos same] at order
    exact length_le_of_compareTo encloses encloses' order

end Lookup

section Samples

def asciiLabel (label : String) : List SignedBytes.Byte := label.toList.map fun c => BitVec.ofNat 8 c.toNat

-- A zone without records.
def emptyZone (labels : List String) : ZoneKey × Zone :=
  (.new false ⟨labels.map asciiLabel⟩ [], ⟨⟨labels.map asciiLabel⟩, []⟩)

-- A delivery service below another one.
def nestedZones : ZoneMap where
  entries := [emptyZone ["cdn", "example"], emptyZone ["video", "cdn", "example"], emptyZone ["live", "video", "cdn", "example"]]
  loaded := by
    intro entry member
    rcases List.mem_cons.mp member with rfl | member
    · rfl
    rcases List.mem_cons.mp member with rfl | member
    · rfl
    rw [List.mem_singleton.mp member]
    rfl

/-- The zone for DS records is two levels above the name, with another one between them. -/
theorem getZone_notParent :
    nestedZones.getZone (emptyZone ["live", "video", "cdn", "example"]).2.origin DS = some (emptyZone ["cdn", "example"]).2 ∧
      emptyZone ["video", "cdn", "example"] ∈ nestedZones.entries ∧
      (emptyZone ["live", "video", "cdn", "example"]).2.origin.subdomain (emptyZone ["video", "cdn", "example"]).2.origin = true ∧
      (emptyZone ["cdn", "example"]).2.origin.labels.length < (emptyZone ["video", "cdn", "example"]).2.origin.labels.length ∧
      (emptyZone ["video", "cdn", "example"]).2.origin.labels.length < (emptyZone ["live", "video", "cdn", "example"]).2.origin.labels.length :=
  ⟨rfl, List.mem_cons_of_mem _ List.mem_cons_self, rfl, by decide, by decide⟩

end Samples

end TrafficControl.TrafficRouter.Dns
