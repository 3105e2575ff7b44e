import TrafficControl.Lib.ExceptList
import TrafficControl.TrafficRouter.DeliveryServiceMatcher

set_option autoImplicit false

namespace TrafficControl.TrafficRouter

-- The matcher part of a CacheRegister. `matchers` are the matcher objects; a set holds their
-- positions, since its elements change after they were added.
structure MatchSets where
  matchers : List DeliveryServiceMatcher
  dnsServiceMatchers : SearchTree Nat
  httpServiceMatchers : SearchTree Nat

namespace MatchSets

variable (engine : PatternEngine) (rebalance : SearchTree.Rebalance Nat)

def empty : MatchSets := ⟨[], .leaf, .leaf⟩

def matcherAt (matchers : List DeliveryServiceMatcher) (ref : Nat) : DeliveryServiceMatcher :=
  matchers.getD ref ⟨"", []⟩

-- `TreeSet.add`: an equal element stays and the new one is dropped.
def addTo (matchers : List DeliveryServiceMatcher) (set : SearchTree Nat) (ref : Nat) : SearchTree Nat :=
  rebalance.put (fun other => (matcherAt matchers ref).compareTo (matcherAt matchers other)) ref id set

def addMatch (ref : Nat) (sets : MatchSets) (matcherJo : JsonNode) : Except ConfigException MatchSets := do
  let type ← MatchType.valueOf (← JsonUtils.getString matcherJo "match-type")
  let target := JsonUtils.optString matcherJo "target" ""
  let regex ← JsonUtils.getString matcherJo "regex"
  let matcher ← (matcherAt sets.matchers ref).addMatch engine type regex target
  return { sets with matchers := sets.matchers.set ref matcher }

def newMatcher (deliveryServiceId protocol : String) (sets : MatchSets) : MatchSets :=
  let ref := sets.matchers.length
  let sets := { sets with matchers := sets.matchers ++ [⟨deliveryServiceId, []⟩] }
  if protocol = "HTTP" then
    { sets with httpServiceMatchers := addTo rebalance sets.matchers sets.httpServiceMatchers ref }
  else if protocol = "DNS" then
    { sets with dnsServiceMatchers := addTo rebalance sets.matchers sets.dnsServiceMatchers ref }
  else sets

def parseMatchset (deliveryServiceId : String) (sets : MatchSets) (matchset : JsonNode) :
    Except ConfigException MatchSets := do
  let protocol ← JsonUtils.getString matchset "protocol"
  let ref := sets.matchers.length
  let matchlist ← JsonUtils.getJsonNode matchset "matchlist"
  matchlist.elements.foldlM (addMatch engine ref) (sets.newMatcher rebalance deliveryServiceId protocol)

def parseDeliveryService (allDeliveryServices : JsonNode) (sets : MatchSets) (deliveryServiceId : String) :
    Except ConfigException MatchSets := do
  let deliveryServiceJson ← JsonUtils.getJsonNode allDeliveryServices deliveryServiceId
  let matchsets ← JsonUtils.getJsonNode deliveryServiceJson "matchsets"
  matchsets.elements.foldlM (parseMatchset engine rebalance deliveryServiceId) sets

def parseDeliveryServiceMatchSets (allDeliveryServices : JsonObject) : Except ConfigException MatchSets :=
  allDeliveryServices.fieldNames.foldlM
    (parseDeliveryService engine rebalance allDeliveryServices.node) empty

def getDeliveryService (sets : MatchSets) (request : Request) (isHttp : Bool) : Option String :=
  let matchers := if isHttp then sets.httpServiceMatchers else sets.dnsServiceMatchers
  ((matchers.toList.map (matcherAt sets.matchers)).find? (·.matchesRequest engine request)).map (·.deliveryService)

section Reading

-- The same documents read without the sets: what each matchset says.
def readMatch (matcherJo : JsonNode) : Except ConfigException RequestMatcher := do
  let type ← MatchType.valueOf (← JsonUtils.getString matcherJo "match-type")
  let regex ← JsonUtils.getString matcherJo "regex"
  RequestMatcher.new engine type regex (JsonUtils.optString matcherJo "target" "")

def readMatchset (deliveryServiceId : String) (matchset : JsonNode) :
    Except ConfigException (String × DeliveryServiceMatcher) := do
  let protocol ← JsonUtils.getString matchset "protocol"
  let matchlist ← JsonUtils.getJsonNode matchset "matchlist"
  let requestMatchers ← matchlist.elements.mapM (readMatch engine)
  return (protocol, ⟨deliveryServiceId, requestMatchers⟩)

def readDeliveryService (field : String × JsonNode) :
    Except ConfigException (List (String × DeliveryServiceMatcher)) := do
  let matchsets ← JsonUtils.getJsonNode field.2 "matchsets"
  matchsets.elements.mapM (readMatchset engine field.1)

def addMatcher (sets : MatchSets) (ref : Nat) (matcher : RequestMatcher) : MatchSets :=
  let this := matcherAt sets.matchers ref
  { sets with matchers := sets.matchers.set ref ⟨this.deliveryService, this.requestMatchers ++ [matcher]⟩ }

-- What one matchset does to the sets, once it is known to be readable.
def extend (sets : MatchSets) (entry : String × DeliveryServiceMatcher) : MatchSets :=
  { sets.newMatcher rebalance entry.2.deliveryService entry.1 with
    matchers := sets.matchers ++ [entry.2] }

theorem addMatch_read (ref : Nat) (sets : MatchSets) (matcherJo : JsonNode) :
    addMatch engine ref sets matcherJo =
      (readMatch engine matcherJo).map fun matcher => sets.addMatcher ref matcher := by
  simp only [addMatch, readMatch, DeliveryServiceMatcher.addMatch, Except.map, bind, Except.bind, pure, Except.pure]
  cases JsonUtils.getString matcherJo "match-type" with
  | error _ => rfl
  | ok name =>
    simp only []
    cases MatchType.valueOf name with
    | error _ => rfl
    | ok type =>
      cases JsonUtils.getString matcherJo "regex" with
      | error _ => rfl
      | ok regex =>
        simp only []
        cases RequestMatcher.new engine type regex (JsonUtils.optString matcherJo "target" "") <;> rfl

theorem foldl_addMatcher (added : List RequestMatcher) (sets : MatchSets)
    (before : List DeliveryServiceMatcher) (this : DeliveryServiceMatcher)
    (objects : sets.matchers = before ++ [this]) :
    added.foldl (fun sets matcher => sets.addMatcher before.length matcher) sets =
      { sets with matchers := before ++ [{ this with requestMatchers := this.requestMatchers ++ added }] } := by
  induction added generalizing sets this with
  | nil => cases sets; simp_all
  | cons matcher rest ih =>
    have target : matcherAt (before ++ [this]) before.length = this := by simp [matcherAt]
    rw [List.foldl_cons, ih _ { this with requestMatchers := this.requestMatchers ++ [matcher] }]
    · simp [addMatcher, List.append_assoc]
    · simp [addMatcher, target, objects]

theorem parseMatchset_read (deliveryServiceId : String) (sets : MatchSets) (matchset : JsonNode) :
    parseMatchset engine rebalance deliveryServiceId sets matchset =
      (readMatchset engine deliveryServiceId matchset).map (sets.extend rebalance) := by
  simp only [parseMatchset, readMatchset, bind, Except.bind, pure, Except.pure]
  cases JsonUtils.getString matchset "protocol" with
  | error _ => rfl
  | ok protocol =>
    simp only []
    cases JsonUtils.getJsonNode matchset "matchlist" with
    | error _ => rfl
    | ok matchlist =>
      simp only []
      rw [ExceptList.foldlM_read _ (readMatch engine) (fun state => state.addMatcher sets.matchers.length) _
        fun matcherJo _ state => addMatch_read engine _ state matcherJo]
      cases matchlist.elements.mapM (readMatch engine) with
      | error _ => rfl
      | ok requestMatchers =>
        have objects : (sets.newMatcher rebalance deliveryServiceId protocol).matchers =
            sets.matchers ++ [⟨deliveryServiceId, []⟩] := by
          unfold newMatcher
          dsimp only
          split_ifs <;> rfl
        simp only [Except.map, foldl_addMatcher _ _ _ _ objects]
        rfl

theorem parseDeliveryService_read (allDeliveryServices : JsonObject) {field : String × JsonNode}
    (member : field ∈ allDeliveryServices.fields) (sets : MatchSets) :
    parseDeliveryService engine rebalance allDeliveryServices.node sets field.1 =
      (readDeliveryService engine field).map fun entries => entries.foldl (extend rebalance) sets := by
  simp only [parseDeliveryService, readDeliveryService, bind, Except.bind]
  rw [JsonUtils.getJsonNode, allDeliveryServices.get_of_mem member]
  simp only []
  cases JsonUtils.getJsonNode field.2 "matchsets" with
  | error _ => rfl
  | ok matchsets =>
    exact ExceptList.foldlM_read _ _ _ _ (fun matchset _ state =>
      parseMatchset_read engine rebalance field.1 state matchset) sets

theorem parse_read (allDeliveryServices : JsonObject) :
    parseDeliveryServiceMatchSets engine rebalance allDeliveryServices =
      (allDeliveryServices.fields.mapM (readDeliveryService engine)).map
        fun services => services.flatten.foldl (extend rebalance) empty := by
  rw [parseDeliveryServiceMatchSets, JsonObject.fieldNames, List.foldlM_map,
    ExceptList.foldlM_read _ _ _ _ fun field member sets =>
      parseDeliveryService_read engine rebalance allDeliveryServices member sets]
  congr 1
  funext services
  exact List.foldl_flatten.symm

end Reading

section Order

-- What stays of a list of matchers added one by one: all up to the first without a match list.
def retained : List DeliveryServiceMatcher → List DeliveryServiceMatcher
  | [] => []
  | matcher :: rest => if matcher.requestMatchers = [] then [matcher] else matcher :: retained rest

theorem retained_append (before after : List DeliveryServiceMatcher) :
    retained (before ++ after) =
      if ∃ matcher ∈ before, matcher.requestMatchers = [] then retained before
      else before ++ retained after := by
  induction before with
  | nil => simp
  | cons matcher rest ih =>
    by_cases none : matcher.requestMatchers = []
    · simp [retained, none]
    · simp only [List.cons_append, retained, none, if_false, ih, List.mem_cons, exists_eq_or_imp, false_or]
      split_ifs <;> rfl

theorem retained_of_nonempty {added : List DeliveryServiceMatcher}
    (nonempty : ¬∃ matcher ∈ added, matcher.requestMatchers = []) : retained added = added := by
  have split := retained_append added []
  rw [List.append_nil, if_neg nonempty] at split
  simpa [retained] using split

-- Only the last of the retained matchers can be without a match list.
theorem retained_pairwise (added : List DeliveryServiceMatcher) :
    (retained added).Pairwise fun earlier _ => earlier.requestMatchers ≠ [] := by
  induction added with
  | nil => exact .nil
  | cons matcher rest ih =>
    rw [retained]
    split_ifs with none
    · simp
    · exact List.pairwise_cons.mpr ⟨fun _ _ => none, ih⟩

theorem retained_empty {added : List DeliveryServiceMatcher}
    (empty : ∃ matcher ∈ added, matcher.requestMatchers = []) :
    ∃ matcher ∈ retained added, matcher.requestMatchers = [] := by
  induction added with
  | nil => simp at empty
  | cons matcher rest ih =>
    rw [retained]
    split_ifs with none
    · exact ⟨matcher, by simp, none⟩
    · obtain ⟨other, member, otherNone⟩ := empty
      rcases List.mem_cons.mp member with rfl | inRest
      · exact absurd otherNone none
      · obtain ⟨last, inRetained, lastNone⟩ := ih ⟨other, inRest, otherNone⟩
        exact ⟨last, by simp [inRetained], lastNone⟩

/-- The set lists, in order, the retained ones of the matchers that were added to it. -/
structure Lists (matchers : List DeliveryServiceMatcher) (set : SearchTree Nat)
    (added : List DeliveryServiceMatcher) : Prop where
  contents : set.toList.map (matchers[·]?) = (retained added).map some
  ascending : set.toList.Pairwise (· < ·)

theorem Lists.bound {matchers added : List DeliveryServiceMatcher} {set : SearchTree Nat}
    (lists : Lists matchers set added) {ref : Nat} (member : ref ∈ set.toList) : ref < matchers.length := by
  have found := List.mem_map_of_mem (f := (matchers[·]?)) member
  rw [lists.contents] at found
  obtain ⟨matcher, _, some⟩ := List.mem_map.mp found
  exact (List.getElem?_eq_some_iff.mp some.symm).1

theorem Lists.grow {matchers added : List DeliveryServiceMatcher} {set : SearchTree Nat}
    (lists : Lists matchers set added) (matcher : DeliveryServiceMatcher) :
    Lists (matchers ++ [matcher]) set added := by
  refine ⟨lists.contents ▸ List.map_congr_left fun ref member => ?_, lists.ascending⟩
  rw [List.getElem?_append_left (lists.bound member)]

-- What a new element finds when it is compared: its own match list is still empty.
def probe (matchers : List DeliveryServiceMatcher) (deliveryService : String) (other : Nat) : Int :=
  (matcherAt (matchers ++ [⟨deliveryService, []⟩]) matchers.length).compareTo
    (matcherAt (matchers ++ [⟨deliveryService, []⟩]) other)

theorem Lists.probes {matchers added : List DeliveryServiceMatcher} {set : SearchTree Nat}
    (lists : Lists matchers set added) (deliveryService : String) :
    set.toList.map (probe matchers deliveryService) =
      (retained added).map fun matcher => if matcher.requestMatchers = [] then 0 else 1 := by
  let sign (matcher : DeliveryServiceMatcher) : Int := if matcher.requestMatchers = [] then 0 else 1
  have lookup : ∀ ref ∈ set.toList, probe matchers deliveryService ref = (matchers[ref]?.map sign).getD 0 := by
    intro ref member
    have bound := lists.bound member
    rw [probe, DeliveryServiceMatcher.compareTo_empty (by simp [matcherAt])]
    simp [matcherAt, List.getElem?_append_left bound, bound, sign]
  calc
    _ = set.toList.map fun ref => (matchers[ref]?.map sign).getD 0 := List.map_congr_left lookup
    _ = (set.toList.map (matchers[·]?)).map fun found => (found.map sign).getD 0 := by
      rw [List.map_map]; rfl
    _ = _ := by rw [lists.contents, List.map_map]; rfl

theorem Lists.splits {matchers added : List DeliveryServiceMatcher} {set : SearchTree Nat}
    (lists : Lists matchers set added) (deliveryService : String) :
    SearchTree.Splits (probe matchers deliveryService) set.toList := by
  have signs : (set.toList.map (probe matchers deliveryService)).Pairwise fun earlier _ => 0 < earlier := by
    rw [lists.probes, List.pairwise_map]
    exact (retained_pairwise added).imp fun nonempty => by simp [nonempty]
  rw [List.pairwise_map] at signs
  exact signs.imp fun positive => ⟨fun negative => by omega, fun _ => positive⟩

theorem Lists.probe_zero {matchers added : List DeliveryServiceMatcher} {set : SearchTree Nat}
    (lists : Lists matchers set added) (deliveryService : String) (empty : ∃ m ∈ added, m.requestMatchers = []) :
    ∃ ref ∈ set.toList, probe matchers deliveryService ref = 0 := by
  obtain ⟨last, inRetained, none⟩ := retained_empty empty
  rw [← List.mem_map, lists.probes, List.mem_map]
  exact ⟨last, inRetained, if_pos none⟩

theorem Lists.probe_pos {matchers added : List DeliveryServiceMatcher} {set : SearchTree Nat}
    (lists : Lists matchers set added) (deliveryService : String) (nonempty : ¬∃ m ∈ added, m.requestMatchers = []) :
    ∀ ref ∈ set.toList, 0 < probe matchers deliveryService ref := by
  intro ref member
  have found := List.mem_map_of_mem (f := probe matchers deliveryService) member
  rw [lists.probes, retained_of_nonempty nonempty] at found
  obtain ⟨other, inAdded, value⟩ := List.mem_map.mp found
  rw [← value, if_neg fun none => nonempty ⟨other, inAdded, none⟩]
  decide

theorem Lists.add {matchers added : List DeliveryServiceMatcher} {set : SearchTree Nat}
    (lists : Lists matchers set added) (matcher : DeliveryServiceMatcher) :
    Lists (matchers ++ [matcher])
      (addTo rebalance (matchers ++ [⟨matcher.deliveryService, []⟩]) set matchers.length)
      (added ++ [matcher]) := by
  have put : (addTo rebalance (matchers ++ [⟨matcher.deliveryService, []⟩]) set matchers.length).toList =
      (set.put (probe matchers matcher.deliveryService) matchers.length id).toList :=
    SearchTree.Rebalance.toList_put ..
  have old := lists.grow matcher
  by_cases empty : ∃ m ∈ added, m.requestMatchers = []
  · -- The search ends at the element without a match list, and the new one is dropped.
    obtain ⟨before, hit, after, split, _, result⟩ :=
      SearchTree.toList_put_present _ matchers.length id set (lists.splits _)
        (lists.probe_zero matcher.deliveryService empty)
    rw [id, ← split] at result
    have same : retained (added ++ [matcher]) = retained added := by rw [retained_append, if_pos empty]
    exact ⟨by rw [put, result, same, old.contents], by rw [put, result]; exact old.ascending⟩
  · have positive := lists.probe_pos matcher.deliveryService empty
    obtain ⟨before, after, split, result, _, lower⟩ := SearchTree.toList_put_absent _ matchers.length id set
      (lists.splits matcher.deliveryService) fun ref member => Int.ne_of_gt (positive ref member)
    have nothingAfter : after = [] := by
      apply List.eq_nil_iff_forall_not_mem.mpr
      intro ref member
      have negative := lower ref member
      have upper := positive ref (by simp [split, member])
      omega
    rw [nothingAfter, List.append_nil] at split
    rw [nothingAfter, ← split] at result
    have taken : retained (added ++ [matcher]) = retained added ++ [matcher] := by
      rw [retained_append, if_neg empty, retained_of_nonempty empty]
      simp [retained]
    refine ⟨?_, ?_⟩
    · rw [put, result, taken, List.map_append, List.map_append, old.contents]
      simp
    · rw [put, result]
      refine List.pairwise_append.mpr ⟨old.ascending, by simp, fun ref member last inLast => ?_⟩
      obtain rfl := List.mem_singleton.mp inLast
      exact lists.bound member

end Order

end MatchSets

end TrafficControl.TrafficRouter
