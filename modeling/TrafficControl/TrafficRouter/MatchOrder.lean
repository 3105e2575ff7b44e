import Mathlib.Data.List.Induction
import Mathlib.Data.List.Nodup
import Mathlib.Data.Option.Basic
import TrafficControl.TrafficRouter.MatchSets

set_option autoImplicit false

namespace TrafficControl.TrafficRouter.MatchSets

variable (engine : PatternEngine) (rebalance : SearchTree.Rebalance Nat)

def ofProtocol (isHttp : Bool) (entries : List (String × DeliveryServiceMatcher)) :
    List DeliveryServiceMatcher :=
  (entries.filter fun entry => entry.1 = if isHttp then "HTTP" else "DNS").map (·.2)

def setOf (sets : MatchSets) (isHttp : Bool) : SearchTree Nat :=
  if isHttp then sets.httpServiceMatchers else sets.dnsServiceMatchers

def Correct (sets : MatchSets) (entries : List (String × DeliveryServiceMatcher)) : Prop :=
  ∀ isHttp, Lists sets.matchers (sets.setOf isHttp) (ofProtocol isHttp entries)

theorem extend_correct {sets : MatchSets} {entries : List (String × DeliveryServiceMatcher)}
    (correct : Correct sets entries) (entry : String × DeliveryServiceMatcher) :
    Correct (sets.extend rebalance entry) (entries ++ [entry]) := by
  intro isHttp
  have old := correct isHttp
  have taken : ofProtocol isHttp (entries ++ [entry]) = ofProtocol isHttp entries ++
      if entry.1 = (if isHttp then "HTTP" else "DNS") then [entry.2] else [] := by
    simp only [ofProtocol, List.filter_append, List.map_append, List.filter_cons, List.filter_nil]
    split_ifs <;> simp_all
  rw [taken]
  by_cases http : entry.1 = "HTTP"
  · cases isHttp with
    | true => simpa [extend, newMatcher, http, setOf] using old.add rebalance entry.2
    | false => simpa [extend, newMatcher, http, setOf] using old.grow entry.2
  · by_cases dns : entry.1 = "DNS"
    · cases isHttp with
      | true => simpa [extend, newMatcher, dns, setOf] using old.grow entry.2
      | false => simpa [extend, newMatcher, dns, setOf] using old.add rebalance entry.2
    · cases isHttp <;> simpa [extend, newMatcher, http, dns, setOf] using old.grow entry.2

theorem foldl_extend_correct (entries : List (String × DeliveryServiceMatcher)) :
    Correct (entries.foldl (extend rebalance) empty) entries := by
  induction entries using List.reverseRecOn with
  | nil => intro isHttp; cases isHttp <;> exact ⟨rfl, .nil⟩
  | append_singleton entries entry ih =>
    rw [List.foldl_append]
    exact extend_correct rebalance ih entry

def iteration (sets : MatchSets) (isHttp : Bool) : List DeliveryServiceMatcher :=
  (sets.setOf isHttp).toList.map (matcherAt sets.matchers)

theorem iteration_eq {sets : MatchSets} {entries : List (String × DeliveryServiceMatcher)}
    (correct : Correct sets entries) (isHttp : Bool) :
    sets.iteration isHttp = retained (ofProtocol isHttp entries) := by
  apply List.map_injective_iff.mpr (Option.some_injective _)
  rw [← (correct isHttp).contents, iteration, List.map_map]
  apply List.map_congr_left
  intro ref member
  have bound := (correct isHttp).bound member
  simp [matcherAt, bound]

theorem getDeliveryService_eq (sets : MatchSets) (request : Request) (isHttp : Bool) :
    sets.getDeliveryService engine request isHttp =
      ((sets.iteration isHttp).find? (·.matchesRequest engine request)).map (·.deliveryService) := by
  cases isHttp <;> rfl

-- The matchers that a delivery service's matchsets describe, in document order.
def matchersOf (isHttp : Bool) (field : String × JsonNode) : List DeliveryServiceMatcher :=
  match readDeliveryService engine field with
  | .error _ => []
  | .ok entries => ofProtocol isHttp entries

def documentOrder (isHttp : Bool) (allDeliveryServices : JsonObject) : List DeliveryServiceMatcher :=
  allDeliveryServices.fields.flatMap (matchersOf engine isHttp)

theorem parse_iteration {allDeliveryServices : JsonObject} {sets : MatchSets}
    (parsed : parseDeliveryServiceMatchSets engine rebalance allDeliveryServices = .ok sets) (isHttp : Bool) :
    sets.iteration isHttp = retained (documentOrder engine isHttp allDeliveryServices) := by
  rw [parse_read] at parsed
  cases read : allDeliveryServices.fields.mapM (readDeliveryService engine) with
  | error _ => simp [read, Except.map] at parsed
  | ok services =>
    simp only [read, Except.map, Except.ok.injEq] at parsed
    subst parsed
    rw [iteration_eq (foldl_extend_correct rebalance services.flatten)]
    congr 1
    have results := (ExceptList.mapM_ok_iff _ _ _).mp read
    rw [documentOrder, List.flatMap_def]
    have each : allDeliveryServices.fields.map (matchersOf engine isHttp) =
        services.map (ofProtocol isHttp) := by
      calc
        _ = (allDeliveryServices.fields.map (readDeliveryService engine)).map fun result =>
            match result with
            | .error _ => []
            | .ok entries => ofProtocol isHttp entries := by rw [List.map_map]; rfl
        _ = _ := by rw [results, List.map_map]; rfl
    rw [each]
    simp only [ofProtocol, List.filter_flatten, List.map_flatten, List.map_map]
    rfl

-- Two matchers the order cannot tell apart, or can only partly: an equal match list or a shared
-- comparable regex.
def Ties (a b : DeliveryServiceMatcher) : Prop :=
  a.requestMatchers = b.requestMatchers ∨
    ∃ r ∈ a.requestMatchers, ∃ r' ∈ b.requestMatchers, r.comparableRegex = r'.comparableRegex

theorem ties_symm {a b : DeliveryServiceMatcher} (ties : Ties a b) : Ties b a := by
  rcases ties with same | ⟨r, inA, r', inB, same⟩
  · exact Or.inl same.symm
  · exact Or.inr ⟨r', inB, r, inA, same.symm⟩

def Ascending (matchers : List DeliveryServiceMatcher) : Prop :=
  matchers.Pairwise fun a b => a.compareTo b < 0

-- No request is matched by one delivery service while another one matches it too or has an
-- empty match list.
def Unambiguous (request : Request) (matchers : List DeliveryServiceMatcher) : Prop :=
  ∀ m ∈ matchers, m.matchesRequest engine request →
    ∀ m' ∈ matchers, m'.matchesRequest engine request ∨ m'.requestMatchers = [] →
      m'.deliveryService = m.deliveryService

-- Every order of the object's fields gives every request the same delivery service.
def OrderIndependent (isHttp : Bool) (allDeliveryServices : JsonObject) (sets : MatchSets) : Prop :=
  ∀ reordered : JsonObject, allDeliveryServices.fields.Perm reordered.fields →
    ∀ sets', parseDeliveryServiceMatchSets engine rebalance reordered = .ok sets' →
      ∀ request, sets'.getDeliveryService engine request isHttp =
        sets.getDeliveryService engine request isHttp

section Answers

variable {engine : PatternEngine} {request : Request} {isHttp : Bool}

theorem matchersOf_service {field : String × JsonNode} {matcher : DeliveryServiceMatcher}
    (member : matcher ∈ matchersOf engine isHttp field) : matcher.deliveryService = field.1 := by
  unfold matchersOf at member
  cases read : readDeliveryService engine field with
  | error _ => simp [read] at member
  | ok entries =>
    simp only [read, ofProtocol, List.mem_map, List.mem_filter] at member
    obtain ⟨entry, ⟨inEntries, _⟩, rfl⟩ := member
    simp only [readDeliveryService, bind, Except.bind] at read
    cases matchsets : JsonUtils.getJsonNode field.2 "matchsets" with
    | error _ => simp [matchsets] at read
    | ok node =>
      simp only [matchsets] at read
      have sources := (ExceptList.mapM_ok_iff _ _ _).mp read
      have source := List.mem_map_of_mem (f := Except.ok (ε := ConfigException)) inEntries
      rw [← sources] at source
      obtain ⟨matchset, _, same⟩ := List.mem_map.mp source
      simp only [readMatchset, bind, Except.bind, pure, Except.pure] at same
      split at same
      · contradiction
      · split at same
        · contradiction
        · split at same
          · contradiction
          · exact congrArg (fun entry => entry.2.deliveryService) (Except.ok.inj same).symm

theorem find_skip {before : List DeliveryServiceMatcher} (after : List DeliveryServiceMatcher)
    (idle : ∀ m ∈ before, ¬m.matchesRequest engine request ∧ m.requestMatchers ≠ []) :
    (retained (before ++ after)).find? (·.matchesRequest engine request) =
      (retained after).find? (·.matchesRequest engine request) := by
  have nonempty : ¬∃ m ∈ before, m.requestMatchers = [] := fun ⟨m, member, blank⟩ => (idle m member).2 blank
  have missed : before.find? (·.matchesRequest engine request) = none :=
    List.find?_eq_none.mpr fun m member => (idle m member).1
  rw [retained_append, if_neg nonempty, List.find?_append, missed, Option.none_or]

theorem mem_of_retained {added : List DeliveryServiceMatcher} {matcher : DeliveryServiceMatcher}
    (member : matcher ∈ retained added) : matcher ∈ added := by
  induction added with
  | nil => simp [retained] at member
  | cons first rest ih =>
    rw [retained] at member
    split_ifs at member with none
    · simp_all
    · rcases List.mem_cons.mp member with rfl | inRest
      · simp
      · simp [ih inRest]

-- The matchers of one delivery service decide when no other one matches or cuts the list off.
theorem find_decided {fields : List (String × JsonNode)} {field : String × JsonNode} (member : field ∈ fields)
    (idle : ∀ other ∈ fields, other ≠ field → ∀ m ∈ matchersOf engine isHttp other,
      ¬m.matchesRequest engine request ∧ m.requestMatchers ≠ [])
    (unique : fields.Nodup) :
    (retained (fields.flatMap (matchersOf engine isHttp))).find? (·.matchesRequest engine request) =
      (retained (matchersOf engine isHttp field)).find? (·.matchesRequest engine request) := by
  obtain ⟨before, after, split⟩ := List.append_of_mem member
  subst split
  have apart := List.nodup_middle.mp unique
  rw [List.nodup_cons] at apart
  have idleAt (other : String × JsonNode) (inOthers : other ∈ before ++ after) :=
    idle other (by rw [List.mem_append, List.mem_cons]; rw [List.mem_append] at inOthers; exact inOthers.imp_right Or.inr)
      fun same => apart.1 (same ▸ inOthers)
  have idleAfter : ∀ m ∈ after.flatMap (matchersOf engine isHttp),
      ¬m.matchesRequest engine request ∧ m.requestMatchers ≠ [] := by
    intro m inAfter
    obtain ⟨other, inOthers, described⟩ := List.mem_flatMap.mp inAfter
    exact idleAt other (List.mem_append_right _ inOthers) m described
  rw [List.flatMap_append, List.flatMap_cons, find_skip]
  · rw [retained_append]
    split_ifs with cut
    · rfl
    · have rest : (retained (after.flatMap (matchersOf engine isHttp))).find?
          (·.matchesRequest engine request) = none :=
        List.find?_eq_none.mpr fun m inRetained => (idleAfter m (mem_of_retained inRetained)).1
      rw [retained_of_nonempty cut, List.find?_append, rest, Option.or_none]
  · intro m inBefore
    obtain ⟨other, inOthers, described⟩ := List.mem_flatMap.mp inBefore
    exact idleAt other (List.mem_append_left _ inOthers) m described

-- A delivery service that comes first is the answer when one of its matchers matches and none of
-- them is blank; a blank one ends the search.
theorem find_first {field : String × JsonNode} (rest : List (String × JsonNode))
    (nonempty : ∀ m ∈ matchersOf engine isHttp field, m.requestMatchers ≠ [])
    (found : ∃ m ∈ matchersOf engine isHttp field, m.matchesRequest engine request) :
    ((retained ((field :: rest).flatMap (matchersOf engine isHttp))).find?
      (·.matchesRequest engine request)).map (·.deliveryService) = some field.1 := by
  have uncut : ¬∃ m ∈ matchersOf engine isHttp field, m.requestMatchers = [] :=
    fun ⟨m, member, blank⟩ => nonempty m member blank
  have present : ((matchersOf engine isHttp field).find? (·.matchesRequest engine request)).isSome :=
    List.find?_isSome.mpr found
  obtain ⟨m, first⟩ := Option.isSome_iff_exists.mp present
  rw [List.flatMap_cons, retained_append, if_neg uncut, List.find?_append, first]
  exact congrArg some (matchersOf_service (List.mem_of_find?_eq_some first))

theorem find_cut {field : String × JsonNode} (rest : List (String × JsonNode))
    (blank : ∃ m ∈ matchersOf engine isHttp field, m.requestMatchers = []) :
    ∀ answer, ((retained ((field :: rest).flatMap (matchersOf engine isHttp))).find?
      (·.matchesRequest engine request)).map (·.deliveryService) = some answer → answer = field.1 := by
  intro answer found
  rw [List.flatMap_cons, retained_append, if_pos blank] at found
  obtain ⟨m, first, rfl⟩ := Option.map_eq_some_iff.mp found
  exact matchersOf_service (mem_of_retained (List.mem_of_find?_eq_some first))

end Answers

section Permutations

variable {engine rebalance} {isHttp : Bool} {allDeliveryServices : JsonObject} {sets : MatchSets}

theorem parse_answer (parsed : parseDeliveryServiceMatchSets engine rebalance allDeliveryServices = .ok sets)
    (request : Request) :
    sets.getDeliveryService engine request isHttp =
      ((retained (documentOrder engine isHttp allDeliveryServices)).find?
        (·.matchesRequest engine request)).map (·.deliveryService) := by
  rw [getDeliveryService_eq, parse_iteration engine rebalance parsed]

theorem parse_perm (parsed : parseDeliveryServiceMatchSets engine rebalance allDeliveryServices = .ok sets)
    {reordered : JsonObject} (perm : allDeliveryServices.fields.Perm reordered.fields) :
    ∃ sets', parseDeliveryServiceMatchSets engine rebalance reordered = .ok sets' := by
  rw [parse_read] at parsed ⊢
  cases read : allDeliveryServices.fields.mapM (readDeliveryService engine) with
  | error _ => simp [read, Except.map] at parsed
  | ok services =>
    have accepted (field : String × JsonNode) (member : field ∈ reordered.fields) :
        ∃ entries, readDeliveryService engine field = .ok entries := by
      obtain ⟨entries, _, result⟩ := ExceptList.mapM_ok_mem read (perm.mem_iff.mpr member)
      exact ⟨entries, result⟩
    obtain ⟨services', read'⟩ := ExceptList.mapM_ok_of_forall accepted
    exact ⟨_, by rw [read']; rfl⟩

theorem field_nodup (object : JsonObject) : object.fields.Nodup := object.unique.of_map

-- The same object with one of its fields written first.
theorem field_first {field : String × JsonNode} (member : field ∈ allDeliveryServices.fields) :
    ∃ reordered : JsonObject, allDeliveryServices.fields.Perm reordered.fields ∧
      ∃ rest, reordered.fields = field :: rest := by
  obtain ⟨before, after, split⟩ := List.append_of_mem member
  have perm : allDeliveryServices.fields.Perm (field :: (before ++ after)) := split ▸ List.perm_middle
  exact ⟨⟨field :: (before ++ after), (perm.map Prod.fst).nodup_iff.mp allDeliveryServices.unique⟩,
    perm, before ++ after, rfl⟩

theorem orderIndependent_of_unambiguous
    (parsed : parseDeliveryServiceMatchSets engine rebalance allDeliveryServices = .ok sets)
    (unambiguous : ∀ request, Unambiguous engine request (documentOrder engine isHttp allDeliveryServices)) :
    OrderIndependent engine rebalance isHttp allDeliveryServices sets := by
  intro reordered perm sets' parsed' request
  rw [parse_answer parsed, parse_answer parsed', documentOrder, documentOrder]
  by_cases found : ∃ m ∈ documentOrder engine isHttp allDeliveryServices, m.matchesRequest engine request
  · obtain ⟨m, described, hit⟩ := found
    obtain ⟨field, member, inField⟩ := List.mem_flatMap.mp described
    have idle (other : String × JsonNode) (inFields : other ∈ allDeliveryServices.fields)
        (different : other ≠ field) (m' : DeliveryServiceMatcher)
        (inOther : m' ∈ matchersOf engine isHttp other) :
        ¬m'.matchesRequest engine request ∧ m'.requestMatchers ≠ [] := by
      apply not_or.mp
      intro claims
      have same := unambiguous request m described hit m' (List.mem_flatMap.mpr ⟨other, inFields, inOther⟩) claims
      rw [matchersOf_service inOther, matchersOf_service inField] at same
      exact different (List.inj_on_of_nodup_map allDeliveryServices.unique inFields member same)
    rw [find_decided member idle (field_nodup _), find_decided (perm.mem_iff.mp member)
      (fun other inFields => idle other (perm.mem_iff.mpr inFields)) (field_nodup _)]
  · have missed (fields : List (String × JsonNode)) (sub : ∀ field ∈ fields, field ∈ allDeliveryServices.fields) :
        (retained (fields.flatMap (matchersOf engine isHttp))).find? (·.matchesRequest engine request) = none := by
      apply List.find?_eq_none.mpr
      intro m inRetained hit
      obtain ⟨field, member, inField⟩ := List.mem_flatMap.mp (mem_of_retained inRetained)
      exact found ⟨m, List.mem_flatMap.mpr ⟨field, sub field member, inField⟩, hit⟩
    rw [missed _ fun _ => id, missed _ fun _ => perm.mem_iff.mpr]

theorem unambiguous_of_orderIndependent
    (parsed : parseDeliveryServiceMatchSets engine rebalance allDeliveryServices = .ok sets)
    (noTies : (documentOrder engine isHttp allDeliveryServices).Pairwise fun a b => ¬Ties a b)
    (independent : OrderIndependent engine rebalance isHttp allDeliveryServices sets) (request : Request) :
    Unambiguous engine request (documentOrder engine isHttp allDeliveryServices) := by
  have firstAnswer {field : String × JsonNode} (member : field ∈ allDeliveryServices.fields) : ∃ rest,
      ((retained ((field :: rest).flatMap (matchersOf engine isHttp))).find?
        (·.matchesRequest engine request)).map (·.deliveryService) =
        sets.getDeliveryService engine request isHttp := by
    obtain ⟨reordered, perm, rest, fields⟩ := field_first member
    obtain ⟨sets', parsed'⟩ := parse_perm parsed perm
    have same := independent reordered perm sets' parsed' request
    rw [parse_answer parsed', documentOrder, fields] at same
    exact ⟨rest, same⟩
  intro m described hit m' described' claims
  obtain ⟨field, member, inField⟩ := List.mem_flatMap.mp described
  obtain ⟨field', member', inField'⟩ := List.mem_flatMap.mp described'
  rw [matchersOf_service inField, matchersOf_service inField']
  by_contra different
  obtain ⟨rest, answer⟩ := firstAnswer member
  obtain ⟨rest', answer'⟩ := firstAnswer member'
  by_cases blank : ∃ e ∈ matchersOf engine isHttp field, e.requestMatchers = []
  · -- Two empty match lists would be a tie, so the other service matches and is not cut off.
    obtain ⟨e, inE, eBlank⟩ := blank
    have nonempty' : ∀ e' ∈ matchersOf engine isHttp field', e'.requestMatchers ≠ [] := by
      intro e' inE' eBlank'
      have apart : e ≠ e' := by
        rintro rfl
        exact different ((matchersOf_service inE').symm.trans (matchersOf_service inE))
      have ties : Ties e e' := Or.inl (eBlank.trans eBlank'.symm)
      have tieFree := List.Pairwise.forall_of_forall_of_flip
        (R := fun a b : DeliveryServiceMatcher => a = b ∨ ¬Ties a b) (fun _ _ => Or.inl rfl)
        (noTies.imp Or.inr) (noTies.imp fun {a b} free => Or.inr fun tie => free (ties_symm tie))
        (List.mem_flatMap.mpr ⟨field, member, inE⟩) (List.mem_flatMap.mpr ⟨field', member', inE'⟩)
      exact tieFree.elim apart fun free => free ties
    have hit' := claims.resolve_right (nonempty' m' inField')
    rw [find_first rest' nonempty' ⟨m', inField', hit'⟩] at answer'
    exact different (find_cut rest ⟨e, inE, eBlank⟩ _ (answer.trans answer'.symm))
  · have nonempty : ∀ e ∈ matchersOf engine isHttp field, e.requestMatchers ≠ [] :=
      fun e inE eBlank => blank ⟨e, inE, eBlank⟩
    rw [find_first rest nonempty ⟨m, inField, hit⟩] at answer
    by_cases blank' : ∃ e ∈ matchersOf engine isHttp field', e.requestMatchers = []
    · exact different (find_cut rest' blank' _ (answer'.trans answer.symm)).symm
    · have hit' := claims.resolve_right fun none => blank' ⟨m', inField', none⟩
      rw [find_first rest' (fun e inE eBlank => blank' ⟨e, inE, eBlank⟩) ⟨m', inField', hit'⟩] at answer'
      exact different (Option.some.inj (answer'.trans answer.symm))

end Permutations

-- The matchers were compared while they were blank, so the sets keep the document's order; they
-- follow `compareTo` only when the document already does.
theorem parse_ordered_iff (isHttp : Bool) (allDeliveryServices : JsonObject) (sets : MatchSets)
    (parsed : parseDeliveryServiceMatchSets engine rebalance allDeliveryServices = .ok sets) :
    let described := documentOrder engine isHttp allDeliveryServices
    Ascending (sets.iteration isHttp) ∧ (described.Pairwise (fun a b => ¬Ties a b) →
        OrderIndependent engine rebalance isHttp allDeliveryServices sets) ↔
      Ascending (retained described) ∧ (described.Pairwise (fun a b => ¬Ties a b) →
        ∀ request, Unambiguous engine request described) := by
  rw [parse_iteration engine rebalance parsed]
  refine and_congr_right fun _ => forall_congr' fun noTies => ?_
  constructor
  · exact unambiguous_of_orderIndependent parsed noTies
  · exact orderIndependent_of_unambiguous parsed

instance (a b : DeliveryServiceMatcher) : Decidable (Ties a b) := inferInstanceAs (Decidable (_ ∨ _))

instance (matchers : List DeliveryServiceMatcher) : Decidable (Ascending matchers) :=
  inferInstanceAs (Decidable (List.Pairwise _ _))

def pathMatchset (regex : String) : JsonNode :=
  .object [("protocol", .text "HTTP"),
    ("matchlist", .array [.object [("match-type", .text "PATH"), ("regex", .text regex)]])]

def pathService (regexes : List String) : JsonNode :=
  .object [("matchsets", .array (regexes.map pathMatchset))]

-- Stands for the regex library on patterns of the form `.*word.*`.
def wordEngine : PatternEngine where
  compiles _ := true
  matchesWhole pattern input :=
    input.toList.tails.any ((pattern.toList.drop 2).take (pattern.toList.length - 4)).isPrefixOf

def generalFirst : JsonObject :=
  ⟨[("general", pathService [".*abc.*"]), ("specific", pathService [".*abcd.*"])], by decide⟩

def specificFirst : JsonObject :=
  ⟨[("specific", pathService [".*abcd.*"]), ("general", pathService [".*abc.*"])], by decide⟩

def oneService : JsonObject := ⟨[("both", pathService [".*abcd.*", ".*abc.*"])], by decide⟩

theorem parse_ordered_iff_oneService : ∃ sets,
    parseDeliveryServiceMatchSets wordEngine .none oneService = .ok sets ∧ Ascending (sets.iteration true) ∧
      OrderIndependent wordEngine .none true oneService sets := by
  have tieFree : (documentOrder wordEngine true oneService).Pairwise fun a b => ¬Ties a b := by decide +kernel
  have ascending : Ascending (retained (documentOrder wordEngine true oneService)) := by decide +kernel
  have service : ∀ m ∈ documentOrder wordEngine true oneService, m.deliveryService = "both" := by
    decide +kernel
  obtain ⟨sets, parsed⟩ : ∃ sets, parseDeliveryServiceMatchSets wordEngine .none oneService = .ok sets :=
    ⟨_, rfl⟩
  have ordered := (parse_ordered_iff wordEngine .none true oneService sets parsed).mpr
    ⟨ascending, fun _ _ m described _ m' described' _ => by rw [service m described, service m' described']⟩
  exact ⟨sets, parsed, ordered.1, ordered.2 tieFree⟩

theorem parse_general_first : ∃ sets,
    parseDeliveryServiceMatchSets wordEngine .none generalFirst = .ok sets ∧
      (documentOrder wordEngine true generalFirst).Pairwise (fun a b => ¬Ties a b) ∧
      ¬Ascending (sets.iteration true) ∧ ¬OrderIndependent wordEngine .none true generalFirst sets := by
  let request : Request := .http ⟨"192.0.2.1", none, "http://cdn/abcd", some "/abcd", some "/abcd", none, none, false⟩
  refine ⟨_, rfl, by decide +kernel, by decide +kernel, fun independent => ?_⟩
  have answers := independent specificFirst (.swap ..) _ rfl request
  revert answers
  decide +kernel

end TrafficControl.TrafficRouter.MatchSets
