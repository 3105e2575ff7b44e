import TrafficControl.Lib.Orbit
import TrafficControl.Lib.Runs
import TrafficControl.TrafficRouter.Loc.RegionalGeo

set_option autoImplicit false

namespace TrafficControl.TrafficRouter

open NetworkNode Relation

namespace RegionalGeoRule

variable (fromString : String → Option CidrAddress) (this : RegionalGeoRule)

/-- The alternate URL takes the client away without any cache selection. -/
def WithoutCache : Prop := RegionalGeo.HTTP_SCHEME.toList.isPrefixOf (this.alternateUrl.toList.map Char.toLower)

instance : Decidable this.WithoutCache := inferInstanceAs (Decidable (_ = true))

def allows (ip : String) (postalCode : Option String) : Bool :=
  this.isIpInWhiteList fromString ip == some true || postalCode.any fun postal => postal != "" && this.isAllowedPostal postal

end RegionalGeoRule

namespace RegionalGeo

-- `compiles` says whether `Pattern.compile` takes the regex.
variable (compiles : String → Bool) (matchesWhole : String → String → Bool)
  (fromString : String → Option CidrAddress) (rebalance : SearchTree.Rebalance (ChildEntry (Option String)))

def addRule (this : RegionalGeo) (dsvcId : String) (rule : RegionalGeoRule) : Option RegionalGeo :=
  if !compiles rule.pattern then none
  else if rule.WithoutCache ∧ matchesWhole rule.pattern rule.alternateUrl then none
  else
    let urlRules := (this.regionalGeoDsvcs.lookup dsvcId).getD []
    some { this with regionalGeoDsvcs := this.regionalGeoDsvcs.insert dsvcId (urlRules ++ [rule]) }

-- Everything that `parseConfigJson` catches or answers with null is `none` from here on.
def parseWhiteListJson (json : JsonNode) : Option (SuperNode (Option String)) :=
  json.elements.foldlM (fun root subnetNode => do
    let subnet := subnetNode.asText
    let address ← fromString subnet
    let node := leaf (address, some RegionalGeoRule.WHITE_LIST_NODE_LOCATION)
    return if subnet.contains ':' then (root.add6 rebalance node).1 else (root.add rebalance node).1) (.new none)

def parseLocationJson (locationJson : JsonNode) : PostalsType × List String :=
  match locationJson.get "includePostalCode" with
  | some postalsJson => (.INCLUDE, postalsJson.elements.map JsonNode.asText)
  | none =>
    match locationJson.get "excludePostalCode" with
    | some postalsJson => (.EXCLUDE, postalsJson.elements.map JsonNode.asText)
    | none => (.UNDEFINED, [])

def getFilled (ruleJson : JsonNode) (key : String) : Option String := do
  let value ← (JsonUtils.getString ruleJson key).toOption
  if (JsonNode.trim value.toList).isEmpty then none else some value

def parseRule (ruleJson : JsonNode) : Option (String × RegionalGeoRule) := do
  let dsvcId ← getFilled ruleJson "deliveryServiceId"
  let urlRegex ← getFilled ruleJson "urlRegex"
  let redirectUrl ← getFilled ruleJson "redirectUrl"
  let locationJson ← (JsonUtils.getJsonNode ruleJson "geoLocation").toOption
  let (postalsType, postals) := parseLocationJson locationJson
  if postalsType = .UNDEFINED then none
  else
    let whiteListRoot ← match ruleJson.get "ipWhiteList" with
      | none => some none
      | some whiteListJson => (parseWhiteListJson fromString rebalance whiteListJson).map some
    return (dsvcId, ⟨urlRegex, postalsType, postals, whiteListRoot, redirectUrl⟩)

def addRuleJson (this : RegionalGeo) (ruleJson : JsonNode) : Option RegionalGeo := do
  let (dsvcId, rule) ← parseRule fromString rebalance ruleJson
  this.addRule compiles matchesWhole dsvcId rule

def parseConfigJson (json : JsonNode) : Option RegionalGeo := do
  let dsvcsJson ← (JsonUtils.getJsonNode json "deliveryServices").toOption
  let regionalGeo ← dsvcsJson.elements.foldlM (addRuleJson compiles matchesWhole fromString rebalance) ⟨true, ∅⟩
  return { regionalGeo with fallback := false }

def rules (this : RegionalGeo) (dsvcId : String) : List RegionalGeoRule := (this.regionalGeoDsvcs.lookup dsvcId).getD []

/-- Where the client goes from a URL, when it is sent elsewhere without a cache. -/
def redirect (this : RegionalGeo) (dsvcId ip : String) (postalCode : Option String) (url : String) : Option String := do
  let result ← this.enforce matchesWhole fromString dsvcId url ip postalCode
  if result.type = .ALTERNATE_WITHOUT_CACHE then result.url else none

/-- A rule sends the client to a URL that the other rule is the first to match. -/
structure Leads (this : RegionalGeo) (dsvcId ip : String) (rule other : RegionalGeoRule) : Prop where
  withoutCache : rule.WithoutCache
  answers : (rule.isIpInWhiteList fromString ip).isSome
  first : this.matchRule matchesWhole dsvcId rule.alternateUrl = some other

/-- A rule that was loaded does not match its own alternate URL. -/
def LoopChecked (this : RegionalGeo) : Prop :=
  ∀ dsvcId, ∀ rule ∈ this.rules dsvcId, rule.WithoutCache → matchesWhole rule.pattern rule.alternateUrl = false

variable {compiles matchesWhole fromString rebalance} {this : RegionalGeo} {dsvcId ip : String} {postalCode : Option String}

theorem matchRule_mem {url : String} {rule : RegionalGeoRule} (found : this.matchRule matchesWhole dsvcId url = some rule) :
    rule ∈ this.rules dsvcId ∧ matchesWhole rule.pattern url := by
  obtain ⟨urlRules, known, found⟩ := Option.bind_eq_some_iff.mp found
  rw [rules, known]
  exact ⟨List.mem_of_find?_eq_some found, by simpa using List.find?_some found⟩

theorem redirect_iff (disallowed : ∀ rule ∈ this.rules dsvcId, rule.allows fromString ip postalCode = false)
    (url other : String) :
    this.redirect matchesWhole fromString dsvcId ip postalCode url = some other ↔
      ∃ rule, this.matchRule matchesWhole dsvcId url = some rule ∧ rule.WithoutCache ∧
        (rule.isIpInWhiteList fromString ip).isSome ∧ rule.alternateUrl = other := by
  unfold redirect enforce
  cases matched : this.matchRule matchesWhole dsvcId url with
  | none => simp
  | some rule =>
    have denied := disallowed rule (matchRule_mem matched).1
    simp only [RegionalGeoRule.allows, Bool.or_eq_false_iff] at denied
    cases inWhiteList : rule.isIpInWhiteList fromString ip with
    | none => simp [inWhiteList]
    | some allowed =>
      obtain rfl : allowed = false := by simpa [inWhiteList] using denied.1
      have notAllowed : (postalCode.any fun postal => postal != "" && rule.isAllowedPostal postal) = false := denied.2
      by_cases without : rule.WithoutCache
      · have scheme : HTTP_SCHEME.toList.isPrefixOf (rule.alternateUrl.toList.map Char.toLower) = true := without
        simp [inWhiteList, notAllowed, scheme, without]
      · have scheme : HTTP_SCHEME.toList.isPrefixOf (rule.alternateUrl.toList.map Char.toLower) = false :=
          Bool.eq_false_iff.mpr without
        simp [inWhiteList, notAllowed, scheme, without]

theorem addRule_checked {next : RegionalGeo} {rule : RegionalGeoRule} (checked : this.LoopChecked matchesWhole)
    (added : this.addRule compiles matchesWhole dsvcId rule = some next) : next.LoopChecked matchesWhole := by
  unfold addRule at added
  split at added
  · cases added
  · split at added
    · cases added
    next noLoop =>
      cases added
      intro other loaded member
      unfold rules at member
      dsimp only at member
      by_cases same : other = dsvcId
      · subst same
        rw [AList.lookup_insert, Option.getD_some, List.mem_append, List.mem_singleton] at member
        rcases member with old | rfl
        · exact checked other loaded old
        · exact fun without => Bool.eq_false_iff.mpr fun itself => noLoop ⟨without, itself⟩
      · rw [AList.lookup_insert_ne same] at member
        exact checked other loaded member

theorem parseConfigJson_checked {json : JsonNode} {regionalGeo : RegionalGeo}
    (accepted : parseConfigJson compiles matchesWhole fromString rebalance json = some regionalGeo) :
    regionalGeo.LoopChecked matchesWhole := by
  obtain ⟨dsvcsJson, _, accepted⟩ := Option.bind_eq_some_iff.mp accepted
  obtain ⟨loaded, folded, accepted⟩ := Option.bind_eq_some_iff.mp accepted
  cases accepted
  have checked : loaded.LoopChecked matchesWhole := by
    rw [← Runs.run_eq_foldlM] at folded
    refine Runs.run_induction ?_ (fun dsvcId rule member => by simp [rules] at member) folded
    intro this ruleJson next checked added
    obtain ⟨⟨dsvcId, rule⟩, _, added⟩ := Option.bind_eq_some_iff.mp added
    exact addRule_checked checked added
  exact checked

section Loops

variable (disallowed : ∀ rule ∈ this.rules dsvcId, rule.allows fromString ip postalCode = false)

include disallowed in
theorem leads_of_redirects {url other : String}
    (path : TransGen (fun a b => this.redirect matchesWhole fromString dsvcId ip postalCode a = some b) url other)
    {rule last : RegionalGeoRule} (first : this.matchRule matchesWhole dsvcId url = some rule)
    (found : this.matchRule matchesWhole dsvcId other = some last) :
    TransGen (this.Leads matchesWhole fromString dsvcId ip) rule last := by
  induction path generalizing last with
  | single redirects =>
    obtain ⟨own, matched, without, answers, rfl⟩ := (redirect_iff disallowed _ _).mp redirects
    obtain rfl : own = rule := Option.some.inj (matched.symm.trans first)
    exact .single ⟨without, answers, found⟩
  | tail _ redirects ih =>
    obtain ⟨own, matched, without, answers, rfl⟩ := (redirect_iff disallowed _ _).mp redirects
    exact .tail (ih matched) ⟨without, answers, found⟩

include disallowed in
theorem redirects_of_leads {rule other : RegionalGeoRule}
    (path : TransGen (this.Leads matchesWhole fromString dsvcId ip) rule other)
    (without : other.WithoutCache) (answers : (other.isIpInWhiteList fromString ip).isSome) :
    TransGen (fun a b => this.redirect matchesWhole fromString dsvcId ip postalCode a = some b)
      rule.alternateUrl other.alternateUrl := by
  induction path with
  | single leads => exact .single ((redirect_iff disallowed _ _).mpr ⟨_, leads.first, without, answers, rfl⟩)
  | tail _ leads ih =>
    exact .tail (ih leads.withoutCache leads.answers)
      ((redirect_iff disallowed _ _).mpr ⟨_, leads.first, without, answers, rfl⟩)

include disallowed in
theorem redirects_cycle_iff :
    (∃ url, TransGen (fun a b => this.redirect matchesWhole fromString dsvcId ip postalCode a = some b) url url) ↔
      ∃ rule, TransGen (this.Leads matchesWhole fromString dsvcId ip) rule rule := by
  constructor
  · rintro ⟨url, cycle⟩
    obtain ⟨_, redirects, _⟩ := TransGen.head'_iff.mp cycle
    obtain ⟨rule, matched, _⟩ := (redirect_iff disallowed _ _).mp redirects
    exact ⟨rule, leads_of_redirects disallowed cycle matched matched⟩
  · rintro ⟨rule, cycle⟩
    obtain ⟨_, leads, _⟩ := TransGen.head'_iff.mp cycle
    exact ⟨_, redirects_of_leads disallowed cycle leads.withoutCache leads.answers⟩

end Loops

/-- The check of the loader excludes the loops of a single rule. -/
theorem LoopChecked.leads_ne (checked : this.LoopChecked matchesWhole) {rule other : RegionalGeoRule}
    (leads : this.Leads matchesWhole fromString dsvcId ip rule other) : rule ≠ other := by
  rintro rfl
  obtain ⟨member, itself⟩ := matchRule_mem leads.first
  rw [checked dsvcId rule member leads.withoutCache] at itself
  cases itself

/-- For a client that no rule of a delivery service allows, no redirection visits a URL twice if and
only if no two different rules lead to each other. -/
theorem redirect_loops_iff {json : JsonNode} {regionalGeo : RegionalGeo}
    (accepted : parseConfigJson compiles matchesWhole fromString rebalance json = some regionalGeo)
    (disallowed : ∀ rule ∈ regionalGeo.rules dsvcId, rule.allows fromString ip postalCode = false) :
    (∀ url, Orbit.NeverTwice (regionalGeo.redirect matchesWhole fromString dsvcId ip postalCode) url) ↔
      ¬∃ rule other, rule ≠ other ∧ TransGen (regionalGeo.Leads matchesWhole fromString dsvcId ip) rule other ∧
        TransGen (regionalGeo.Leads matchesWhole fromString dsvcId ip) other rule := by
  rw [Orbit.neverTwice_iff, redirects_cycle_iff disallowed]
  refine not_congr ⟨?_, ?_⟩
  · rintro ⟨rule, cycle⟩
    obtain ⟨other, leads, back⟩ := TransGen.head'_iff.mp cycle
    have different := (parseConfigJson_checked accepted).leads_ne leads
    rcases reflTransGen_iff_eq_or_transGen.mp back with same | back
    · exact absurd same different
    · exact ⟨rule, other, different, .single leads, back⟩
  · rintro ⟨rule, _, _, there, back⟩
    exact ⟨rule, there.trans back⟩

section VideoRules

-- The patterns are texts without special characters, and match in any case.
def sameText (pattern url : String) : Bool := pattern.toList.map Char.toLower == url.toList.map Char.toLower

def videoRule (urlRegex redirectUrl : String) : JsonNode :=
  .object [("deliveryServiceId", .text "video"), ("urlRegex", .text urlRegex),
    ("geoLocation", .object [("includePostalCode", .array [.text "K1A"])]), ("redirectUrl", .text redirectUrl)]

def videoConfig (rules : List JsonNode) : JsonNode := .object [("deliveryServices", .array rules)]

def videoLoad (rules : List JsonNode) : Option RegionalGeo :=
  parseConfigJson (fun _ => true) sameText (fun _ => none) .none (videoConfig rules)

def videoRedirect (this : RegionalGeo) : String → Option String := this.redirect sameText (fun _ => none) "video" "192.0.2.1" none

theorem redirect_loops_iff_video : ∃ regionalGeo, videoLoad [videoRule "http://one/" "http://two/"] = some regionalGeo ∧
    videoRedirect regionalGeo "http://one/" = some "http://two/" ∧
    ((∀ url, Orbit.NeverTwice (videoRedirect regionalGeo) url) ↔
      ¬∃ rule other, rule ≠ other ∧ TransGen (regionalGeo.Leads sameText (fun _ => none) "video" "192.0.2.1") rule other ∧
        TransGen (regionalGeo.Leads sameText (fun _ => none) "video" "192.0.2.1") other rule) := by
  have accepted : videoLoad [videoRule "http://one/" "http://two/"] = some ⟨false, (∅ : AList fun _ : String =>
      List RegionalGeoRule).insert "video" [⟨"http://one/", .INCLUDE, ["K1A"], none, "http://two/"⟩]⟩ := by
    rfl
  refine ⟨_, accepted, by rfl, redirect_loops_iff accepted fun rule member => ?_⟩
  obtain rfl := List.mem_singleton.mp member
  rfl

/-- Two rules that send the client to each other are loaded. -/
theorem redirect_loops : ∃ regionalGeo,
    videoLoad [videoRule "http://one/" "http://two/", videoRule "http://two/" "http://one/"] = some regionalGeo ∧
      (∀ rule ∈ regionalGeo.rules "video", rule.allows (fun _ => none) "192.0.2.1" none = false) ∧
      ¬Orbit.NeverTwice (videoRedirect regionalGeo) "http://one/" := by
  refine ⟨_, rfl, fun rule member => ?_, fun never => never 0 2 (by decide) "http://one/" rfl (by rfl)⟩
  rcases List.mem_pair.mp member with rfl | rfl <;> rfl

end VideoRules

end RegionalGeo

end TrafficControl.TrafficRouter
