import TrafficControl.TrafficMonitor.Health.Cache
import TrafficControl.TrafficMonitor.ToData.Regexes

set_option autoImplicit false

namespace TrafficControl.TrafficMonitor

def CacheType.fromString (s : String) : CacheType :=
  let s := s.toList.map Char.toLower
  if "edge".toList.isPrefixOf s then .EDGE
  else if "mid".toList.isPrefixOf s then .MID
  else .INVALIDCACHETYPE

inductive DSType where
  | HTTP
  | DNS
  | Invalid
deriving DecidableEq

def DSType.fromString (s : String) : DSType :=
  let s := s.toList.map Char.toLower
  if s = "http".toList then .HTTP
  else if s = "dns".toList then .DNS
  else .Invalid

namespace ToData

open Regexp

-- `deliveryServices` has the keys of the map.
structure ContentServer where
  deliveryServices : List String
  cacheGroup : String
  type : String

structure Matchset where
  protocol : String
  matchList : List (List Char)

-- Its maps are listed in the order in which loops visit them.
structure CRConfig where
  contentServers : List (String × ContentServer)
  deliveryServices : List (String × List Matchset)

-- The order in which `createRegexes` visits its map.
structure Visit where
  order : List (String × List (List Char)) → List (String × List (List Char))
  perm : ∀ entries, (order entries).Perm entries

structure TOData (engine : Engine) where
  deliveryServiceServers : String → Option (List String)
  serverDeliveryServices : String → Option (List String)
  serverTypes : String → Option CacheType
  deliveryServiceTypes : String → Option DSType
  deliveryServiceRegexes : Regexes engine
  serverCachegroups : String → Option String

def fail {α : Type} (text : String) : Except Fault α := .error (.error text)

def Fault.wrap (text : String) : Fault → Fault
  | .panic => .panic
  | .error err => .error (text ++ err ++ "\n")

def appended (map : String → Option (List String)) (key value : String) : String → Option (List String) :=
  Function.update map key (some ((map key).getD [] ++ [value]))

def getDeliveryServiceServers (crc : CRConfig) : (String → Option (List String)) × (String → Option (List String)) :=
  crc.contentServers.foldl (fun maps server =>
    server.2.deliveryServices.foldl (fun maps ds =>
      (appended maps.1 ds server.1, appended maps.2 server.1 ds)) maps) (fun _ => none, fun _ => none)

def getDeliveryServiceTypes (crc : CRConfig) : Except Fault (String → Option DSType) :=
  crc.deliveryServices.foldlM (fun dsTypes entry =>
    match entry.2 with
    | [] => fail ("CRConfig missing protocol for '" ++ entry.1 ++ "'")
    | matchset :: _ =>
      match DSType.fromString matchset.protocol with
      | .Invalid => fail ("CRConfig unknowng protocol for '" ++ entry.1 ++ "': '" ++ matchset.protocol ++ "'")
      | dsType => .ok (Function.update dsTypes entry.1 (some dsType))) fun _ => none

def getServerCachegroups (crc : CRConfig) : String → Option String :=
  crc.contentServers.foldl
    (fun cachegroups server => Function.update cachegroups server.1 (some server.2.cacheGroup)) fun _ => none

def getServerTypes (crc : CRConfig) : Except Fault (String → Option CacheType) :=
  crc.contentServers.foldlM (fun serverTypes server =>
    match CacheType.fromString server.2.type with
    | .INVALIDCACHETYPE => fail ("getServerTypes CRConfig unknown type for '" ++ server.1 ++ "': '" ++ server.2.type ++ "'")
    | t => .ok (Function.update serverTypes server.1 (some t))) fun _ => none

/-- The expressions of one delivery service: the first of each set. -/
def getRegexes (entry : String × List Matchset) : Except String (String × List (List Char)) :=
  if entry.2 = [] then .error ("CRConfig missing regex for '" ++ entry.1 ++ "'")
  else
    let regexStrs : Except String (List (List Char)) := entry.2.mapM fun matchset =>
      match matchset.matchList with
      | [] => .error ("CRConfig missing Regex for '" ++ entry.1 ++ "'")
      | regex :: _ => .ok regex
    regexStrs.map fun regexStrs => (entry.1, regexStrs)

section Update

variable (engine : Engine) (visit : Visit)

def getDeliveryServiceRegexes (crc : CRConfig) : Except Fault (Regexes engine) :=
  match crc.deliveryServices.mapM getRegexes with
  | .error text => .error (.error text)
  | .ok dsRegexes => createRegexes engine (visit.order dsRegexes)

-- `last` is what the session returns, and what its text decodes to.
def update (last : Except String (Except String CRConfig)) : Except Fault (TOData engine) := do
  let decoded ← last.mapError fun err => .error ("Error getting last CRConfig: " ++ err)
  let crConfig ← decoded.mapError fun err => .error ("Error unmarshalling CRconfig: " ++ err)
  let (deliveryServiceServers, serverDeliveryServices) := getDeliveryServiceServers crConfig
  let deliveryServiceTypes ← (getDeliveryServiceTypes crConfig).mapError
    (Fault.wrap "Error getting delivery service types from Traffic Ops: ")
  let deliveryServiceRegexes ← (getDeliveryServiceRegexes engine visit crConfig).mapError
    (Fault.wrap "Error getting delivery service regexes from Traffic Ops: ")
  let serverCachegroups := getServerCachegroups crConfig
  let serverTypes ← (getServerTypes crConfig).mapError (Fault.wrap "Error getting server types from Traffic Ops: ")
  return { deliveryServiceServers, serverDeliveryServices, serverTypes, deliveryServiceTypes, deliveryServiceRegexes
           serverCachegroups }

end Update

/-- The delivery service has a set whose first expression is `r`. -/
def CRConfig.Listed (crc : CRConfig) (ds : String) (r : List Char) : Prop :=
  ∃ matchsets, (ds, matchsets) ∈ crc.deliveryServices ∧ ∃ matchset ∈ matchsets, matchset.matchList.head? = some r

/-- What the lookup finds has an expression that fits the name, and what fits is found. Most of what fits
matches the whole name. -/
structure Refines (engine : Engine) (crc : CRConfig) (domain subdomain subsubdomain : List Char)
    (found : Option String) : Prop where
  sound : ∀ ds, found = some ds → ∃ r, crc.Listed ds r ∧ Fits engine r domain subdomain subsubdomain
  complete : ∀ ds r, crc.Listed ds r → Fits engine r domain subdomain subsubdomain → found.isSome
  dotted : (∀ c ∈ subdomain, c ∉ special) → OneLine subsubdomain → OneLine domain →
    Matches engine (between subdomain) (fqdn domain subdomain subsubdomain)
  direct : ∀ r, Direct r → '$' ∉ r → r = fqdn domain subdomain subsubdomain →
    Matches engine r (fqdn domain subdomain subsubdomain)
  general : ∀ ds r, crc.Listed ds r → General r → Matches engine r (fqdn domain subdomain subsubdomain) → found.isSome

section Refinement

variable {engine : Engine} {visit : Visit} {crc : CRConfig}

theorem getRegexes_mem {ds : String} {matchsets : List Matchset} {read : String × List (List Char)}
    (got : getRegexes (ds, matchsets) = .ok read) :
    read.1 = ds ∧ ∀ r, r ∈ read.2 ↔ ∃ matchset ∈ matchsets, matchset.matchList.head? = some r := by
  unfold getRegexes at got
  split_ifs at got
  obtain ⟨regexStrs, listed, rfl⟩ := ExceptList.map_ok got
  refine ⟨rfl, fun r => ?_⟩
  rw [ExceptList.mem_mapM_ok listed]
  refine exists_congr fun matchset => and_congr_right fun _ => ?_
  cases matchset.matchList with
  | nil => simp
  | cons regex rest => simp

theorem mem_getRegexes {dsRegexes : List (String × List (List Char))}
    (got : crc.deliveryServices.mapM getRegexes = .ok dsRegexes) (ds : String) (r : List Char) :
    (ds, r) ∈ pairs (visit.order dsRegexes) ↔ crc.Listed ds r := by
  rw [mem_pairs]
  constructor
  · rintro ⟨regexStrs, listed, member⟩
    obtain ⟨⟨name, matchsets⟩, inside, read⟩ := (ExceptList.mem_mapM_ok got _).mp ((visit.perm dsRegexes).mem_iff.mp listed)
    obtain ⟨rfl, same⟩ := getRegexes_mem read
    exact ⟨matchsets, inside, (same r).mp member⟩
  · rintro ⟨matchsets, inside, member⟩
    obtain ⟨⟨name, regexStrs⟩, listed, read⟩ := ExceptList.mapM_ok_mem got inside
    obtain ⟨rfl, same⟩ := getRegexes_mem read
    exact ⟨regexStrs, (visit.perm dsRegexes).mem_iff.mpr listed, (same r).mpr member⟩

theorem getDeliveryServiceRegexes_tables {regexes : Regexes engine}
    (accepted : getDeliveryServiceRegexes engine visit crc = .ok regexes) :
    ∃ added, Tables added regexes ∧ ∀ ds r, (ds, r) ∈ added ↔ crc.Listed ds r := by
  unfold getDeliveryServiceRegexes at accepted
  split at accepted
  next => cases accepted
  next dsRegexes got => exact ⟨_, createRegexes_tables accepted, mem_getRegexes got⟩

theorem getDeliveryServiceRegexes_panic (separate : ∀ ds r, crc.Listed ds r → r ≠ ['.', '*', '\\', '.', '.', '*']) :
    getDeliveryServiceRegexes engine visit crc ≠ .error .panic := by
  unfold getDeliveryServiceRegexes
  split
  next => exact fun panics => nomatch panics
  next dsRegexes got =>
    apply createRegexes_panic
    intro ds r member
    exact separate ds r ((mem_getRegexes got ds r).mp member)

theorem deliveryService_refines (documented : engine.Documented) {regexes : Regexes engine}
    (accepted : getDeliveryServiceRegexes engine visit crc = .ok regexes) {visited : List (engine.Expr × String)}
    (perm : visited.Perm regexes.regexMatch) (domain subdomain subsubdomain : List Char) :
    Refines engine crc domain subdomain subsubdomain (regexes.deliveryService visited domain subdomain subsubdomain) := by
  obtain ⟨added, tables, listed⟩ := getDeliveryServiceRegexes_tables accepted
  have complete : ∀ ds r, crc.Listed ds r → Fits engine r domain subdomain subsubdomain →
      (regexes.deliveryService visited domain subdomain subsubdomain).isSome :=
    fun ds r member fits => deliveryService_complete tables perm ((listed ds r).mpr member) fits
  constructor
  case sound =>
    intro ds found
    obtain ⟨r, member, fits⟩ := deliveryService_sound tables perm found
    exact ⟨r, (listed ds r).mp member, fits⟩
  case complete => exact complete
  case dotted =>
    intro plain before after
    exact (matches_between documented plain _).mpr ⟨subsubdomain, domain, before, after, rfl⟩
  case direct =>
    rintro r direct endless same
    rw [← same]
    exact matches_direct documented direct endless
  case general =>
    rintro ds r member general ⟨expr, compiled, whole⟩
    exact complete ds r member (Or.inr (Or.inr ⟨general, expr, compiled, engine.matchString_of_matchesWhole whole⟩))

end Refinement

section Edge

def crConfig (ds regex : String) : CRConfig := ⟨[], [(ds, [⟨"HTTP", [regex.toList]⟩])]⟩

def listed : Visit := ⟨fun entries => entries, fun entries => .refl entries⟩

def found (ds regex domain subdomain subsubdomain : String) : Except Fault (Option String) :=
  (getDeliveryServiceRegexes pieceEngine listed (crConfig ds regex)).map fun regexes =>
    regexes.deliveryService regexes.regexMatch domain.toList subdomain.toList subsubdomain.toList

example : found "video" ".*\\.video\\..*" "cdn.net" "video" "edge" = .ok (some "video") := by decide

theorem matches_iff {engine : Engine} {r name : List Char} {expr : engine.Expr} (compiled : engine.compile r = .ok expr) :
    Matches engine r name ↔ engine.matchesWhole expr name = true := by
  constructor
  · rintro ⟨other, again, whole⟩
    obtain rfl := Except.ok.inj (compiled.symm.trans again)
    exact whole
  · exact fun whole => ⟨expr, compiled, whole⟩

end Edge

end ToData

end TrafficControl.TrafficMonitor
