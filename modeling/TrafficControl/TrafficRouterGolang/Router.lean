import TrafficControl.Lib.KeyedLoop
import TrafficControl.Lib.RoundRobin
import TrafficControl.Lib.Runs
import TrafficControl.TrafficMonitor.ToData.Data
import TrafficControl.TrafficRouterGolang.Quadtree.Tree

set_option autoImplicit false

-- The configuration and the states that the Go router polls, and what it makes of them.
namespace TrafficRouterGolang

open KeyedLoop Quadtree Regexp
open TrafficControl.TrafficMonitor.ToData (Fault Matchset Regexes Visit createRegexes getRegexes getDeliveryServiceRegexes)

-- The order in which a loop visits a map; it differs from loop to loop.
structure RangeOrder where
  order : List String → List String
  perm : ∀ keys, (order keys).Perm keys

structure CRConfigTrafficOpsServer where
  cacheGroup : Option String
  deliveryServices : AList fun _ : String => List String

structure CRConfigLatitudeLongitude where
  lat : Rat
  lon : Rat
deriving DecidableEq

structure CRConfigStats where
  cdnName : Option String
  dateUnixSeconds : Option Int
deriving DecidableEq

structure CRConfig where
  contentServers : AList fun _ : String => CRConfigTrafficOpsServer
  deliveryServices : AList fun _ : String => List Matchset
  edgeLocations : AList fun _ : String => CRConfigLatitudeLongitude
  stats : CRConfigStats

-- The availability of the caches.
structure CRStates where
  caches : AList fun _ : String => Bool

/-- The error of a configuration that does not follow the one before it. -/
def valid (new old : Option CRConfig) : Option String :=
  match old, new with
  | none, _ => none
  | some _, none => some "CRConfig is nil"
  | some old, some new =>
    match old.stats.cdnName, new.stats.cdnName with
    | some _, none => some "CDN name of new CRConfig is null"
    | oldName, newName =>
      if oldName ≠ none ∧ newName ≠ oldName then
        some ("CDN name of new CRConfig '" ++ newName.getD "" ++ "' doesn't match old '" ++ oldName.getD "" ++ "'")
      else
        match old.stats.dateUnixSeconds, new.stats.dateUnixSeconds with
        | some _, none => some "Date of new CRConfig is null"
        | some oldDate, some newDate =>
          if newDate < oldDate then some ("Date of new CRConfig " ++ toString newDate ++ " less than old " ++ toString oldDate) else none
        | none, _ => none

namespace CRConfig

variable (crc : CRConfig)

/-- The expressions of the delivery services; both maps are visited in some order. -/
def regexes (engine : Engine) (order : RangeOrder) (visit : Visit) : Except Fault (Regexes engine) :=
  match (inOrder order.order crc.deliveryServices).mapM getRegexes with
  | .error text => .error (.error text)
  | .ok dsRegexes => createRegexes engine (visit.order dsRegexes)

/-- As Traffic Monitor makes them of the same entries. -/
theorem regexes_eq (engine : Engine) (order : RangeOrder) (visit : Visit) :
    crc.regexes engine order visit = getDeliveryServiceRegexes engine visit ⟨[], inOrder order.order crc.deliveryServices⟩ := rfl

-- There is no tree where the insertions do not end.
def createCGSearcher (order : RangeOrder) (fuel : Nat) : Option Node :=
  build fuel ((inOrder order.order crc.edgeLocations).map fun entry => ⟨entry.2.lat, entry.2.lon, entry.1⟩)

/-- A counter for each delivery service. -/
def createNextCacher : String → Option (BitVec 64) := fun ds => if ds ∈ crc.deliveryServices then some 0 else none

end CRConfig

abbrev AvailableServersMap := String → Option (String → Option (List String))

namespace AvailableServersMap

def get (this : AvailableServersMap) (ds cg : String) : Except String (List String) :=
  match this ds with
  | none => .error "deliveryservice not found"
  | some cgs =>
    match cgs cg with
    | none => .error "cachegroup not found"
    | some cs => .ok cs

def add (this : AvailableServersMap) (ds cg server : String) : AvailableServersMap :=
  let cgs := (this ds).getD fun _ => none
  Function.update this ds (some (Function.update cgs cg (some ((cgs cg).getD [] ++ [server]))))

end AvailableServersMap

-- One turn of the loop of `updateAvailableServers`.
def addServer (crs : CRStates) (order : RangeOrder) (newAS : AvailableServersMap) (server : String × CRConfigTrafficOpsServer) : AvailableServersMap :=
  if (crs.caches.lookup server.1).getD false then
    match server.2.cacheGroup with
    | none => newAS
    | some cgName => (inOrder order.order server.2.deliveryServices).foldl (fun newAS ds => newAS.add ds.1 cgName server.1) newAS
  else newAS

def updateAvailableServers (crc : CRConfig) (crs : CRStates) (order : RangeOrder) : AvailableServersMap :=
  (inOrder order.order crc.contentServers).foldl (addServer crs order) fun _ => none

/-- The server serves the delivery service from the cache group, and is available. -/
def Serves (crs : CRStates) (ds cg : String) (server : String × CRConfigTrafficOpsServer) : Prop :=
  (crs.caches.lookup server.1).getD false = true ∧ server.2.cacheGroup = some cg ∧ ds ∈ server.2.deliveryServices

instance (crs : CRStates) (ds cg : String) (server : String × CRConfigTrafficOpsServer) : Decidable (Serves crs ds cg server) :=
  inferInstanceAs (Decidable (_ ∧ _ ∧ _))

namespace AvailableServersMap

variable {this : AvailableServersMap} {ds cg server : String}

/-- What is found, nothing as an empty list. -/
def listed (this : AvailableServersMap) (ds cg : String) : List String := ((this ds).bind fun cgs => cgs cg).getD []

/-- No list is empty, and no delivery service without a list. -/
def NoEmpty (this : AvailableServersMap) : Prop := ∀ ds cgs, this ds = some cgs → ∀ cg, cgs cg ≠ some []

theorem get_ok {servers : List String} (found : this.get ds cg = .ok servers) : this.listed ds cg = servers ∧ ∃ cgs, this ds = some cgs ∧ cgs cg = some servers := by
  unfold get at found
  split at found
  · cases found
  next cgs service =>
    split at found
    · cases found
    next cs group =>
      cases found
      exact ⟨by rw [listed, service, Option.bind_some, group]; rfl, cgs, service, group⟩

theorem NoEmpty.get {servers : List String} (noEmpty : this.NoEmpty) (found : this.get ds cg = .ok servers) : servers ≠ [] := by
  obtain ⟨_, cgs, service, group⟩ := get_ok found
  rintro rfl
  exact noEmpty ds cgs service cg group

theorem listed_add (this : AvailableServersMap) (ds cg server otherDs otherCg : String) : (this.add ds cg server).listed otherDs otherCg =
    this.listed otherDs otherCg ++ if otherDs = ds ∧ otherCg = cg then [server] else [] := by
  unfold add listed
  by_cases service : otherDs = ds
  · subst service
    rw [Function.update_self, Option.bind_some]
    by_cases group : otherCg = cg
    · subst group
      rw [Function.update_self, if_pos ⟨rfl, rfl⟩]
      cases this otherDs <;> rfl
    · rw [Function.update_of_ne group, if_neg fun both => group both.2, List.append_nil]
      cases this otherDs <;> rfl
  · rw [Function.update_of_ne service, if_neg fun both => service both.1, List.append_nil]

theorem NoEmpty.add (noEmpty : this.NoEmpty) (ds cg server : String) : (this.add ds cg server).NoEmpty := by
  intro otherDs cgs found otherCg
  unfold AvailableServersMap.add at found
  by_cases service : otherDs = ds
  · subst service
    rw [Function.update_self] at found
    cases found
    by_cases group : otherCg = cg
    · subst group
      rw [Function.update_self]
      simp
    · rw [Function.update_of_ne group]
      cases own : this otherDs with
      | none => exact fun empty => nomatch empty
      | some cgs => exact noEmpty otherDs cgs own otherCg
  · rw [Function.update_of_ne service] at found
    exact noEmpty otherDs cgs found otherCg

end AvailableServersMap

section Update

variable {crc : CRConfig} {crs : CRStates} {order : RangeOrder} {ds cg : String}

theorem listed_addServer (newAS : AvailableServersMap) (server : String × CRConfigTrafficOpsServer) :
    (addServer crs order newAS server).listed ds cg = newAS.listed ds cg ++ if Serves crs ds cg server then [server.1] else [] := by
  unfold addServer
  by_cases available : (crs.caches.lookup server.1).getD false = true
  · rw [if_pos available]
    cases group : server.2.cacheGroup with
    | none =>
      rw [if_neg fun serves => nomatch serves.2.1.symm.trans group]
      exact (List.append_nil _).symm
    | some cgName =>
      dsimp only
      rw [foldl_inOrder (fun newAS : AvailableServersMap => newAS.listed ds cg) order.perm _ (fun _ names => names ++ if cg = cgName then [server.1] else [])]
      · cases assigned : server.2.deliveryServices.lookup ds with
        | none =>
          have apart : ¬Serves crs ds cg server := fun serves => AList.lookup_eq_none.mp assigned serves.2.2
          rw [if_neg apart, List.append_nil, Option.elim_none]
        | some _ =>
          have service : ds ∈ server.2.deliveryServices := AList.lookup_isSome.mp (Option.isSome_of_eq_some assigned)
          have serves : Serves crs ds cg server ↔ cg = cgName :=
            ⟨fun serves => Option.some.inj (serves.2.1.symm.trans group), fun same => ⟨available, same ▸ group, service⟩⟩
          simp only [serves, Option.elim_some]
      · intro newAS other apart
        rw [AvailableServersMap.listed_add, if_neg fun both => apart both.1.symm, List.append_nil]
      · intro newAS value
        simp [AvailableServersMap.listed_add]
  · rw [if_neg available, if_neg fun serves => available serves.1, List.append_nil]

/-- The servers of a delivery service and a cache group are those that serve it, in the order of the loop. -/
theorem listed_updateAvailableServers : (updateAvailableServers crc crs order).listed ds cg =
    ((inOrder order.order crc.contentServers).filter fun server => Serves crs ds cg server).map Prod.fst := by
  have loop : ∀ (servers : List (String × CRConfigTrafficOpsServer)) (newAS : AvailableServersMap), (servers.foldl (addServer crs order) newAS).listed ds cg =
      newAS.listed ds cg ++ (servers.filter fun server => Serves crs ds cg server).map Prod.fst := by
    intro servers
    induction servers with
    | nil => exact fun newAS => (List.append_nil _).symm
    | cons server servers ih =>
      intro newAS
      rw [List.foldl_cons, ih, listed_addServer, List.append_assoc, List.filter_cons]
      by_cases serves : Serves crs ds cg server
      · rw [if_pos serves, if_pos (decide_eq_true serves)]
        rfl
      · rw [if_neg serves, if_neg fun true => serves (of_decide_eq_true true), List.nil_append]
  exact loop _ _

theorem nodup_listed_updateAvailableServers : ((updateAvailableServers crc crs order).listed ds cg).Nodup := by
  rw [listed_updateAvailableServers]
  exact (nodup_inOrder order.perm crc.contentServers).sublist (List.filter_sublist.map _)

theorem noEmpty_updateAvailableServers : (updateAvailableServers crc crs order).NoEmpty := by
  have loop : ∀ (servers : List (String × CRConfigTrafficOpsServer)) (newAS : AvailableServersMap), newAS.NoEmpty →
      (servers.foldl (addServer crs order) newAS).NoEmpty := by
    intro servers
    induction servers with
    | nil => exact fun _ noEmpty => noEmpty
    | cons server servers ih =>
      intro newAS noEmpty
      refine ih _ ?_
      unfold addServer
      split_ifs
      · cases server.2.cacheGroup with
        | none => exact noEmpty
        | some cgName =>
          have inner : ∀ (entries : List (String × List String)) (newAS : AvailableServersMap), newAS.NoEmpty →
              (entries.foldl (fun newAS entry => newAS.add entry.1 cgName server.1) newAS).NoEmpty := by
            intro entries
            induction entries with
            | nil => exact fun _ noEmpty => noEmpty
            | cons entry entries ih => exact fun newAS noEmpty => ih _ (noEmpty.add _ _ _)
          exact inner _ newAS noEmpty
      · exact noEmpty
  exact loop _ _ fun _ _ found => nomatch found

end Update

/-- The functions of the package net that the router calls. -/
structure Net where
  IP : Type
  IPNet : Type
  splitHostPort : String → Option String
  parseIP : String → Option IP
  isV4 : IP → Bool
  contains : IPNet → IP → Bool

structure CoverageZone (net : Net) where
  nets : List (net.IPNet × CRConfigLatitudeLongitude)
  net6s : List (net.IPNet × CRConfigLatitudeLongitude)

def CoverageZone.get {net : Net} (this : CoverageZone net) (ip : net.IP) : Option CRConfigLatitudeLongitude :=
  ((if net.isV4 ip then this.nets else this.net6s).find? fun entry => net.contains entry.1 ip).map (·.2)

def DefaultPos : CRConfigLatitudeLongitude := ⟨39579244 / 1000000, -104934282 / 1000000⟩

structure Request where
  host : List Char
  xForwardedFor : String
  remoteAddr : String
  path : List Char
  rawQuery : List Char

structure HostParts where
  subsubdomain : List Char
  subdomain : List Char
  domain : List Char

-- The domain is without the last part of the host.
def Request.parts (r : Request) : Option HostParts :=
  match r.host.splitOn '.' with
  | subsubdomain :: subdomain :: last :: rest => some ⟨subsubdomain, subdomain, List.intercalate ['.'] ((last :: rest).dropLast)⟩
  | _ => none

inductive Outcome where
  | tooFewParts
  | noMatch
  | badRemoteAddr
  | badIP
  | noCachegroup
  | unavailable (err : String)
  | noServers
  | notInNextCacher
  | redirect (regexes : Nat) (ds cg : String) (srvrs : List String) (nextCacher : Nat) (ticket : BitVec 64)
  | panics
deriving DecidableEq

/-- The status that is written; a handler that panics writes none. -/
def Outcome.status : Outcome → Option Nat
  | tooFewParts => some 404
  | noMatch => some 404
  | badRemoteAddr => some 500
  | badIP => some 500
  | noCachegroup => some 500
  | unavailable _ => some 404
  | noServers => some 500
  | notInNextCacher => some 500
  | redirect _ _ _ _ _ _ => some 302
  | panics => none

/-- Between which accesses a handler is, with its local variables. -/
inductive Phase where
  | arrived
  | matched (regexes : Nat) (ds : String) (pos : CRConfigLatitudeLongitude)
  | located (regexes : Nat) (ds cg : String)
  | listed (regexes : Nat) (ds cg : String) (srvrs : List String)
  | holding (regexes : Nat) (ds cg : String) (srvrs : List String) (nextCacher : Nat)
  | answered (outcome : Outcome)
deriving DecidableEq

structure Handler where
  request : Request
  phase : Phase

def Handler.location (server : String) (r : Request) : Option (List Char) :=
  r.parts.map fun parts => server.toList ++ '.' :: parts.subdomain ++ '.' :: parts.domain ++ r.path ++
    if r.rawQuery = [] then [] else '?' :: r.rawQuery

/-- What one poll makes of a configuration. -/
structure Generation (engine : Engine) where
  crc : CRConfig
  crcRgx : Regexes engine
  cgSearcher : Node

/-- Which container is set next. -/
inductive Publishing where
  | nextCacher
  | cgSearcher
  | crc
  | crcRgx
  | previous

inductive StatesPoller where
  | idle
  | updating
  | computing (crc : Nat)
deriving DecidableEq

-- The pollers make their first poll one after the other, before requests are served.
inductive Boot where
  | config
  | states
  | serving
deriving DecidableEq

abbrev Bytes := List UInt8

/-- The containers hold pointers to what was allocated for a generation; only the counters of its `NextCacher` change. -/
structure Router (engine : Engine) where
  heap : List (Generation engine)
  nextCachers : List (String → Option (BitVec 64))
  thsNextCacher : Option Nat
  thsCGSearcher : Option Nat
  thsCrc : Option Nat
  thsCrcRgx : Option Nat
  prevBts : Bytes
  prevCrc : Option Nat
  publishing : Option (Bytes × Nat × Publishing)
  thsCrs : Option CRStates
  prevStatesBts : Bytes
  statesPoller : StatesPoller
  availableServers : AvailableServersMap
  boot : Boot
  handlers : List Handler
  crashed : Bool

def Router.initial (engine : Engine) : Router engine where
  heap := []
  nextCachers := []
  thsNextCacher := none
  thsCGSearcher := none
  thsCrc := none
  thsCrcRgx := none
  prevBts := []
  prevCrc := none
  publishing := none
  thsCrs := none
  prevStatesBts := []
  statesPoller := .idle
  availableServers := fun _ => none
  boot := .config
  handlers := []
  crashed := false

-- The order in which a map of expressions is visited.
structure ExprOrder (engine : Engine) where
  order : List (engine.Expr × String) → List (engine.Expr × String)
  perm : ∀ entries, (order entries).Perm entries

/-- What was fetched, if there was no error, and what its text decodes to. -/
abbrev Fetched (α : Type) := Option (Bytes × Option α)

inductive Event (engine : Engine) where
  | fetchConfig (fetched : Fetched CRConfig) (services : RangeOrder) (visit : Visit) (locations : RangeOrder) (fuel : Nat)
  | publish
  | fetchStates (fetched : Fetched CRStates)
  | readConfig
  | setServers (order : RangeOrder)
  | arrive (r : Request)
  | handle (i : Nat) (order : ExprOrder engine)

section Steps

variable {engine : Engine} {net : Net} (cz : CoverageZone net)

namespace Router

variable (s : Router engine)

def generation (pointer : Option Nat) : Option (Generation engine) := pointer.bind fun g => s.heap[g]?

def endConfigPoll : Router engine := { s with publishing := none, boot := if s.boot = .config then .states else s.boot }

def endStatesPoll : Router engine := { s with statesPoller := .idle, boot := .serving }

/-- A new configuration is taken where nothing fails. -/
def useConfig (newBts : Bytes) (crc : CRConfig) (services : RangeOrder) (visit : Visit) (locations : RangeOrder) (fuel : Nat) : Option (Router engine) :=
  match valid (some crc) ((s.generation s.prevCrc).map (·.crc)) with
  | some _ => some s.endConfigPoll
  | none =>
    match crc.regexes engine services visit with
    | .error (.error _) => some s.endConfigPoll
    | .error .panic => some { s with crashed := true }
    | .ok crcRgx => (crc.createCGSearcher locations fuel).map fun cgSearcher => { s with
        heap := s.heap ++ [⟨crc, crcRgx, cgSearcher⟩]
        nextCachers := s.nextCachers ++ [crc.createNextCacher]
        publishing := some (newBts, s.heap.length, .nextCacher) }

def publish : Option (Router engine) :=
  match s.publishing with
  | none => none
  | some (bts, g, .nextCacher) => some { s with thsNextCacher := some g, publishing := some (bts, g, .cgSearcher) }
  | some (bts, g, .cgSearcher) => some { s with thsCGSearcher := some g, publishing := some (bts, g, .crc) }
  | some (bts, g, .crc) => some { s with thsCrc := some g, publishing := some (bts, g, .crcRgx) }
  | some (bts, g, .crcRgx) => some { s with thsCrcRgx := some g, publishing := some (bts, g, .previous) }
  | some (bts, g, .previous) => some { s with prevBts := bts, prevCrc := some g }.endConfigPoll

def answer (r : Request) (order : ExprOrder engine) : Phase :=
  match r.parts with
  | none => .answered .tooFewParts
  | some parts =>
    match s.thsCrcRgx, s.generation s.thsCrcRgx with
    | some g, some gen =>
      match gen.crcRgx.deliveryService (order.order gen.crcRgx.regexMatch) parts.domain parts.subdomain parts.subsubdomain with
      | none => .answered .noMatch
      | some ds =>
        match if r.xForwardedFor = "" then net.splitHostPort r.remoteAddr else some r.xForwardedFor with
        | none => .answered .badRemoteAddr
        | some ipStr =>
          match net.parseIP ipStr with
          | none => .answered .badIP
          | some ip => .matched g ds ((cz.get ip).getD DefaultPos)
    | _, _ => .answered .panics

/-- The next access of a handler, and where it is then. Only the counters are changed. -/
def advance (h : Handler) (order : ExprOrder engine) : Option (List (String → Option (BitVec 64)) × Phase) :=
  match h.phase with
  | .arrived => some (s.nextCachers, s.answer cz h.request order)
  | .matched g ds pos =>
    match s.generation s.thsCGSearcher with
    | none => some (s.nextCachers, .answered .panics)
    | some gen =>
      match nearest pos.lat pos.lon gen.cgSearcher with
      | none => some (s.nextCachers, .answered .noCachegroup)
      | some cgDat => some (s.nextCachers, .located g ds cgDat.obj)
  | .located g ds cg =>
    match s.availableServers.get ds cg with
    | .error err => some (s.nextCachers, .answered (.unavailable err))
    | .ok srvrs => some (s.nextCachers, if srvrs = [] then .answered .noServers else .listed g ds cg srvrs)
  | .listed g ds cg srvrs =>
    match s.thsNextCacher with
    | none => some (s.nextCachers, .answered .panics)
    | some n => some (s.nextCachers, .holding g ds cg srvrs n)
  | .holding g ds cg srvrs n =>
    match s.nextCachers[n]? with
    | none => none
    | some nextCacher =>
      match nextCacher ds with
      | none => some (s.nextCachers, .answered .notInNextCacher)
      | some i => some (s.nextCachers.set n (Function.update nextCacher ds (some (i + 1))), .answered (.redirect g ds cg srvrs n (i + 1)))
  | .answered _ => none

def step (event : Event engine) : Option (Router engine) :=
  if s.crashed then none
  else
    match event with
    | .fetchConfig fetched services visit locations fuel =>
      if s.publishing.isSome then none
      else
        match fetched with
        | none => some s.endConfigPoll
        | some (newBts, decoded) =>
          if newBts = s.prevBts then some s.endConfigPoll
          else
            match decoded with
            | none => some s.endConfigPoll
            | some crc => s.useConfig newBts crc services visit locations fuel
    | .publish => s.publish
    | .fetchStates fetched =>
      match s.boot, s.statesPoller with
      | .config, _ => none
      | _, .idle =>
        match fetched with
        | none => some s.endStatesPoll
        | some (newBts, decoded) =>
          if newBts = s.prevStatesBts then some s.endStatesPoll
          else
            match decoded with
            | none => some s.endStatesPoll
            | some crs => some { s with thsCrs := some crs, prevStatesBts := newBts, statesPoller := .updating }
      | _, _ => none
    | .readConfig =>
      match s.statesPoller with
      | .updating =>
        match s.thsCrc with
        | none => some { s with crashed := true }
        | some g => some { s with statesPoller := .computing g }
      | _ => none
    | .setServers order =>
      match s.statesPoller with
      | .computing g =>
        match s.heap[g]?, s.thsCrs with
        | some gen, some crs => some { s with availableServers := updateAvailableServers gen.crc crs order }.endStatesPoll
        | _, _ => none
      | _ => none
    | .arrive r => if s.boot = .serving then some { s with handlers := s.handlers ++ [⟨r, .arrived⟩] } else none
    | .handle i order => s.handlers[i]?.bind fun h => (s.advance cz h order).map fun next =>
        { s with nextCachers := next.1, handlers := s.handlers.set i { h with phase := next.2 } }

end Router

end Steps

section Sample

def sampleNet : Net := ⟨Unit, Unit, some, fun ip => if ip = "10.0.0.1" then some () else none, fun _ => true, fun _ _ => true⟩

def sampleZone : CoverageZone sampleNet := ⟨[((), ⟨39, -104⟩)], []⟩

def sampleServer : CRConfigTrafficOpsServer := ⟨some "denver", AList.singleton "video" []⟩

def sampleConfig : CRConfig where
  contentServers := (AList.singleton "edge1" sampleServer).insert "edge2" sampleServer
  deliveryServices := AList.singleton "video" [⟨"HTTP", [".*\\.video\\..*".toList]⟩]
  edgeLocations := AList.singleton "denver" ⟨39, -104⟩
  stats := ⟨some "cdn", some 1⟩

def asListed : RangeOrder := ⟨fun keys => keys, fun _ => .refl _⟩

def visitAsListed : Visit := ⟨id, fun _ => .refl _⟩

def exprsAsListed : ExprOrder pieceEngine := ⟨fun entries => entries, fun _ => .refl _⟩

/-- A first poll of the configuration. -/
def samplePolls : List (Event pieceEngine) :=
  [.fetchConfig (some ([1], some sampleConfig)) asListed visitAsListed asListed 2,
    .publish, .publish, .publish, .publish, .publish]

/-- A first poll of the states, and a request. -/
def sampleRequest : List (Event pieceEngine) :=
  [.fetchStates (some ([1], some ⟨(AList.singleton "edge1" true).insert "edge2" true⟩)), .readConfig, .setServers asListed,
    .arrive ⟨"tr.video.cdn.net".toList, "10.0.0.1", "", "/index".toList, []⟩] ++
    List.replicate 5 (.handle 0 exprsAsListed)

def samplePhases : Option (List Phase) :=
  (Runs.run (Router.step sampleZone) (Router.initial pieceEngine) (samplePolls ++ sampleRequest)).map fun s => s.handlers.map (·.phase)

example : samplePhases = some [.answered (.redirect 0 "video" "denver" ["edge2", "edge1"] 0 1)] := by decide +kernel

end Sample

end TrafficRouterGolang
