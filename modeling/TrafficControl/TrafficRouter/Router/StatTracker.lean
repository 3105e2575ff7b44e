import Mathlib.Data.List.AList
import TrafficControl.Lib.MachineInt
import TrafficControl.Lib.Runs
import TrafficControl.TrafficRouter.Router.TrafficRouter

set_option autoImplicit false

namespace TrafficControl.TrafficRouter.StatTracker

open MachineInt

inductive RouteType where
  | DNS
  | HTTP
deriving DecidableEq

structure Tallies where
  czCount : Int
  geoCount : Int
  deepCzCount : Int
  missCount : Int
  dsrCount : Int
  errCount : Int
  staticRouteCount : Int
  fedCount : Int
  regionalDeniedCount : Int
  regionalAlternateCount : Int
deriving DecidableEq

-- What `saveTrack` reads of a track. `time` is the start until `end`, and the elapsed time after it.
structure Track where
  time : Int
  routeType : Option RouteType
  fqdn : Option String
  result : ResultType

abbrev TallyMap := AList fun _ : String => Tallies

structure Tracker where
  dnsMap : TallyMap
  httpMap : TallyMap
  totalDnsCount : Int
  totalDnsTime : Int
  totalHttpCount : Int
  totalHttpTime : Int
  totalDsMissCount : Int

namespace Tallies

def new : Tallies := ⟨0, 0, 0, 0, 0, 0, 0, 0, 0, 0⟩

def increment (count : Int) : Int := wrap 32 (count + 1)

def incTally (this : Tallies) : ResultType → Tallies
  | .ERROR => { this with errCount := increment this.errCount }
  | .CZ => { this with czCount := increment this.czCount }
  | .GEO => { this with geoCount := increment this.geoCount }
  | .DEEP_CZ => { this with deepCzCount := increment this.deepCzCount }
  | .MISS => { this with missCount := increment this.missCount }
  | .DS_REDIRECT => { this with dsrCount := increment this.dsrCount }
  | .STATIC_ROUTE => { this with staticRouteCount := increment this.staticRouteCount }
  | .FED => { this with fedCount := increment this.fedCount }
  | .RGDENY => { this with regionalDeniedCount := increment this.regionalDeniedCount }
  | .RGALT => { this with regionalAlternateCount := increment this.regionalAlternateCount }
  | _ => this

/-- The tally of a result type, for those that have one. -/
def tally (this : Tallies) : ResultType → Option Int
  | .ERROR => some this.errCount
  | .CZ => some this.czCount
  | .GEO => some this.geoCount
  | .DEEP_CZ => some this.deepCzCount
  | .MISS => some this.missCount
  | .DS_REDIRECT => some this.dsrCount
  | .STATIC_ROUTE => some this.staticRouteCount
  | .FED => some this.fedCount
  | .RGDENY => some this.regionalDeniedCount
  | .RGALT => some this.regionalAlternateCount
  | _ => none

theorem tally_new {result : ResultType} {count : Int} (tallied : count ∈ new.tally result) : count = 0 := by
  cases result <;> simp_all [new, tally]

theorem tally_incTally (this : Tallies) (result other : ResultType) :
    (this.incTally result).tally other =
      (this.tally other).map fun count => if other = result then increment count else count := by
  cases result <;> cases other <;> rfl

end Tallies

namespace Track

def getTrack (now : Int) : Track := ⟨now, none, none, .ERROR⟩

def setRouteType (this : Track) (routeType : RouteType) (fqdn : String) : Track :=
  { this with routeType := some routeType, fqdn := some fqdn }

def setResult (this : Track) (result : ResultType) : Track := { this with result }

def endAt (this : Track) (now : Int) : Track := { this with time := wrap 64 (now - this.time) }

def name (this : Track) : String := this.fqdn.getD "null"

end Track

namespace TallyMap

-- `HashMap.get(null)` finds nothing, as the name is never null when it is put.
def save (map : TallyMap) (t : Track) : TallyMap :=
  let tallies := (t.fqdn.bind fun fqdn => map.lookup fqdn).getD Tallies.new
  map.insert t.name (tallies.incTally t.result)

end TallyMap

namespace Tracker

def new : Tracker := ⟨∅, ∅, 0, 0, 0, 0, 0⟩

def saveTrack (this : Tracker) (t : Track) (now : Int) : Tracker :=
  if t.result = .DS_MISS then { this with totalDsMissCount := wrap 32 (this.totalDsMissCount + 1) }
  else
    let t := t.endAt now
    if t.routeType = some .DNS then
      { this with
        totalDnsCount := wrap 32 (this.totalDnsCount + 1)
        totalDnsTime := wrap 64 (this.totalDnsTime + t.time)
        dnsMap := TallyMap.save this.dnsMap t }
    else
      { this with
        totalHttpCount := wrap 32 (this.totalHttpCount + 1)
        totalHttpTime := wrap 64 (this.totalHttpTime + t.time)
        httpMap := TallyMap.save this.httpMap t }

end Tracker

-- What `initialize` reads of a delivery service.
structure InitialService where
  isDns : Bool
  routingName : String

-- The clock at a track's `start`, at its `end` in `initialize` and at its `end` in `saveTrack`.
structure InitialClock where
  started : Int
  ended : Int
  saved : Int

-- A call of `saveTrack`, with the time at which the track was started.
structure SaveCall where
  t : Track
  now : Int
  started : Int

-- `initMap` in the order of its key set.
def initialCalls (initMap : List (String × List String)) (getDeliveryService : String → Option InitialService)
    (clock : String → Nat → InitialClock) : List SaveCall :=
  initMap.flatMap fun (dsId, dsNames) =>
    match getDeliveryService dsId with
    | none => []
    | some ds => dsNames.zipIdx.filterMap fun (dsName, i) =>
      let { started, ended, saved } := clock dsId i
      let t := Track.getTrack started
      let dsName := ds.routingName ++ "." ++ dsName
      if ds.isDns then
        if i = 0 then some ⟨((t.setRouteType .DNS dsName).setResult .INIT).endAt ended, saved, started⟩ else none
      else some ⟨((t.setRouteType .HTTP dsName).setResult .INIT).endAt ended, saved, started⟩

namespace SaveCall

def elapsed (this : SaveCall) : Int := this.now - this.started

-- The code takes a track without a route type for an HTTP track.
def routeType (this : SaveCall) : RouteType := if this.t.routeType = some .DNS then .DNS else .HTTP

def tabulated (this : SaveCall) (routeType : RouteType) : Bool :=
  decide (this.t.result ≠ .DS_MISS) && decide (this.routeType = routeType)

theorem tabulated_iff {this : SaveCall} {routeType : RouteType} :
    this.tabulated routeType ↔ this.t.result ≠ .DS_MISS ∧ this.routeType = routeType := by
  simp [tabulated]

theorem routeType_dns {this : SaveCall} (dns : this.t.routeType = some .DNS) : this.routeType = .DNS := if_pos dns

theorem routeType_http {this : SaveCall} (http : this.t.routeType ≠ some .DNS) : this.routeType = .HTTP := if_neg http

end SaveCall

inductive Event where
  | saveTrack (t : Track) (now : Int)
  | initializeTracks (initMap : List (String × List String)) (getDeliveryService : String → Option InitialService)
      (clock : String → Nat → InitialClock)

def Event.calls : Event → List SaveCall
  | .saveTrack t now => [⟨t, now, t.time⟩]
  | .initializeTracks initMap getDeliveryService clock => initialCalls initMap getDeliveryService clock

namespace Tracker

def save (this : Tracker) (call : SaveCall) : Option Tracker := some (this.saveTrack call.t call.now)

def initializeTracks (this : Tracker) (initMap : List (String × List String))
    (getDeliveryService : String → Option InitialService) (clock : String → Nat → InitialClock) : Option Tracker :=
  Runs.run save this (initialCalls initMap getDeliveryService clock)

def step (this : Tracker) : Event → Option Tracker
  | .saveTrack t now => some (this.saveTrack t now)
  | .initializeTracks initMap getDeliveryService clock => this.initializeTracks initMap getDeliveryService clock

def totalCount (this : Tracker) : RouteType → Int
  | .DNS => this.totalDnsCount
  | .HTTP => this.totalHttpCount

def totalTime (this : Tracker) : RouteType → Int
  | .DNS => this.totalDnsTime
  | .HTTP => this.totalHttpTime

def tallyMap (this : Tracker) : RouteType → TallyMap
  | .DNS => this.dnsMap
  | .HTTP => this.httpMap

def tallies (this : Tracker) (routeType : RouteType) (name : String) : Tallies :=
  ((this.tallyMap routeType).lookup name).getD Tallies.new

/-- The statistics of a route type are those of the calls so far. -/
structure Conserved (routeType : RouteType) (calls : List SaveCall) (this : Tracker) : Prop where
  totalCount : this.totalCount routeType = calls.countP (·.tabulated routeType)
  totalTime : this.totalTime routeType = ((calls.filter (·.tabulated routeType)).map (·.elapsed)).sum
  tallies : ∀ name result, ∀ tally ∈ (this.tallies routeType name).tally result,
    tally = calls.countP fun call => call.tabulated routeType && call.t.name == name && decide (call.t.result = result)

/-- The totals have room for the track, which was not ended before, and the tallies of a track
without a name are still those of a new entry. -/
structure Sound (routeType : RouteType) (this : Tracker) (call : SaveCall) : Prop where
  count : call.tabulated routeType → Fits 32 (this.totalCount routeType + 1)
  time : call.tabulated routeType → Fits 64 (this.totalTime routeType + call.elapsed)
  running : call.tabulated routeType → call.t.time = call.started
  named : call.tabulated routeType → call.t.fqdn = none → this.tallies routeType "null" = Tallies.new

def SoundEvent (routeType : RouteType) (this : Tracker) (event : Event) : Prop :=
  Runs.Throughout save (Sound routeType) this event.calls

section Saving

variable {routeType : RouteType} {this : Tracker} {call : SaveCall}

theorem saveTrack_untabulated (this : Tracker) (untabulated : ¬call.tabulated routeType) :
    (this.saveTrack call.t call.now).totalCount routeType = this.totalCount routeType ∧
      (this.saveTrack call.t call.now).totalTime routeType = this.totalTime routeType ∧
      (this.saveTrack call.t call.now).tallyMap routeType = this.tallyMap routeType := by
  unfold saveTrack
  split
  next => cases routeType <;> exact ⟨rfl, rfl, rfl⟩
  next found =>
    have other : call.routeType ≠ routeType := fun same => untabulated (SaveCall.tabulated_iff.mpr ⟨found, same⟩)
    dsimp only [Track.endAt]
    split
    next dns =>
      cases routeType with
      | DNS => exact absurd (SaveCall.routeType_dns dns) other
      | HTTP => exact ⟨rfl, rfl, rfl⟩
    next http =>
      cases routeType with
      | DNS => exact ⟨rfl, rfl, rfl⟩
      | HTTP => exact absurd (SaveCall.routeType_http http) other

theorem saveTrack_tabulated (this : Tracker) (tabulated : call.tabulated routeType) :
    (this.saveTrack call.t call.now).totalCount routeType = wrap 32 (this.totalCount routeType + 1) ∧
      (this.saveTrack call.t call.now).totalTime routeType =
        wrap 64 (this.totalTime routeType + wrap 64 (call.now - call.t.time)) ∧
      (this.saveTrack call.t call.now).tallyMap routeType =
        TallyMap.save (this.tallyMap routeType) call.t := by
  obtain ⟨found, rfl⟩ := SaveCall.tabulated_iff.mp tabulated
  rw [saveTrack, if_neg found]
  dsimp only [Track.endAt]
  split
  next dns =>
    rw [SaveCall.routeType_dns dns]
    exact ⟨rfl, rfl, rfl⟩
  next http =>
    rw [SaveCall.routeType_http http]
    exact ⟨rfl, rfl, rfl⟩

theorem lookup_save {map : TallyMap} {t : Track}
    (named : t.fqdn = none → (map.lookup "null").getD Tallies.new = Tallies.new) (name : String) :
    ((TallyMap.save map t).lookup name).getD Tallies.new =
      if t.name = name then ((map.lookup name).getD Tallies.new).incTally t.result
      else (map.lookup name).getD Tallies.new := by
  have found : (t.fqdn.bind fun fqdn => map.lookup fqdn).getD Tallies.new = (map.lookup t.name).getD Tallies.new := by
    unfold Track.name
    cases fqdn : t.fqdn with
    | none => exact (named fqdn).symm
    | some _ => rfl
  rw [TallyMap.save, found]
  split
  next same =>
    subst same
    rw [AList.lookup_insert, Option.getD_some]
  next other => rw [AList.lookup_insert_ne (Ne.symm other)]

/-- The tally of a track is at most the total count. -/
theorem Conserved.tally_le {calls : List SaveCall} (conserved : Conserved routeType calls this) {name : String}
    {result : ResultType} {tally : Int} (tallied : tally ∈ (this.tallies routeType name).tally result) :
    0 ≤ tally ∧ tally ≤ this.totalCount routeType := by
  rw [conserved.tallies name result tally tallied, conserved.totalCount]
  refine ⟨Int.natCast_nonneg _, Int.ofNat_le.mpr (List.countP_mono_left fun call _ => ?_)⟩
  simp only [Bool.and_eq_true]
  exact fun ⟨⟨tabulated, _⟩, _⟩ => tabulated

theorem save_conserved (past : List SaveCall) (this : Tracker) (call : SaveCall) (next : Tracker)
    (conserved : Conserved routeType past this) (sound : Sound routeType this call)
    (saved : save this call = some next) : Conserved routeType (past ++ [call]) next := by
  cases saved
  by_cases tabulated : call.tabulated routeType
  · obtain ⟨count, time, map⟩ := this.saveTrack_tabulated tabulated
    constructor
    · rw [count, wrap_eq (sound.count tabulated), conserved.totalCount, List.countP_append]
      simp [tabulated]
    · rw [time, wrap_add_wrap, sound.running tabulated]
      rw [show call.now - call.started = call.elapsed from rfl, wrap_eq (sound.time tabulated), conserved.totalTime]
      simp [tabulated]
    · intro name result tally tallied
      rw [tallies, map, lookup_save (sound.named tabulated)] at tallied
      split at tallied
      next same =>
        rw [Tallies.tally_incTally] at tallied
        obtain ⟨before, counted, rfl⟩ := Option.map_eq_some_iff.mp tallied
        have room : Fits 32 (before + 1) := by
          have between := conserved.tally_le counted
          have total := sound.count tabulated
          unfold Fits at total ⊢
          omega
        have counts := conserved.tallies name result before counted
        by_cases own : result = call.t.result
        · rw [if_pos own, Tallies.increment, wrap_eq room, counts, List.countP_append]
          simp [tabulated, same, own]
        · rw [if_neg own, counts, List.countP_append]
          simp [Ne.symm own]
      next other =>
        rw [conserved.tallies name result tally tallied]
        simp [other]
  · obtain ⟨count, time, map⟩ := this.saveTrack_untabulated tabulated
    have untabulated := Bool.eq_false_iff.mpr tabulated
    constructor
    · rw [count, conserved.totalCount]
      simp [untabulated]
    · rw [time, conserved.totalTime]
      simp [untabulated]
    · intro name result tally tallied
      rw [tallies, map] at tallied
      rw [conserved.tallies name result tally tallied]
      simp [untabulated]

theorem step_conserved (past : List Event) (s : Tracker) (event : Event) (next : Tracker)
    (conserved : Conserved routeType (past.flatMap Event.calls) s) (sound : SoundEvent routeType s event)
    (stepped : s.step event = some next) : Conserved routeType ((past ++ [event]).flatMap Event.calls) next := by
  have ran : Runs.run save s event.calls = some next := by
    cases event with
    | saveTrack t now => exact stepped
    | initializeTracks initMap getDeliveryService clock => exact stepped
  have saved := Runs.run_history save_conserved conserved sound ran
  simpa using saved

end Saving

/-- The statistics are conserved in a run whose calls of `saveTrack` are all sound. -/
theorem saveTrack_conserves {routeType : RouteType} {events : List Event} {tracker : Tracker}
    (sound : Runs.Throughout step (SoundEvent routeType) new events) (ran : Runs.run step new events = some tracker) :
    Conserved routeType (events.flatMap Event.calls) tracker := by
  have initial : Conserved routeType ([].flatMap Event.calls) new := by
    constructor
    · cases routeType <;> rfl
    · cases routeType <;> rfl
    · intro name result tally tallied
      have zero : tally = 0 := by cases routeType <;> exact Tallies.tally_new tallied
      simpa using zero
  exact Runs.run_history step_conserved initial sound ran

section VideoStatistics

def videoTrack (fqdn : Option String) (result : ResultType) : Track := ⟨1000, some .HTTP, fqdn, result⟩

-- The last track has no name: its request came before the first configuration.
def videoEvents : List Event :=
  [.initializeTracks [("unknown", ["video.cdn.example"])] (fun _ => none) fun _ _ => ⟨500, 500, 500⟩,
    .saveTrack (videoTrack (some "ccr.video.cdn.example") .CZ) 1003, .saveTrack (videoTrack none .ERROR) 1002]

theorem saveTrack_conserves_video :
    ∃ tracker, Runs.run step new videoEvents = some tracker ∧ tracker.totalHttpTime = 5 ∧
      Conserved .HTTP (videoEvents.flatMap Event.calls) tracker := by
  have sound : Runs.Throughout step (SoundEvent .HTTP) new videoEvents := by
    refine ⟨trivial, fun s stepped => ?_⟩
    cases stepped
    refine ⟨⟨?_, fun _ _ => trivial⟩, fun s stepped => ?_⟩
    · exact ⟨by decide, by decide, by decide, by decide⟩
    cases stepped
    refine ⟨⟨?_, fun _ _ => trivial⟩, fun _ _ => trivial⟩
    exact ⟨by decide, by decide, by decide, by decide⟩
  exact ⟨_, rfl, by decide, saveTrack_conserves sound rfl⟩

/-- `initialize` ends its tracks twice, so that the total time is off by the time of day; a second
track without a name loses the first. -/
theorem saveTrack_loses :
    (∃ events tracker, Runs.run step new events = some tracker ∧ tracker.totalTime .HTTP = 1000 ∧
      ¬Conserved .HTTP (events.flatMap Event.calls) tracker) ∧
    ∃ events tracker, Runs.run step new events = some tracker ∧
      (tracker.tallies .HTTP "null").tally .ERROR = some 1 ∧
      ¬Conserved .HTTP (events.flatMap Event.calls) tracker := by
  refine ⟨⟨[.initializeTracks [("video", ["video.cdn.example"])] (fun _ => some ⟨false, "ccr"⟩)
      fun _ _ => ⟨1000, 1000, 1000⟩], _, rfl, by decide, fun conserved => ?_⟩,
    ⟨[.saveTrack (videoTrack none .ERROR) 1002, .saveTrack (videoTrack none .ERROR) 1002], _, rfl, by decide,
      fun conserved => ?_⟩⟩
  · exact absurd conserved.totalTime (by decide)
  · exact absurd (conserved.tallies "null" .ERROR 1 rfl) (by decide)

end VideoStatistics

end Tracker

end TrafficControl.TrafficRouter.StatTracker
