import TrafficControl.TrafficRouterGolang.Quadtree.Nearest
import TrafficControl.TrafficRouterGolang.Router

set_option autoImplicit false

-- What holds of the Go router in every run, however the accesses of its goroutines alternate.
namespace TrafficRouterGolang

open KeyedLoop Quadtree Regexp Runs
open TrafficControl.TrafficMonitor.ToData (Fault Fits Matchset Regexes Visit deliveryService_sound getDeliveryServiceRegexes_panic
  getDeliveryServiceRegexes_tables)

section Valid

/-- The same CDN, and no earlier date. -/
def Follows (old new : CRConfigStats) : Prop :=
  (∀ name, old.cdnName = some name → new.cdnName = some name) ∧
    ∀ date, old.dateUnixSeconds = some date → ∃ later, new.dateUnixSeconds = some later ∧ date ≤ later

theorem Follows.trans {first second third : CRConfigStats} (one : Follows first second) (two : Follows second third) : Follows first third := by
  refine ⟨fun name same => two.1 name (one.1 name same), fun date same => ?_⟩
  obtain ⟨later, middle, le⟩ := one.2 date same
  obtain ⟨last, final, le'⟩ := two.2 later middle
  exact ⟨last, final, le.trans le'⟩

theorem valid_iff {old new : CRConfig} : valid (some new) (some old) = none ↔ Follows old.stats new.stats := by
  unfold valid Follows
  dsimp only
  rcases old.stats with ⟨oldName, oldDate⟩
  rcases new.stats with ⟨newName, newDate⟩
  dsimp only
  cases oldName <;> cases newName <;> cases oldDate <;> cases newDate <;> simp <;> split_ifs <;> simp_all

end Valid

section Nearest

variable {top left : Rat} {d : DataT}

theorem bestOf_origin {candidates : List DataT} (found : bestOf top left candidates = some d) : d ∈ candidates ∨ d.obj = "" := by
  unfold bestOf at found
  split_ifs at found
  cases found
  rcases (foldl_closer top left candidates ({ lat := 0, lon := 0, obj := "" }, maxFloat64)).2.2 with same | ⟨member, _⟩
  · rw [same]
    exact Or.inr rfl
  · exact Or.inl member

/-- The search returns a point of the tree, or the zero value where none is near enough to be compared. -/
theorem nearest_origin {n : Node} {cell : Cell} {points : Set DataT} (represents : Represents n cell points)
    (found : nearest top left n = some d) : d ∈ points ∨ d.obj = "" := by
  induction n generalizing cell points d with
  | leaf c elements => exact (bestOf_origin found).imp_left (represents.2.2 d).mp
  | split c children ih =>
    obtain ⟨rfl, _, represents⟩ := represents
    have child : ∀ k e, nearest top left (children k) = some e → e ∈ points ∨ e.obj = "" := fun k e own =>
      (ih k (represents k) own).imp_left And.left
    unfold nearest at found
    dsimp only at found
    split_ifs at found
    · rcases bestOf_origin found with member | zero
      · obtain ⟨k, _, own⟩ := List.mem_filterMap.mp member
        exact child k d own
      · exact Or.inr zero
    · rcases bestOf_origin found with member | zero
      · exact child _ d (Option.mem_toList.mp member)
      · exact Or.inr zero

end Nearest

variable {engine : Engine} {net : Net} {cz : CoverageZone net}

namespace Router

variable {s t : Router engine} {event : Event engine}

section Effects

/-- What one step does. -/
inductive Effect (cz : CoverageZone net) (s : Router engine) : Event engine → Router engine → Prop where
  | endConfig {event : Event engine} (idle : s.publishing = none) : Effect cz s event s.endConfigPoll
  | create {newBts : Bytes} {crc : CRConfig} {services locations : RangeOrder} {visit : Visit} {fuel : Nat} {crcRgx : Regexes engine} {cgSearcher : Node}
    (idle : s.publishing = none) (follows : valid (some crc) ((s.generation s.prevCrc).map (·.crc)) = none)
    (regexes : crc.regexes engine services visit = .ok crcRgx) (searcher : crc.createCGSearcher locations fuel = some cgSearcher) :
    Effect cz s (.fetchConfig (some (newBts, some crc)) services visit locations fuel) { s with
      heap := s.heap ++ [⟨crc, crcRgx, cgSearcher⟩]
      nextCachers := s.nextCachers ++ [crc.createNextCacher]
      publishing := some (newBts, s.heap.length, .nextCacher) }
  | crashOnRegex {newBts : Bytes} {crc : CRConfig} {services locations : RangeOrder} {visit : Visit} {fuel : Nat}
    (panics : crc.regexes engine services visit = .error .panic) :
    Effect cz s (.fetchConfig (some (newBts, some crc)) services visit locations fuel) { s with crashed := true }
  | publish {next : Router engine} (set : s.publish = some next) : Effect cz s .publish next
  | endStates {event : Event engine} (idle : s.statesPoller = .idle) : Effect cz s event s.endStatesPoll
  | takeStates {newBts : Bytes} {crs : CRStates} : Effect cz s (.fetchStates (some (newBts, some crs)))
    { s with thsCrs := some crs, prevStatesBts := newBts, statesPoller := .updating }
  | crashOnConfig (missing : s.thsCrc = none) : Effect cz s .readConfig { s with crashed := true }
  | readConfig {g : Nat} (found : s.thsCrc = some g) : Effect cz s .readConfig { s with statesPoller := .computing g }
  | setServers {order : RangeOrder} {g : Nat} {gen : Generation engine} {crs : CRStates} (computing : s.statesPoller = .computing g) (found : s.heap[g]? = some gen)
    (states : s.thsCrs = some crs) : Effect cz s (.setServers order)
      { s with availableServers := updateAvailableServers gen.crc crs order }.endStatesPoll
  | arrive {r : Request} : Effect cz s (.arrive r) { s with handlers := s.handlers ++ [⟨r, .arrived⟩] }
  | handle {i : Nat} {order : ExprOrder engine} {h : Handler} {next : List (String → Option (BitVec 64)) × Phase} (found : s.handlers[i]? = some h)
    (advanced : s.advance cz h order = some next) : Effect cz s (.handle i order)
      { s with nextCachers := next.1, handlers := s.handlers.set i { h with phase := next.2 } }

theorem effect_of_step (stepped : s.step cz event = some t) : Effect cz s event t := by
  unfold step at stepped
  by_cases crashed : s.crashed = true
  · rw [if_pos crashed] at stepped
    cases stepped
  rw [if_neg crashed] at stepped
  cases event with
  | fetchConfig fetched services visit locations fuel =>
    dsimp only at stepped
    split_ifs at stepped with busy
    have idle := Option.not_isSome_iff_eq_none.mp busy
    split at stepped
    · cases stepped
      exact .endConfig idle
    next newBts decoded =>
      split_ifs at stepped
      · cases stepped
        exact .endConfig idle
      · split at stepped
        · cases stepped
          exact .endConfig idle
        next crc =>
          unfold useConfig at stepped
          split at stepped
          · cases stepped
            exact .endConfig idle
          next follows =>
            split at stepped
            · cases stepped
              exact .endConfig idle
            next panics =>
              cases stepped
              exact .crashOnRegex panics
            next crcRgx regexes =>
              obtain ⟨cgSearcher, searcher, rfl⟩ := Option.map_eq_some_iff.mp stepped
              exact .create idle follows regexes searcher
  | publish => exact .publish stepped
  | fetchStates fetched =>
    dsimp only at stepped
    split at stepped
    · cases stepped
    next idle _ =>
      split at stepped
      · cases stepped
        exact .endStates idle
      · split_ifs at stepped
        · cases stepped
          exact .endStates idle
        · split at stepped
          · cases stepped
            exact .endStates idle
          · cases stepped
            exact .takeStates
    · cases stepped
  | readConfig =>
    dsimp only at stepped
    split at stepped
    · split at stepped
      next missing =>
        cases stepped
        exact .crashOnConfig missing
      next g found =>
        cases stepped
        exact .readConfig found
    · cases stepped
  | setServers order =>
    dsimp only at stepped
    split at stepped
    next g computing =>
      split at stepped
      next gen crs found states =>
        cases stepped
        exact .setServers computing found states
      · cases stepped
    · cases stepped
  | arrive r =>
    dsimp only at stepped
    split_ifs at stepped
    cases stepped
    exact .arrive
  | handle i order =>
    obtain ⟨h, found, advanced⟩ := Option.bind_eq_some_iff.mp stepped
    obtain ⟨next, accessed, rfl⟩ := Option.map_eq_some_iff.mp advanced
    exact .handle found accessed

end Effects

section Containers

-- The pointer to the last of so many generations.
def lastOf : Nat → Option Nat
  | 0 => none
  | n + 1 => some n

/-- How many of the pointers have been set. -/
def done : Publishing → Nat
  | .nextCacher => 0
  | .cgSearcher => 1
  | .crc => 2
  | .crcRgx => 3
  | .previous => 4

/-- What the pointer with this place in the order holds. -/
def newest (publishing : Option (Bytes × Nat × Publishing)) (length place : Nat) : Option Nat :=
  match publishing with
  | none => lastOf length
  | some (_, g, stage) => if place < done stage then some g else lastOf g

/-- The containers hold the last generation, or the one before it where they are not set yet. -/
structure Containers (s : Router engine) : Prop where
  length : ∀ bts g stage, s.publishing = some (bts, g, stage) → s.heap.length = g + 1
  nextCacher : s.thsNextCacher = newest s.publishing s.heap.length 0
  cgSearcher : s.thsCGSearcher = newest s.publishing s.heap.length 1
  crc : s.thsCrc = newest s.publishing s.heap.length 2
  crcRgx : s.thsCrcRgx = newest s.publishing s.heap.length 3
  prevCrc : s.prevCrc = newest s.publishing s.heap.length 4

theorem lastOf_lt {n g : Nat} (last : lastOf n = some g) : n = g + 1 := by
  cases n with
  | zero => cases last
  | succ n =>
    cases last
    rfl

theorem Containers.newest_lt (containers : Containers s) {place g : Nat} (held : newest s.publishing s.heap.length place = some g) : g < s.heap.length := by
  unfold newest at held
  split at held
  · exact Nat.lt_of_lt_of_eq (Nat.lt_succ_self g) (lastOf_lt held).symm
  next bts last stage busy =>
    have length := containers.length _ _ _ busy
    split_ifs at held
    · cases held
      exact Nat.lt_of_lt_of_eq (Nat.lt_succ_self _) length.symm
    · have previous := lastOf_lt held
      omega

/-- What is set earlier is never behind. -/
theorem newest_mono {publishing : Option (Bytes × Nat × Publishing)} {length early late g : Nat} (order : early ≤ late)
    (held : newest publishing length late = some g) : ∃ later, newest publishing length early = some later ∧ g ≤ later := by
  unfold newest at held ⊢
  split at held
  · exact ⟨g, held, Nat.le_refl g⟩
  next bts last stage =>
    split_ifs at held with set
    · exact ⟨g, by rw [if_pos (Nat.lt_of_le_of_lt order set)]; exact held, Nat.le_refl g⟩
    · split_ifs
      · exact ⟨last, rfl, by rw [lastOf_lt held]; exact Nat.le_succ g⟩
      · exact ⟨g, held, Nat.le_refl g⟩

theorem Containers.initial : Containers (Router.initial engine) := ⟨fun _ _ _ busy => (nomatch busy), rfl, rfl, rfl, rfl, rfl⟩

theorem Containers.publish (containers : Containers s) (set : s.publish = some t) : Containers t := by
  obtain ⟨length, nextCacher, cgSearcher, crc, crcRgx, prevCrc⟩ := containers
  unfold Router.publish at set
  split at set
  · cases set
  all_goals
    next bts g busy =>
      have last := length _ _ _ busy
      rw [busy] at nextCacher cgSearcher crc crcRgx prevCrc
      cases set
      refine ⟨?_, ?_, ?_, ?_, ?_, ?_⟩
      · intro bts' g' stage' busy'
        cases busy'
        all_goals exact last
      all_goals simp_all [newest, done, endConfigPoll, lastOf]

theorem Containers.step (containers : Containers s) (effect : Effect cz s event t) : Containers t := by
  cases effect with
  | endConfig idle =>
    obtain ⟨_, nextCacher, cgSearcher, crc, crcRgx, prevCrc⟩ := containers
    rw [idle] at nextCacher cgSearcher crc crcRgx prevCrc
    exact ⟨fun _ _ _ busy => (nomatch busy), nextCacher, cgSearcher, crc, crcRgx, prevCrc⟩
  | create idle follows regexes searcher =>
    obtain ⟨_, nextCacher, cgSearcher, crc, crcRgx, prevCrc⟩ := containers
    rw [idle] at nextCacher cgSearcher crc crcRgx prevCrc
    refine ⟨fun _ _ _ busy => ?_, nextCacher, cgSearcher, crc, crcRgx, prevCrc⟩
    cases busy
    exact List.length_append
  | publish set => exact containers.publish set
  | _ => exact ⟨containers.length, containers.nextCacher, containers.cgSearcher, containers.crc, containers.crcRgx, containers.prevCrc⟩

end Containers

section Accepted

variable {past : List (Event engine)}

def FetchedConfig (past : List (Event engine)) (crc : CRConfig) : Prop :=
  ∃ bts services visit locations fuel, .fetchConfig (some (bts, some crc)) services visit locations fuel ∈ past

def FetchedStates (past : List (Event engine)) (crs : CRStates) : Prop := ∃ bts, .fetchStates (some (bts, some crs)) ∈ past

theorem FetchedStates.append {crs : CRStates} (fetched : FetchedStates past crs) (more : List (Event engine)) : FetchedStates (past ++ more) crs := by
  obtain ⟨bts, member⟩ := fetched
  exact ⟨bts, List.mem_append_left _ member⟩

/-- A generation is made of a configuration that was fetched. -/
structure Built (past : List (Event engine)) (gen : Generation engine) : Prop where
  fetched : FetchedConfig past gen.crc
  regexes : ∃ services visit, gen.crc.regexes engine services visit = .ok gen.crcRgx
  searcher : ∃ locations fuel, gen.crc.createCGSearcher locations fuel = some gen.cgSearcher

theorem Built.append {gen : Generation engine} (built : Built past gen) (more : List (Event engine)) : Built (past ++ more) gen := by
  obtain ⟨bts, services, visit, locations, fuel, member⟩ := built.fetched
  exact ⟨⟨bts, services, visit, locations, fuel, List.mem_append_left _ member⟩, built.regexes, built.searcher⟩

/-- The generations so far, each with its counters. -/
structure Accepted (past : List (Event engine)) (s : Router engine) : Prop where
  built : ∀ gen ∈ s.heap, Built past gen
  follows : (s.heap.map fun gen => gen.crc.stats).Pairwise Follows
  counters : s.nextCachers.length = s.heap.length
  keys : ∀ (g : Nat) (gen : Generation engine) (nextCacher : String → Option (BitVec 64)), s.heap[g]? = some gen →
    s.nextCachers[g]? = some nextCacher → ∀ ds, (nextCacher ds).isSome = true ↔ ds ∈ gen.crc.deliveryServices

theorem Accepted.initial : Accepted past (Router.initial engine) :=
  ⟨fun _ absent => absurd absent List.not_mem_nil, List.Pairwise.nil, rfl, fun _ _ _ found => (nomatch found)⟩

theorem Accepted.later (accepted : Accepted past s) (heap : t.heap = s.heap) (nextCachers : t.nextCachers = s.nextCachers) : Accepted (past ++ [event]) t := by
  obtain ⟨built, follows, counters, keys⟩ := accepted
  rw [← heap] at built follows counters keys
  rw [← nextCachers] at counters keys
  exact ⟨fun gen member => (built gen member).append _, follows, counters, keys⟩

theorem Accepted.create (accepted : Accepted past s) (containers : Containers s) {newBts : Bytes} {crc : CRConfig} {services locations : RangeOrder}
    {visit : Visit} {fuel : Nat} {crcRgx : Regexes engine} {cgSearcher : Node} (idle : s.publishing = none)
    (follows : valid (some crc) ((s.generation s.prevCrc).map (·.crc)) = none) (regexes : crc.regexes engine services visit = .ok crcRgx)
    (searcher : crc.createCGSearcher locations fuel = some cgSearcher) :
    Accepted (past ++ [.fetchConfig (some (newBts, some crc)) services visit locations fuel]) { s with
      heap := s.heap ++ [⟨crc, crcRgx, cgSearcher⟩]
      nextCachers := s.nextCachers ++ [crc.createNextCacher]
      publishing := some (newBts, s.heap.length, .nextCacher) } where
  built gen member := by
    rcases List.mem_append.mp member with old | new
    · exact (accepted.built gen old).append _
    · rw [List.mem_singleton.mp new]
      exact ⟨⟨newBts, services, visit, locations, fuel, List.mem_append_right _ List.mem_cons_self⟩, ⟨services, visit, regexes⟩, locations, fuel, searcher⟩
  follows := by
    rw [List.map_append, List.pairwise_append]
    refine ⟨accepted.follows, List.pairwise_singleton _ _, fun old member new single => ?_⟩
    rw [List.mem_singleton.mp single]
    rcases List.eq_nil_or_concat s.heap with empty | ⟨front, last, split⟩
    · rw [empty] at member
      cases member
    rw [List.concat_eq_append] at split
    have previous : (s.generation s.prevCrc).map (·.crc) = some last.crc := by
      have pointer : s.prevCrc = some front.length := by
        rw [containers.prevCrc, idle, newest, split, List.length_append]
        rfl
      rw [Router.generation, pointer, Option.bind_some, split, List.getElem?_append_right (Nat.le_refl _), Nat.sub_self]
      rfl
    rw [previous] at follows
    have next := valid_iff.mp follows
    have order := accepted.follows
    rw [split, List.map_append, List.pairwise_append] at order
    rw [split, List.map_append] at member
    rcases List.mem_append.mp member with early | own
    · exact (order.2.2 old early _ List.mem_cons_self).trans next
    · rw [List.mem_singleton.mp own]
      exact next
  counters := by
    rw [List.length_append, List.length_append, accepted.counters]
    rfl
  keys g gen counters found counted ds := by
    by_cases old : g < s.heap.length
    · rw [List.getElem?_append_left old] at found
      rw [List.getElem?_append_left (accepted.counters ▸ old)] at counted
      exact accepted.keys g gen counters found counted ds
    · have last : g = s.heap.length := by
        have less := (List.getElem?_eq_some_iff.mp found).1
        rw [List.length_append, List.length_singleton] at less
        omega
      subst last
      rw [List.getElem?_append_right (Nat.le_refl _), Nat.sub_self] at found
      rw [← accepted.counters, List.getElem?_append_right (Nat.le_refl _), Nat.sub_self] at counted
      cases found
      cases counted
      unfold CRConfig.createNextCacher
      split_ifs with present
      · exact iff_of_true rfl present
      · exact iff_of_false Bool.false_ne_true present

end Accepted

section Accesses

/-- What one access of a handler does to the counters, and where the handler is then. -/
inductive Access (cz : CoverageZone net) (s : Router engine) (h : Handler) (order : ExprOrder engine) :
    List (String → Option (BitVec 64)) → Phase → Prop where
  | answer (arrived : h.phase = .arrived) : Access cz s h order s.nextCachers (s.answer cz h.request order)
  | noCGSearcher {g : Nat} {ds : String} {pos : CRConfigLatitudeLongitude} (matched : h.phase = .matched g ds pos)
    (missing : s.generation s.thsCGSearcher = none) : Access cz s h order s.nextCachers (.answered .panics)
  | noCachegroup : Access cz s h order s.nextCachers (.answered .noCachegroup)
  | locate {g : Nat} {ds : String} {pos : CRConfigLatitudeLongitude} {gen : Generation engine} {cgDat : DataT} (matched : h.phase = .matched g ds pos)
    (searcher : s.generation s.thsCGSearcher = some gen) (found : nearest pos.lat pos.lon gen.cgSearcher = some cgDat) :
    Access cz s h order s.nextCachers (.located g ds cgDat.obj)
  | unavailable {err : String} : Access cz s h order s.nextCachers (.answered (.unavailable err))
  | list {g : Nat} {ds cg : String} {srvrs : List String} (located : h.phase = .located g ds cg) (found : s.availableServers.get ds cg = .ok srvrs) :
    Access cz s h order s.nextCachers (if srvrs = [] then .answered .noServers else .listed g ds cg srvrs)
  | noNextCacher {g : Nat} {ds cg : String} {srvrs : List String} (listed : h.phase = .listed g ds cg srvrs) (missing : s.thsNextCacher = none) :
    Access cz s h order s.nextCachers (.answered .panics)
  | hold {g n : Nat} {ds cg : String} {srvrs : List String} (listed : h.phase = .listed g ds cg srvrs) (held : s.thsNextCacher = some n) :
    Access cz s h order s.nextCachers (.holding g ds cg srvrs n)
  | notInNextCacher {g n : Nat} {ds cg : String} {srvrs : List String} {nextCacher : String → Option (BitVec 64)}
    (holding : h.phase = .holding g ds cg srvrs n) (found : s.nextCachers[n]? = some nextCacher) (missing : nextCacher ds = none) :
    Access cz s h order s.nextCachers (.answered .notInNextCacher)
  | next {g n : Nat} {ds cg : String} {srvrs : List String} {nextCacher : String → Option (BitVec 64)} {i : BitVec 64}
    (holding : h.phase = .holding g ds cg srvrs n) (found : s.nextCachers[n]? = some nextCacher) (counter : nextCacher ds = some i) :
    Access cz s h order (s.nextCachers.set n (Function.update nextCacher ds (some (i + 1)))) (.answered (.redirect g ds cg srvrs n (i + 1)))

theorem access_of_advance {h : Handler} {order : ExprOrder engine} {next : List (String → Option (BitVec 64)) × Phase}
    (advanced : s.advance cz h order = some next) : Access cz s h order next.1 next.2 := by
  unfold advance at advanced
  split at advanced
  next arrived =>
    cases advanced
    exact .answer arrived
  next g ds pos matched =>
    split at advanced
    next missing =>
      cases advanced
      exact .noCGSearcher matched missing
    next gen searcher =>
      split at advanced
      · cases advanced
        exact .noCachegroup
      next cgDat found =>
        cases advanced
        exact .locate matched searcher found
  next g ds cg located =>
    split at advanced
    · cases advanced
      exact .unavailable
    next srvrs found =>
      cases advanced
      exact .list located found
  next g ds cg srvrs listed =>
    split at advanced
    next missing =>
      cases advanced
      exact .noNextCacher listed missing
    next n held =>
      cases advanced
      exact .hold listed held
  next g ds cg srvrs n holding =>
    split at advanced
    · cases advanced
    next nextCacher found =>
      split at advanced
      next missing =>
        cases advanced
        exact .notInNextCacher holding found missing
      next i counter =>
        cases advanced
        exact .next holding found counter
  · cases advanced

/-- Every outcome of the first access. -/
theorem answer_cases (r : Request) (order : ExprOrder engine) :
    (s.answer cz r order = .answered .panics ∧ s.generation s.thsCrcRgx = none) ∨
      (∃ outcome ∈ [Outcome.tooFewParts, .noMatch, .badRemoteAddr, .badIP], s.answer cz r order = .answered outcome) ∨
      ∃ g gen parts ds pos, s.thsCrcRgx = some g ∧ s.heap[g]? = some gen ∧ r.parts = some parts ∧
        gen.crcRgx.deliveryService (order.order gen.crcRgx.regexMatch) parts.domain parts.subdomain parts.subsubdomain = some ds ∧
        s.answer cz r order = .matched g ds pos := by
  unfold answer
  split
  · exact Or.inr (Or.inl ⟨_, by simp, rfl⟩)
  next parts split_ =>
    split
    next g gen pointer found =>
      split
      · exact Or.inr (Or.inl ⟨_, by simp, rfl⟩)
      next ds matched =>
        rw [Router.generation, pointer, Option.bind_some] at found
        generalize (if r.xForwardedFor = "" then net.splitHostPort r.remoteAddr else some r.xForwardedFor) = address
        cases address with
        | none => exact Or.inr (Or.inl ⟨_, by simp, rfl⟩)
        | some ipStr =>
          dsimp only
          cases net.parseIP ipStr with
          | none => exact Or.inr (Or.inl ⟨_, by simp, rfl⟩)
          | some ip => exact Or.inr (Or.inr ⟨g, gen, parts, ds, _, pointer, found, split_, matched, rfl⟩)
    next absent =>
      refine Or.inl ⟨rfl, ?_⟩
      cases pointer : s.thsCrcRgx with
      | none => rfl
      | some g =>
        cases found : s.generation (some g) with
        | none => rfl
        | some gen => exact (absent g gen pointer (by rw [pointer]; exact found)).elim

end Accesses

section Answers

variable {past : List (Event engine)} {heap : List (Generation engine)} {r : Request} {g n : Nat} {ds cg server : String} {srvrs : List String}

/-- The configuration lists an expression for the delivery service that the host of the request fits. -/
def Matched (heap : List (Generation engine)) (r : Request) (g : Nat) (ds : String) : Prop :=
  ∃ gen parts, heap[g]? = some gen ∧ r.parts = some parts ∧ ∃ matchsets, gen.crc.deliveryServices.lookup ds = some matchsets ∧
    ∃ matchset ∈ matchsets, ∃ regex, matchset.matchList.head? = some regex ∧ Fits engine regex parts.domain parts.subdomain parts.subsubdomain

-- The zero value is what the search returns where every location is too far away to be compared.
def Located (heap : List (Generation engine)) (cg : String) : Prop := cg = "" ∨ ∃ gen ∈ heap, cg ∈ gen.crc.edgeLocations

/-- An accepted configuration assigns the server, and fetched states have it available. -/
def Assigned (past : List (Event engine)) (heap : List (Generation engine)) (ds cg server : String) : Prop :=
  ∃ gen ∈ heap, ∃ crs, FetchedStates past crs ∧ ∃ srvr, gen.crc.contentServers.lookup server = some srvr ∧ Serves crs ds cg (server, srvr)

/-- A container holds this generation or a newer one. -/
def Reached (pointer : Option Nat) (g : Nat) : Prop := ∃ newest, pointer = some newest ∧ g ≤ newest

/-- What a handler has found by the time that it has a list of servers. -/
structure ListedFor (past : List (Event engine)) (s : Router engine) (r : Request) (g : Nat) (ds cg : String) (srvrs : List String) : Prop where
  seen : Reached s.thsCrcRgx g
  matched : Matched s.heap r g ds
  located : Located s.heap cg
  some : srvrs ≠ []
  distinct : srvrs.Nodup
  assigned : ∀ server ∈ srvrs, Assigned past s.heap ds cg server

structure HoldingFor (past : List (Event engine)) (s : Router engine) (r : Request) (g : Nat) (ds cg : String) (srvrs : List String) (n : Nat) : Prop
    extends ListedFor past s r g ds cg srvrs where
  newer : g ≤ n
  known : n < s.heap.length

/-- A delivery service that a later configuration does not have any more. -/
def Dropped (heap : List (Generation engine)) : Prop :=
  ∃ (g n : Nat) (gen gen' : Generation engine) (ds : String), g < n ∧ heap[g]? = some gen ∧ heap[n]? = some gen' ∧ ds ∈ gen.crc.deliveryServices ∧ ds ∉ gen'.crc.deliveryServices

def PhaseOk (past : List (Event engine)) (s : Router engine) (r : Request) : Phase → Prop
  | .arrived => True
  | .matched g ds _ => Reached s.thsCrcRgx g ∧ Matched s.heap r g ds
  | .located g ds cg => Reached s.thsCrcRgx g ∧ Matched s.heap r g ds ∧ Located s.heap cg
  | .listed g ds cg srvrs => ListedFor past s r g ds cg srvrs
  | .holding g ds cg srvrs n => HoldingFor past s r g ds cg srvrs n
  | .answered (.redirect g ds cg srvrs n _) => HoldingFor past s r g ds cg srvrs n
  | .answered .noServers => False
  | .answered .notInNextCacher => Dropped s.heap
  | .answered _ => True

/-- What stays so as the router goes on: the generations, and that none older is used again. -/
structure Later (s t : Router engine) : Prop where
  heap : s.heap <+: t.heap
  crc : ∀ g, Reached s.thsCrc g → Reached t.thsCrc g
  seen : ∀ g, Reached s.thsCrcRgx g → Reached t.thsCrcRgx g

theorem Later.getElem? (later : Later s t) {gen : Generation engine} (found : s.heap[g]? = some gen) : t.heap[g]? = some gen := by
  obtain ⟨more, same⟩ := later.heap
  rw [← same, List.getElem?_append_left (List.getElem?_eq_some_iff.mp found).1]
  exact found

theorem Later.matched (later : Later s t) (matched : Matched s.heap r g ds) : Matched t.heap r g ds := by
  obtain ⟨gen, parts, found, rest⟩ := matched
  exact ⟨gen, parts, later.getElem? found, rest⟩

theorem Later.located (later : Later s t) (located : Located s.heap cg) : Located t.heap cg := by
  rcases located with zero | ⟨gen, member, edge⟩
  · exact Or.inl zero
  · exact Or.inr ⟨gen, later.heap.mem member, edge⟩

theorem Later.assigned (later : Later s t) (more : List (Event engine)) (assigned : Assigned past s.heap ds cg server) :
    Assigned (past ++ more) t.heap ds cg server := by
  obtain ⟨gen, member, crs, fetched, srvr, found, serves⟩ := assigned
  exact ⟨gen, later.heap.mem member, crs, fetched.append more, srvr, found, serves⟩

theorem Later.listedFor (later : Later s t) (more : List (Event engine)) (listed : ListedFor past s r g ds cg srvrs) :
    ListedFor (past ++ more) t r g ds cg srvrs :=
  ⟨later.seen g listed.seen, later.matched listed.matched, later.located listed.located, listed.some, listed.distinct,
    fun server member => later.assigned more (listed.assigned server member)⟩

theorem Later.holdingFor (later : Later s t) (more : List (Event engine)) (holding : HoldingFor past s r g ds cg srvrs n) :
    HoldingFor (past ++ more) t r g ds cg srvrs n :=
  ⟨later.listedFor more holding.toListedFor, holding.newer, Nat.lt_of_lt_of_le holding.known later.heap.length_le⟩

theorem Later.phaseOk (later : Later s t) (more : List (Event engine)) {phase : Phase} (ok : PhaseOk past s r phase) : PhaseOk (past ++ more) t r phase := by
  cases phase with
  | arrived => trivial
  | matched g ds pos => exact ⟨later.seen g ok.1, later.matched ok.2⟩
  | located g ds cg => exact ⟨later.seen g ok.1, later.matched ok.2.1, later.located ok.2.2⟩
  | listed g ds cg srvrs => exact later.listedFor more ok
  | holding g ds cg srvrs n => exact later.holdingFor more ok
  | answered outcome =>
    cases outcome with
    | redirect g ds cg srvrs n ticket => exact later.holdingFor more ok
    | noServers => exact ok.elim
    | notInNextCacher =>
      obtain ⟨g, n, gen, gen', ds, newer, first, second, rest⟩ := ok
      exact ⟨g, n, gen, gen', ds, newer, later.getElem? first, later.getElem? second, rest⟩
    | _ => trivial

/-- What the shared containers and the handlers hold is sound. -/
structure Sound (past : List (Event engine)) (s : Router engine) : Prop where
  containers : Containers s
  accepted : Accepted past s
  states : ∀ crs, s.thsCrs = some crs → FetchedStates past crs
  available : ∀ ds cg, ∀ server ∈ s.availableServers.listed ds cg, Assigned past s.heap ds cg server
  noEmpty : s.availableServers.NoEmpty
  distinct : ∀ ds cg, (s.availableServers.listed ds cg).Nodup
  handlers : ∀ h ∈ s.handlers, PhaseOk past s h.request h.phase

theorem Sound.initial : Sound [] (Router.initial engine) where
  containers := Containers.initial
  accepted := Accepted.initial
  states _ found := nomatch found
  available _ _ _ absent := absurd absent List.not_mem_nil
  noEmpty _ _ found := nomatch found
  distinct _ _ := List.nodup_nil
  handlers _ absent := absurd absent List.not_mem_nil

/-- A generation that is being published is not older than what a container holds. -/
theorem Containers.reached (containers : Containers s) {bts : Bytes} {stage : Publishing} (busy : s.publishing = some (bts, n, stage))
    {pointer : Option Nat} {place : Nat} (held : pointer = newest s.publishing s.heap.length place) (old : Reached pointer g) :
    Reached (some n) g := by
  obtain ⟨newest, pointed, le⟩ := old
  have last := containers.newest_lt (held.symm.trans pointed)
  rw [containers.length _ _ _ busy] at last
  exact ⟨n, rfl, le.trans (Nat.le_of_lt_succ last)⟩

theorem Containers.later (containers : Containers s) (effect : Effect cz s event t) : Later s t := by
  cases effect with
  | create idle follows regexes searcher => exact ⟨List.prefix_append _ _, fun _ old => old, fun _ old => old⟩
  | publish set =>
    unfold Router.publish at set
    split at set
    · cases set
    all_goals
      next bts g busy =>
        cases set
        refine ⟨List.prefix_refl _, fun older old => ?_, fun older old => ?_⟩
        · first
          | exact old
          | exact containers.reached busy containers.crc old
        · first
          | exact old
          | exact containers.reached busy containers.crcRgx old
  | _ => exact ⟨List.prefix_refl _, fun _ old => old, fun _ old => old⟩

theorem matched_of_answer (accepted : Accepted past s) {order : ExprOrder engine} {parts : HostParts} {gen : Generation engine}
    (found : s.heap[g]? = some gen) (split : r.parts = some parts)
    (matched : gen.crcRgx.deliveryService (order.order gen.crcRgx.regexMatch) parts.domain parts.subdomain parts.subsubdomain = some ds) :
    Matched s.heap r g ds := by
  obtain ⟨services, visit, regexes⟩ := (accepted.built gen (List.mem_of_getElem? found)).regexes
  rw [CRConfig.regexes_eq] at regexes
  obtain ⟨added, tables, listed⟩ := getDeliveryServiceRegexes_tables regexes
  obtain ⟨regex, member, fits⟩ := deliveryService_sound tables (order.perm _) matched
  obtain ⟨matchsets, inside, matchset, own, first⟩ := (listed ds regex).mp member
  exact ⟨gen, parts, found, split, matchsets, (mem_inOrder services.perm _).mp inside, matchset, own, regex, first, fits⟩

theorem located_of_nearest (accepted : Accepted past s) {pos : CRConfigLatitudeLongitude} {gen : Generation engine} {cgDat : DataT}
    (searcher : s.generation s.thsCGSearcher = some gen) (found : nearest pos.lat pos.lon gen.cgSearcher = some cgDat) : Located s.heap cgDat.obj := by
  obtain ⟨g, _, member⟩ := Option.bind_eq_some_iff.mp searcher
  have inside := List.mem_of_getElem? member
  obtain ⟨locations, fuel, built⟩ := (accepted.built gen inside).searcher
  rcases nearest_origin (build_represents built) found with point | zero
  · obtain ⟨entry, visited, same⟩ := List.mem_map.mp point
    have location := (mem_inOrder locations.perm _).mp (show (entry.1, entry.2) ∈ _ from visited)
    refine Or.inr ⟨gen, inside, ?_⟩
    rw [← same]
    exact AList.lookup_isSome.mp (Option.isSome_of_eq_some location)
  · exact Or.inl zero

theorem Sound.phase (sound : Sound past s) {h : Handler} (member : h ∈ s.handlers) {order : ExprOrder engine}
    {nextCachers : List (String → Option (BitVec 64))} {phase : Phase} (access : Access cz s h order nextCachers phase) : PhaseOk past s h.request phase := by
  have own := sound.handlers h member
  cases access with
  | answer arrived =>
    rcases answer_cases h.request order with ⟨panics, _⟩ | ⟨outcome, one, answered⟩ | ⟨g, gen, parts, ds, pos, pointer, found, split, matched, answered⟩
    · rw [panics]
      trivial
    · rw [answered]
      simp only [List.mem_cons, List.not_mem_nil, or_false] at one
      rcases one with rfl | rfl | rfl | rfl <;> trivial
    · rw [answered]
      exact ⟨⟨g, pointer, Nat.le_refl g⟩, matched_of_answer sound.accepted found split matched⟩
  | noCGSearcher matched missing => trivial
  | noCachegroup => trivial
  | locate matched searcher found =>
    rw [matched] at own
    exact ⟨own.1, own.2, located_of_nearest sound.accepted searcher found⟩
  | unavailable => trivial
  | list located found =>
    rw [located] at own
    have some_ := sound.noEmpty.get found
    rw [if_neg some_]
    have same := (AvailableServersMap.get_ok found).1
    exact ⟨own.1, own.2.1, own.2.2, some_, same ▸ sound.distinct _ _, fun server listed => sound.available _ _ server (same.symm ▸ listed)⟩
  | noNextCacher listed missing => trivial
  | hold listed held =>
    rw [listed] at own
    refine ⟨own, ?_, sound.containers.newest_lt (sound.containers.nextCacher.symm.trans held)⟩
    obtain ⟨newest, pointer, le⟩ := own.seen
    obtain ⟨later, set, le'⟩ := newest_mono (Nat.zero_le 3) (sound.containers.crcRgx.symm.trans pointer)
    rw [← sound.containers.nextCacher, held] at set
    cases set
    exact le.trans le'
  | @notInNextCacher g n ds cg srvrs nextCacher holding found missing =>
    rw [holding] at own
    obtain ⟨gen, parts, first, _, matchsets, present, _⟩ := own.matched
    have known : n < s.heap.length := own.known
    obtain ⟨gen', second⟩ : ∃ gen', s.heap[n]? = some gen' := ⟨_, List.getElem?_eq_getElem known⟩
    have service : ds ∈ gen.crc.deliveryServices := AList.lookup_isSome.mp (Option.isSome_of_eq_some present)
    have dropped : ds ∉ gen'.crc.deliveryServices := by
      rw [← sound.accepted.keys n _ nextCacher second found ds, missing]
      exact Bool.false_ne_true
    refine ⟨g, n, gen, gen', ds, Nat.lt_of_le_of_ne own.newer ?_, first, second, service, dropped⟩
    rintro rfl
    rw [first] at second
    exact dropped (Option.some.inj second ▸ service)
  | next holding found counter =>
    rw [holding] at own
    exact own

theorem Accepted.access (accepted : Accepted past s) {h : Handler} {order : ExprOrder engine} {nextCachers : List (String → Option (BitVec 64))}
    {phase : Phase} (access : Access cz s h order nextCachers phase) (handlers : List Handler) :
    Accepted (past ++ [event]) { s with nextCachers := nextCachers, handlers := handlers } := by
  cases access with
  | @next g n ds cg srvrs nextCacher i holding found counter =>
    refine ⟨fun gen member => (accepted.built gen member).append _, accepted.follows, ?_, fun g gen other listed counted service => ?_⟩
    · rw [List.length_set]
      exact accepted.counters
    · rw [List.getElem?_set] at counted
      split_ifs at counted with same less
      · subst same
        cases counted
        rw [← accepted.keys n gen nextCacher listed found service]
        by_cases own : service = ds
        · subst own
          rw [Function.update_self, counter]
          exact iff_of_true rfl rfl
        · rw [Function.update_of_ne own]
      · exact accepted.keys g gen other listed counted service
  | _ => exact accepted.later rfl rfl

theorem Accepted.step (accepted : Accepted past s) (containers : Containers s) (effect : Effect cz s event t) : Accepted (past ++ [event]) t := by
  cases effect with
  | create idle follows regexes searcher => exact accepted.create containers idle follows regexes searcher
  | publish set =>
    unfold Router.publish at set
    split at set <;> cases set <;> exact accepted.later rfl rfl
  | handle found advanced => exact accepted.access (access_of_advance advanced) _
  | _ => exact accepted.later rfl rfl

theorem assigned_of_update {gen : Generation engine} {crs : CRStates} {order : RangeOrder} (member : gen ∈ s.heap) (fetched : FetchedStates past crs)
    (listed : server ∈ (updateAvailableServers gen.crc crs order).listed ds cg) : Assigned past s.heap ds cg server := by
  rw [listed_updateAvailableServers] at listed
  obtain ⟨entry, filtered, rfl⟩ := List.mem_map.mp listed
  obtain ⟨visited, serves⟩ := List.mem_filter.mp filtered
  exact ⟨gen, member, crs, fetched, entry.2, (mem_inOrder order.perm _).mp visited, of_decide_eq_true serves⟩

theorem Sound.step (sound : Sound past s) (effect : Effect cz s event t) : Sound (past ++ [event]) t := by
  have later := sound.containers.later effect
  have handlers : ∀ h ∈ s.handlers, PhaseOk (past ++ [event]) t h.request h.phase := fun h member => later.phaseOk _ (sound.handlers h member)
  have available : ∀ ds cg, ∀ server ∈ s.availableServers.listed ds cg, Assigned (past ++ [event]) t.heap ds cg server := fun ds cg server listed =>
    later.assigned _ (sound.available ds cg server listed)
  have states : ∀ crs, s.thsCrs = some crs → FetchedStates (past ++ [event]) crs := fun crs held => (sound.states crs held).append _
  have containers := sound.containers.step effect
  have accepted := sound.accepted.step sound.containers effect
  cases effect with
  | publish set =>
    unfold Router.publish at set
    split at set <;> cases set <;> exact ⟨containers, accepted, states, available, sound.noEmpty, sound.distinct, handlers⟩
  | @takeStates newBts crs =>
    refine ⟨containers, accepted, fun other held => ?_, available, sound.noEmpty, sound.distinct, handlers⟩
    cases held
    exact ⟨newBts, List.mem_append_right _ List.mem_cons_self⟩
  | @setServers order g gen crs computing found held =>
    have member : gen ∈ s.heap := List.mem_of_getElem? found
    exact ⟨containers, accepted, states, fun ds cg server listed => later.assigned _ (assigned_of_update member (sound.states crs held) listed),
      noEmpty_updateAvailableServers, fun _ _ => nodup_listed_updateAvailableServers, handlers⟩
  | arrive =>
    refine ⟨containers, accepted, states, available, sound.noEmpty, sound.distinct, fun h member => ?_⟩
    rcases List.mem_append.mp member with old | new
    · exact handlers h old
    · rw [List.mem_singleton.mp new]
      trivial
  | @handle i order h next found advanced =>
    refine ⟨containers, accepted, states, available, sound.noEmpty, sound.distinct, fun other member => ?_⟩
    rcases List.mem_or_eq_of_mem_set member with old | rfl
    · exact handlers other old
    · exact later.phaseOk _ (sound.phase (List.mem_of_getElem? found) (access_of_advance advanced))
  | _ => exact ⟨containers, accepted, states, available, sound.noEmpty, sound.distinct, handlers⟩

theorem sound_of_run {events : List (Event engine)} (ran : run (Router.step cz) (Router.initial engine) events = some t) : Sound events t := by
  have kept : ∀ past (s : Router engine) event s', Sound past s → True → s.step cz event = some s' → Sound (past ++ [event]) s' :=
    fun _ _ _ _ sound _ stepped => sound.step (effect_of_step stepped)
  exact run_history kept Sound.initial (throughout_of_forall (fun _ _ => trivial) _) ran

end Answers

end Router

end TrafficRouterGolang
