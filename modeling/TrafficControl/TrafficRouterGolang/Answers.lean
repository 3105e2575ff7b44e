import TrafficControl.TrafficRouterGolang.RouterRuns

set_option autoImplicit false

-- What the Go router answers, in every run of its pollers and handlers.
namespace TrafficRouterGolang

open KeyedLoop Quadtree Regexp RoundRobin Runs
open TrafficControl.TrafficMonitor.ToData (Matchset Visit getDeliveryServiceRegexes_panic)

variable {engine : Engine} {net : Net} {cz : CoverageZone net}

namespace Router

variable {s t : Router engine} {event : Event engine}

section Tickets

variable {n : Nat} {ds : String}

def Phase.ticket (n : Nat) (ds : String) : Phase → Option (BitVec 64)
  | .answered (.redirect _ own _ _ nextCacher ticket) => if nextCacher = n ∧ own = ds then some ticket else none
  | _ => none

/-- The tickets of a counter that handlers have used. -/
def tickets (handlers : List Handler) (n : Nat) (ds : String) : List (BitVec 64) := handlers.filterMap fun h => Phase.ticket n ds h.phase

/-- Each counter is at the number of its tickets. -/
structure Counted (s : Router engine) : Prop where
  counters : ∀ n nextCacher ds i, s.nextCachers[n]? = some nextCacher → nextCacher ds = some i → i = BitVec.ofNat 64 (tickets s.handlers n ds).length
  dispensed : ∀ n ds, Dispensed (tickets s.handlers n ds)
  known : ∀ n ds, s.nextCachers.length ≤ n → tickets s.handlers n ds = []

theorem tickets_set {handlers : List Handler} {i : Nat} {h : Handler} (found : handlers[i]? = some h) (waiting : Phase.ticket n ds h.phase = none)
    (phase : Phase) : (tickets (handlers.set i { h with phase }) n ds).Perm ((Phase.ticket n ds phase).toList ++ tickets handlers n ds) := by
  obtain ⟨less, same⟩ := List.getElem?_eq_some_iff.mp found
  have split : handlers = handlers.take i ++ h :: handlers.drop (i + 1) := by
    rw [← same]
    exact (List.take_append_drop i handlers).symm.trans (congrArg _ (List.drop_eq_getElem_cons less))
  rw [List.set_eq_take_append_cons_drop, if_pos less]
  conv_rhs => rw [split]
  unfold tickets
  have skipped : (h :: handlers.drop (i + 1)).filterMap (fun h => Phase.ticket n ds h.phase) =
      (handlers.drop (i + 1)).filterMap fun h => Phase.ticket n ds h.phase := List.filterMap_cons_none waiting
  rw [List.filterMap_append, List.filterMap_append, List.filterMap_cons, skipped]
  dsimp only
  cases Phase.ticket n ds phase with
  | none => exact List.Perm.refl _
  | some ticket => exact List.perm_middle

theorem waiting_of_advance {h : Handler} {order : ExprOrder engine} {next : List (String → Option (BitVec 64)) × Phase}
    (advanced : s.advance cz h order = some next) (n : Nat) (ds : String) : Phase.ticket n ds h.phase = none := by
  unfold advance at advanced
  cases phase : h.phase with
  | answered outcome =>
    rw [phase] at advanced
    cases advanced
  | _ => rfl

theorem Counted.unchanged (counted : Counted s) {i : Nat} {h : Handler} (found : s.handlers[i]? = some h)
    (waiting : ∀ n ds, Phase.ticket n ds h.phase = none) {phase : Phase} (none_ : ∀ n ds, Phase.ticket n ds phase = none) :
    Counted { s with handlers := s.handlers.set i { h with phase } } := by
  have same : ∀ n ds, (tickets (s.handlers.set i { h with phase }) n ds).Perm (tickets s.handlers n ds) := by
    intro n ds
    have perm := tickets_set found (waiting n ds) phase
    rw [none_ n ds] at perm
    exact perm
  refine ⟨fun n nextCacher ds c listed counter => ?_, fun n ds => (counted.dispensed n ds).perm (same n ds), fun n ds beyond => ?_⟩
  · rw [(same n ds).length_eq]
    exact counted.counters n nextCacher ds c listed counter
  · have empty := same n ds
    rw [counted.known n ds beyond] at empty
    exact empty.eq_nil

theorem Counted.next (counted : Counted s) {i g n : Nat} {ds cg : String} {srvrs : List String} {h : Handler} (found : s.handlers[i]? = some h)
    (waiting : ∀ n ds, Phase.ticket n ds h.phase = none) {nextCacher : String → Option (BitVec 64)} {c : BitVec 64}
    (listed : s.nextCachers[n]? = some nextCacher) (counter : nextCacher ds = some c) :
    Counted { s with
      nextCachers := s.nextCachers.set n (Function.update nextCacher ds (some (c + 1)))
      handlers := s.handlers.set i { h with phase := .answered (.redirect g ds cg srvrs n (c + 1)) } } := by
  have perm := fun m other => tickets_set found (waiting m other) (.answered (.redirect g ds cg srvrs n (c + 1)))
  have own : (tickets (s.handlers.set i { h with phase := .answered (.redirect g ds cg srvrs n (c + 1)) }) n ds).Perm
      ((BitVec.ofNat 64 (tickets s.handlers n ds).length + 1) :: tickets s.handlers n ds) := by
    have law := perm n ds
    rw [Phase.ticket, if_pos ⟨rfl, rfl⟩, counted.counters n nextCacher ds c listed counter] at law
    rw [counted.counters n nextCacher ds c listed counter]
    exact law
  have others : ∀ m other, ¬(n = m ∧ ds = other) →
      (tickets (s.handlers.set i { h with phase := .answered (.redirect g ds cg srvrs n (c + 1)) }) m other).Perm (tickets s.handlers m other) := by
    intro m other apart
    have law := perm m other
    rw [Phase.ticket, if_neg apart] at law
    exact law
  have below : n < s.nextCachers.length := (List.getElem?_eq_some_iff.mp listed).1
  refine ⟨fun m other service c' listed' counter' => ?_, fun m other => ?_, fun m other beyond => ?_⟩
  · dsimp only at listed'
    rw [List.getElem?_set] at listed'
    by_cases here : n = m
    · subst here
      rw [if_pos rfl, if_pos below] at listed'
      cases listed'
      by_cases same : service = ds
      · subst same
        rw [Function.update_self] at counter'
        cases counter'
        rw [own.length_eq, List.length_cons, BitVec.ofNat_add, counted.counters n nextCacher service c listed counter]
        rfl
      · rw [Function.update_of_ne same] at counter'
        rw [(others n service fun both => same both.2.symm).length_eq]
        exact counted.counters n nextCacher service c' listed counter'
    · rw [if_neg here] at listed'
      rw [(others m service fun both => here both.1).length_eq]
      exact counted.counters m other service c' listed' counter'
  · by_cases same : n = m ∧ ds = other
    · obtain ⟨rfl, rfl⟩ := same
      exact (counted.dispensed n ds).next.perm own
    · exact (counted.dispensed m other).perm (others m other same)
  · dsimp only at beyond
    rw [List.length_set] at beyond
    have empty := others m other fun both => absurd (both.1 ▸ below) (Nat.not_lt.mpr beyond)
    rw [counted.known m other beyond] at empty
    exact empty.eq_nil

theorem Counted.handlers_eq (counted : Counted s) (nextCachers : t.nextCachers = s.nextCachers) (handlers : t.handlers = s.handlers) : Counted t := by
  obtain ⟨counters, dispensed, known⟩ := counted
  rw [← handlers] at counters dispensed known
  rw [← nextCachers] at counters known
  exact ⟨counters, dispensed, known⟩

theorem Counted.step (counted : Counted s) (effect : Effect cz s event t) : Counted t := by
  cases effect with
  | @create newBts crc services locations visit fuel crcRgx cgSearcher idle follows regexes searcher =>
    refine ⟨fun n nextCacher ds i listed counter => ?_, counted.dispensed, fun n ds beyond => ?_⟩
    · by_cases old : n < s.nextCachers.length
      · rw [List.getElem?_append_left old] at listed
        exact counted.counters n nextCacher ds i listed counter
      · rw [List.getElem?_append_right (Nat.not_lt.mp old)] at listed
        have fresh : nextCacher = crc.createNextCacher := List.mem_singleton.mp (List.mem_of_getElem? listed)
        rw [fresh, CRConfig.createNextCacher] at counter
        split_ifs at counter
        cases counter
        show 0 = BitVec.ofNat 64 (tickets s.handlers n ds).length
        rw [counted.known n ds (Nat.not_lt.mp old)]
        rfl
    · dsimp only at beyond
      rw [List.length_append] at beyond
      exact counted.known n ds (Nat.le_of_add_right_le beyond)
  | publish set =>
    unfold Router.publish at set
    split at set <;> cases set <;> exact counted.handlers_eq rfl rfl
  | @arrive r =>
    have same : ∀ n ds, tickets (s.handlers ++ [⟨r, .arrived⟩]) n ds = tickets s.handlers n ds := fun n ds => by
      rw [tickets, List.filterMap_append, ← tickets]
      exact List.append_nil _
    refine ⟨fun n nextCacher ds i listed counter => ?_, fun n ds => ?_, fun n ds beyond => ?_⟩
    · rw [same]
      exact counted.counters n nextCacher ds i listed counter
    · rw [same]
      exact counted.dispensed n ds
    · rw [same]
      exact counted.known n ds beyond
  | @handle i order h next found advanced =>
    have waiting := waiting_of_advance advanced
    obtain ⟨nextCachers, phase⟩ := next
    have access := access_of_advance advanced
    dsimp only at access ⊢
    cases access with
    | next holding listed counter => exact counted.next found waiting listed counter
    | answer arrived =>
      refine counted.unchanged found waiting fun n ds => ?_
      rcases answer_cases h.request order with ⟨panics, _⟩ | ⟨outcome, one, answered⟩ | ⟨g, gen, parts, ds', pos, _, _, _, _, answered⟩
      · rw [panics]
        rfl
      · rw [answered]
        simp only [List.mem_cons, List.not_mem_nil, or_false] at one
        rcases one with rfl | rfl | rfl | rfl <;> rfl
      · rw [answered]
        rfl
    | list located listed =>
      refine counted.unchanged found waiting fun n ds => ?_
      split_ifs <;> rfl
    | _ => exact counted.unchanged found waiting fun _ _ => rfl
  | _ => exact counted.handlers_eq rfl rfl

theorem counted_of_run {events : List (Event engine)} (ran : run (Router.step cz) (Router.initial engine) events = some t) : Counted t := by
  have start : Counted (Router.initial engine) := ⟨fun _ _ _ _ found => (nomatch found), fun _ _ => dispensed_nil, fun _ _ _ => rfl⟩
  exact run_induction (fun _ _ _ counted stepped => counted.step (effect_of_step stepped)) start ran

end Tickets

section Fresh

/-- Between two polls, the available servers are those that were computed from the last states. -/
structure Fresh (s : Router engine) : Prop where
  computing : ∀ g, s.statesPoller = .computing g → Reached s.thsCrc g
  idle : s.statesPoller = .idle → ∀ crs, s.thsCrs = some crs → ∃ g gen order, Reached s.thsCrc g ∧ s.heap[g]? = some gen ∧
    s.availableServers = updateAvailableServers gen.crc crs order

theorem Fresh.step (fresh : Fresh s) (containers : Containers s) (effect : Effect cz s event t) : Fresh t := by
  have later := containers.later effect
  have kept : ∀ {u : Router engine}, Later s u → u.thsCrs = s.thsCrs → u.availableServers = s.availableServers → u.statesPoller = s.statesPoller → Fresh u := by
    intro u later states available poller
    refine ⟨fun g computing => later.crc g (fresh.computing g (poller ▸ computing)), fun idle crs held => ?_⟩
    obtain ⟨g, gen, order, reached, found, same⟩ := fresh.idle (poller ▸ idle) crs (states ▸ held)
    exact ⟨g, gen, order, later.crc g reached, later.getElem? found, available.trans same⟩
  cases effect with
  | publish set =>
    unfold Router.publish at set
    split at set <;> cases set <;> exact kept later rfl rfl rfl
  | endStates idle => exact ⟨fun g computing => (nomatch computing), fun _ crs held => fresh.idle idle crs held⟩
  | takeStates => exact ⟨fun g computing => (nomatch computing), fun idle => nomatch idle⟩
  | readConfig found =>
    refine ⟨fun g computing => ?_, fun idle => nomatch idle⟩
    cases computing
    exact ⟨_, found, Nat.le_refl _⟩
  | @setServers order g gen crs computing found states =>
    refine ⟨fun g computing => (nomatch computing), fun _ other held => ?_⟩
    cases states.symm.trans held
    exact ⟨g, gen, order, fresh.computing g computing, found, rfl⟩
  | _ => exact kept later rfl rfl rfl

theorem fresh_of_run {events : List (Event engine)} (ran : run (Router.step cz) (Router.initial engine) events = some t) : Fresh t := by
  have start : Containers (Router.initial engine) ∧ Fresh (Router.initial engine) :=
    ⟨Containers.initial, fun _ computing => (nomatch computing), fun _ _ held => nomatch held⟩
  have kept : ∀ (u : Router engine) event u', Containers u ∧ Fresh u → u.step cz event = some u' → Containers u' ∧ Fresh u' :=
    fun _ _ _ both stepped => ⟨both.1.step (effect_of_step stepped), both.2.step both.1 (effect_of_step stepped)⟩
  exact (run_induction kept start ran).2

end Fresh

section Sample

theorem sample_phases : ∃ s, run (Router.step sampleZone) (Router.initial pieceEngine) (samplePolls ++ sampleRequest) = some s ∧
    s.handlers.map (·.phase) = [.answered (.redirect 0 "video" "denver" ["edge2", "edge1"] 0 1)] :=
  Option.map_eq_some_iff.mp (by decide +kernel : samplePhases = some [.answered (.redirect 0 "video" "denver" ["edge2", "edge1"] 0 1)])

theorem sample_published : ∃ s, run (Router.step sampleZone) (Router.initial pieceEngine) samplePolls = some s ∧
    s.thsCrcRgx = some 0 ∧ s.thsCrc = some 0 ∧ s.heap.length = 1 := by
  have published : (run (Router.step sampleZone) (Router.initial pieceEngine) samplePolls).map (fun s => (s.thsCrcRgx, s.thsCrc, s.heap.length)) =
      some (some 0, some 0, 1) := by decide +kernel
  obtain ⟨s, ran, same⟩ := Option.map_eq_some_iff.mp published
  exact ⟨s, ran, congrArg (·.1) same, congrArg (·.2.1) same, congrArg (·.2.2) same⟩

/-- The states poller is idle again in the end. -/
theorem sample_idle : ∃ s, run (Router.step sampleZone) (Router.initial pieceEngine) (samplePolls ++ sampleRequest) = some s ∧
    s.statesPoller = .idle ∧ s.thsCrs ≠ none := by
  have idle : (run (Router.step sampleZone) (Router.initial pieceEngine) (samplePolls ++ sampleRequest)).map
      (fun s => (s.statesPoller, s.thsCrs.isSome)) = some (.idle, true) := by decide +kernel
  obtain ⟨s, ran, same⟩ := Option.map_eq_some_iff.mp idle
  exact ⟨s, ran, congrArg (·.1) same, Option.isSome_iff_ne_none.mp (congrArg (·.2) same)⟩

end Sample

section Answers

variable {events past future : List (Event engine)}

/-- Whoever reads the configuration twice sees the same CDN, and no earlier date. -/
theorem configs_follow (ran : run (Router.step cz) (Router.initial engine) past = some s) (goes : run (Router.step cz) s future = some t)
    {old : Generation engine} (held : s.generation s.thsCrc = some old) :
    ∃ new, t.generation t.thsCrc = some new ∧ Follows old.crc.stats new.crc.stats := by
  have whole : run (Router.step cz) (Router.initial engine) (past ++ future) = some t := by rw [run_append, ran]; exact goes
  have sound := sound_of_run whole
  obtain ⟨g, pointer, found⟩ := Option.bind_eq_some_iff.mp held
  have kept : ∀ u event u', Containers u ∧ u.heap[g]? = some old ∧ Reached u.thsCrc g → u.step cz event = some u' →
      Containers u' ∧ u'.heap[g]? = some old ∧ Reached u'.thsCrc g := by
    intro u event u' holds stepped
    have effect := effect_of_step stepped
    have later := holds.1.later effect
    exact ⟨holds.1.step effect, later.getElem? holds.2.1, later.crc g holds.2.2⟩
  obtain ⟨_, old', newest, pointer', le⟩ := run_induction kept ⟨(sound_of_run ran).containers, found, g, pointer, Nat.le_refl g⟩ goes
  have known := sound.containers.newest_lt (sound.containers.crc.symm.trans pointer')
  obtain ⟨new, found'⟩ : ∃ new, t.heap[newest]? = some new := ⟨_, List.getElem?_eq_getElem known⟩
  refine ⟨new, by rw [Router.generation, pointer']; exact found', ?_⟩
  rcases Nat.eq_or_lt_of_le le with rfl | less
  · cases old'.symm.trans found'
    exact ⟨fun name same => same, fun date same => ⟨date, same, le_refl date⟩⟩
  · have order := List.pairwise_iff_getElem.mp sound.accepted.follows g newest
    simp only [List.length_map, List.getElem_map] at order
    obtain ⟨below, same⟩ := List.getElem?_eq_some_iff.mp old'
    obtain ⟨below', same'⟩ := List.getElem?_eq_some_iff.mp found'
    rw [← same, ← same']
    exact order below below' less

theorem configs_follow_sample : ∃ s t, run (Router.step sampleZone) (Router.initial pieceEngine) samplePolls = some s ∧
    run (Router.step sampleZone) s sampleRequest = some t ∧ ∃ old new, s.generation s.thsCrc = some old ∧ t.generation t.thsCrc = some new ∧
      Follows old.crc.stats new.crc.stats := by
  obtain ⟨s, ran, _, pointer, length⟩ := sample_published
  obtain ⟨t, whole, _⟩ := sample_phases
  rw [run_append, ran] at whole
  obtain ⟨old, found⟩ : ∃ old, s.heap[0]? = some old := ⟨_, List.getElem?_eq_getElem (length ▸ Nat.one_pos)⟩
  have held : s.generation s.thsCrc = some old := by
    rw [pointer]
    exact found
  obtain ⟨new, later, follows⟩ := configs_follow ran whole held
  exact ⟨s, t, ran, whole, old, new, held, later, follows⟩

/-- However the handlers alternate, no two requests for a delivery service get one number of a counter, and none is left out. -/
theorem tickets_dispensed (ran : run (Router.step cz) (Router.initial engine) events = some s) (n : Nat) (ds : String) :
    (tickets s.handlers n ds).Perm ((List.range (tickets s.handlers n ds).length).map fun i => BitVec.ofNat 64 (i + 1)) :=
  (counted_of_run ran).dispensed n ds

theorem tickets_dispensed_video : ∃ s, run (Router.step sampleZone) (Router.initial pieceEngine) (samplePolls ++ sampleRequest) = some s ∧
    (tickets s.handlers 0 "video").Perm ((List.range (tickets s.handlers 0 "video").length).map fun i => BitVec.ofNat 64 (i + 1)) := by
  obtain ⟨s, ran, _⟩ := sample_phases
  exact ⟨s, ran, tickets_dispensed ran 0 "video"⟩

/-- The servers that the requests for a delivery service were sent to. -/
def served (handlers : List Handler) (n : Nat) (ds : String) : List String := handlers.filterMap fun h =>
  match h.phase with
  | .answered (.redirect _ own _ srvrs nextCacher ticket) => if nextCacher = n ∧ own = ds then pick srvrs ticket.toNat else none
  | _ => none

theorem served_eq {handlers : List Handler} {n : Nat} {ds : String} {srvrs : List String}
    (same : ∀ h ∈ handlers, ∀ g cg own ticket, h.phase = .answered (.redirect g ds cg own n ticket) → own = srvrs) :
    served handlers n ds = (tickets handlers n ds).filterMap fun ticket => pick srvrs ticket.toNat := by
  rw [served, tickets, List.filterMap_filterMap]
  refine List.filterMap_congr fun h member => ?_
  have own := same h member
  cases phase : h.phase with
  | answered outcome =>
    cases outcome with
    | redirect g other cg list nextCacher ticket =>
      rw [Phase.ticket]
      dsimp only
      split_ifs with here
      · obtain ⟨rfl, rfl⟩ := here
        rw [own g cg list ticket phase, Option.bind_some]
      · rfl
    | _ => rfl
  | _ => rfl

/-- No request fails for an empty list of servers, and none for a missing counter unless a later configuration drops the delivery service. -/
theorem outcomes_reached (ran : run (Router.step cz) (Router.initial engine) events = some s) {h : Handler} (member : h ∈ s.handlers) :
    h.phase ≠ .answered .noServers ∧ (h.phase = .answered .notInNextCacher → Dropped s.heap) := by
  have ok := (sound_of_run ran).handlers h member
  constructor
  · intro empty
    rw [empty] at ok
    exact ok
  · intro missing
    rw [missing] at ok
    exact ok

theorem outcomes_reached_video : ∃ s h, run (Router.step sampleZone) (Router.initial pieceEngine) (samplePolls ++ sampleRequest) = some s ∧
    h ∈ s.handlers ∧ h.phase ≠ .answered .noServers ∧ (h.phase = .answered .notInNextCacher → Dropped s.heap) := by
  obtain ⟨s, ran, phases⟩ := sample_phases
  obtain ⟨h, member, _⟩ := List.mem_map.mp (phases ▸ List.mem_cons_self : Phase.answered _ ∈ s.handlers.map (·.phase))
  exact ⟨s, h, ran, member, outcomes_reached ran member⟩

/-- Between two polls, exactly those servers are available that the last states have available and a configuration assigns, which may be an
older one than the one in use. -/
theorem available_exact (ran : run (Router.step cz) (Router.initial engine) events = some s) (idle : s.statesPoller = .idle) {crs : CRStates}
    (held : s.thsCrs = some crs) : ∃ g gen, Reached s.thsCrc g ∧ s.heap[g]? = some gen ∧ ∀ ds cg server,
      server ∈ s.availableServers.listed ds cg ↔ ∃ srvr, gen.crc.contentServers.lookup server = some srvr ∧ Serves crs ds cg (server, srvr) := by
  obtain ⟨g, gen, order, reached, found, same⟩ := (fresh_of_run ran).idle idle crs held
  refine ⟨g, gen, reached, found, fun ds cg server => ?_⟩
  rw [same, listed_updateAvailableServers, List.mem_map]
  constructor
  · rintro ⟨entry, filtered, rfl⟩
    obtain ⟨visited, serves⟩ := List.mem_filter.mp filtered
    exact ⟨entry.2, (mem_inOrder order.perm _).mp visited, of_decide_eq_true serves⟩
  · rintro ⟨srvr, assigned, serves⟩
    exact ⟨(server, srvr), List.mem_filter.mpr ⟨(mem_inOrder order.perm _).mpr assigned, decide_eq_true serves⟩, rfl⟩

theorem available_exact_sample : ∃ s crs, run (Router.step sampleZone) (Router.initial pieceEngine) (samplePolls ++ sampleRequest) = some s ∧
    s.thsCrs = some crs ∧ ∃ g gen, Reached s.thsCrc g ∧ s.heap[g]? = some gen ∧ ∀ ds cg server,
      server ∈ s.availableServers.listed ds cg ↔ ∃ srvr, gen.crc.contentServers.lookup server = some srvr ∧ Serves crs ds cg (server, srvr) := by
  obtain ⟨s, ran, idle, states⟩ := sample_idle
  obtain ⟨crs, held⟩ := Option.ne_none_iff_exists'.mp states
  exact ⟨s, crs, ran, held, available_exact ran idle held⟩

/-- The expression that the cutting of its ends panics on. -/
def Overlapping (crc : CRConfig) : Prop := ∃ ds matchsets, crc.deliveryServices.lookup ds = some matchsets ∧
  ∃ matchset ∈ matchsets, matchset.matchList.head? = some ['.', '*', '\\', '.', '.', '*']

theorem regexes_panic {crc : CRConfig} {services : RangeOrder} {visit : Visit} (panics : crc.regexes engine services visit = .error .panic) :
    Overlapping crc := by
  by_contra separate
  rw [CRConfig.regexes_eq] at panics
  refine getDeliveryServiceRegexes_panic (fun ds r listed same => separate ?_) panics
  obtain ⟨matchsets, inside, matchset, own, first⟩ := listed
  exact ⟨ds, matchsets, (mem_inOrder services.perm _).mp inside, matchset, own, same ▸ first⟩

/-- Once a container holds a generation, so does every one that is set before it. -/
theorem Containers.generation_of (containers : Containers s) (published : s.thsCrcRgx ≠ none) {pointer : Option Nat} {place : Nat} (order : place ≤ 3)
    (held : pointer = newest s.publishing s.heap.length place) : s.generation pointer ≠ none := by
  obtain ⟨g, set⟩ := Option.ne_none_iff_exists'.mp published
  obtain ⟨later, pointed, _⟩ := newest_mono order (containers.crcRgx.symm.trans set)
  rw [Router.generation, held, pointed, Option.bind_some, List.getElem?_eq_getElem (containers.newest_lt pointed)]
  exact Option.some_ne_none _

/-- A handler does not end in a missing container once the expressions are there. -/
theorem Containers.no_panics (containers : Containers s) (published : s.thsCrcRgx ≠ none) {h : Handler} {order : ExprOrder engine}
    {nextCachers : List (String → Option (BitVec 64))} {phase : Phase} (access : Access cz s h order nextCachers phase) : phase ≠ .answered .panics := by
  cases access with
  | answer arrived =>
    rcases answer_cases h.request order with ⟨_, missing⟩ | ⟨outcome, one, answered⟩ | ⟨g, gen, parts, ds, pos, _, _, _, _, answered⟩
    · exact absurd missing (containers.generation_of published (Nat.le_refl 3) containers.crcRgx)
    · rw [answered]
      simp only [List.mem_cons, List.not_mem_nil, or_false] at one
      rcases one with rfl | rfl | rfl | rfl <;> exact fun same => nomatch same
    · rw [answered]
      exact fun same => nomatch same
  | noCGSearcher matched missing => exact absurd missing (containers.generation_of published (by decide) containers.cgSearcher)
  | noNextCacher listed missing =>
    have held := containers.generation_of published (Nat.zero_le 3) containers.nextCacher
    rw [missing] at held
    exact absurd rfl held
  | list located found => split_ifs <;> exact fun same => nomatch same
  | _ => exact fun same => nomatch same

/-- What stays so from a state on in which a configuration has been published. -/
structure Safe (s : Router engine) (future : List (Event engine)) (t : Router engine) : Prop where
  containers : Containers t
  published : t.thsCrcRgx ≠ none
  handlers : ∀ (i : Nat) (h : Handler), t.handlers[i]? = some h → h.phase = .answered .panics → s.handlers[i]? = some h
  crashed : t.crashed = true → s.crashed = true ∨ ∃ crc, FetchedConfig future crc ∧ Overlapping crc

theorem Safe.step {u : Router engine} (safe : Safe s future t) (effect : Effect cz t event u) : Safe s (future ++ [event]) u := by
  have containers := safe.containers.step effect
  have later := safe.containers.later effect
  have published : u.thsCrcRgx ≠ none := by
    obtain ⟨g, set⟩ := Option.ne_none_iff_exists'.mp safe.published
    obtain ⟨_, set', _⟩ := later.seen g ⟨g, set, Nat.le_refl g⟩
    rw [set']
    exact Option.some_ne_none _
  have crashed : t.crashed = true → s.crashed = true ∨ ∃ crc, FetchedConfig (future ++ [event]) crc ∧ Overlapping crc := by
    intro ended
    rcases safe.crashed ended with before | ⟨crc, ⟨bts, services, visit, locations, fuel, member⟩, overlapping⟩
    · exact Or.inl before
    · exact Or.inr ⟨crc, ⟨bts, services, visit, locations, fuel, List.mem_append_left _ member⟩, overlapping⟩
  cases effect with
  | publish set =>
    unfold Router.publish at set
    split at set <;> cases set <;> exact ⟨containers, published, safe.handlers, crashed⟩
  | @crashOnRegex newBts crc services locations visit fuel panics =>
    have member : Event.fetchConfig (some (newBts, some crc)) services visit locations fuel ∈
        future ++ [Event.fetchConfig (some (newBts, some crc)) services visit locations fuel] := List.mem_append_right _ List.mem_cons_self
    exact ⟨containers, published, safe.handlers, fun _ => Or.inr ⟨crc, ⟨newBts, services, visit, locations, fuel, member⟩, regexes_panic panics⟩⟩
  | crashOnConfig missing =>
    have held := safe.containers.generation_of safe.published (by decide) safe.containers.crc
    rw [missing] at held
    exact absurd rfl held
  | @arrive r =>
    refine ⟨containers, published, fun i h found panics => ?_, crashed⟩
    dsimp only at found
    rw [List.getElem?_append] at found
    split_ifs at found
    · exact safe.handlers i h found panics
    · have new := List.mem_singleton.mp (List.mem_of_getElem? found)
      rw [new] at panics
      cases panics
  | @handle i order h next found advanced =>
    refine ⟨containers, published, fun j other found' panics => ?_, crashed⟩
    dsimp only at found'
    rw [List.getElem?_set] at found'
    split_ifs at found'
    · cases found'
      exact absurd panics (safe.containers.no_panics safe.published (access_of_advance advanced))
    · exact safe.handlers j other found' panics
  | _ => exact ⟨containers, published, safe.handlers, crashed⟩

end Answers

end Router

end TrafficRouterGolang
