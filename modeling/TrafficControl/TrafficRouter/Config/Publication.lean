import TrafficControl.Lib.Runs
import TrafficControl.TrafficRouter.Loc.ClearCacheLocations
import TrafficControl.TrafficRouter.Router.RoutingSafety

set_option autoImplicit false

namespace TrafficControl.TrafficRouter

open Routine

variable {α : Type} [LinearOrder α]

-- A request keeps the router it read; `began` counts the publications before that.
structure RequestThread (α : Type) [LinearOrder α] where
  trafficRouter : TrafficRouter α
  began : Nat
  networkNode : Option NodeData

-- `clearing` holds the nodes that the running `clearCacheLocations` has still to visit.
structure Server (α : Type) [LinearOrder α] where
  trafficRouter : TrafficRouter α
  publications : Nat
  clearing : Option (List NodeRef)
  memory : Memory
  requests : Nat → Option (RequestThread α)

inductive ServerStep (α : Type) [LinearOrder α] where
  | getTrafficRouter (request : Nat)
  | getNetworkNode (request : Nat) (ip : String)
  | findCacheLocation (request : Nat) (deliveryServiceId : String)
  | finish (request : Nat)
  | setCacheRegister (trafficRouter : TrafficRouter α)
  | clearCacheLocation
  | published

namespace Server

variable (root : SuperNode NodeData)

def clearedNodes : List NodeRef := root.cleared.map (·.ref)

/-- A request finds no node that publications miss, if no key of the tree is stale. -/
theorem getNetworkNode_cleared {root : SuperNode NodeData} (ownKeys : root.node.OwnKeys)
    (ownKeys6 : ∀ entry ∈ root.children6.toList, entry.1 = none ∧ entry.2.OwnKeys) {router : TrafficRouter α}
    {ip : String} {networkNode : NodeData} (found : router.getNetworkNode root ip = some networkNode) :
    networkNode.ref ∈ clearedNodes root := by
  obtain ⟨address, _, hit⟩ := Option.bind_eq_some_iff.mp found
  obtain ⟨node, reached, rfl⟩ := Option.map_eq_some_iff.mp hit
  exact List.mem_map_of_mem (root.getNetwork_cleared ownKeys ownKeys6 reached)

-- `root` is the tree of `NetworkNode.getInstance()`. Requests and the one publishing thread take
-- their steps in any order; each step is one access to what they share.
def step (this : Server α) : ServerStep α → Option (Server α)
  | .getTrafficRouter i =>
    match this.requests i with
    | none => some { this with
        requests := Function.update this.requests i (some ⟨this.trafficRouter, this.publications, none⟩) }
    | some _ => none
  | .getNetworkNode i ip =>
    (this.requests i).map fun request => { this with
      requests := Function.update this.requests i
        (some { request with networkNode := request.trafficRouter.getNetworkNode root ip }) }
  | .findCacheLocation i deliveryServiceId =>
    (this.requests i).bind fun request => request.networkNode.map fun networkNode => { this with
      memory := (outcome (request.trafficRouter.findCacheLocation networkNode deliveryServiceId) this.memory).2 }
  | .finish i => some { this with requests := Function.update this.requests i none }
  | .setCacheRegister trafficRouter =>
    match this.clearing with
    | none => some { this with
        trafficRouter, publications := this.publications + 1, clearing := some (clearedNodes root) }
    | some _ => none
  | .clearCacheLocation =>
    match this.clearing with
    | some (node :: rest) => some { this with
        clearing := some rest
        memory := { this.memory with cacheLocation := Function.update this.memory.cacheLocation node none } }
    | _ => none
  | .published =>
    match this.clearing with
    | some [] => some { this with clearing := none }
    | _ => none

structure Initial (this : Server α) : Prop where
  locations : ∀ node, this.memory.cacheLocation node = none
  requests : ∀ i, this.requests i = none
  clearing : this.clearing = none

/-- The last publication is over, and so is every request that began before it. -/
structure Settled (this : Server α) : Prop where
  published : this.clearing = none
  requests : ∀ i, ∀ request ∈ this.requests i, request.began = this.publications

def Installed (this : Server α) (location : LocationRef) : Prop :=
  location ∈ this.trafficRouter.cacheRegister.configuredLocations.entries.map (·.2)

def Current (this : Server α) : Prop :=
  ∀ node location, this.memory.cacheLocation node = some location → this.Installed location

def Pending (this : Server α) (node : NodeRef) : Prop := ∃ nodes ∈ this.clearing, node ∈ nodes

/-- A cache location is set on a node that publications clear, and by a request that has the
installed router or sets it before the running publication comes to the node. -/
def Timely (this : Server α) : ServerStep α → Prop
  | .findCacheLocation i deliveryServiceId =>
    ∀ request ∈ this.requests i, ∀ networkNode ∈ request.networkNode,
      (∃ location, request.trafficRouter.Sets this.memory networkNode deliveryServiceId location) →
        networkNode.ref ∈ clearedNodes root ∧
          (request.began = this.publications ∨ this.Pending networkNode.ref)
  | _ => True

structure Invariant (this : Server α) : Prop where
  located : ∀ node location, this.memory.cacheLocation node = some location →
    node ∈ clearedNodes root ∧ (this.Installed location ∨ this.Pending node)
  began : ∀ i, ∀ request ∈ this.requests i, request.began ≤ this.publications
  reads : ∀ i, ∀ request ∈ this.requests i, request.began = this.publications →
    request.trafficRouter = this.trafficRouter

variable {root} {this next : Server α}

theorem Initial.invariant (initial : Initial this) : this.Invariant root := by
  constructor
  · intro node location located
    simp [initial.locations node] at located
  · intro i request active
    simp [initial.requests i] at active
  · intro i request active
    simp [initial.requests i] at active

theorem Invariant.settled (invariant : this.Invariant root) (settled : this.Settled) : this.Current := by
  intro node location located
  obtain ⟨nodes, clearing, _⟩ | installed := (invariant.located node location located).2.symm
  · simp [settled.published] at clearing
  · exact installed

theorem Invariant.findCacheLocation (invariant : this.Invariant root) {i : Nat} {deliveryServiceId : String}
    (timely : this.Timely root (.findCacheLocation i deliveryServiceId)) {request : RequestThread α}
    (active : request ∈ this.requests i) {networkNode : NodeData} (found : networkNode ∈ request.networkNode) :
    Invariant root { this with
      memory := (outcome (request.trafficRouter.findCacheLocation networkNode deliveryServiceId) this.memory).2 } := by
  obtain unchanged | ⟨location, sets, changed⟩ :=
    request.trafficRouter.findCacheLocation_memory this.memory networkNode deliveryServiceId
  · rw [unchanged]
    exact invariant
  rw [changed]
  refine ⟨fun node location' located => ?_, invariant.began, invariant.reads⟩
  by_cases here : node = networkNode.ref
  · subst here
    obtain rfl : location = location' := by simpa using located
    obtain ⟨visited, now | pending⟩ := timely request active networkNode found ⟨location, sets⟩
    · obtain ⟨loc, _, known, _⟩ := sets
      have member := List.mem_of_find?_eq_some known
      rw [invariant.reads i request active now] at member
      exact ⟨visited, Or.inl member⟩
    · exact ⟨visited, Or.inr pending⟩
  · exact invariant.located node location' (by simpa [here] using located)

theorem Invariant.clearCacheLocation (invariant : this.Invariant root) {cleared : NodeRef} {rest : List NodeRef}
    (clearing : this.clearing = some (cleared :: rest)) :
    Invariant root { this with
      clearing := some rest
      memory := { this.memory with cacheLocation := Function.update this.memory.cacheLocation cleared none } } := by
  refine ⟨fun node location located => ?_, invariant.began, invariant.reads⟩
  have different : node ≠ cleared := by
    rintro rfl
    simp at located
  obtain ⟨visited, held⟩ := invariant.located node location (by simpa [different] using located)
  refine ⟨visited, held.imp id fun ⟨nodes, pending, member⟩ => ⟨rest, rfl, ?_⟩⟩
  obtain rfl : cleared :: rest = nodes := by simpa [clearing] using pending
  simpa [different] using member

-- The old locations all become pending when the register is swapped.
theorem Invariant.setCacheRegister (invariant : this.Invariant root) (trafficRouter : TrafficRouter α) :
    Invariant root { this with
      trafficRouter, publications := this.publications + 1, clearing := some (clearedNodes root) } := by
  constructor
  · intro node location located
    have visited := (invariant.located node location located).1
    exact ⟨visited, Or.inr ⟨_, rfl, visited⟩⟩
  · intro i request active
    exact Nat.le_succ_of_le (invariant.began i request active)
  · intro i request active now
    have began := invariant.began i request active
    dsimp only at now
    omega

theorem Invariant.published (invariant : this.Invariant root) (clearing : this.clearing = some []) :
    Invariant root { this with clearing := none } := by
  refine ⟨fun node location located => ?_, invariant.began, invariant.reads⟩
  obtain ⟨visited, installed | ⟨nodes, pending, member⟩⟩ := invariant.located node location located
  · exact ⟨visited, Or.inl installed⟩
  · obtain rfl : [] = nodes := by simpa [clearing] using pending
    exact absurd member List.not_mem_nil

theorem Invariant.updateRequest (invariant : this.Invariant root) (i : Nat) {request : Option (RequestThread α)}
    (reads : ∀ r ∈ request, r.began ≤ this.publications ∧
      (r.began = this.publications → r.trafficRouter = this.trafficRouter)) :
    Invariant root { this with requests := Function.update this.requests i request } := by
  have holds : ∀ j, ∀ r ∈ Function.update this.requests i request j, r.began ≤ this.publications ∧
      (r.began = this.publications → r.trafficRouter = this.trafficRouter) := by
    intro j r active
    by_cases same : j = i
    · subst same
      exact reads r (by simpa using active)
    · rw [Function.update_of_ne same] at active
      exact ⟨invariant.began j r active, invariant.reads j r active⟩
  exact ⟨invariant.located, fun j r active => (holds j r active).1, fun j r active => (holds j r active).2⟩

theorem Invariant.step (invariant : this.Invariant root) {event : ServerStep α} (timely : this.Timely root event)
    (stepped : this.step root event = some next) : next.Invariant root := by
  cases event with
  | getTrafficRouter i =>
    simp only [Server.step] at stepped
    split at stepped
    · cases stepped
      apply invariant.updateRequest
      rintro r ⟨⟩
      exact ⟨Nat.le_refl _, fun _ => rfl⟩
    · cases stepped
  | getNetworkNode i ip =>
    obtain ⟨request, active, rfl⟩ := Option.map_eq_some_iff.mp stepped
    apply invariant.updateRequest
    rintro r ⟨⟩
    exact ⟨invariant.began i request active, invariant.reads i request active⟩
  | findCacheLocation i deliveryServiceId =>
    obtain ⟨request, active, searched⟩ := Option.bind_eq_some_iff.mp stepped
    obtain ⟨networkNode, found, rfl⟩ := Option.map_eq_some_iff.mp searched
    exact invariant.findCacheLocation timely active found
  | finish i =>
    cases stepped
    apply invariant.updateRequest
    simp
  | setCacheRegister trafficRouter =>
    simp only [Server.step] at stepped
    split at stepped
    · cases stepped
      exact invariant.setCacheRegister trafficRouter
    · cases stepped
  | clearCacheLocation =>
    simp only [Server.step] at stepped
    split at stepped
    next clearing =>
      cases stepped
      exact invariant.clearCacheLocation clearing
    next => cases stepped
  | published =>
    simp only [Server.step] at stepped
    split at stepped
    next clearing =>
      cases stepped
      exact invariant.published clearing
    next => cases stepped

/-- After a publication and the requests before it, every cache location in the tree is one of the
installed register, if no request of an earlier register set one behind the publication. -/
theorem settled_current {start : Server α} {steps : List (ServerStep α)} (initial : start.Initial)
    (timely : Runs.Throughout (Server.step root) (Timely root) start steps)
    (ran : Runs.run (Server.step root) start steps = some this) (settled : this.Settled) : this.Current := by
  have invariant : this.Invariant root :=
    Runs.run_invariant (fun _ _ _ held timely stepped => held.step timely stepped) initial.invariant timely ran
  exact invariant.settled settled

section OneLocation

def denverClient : CidrAddress := .ofAddress (.ipv4 198 51 100 7)

def denverZone : SuperNode NodeData :=
  ((SuperNode.new ⟨0, none, none, none⟩).add .none
    (.leaf (⟨.ipv4 198 51 100 0, 24, by decide⟩, ⟨1, some "denver", none, none⟩))).1

-- Two configurations that both have a location "denver".
def denverRouter (location : LocationRef) : TrafficRouter Int :=
  { TrafficRouter.oneCacheRouter with
    cacheRegister := { TrafficRouter.oneCacheRouter.cacheRegister with
      configuredLocations := (∅ : AList fun _ : String => LocationRef).insert "denver" location }
    fromString := fun _ => some denverClient }

def denverServer : Server Int where
  trafficRouter := denverRouter 0
  publications := 0
  clearing := none
  memory := { TrafficRouter.freshMemory with
    caches := fun _ => (∅ : CacheMap).insert "edge" 0 }
  requests _ := none

theorem denverServer_initial : denverServer.Initial := ⟨fun _ => rfl, fun _ => rfl, rfl⟩

def denverNode : NetworkNode NodeData :=
  .leaf (⟨.ipv4 198 51 100 0, 24, by decide⟩, ⟨1, some "denver", none, none⟩)

theorem getNetworkNode_denver (location : LocationRef) (ip : String) :
    (denverRouter location).getNetworkNode denverZone ip = some ⟨1, some "denver", none, none⟩ := by
  have below : denverZone.node.children.get (NetworkNode.compareToKey denverClient) = some (none, denverNode) := by
    rfl
  have noneBelow : denverNode.children.get (NetworkNode.compareToKey denverClient) = none := rfl
  have found : denverZone.getNetwork denverClient = some denverNode := by
    change denverZone.node.getNetwork denverClient = _
    rw [NetworkNode.getNetwork_eq, if_neg (by decide), below]
    dsimp only
    rw [NetworkNode.getNetwork_eq, if_neg (by decide), noneBelow]
  change (denverZone.getNetwork denverClient).map (·.data) = _
  rw [found]
  rfl

def waitingServer : Server Int :=
  { denverServer with
    requests := Function.update denverServer.requests 0
      (some ⟨denverRouter 0, 0, some ⟨1, some "denver", none, none⟩⟩) }

def lookUpSteps : List (ServerStep Int) := [.getTrafficRouter 0, .getNetworkNode 0 "198.51.100.7"]

theorem run_lookUpSteps : Runs.run (step denverZone) denverServer lookUpSteps = some waitingServer := by
  simp [Runs.run, step, lookUpSteps, waitingServer, denverServer, getNetworkNode_denver]

theorem run_afterLookUp {steps : List (ServerStep Int)} {settled : Server Int}
    (ran : Runs.run (step denverZone) waitingServer steps = some settled) :
    Runs.run (step denverZone) denverServer (lookUpSteps ++ steps) = some settled := by
  rw [Runs.run_append, run_lookUpSteps, Option.bind_some, ran]

theorem settled_of_finished {settled : Server Int} (published : settled.clearing = none)
    (requests : settled.requests = Function.update waitingServer.requests 0 none) : settled.Settled := by
  refine ⟨published, fun i request active => ?_⟩
  rw [requests] at active
  by_cases first : i = 0
  · simp [first] at active
  · simp [first, waitingServer, denverServer] at active

-- The request of the old register sets its location before the publication clears the node.
theorem settled_current_inTime : ∃ settled,
    Runs.run (step denverZone) denverServer (lookUpSteps ++
      [.setCacheRegister (denverRouter 1), .findCacheLocation 0 "video", .clearCacheLocation, .clearCacheLocation,
        .published, .finish 0]) = some settled ∧
      settled.Settled ∧ settled.Current := by
  have rest : ∃ settled, Runs.run (step denverZone) waitingServer [.setCacheRegister (denverRouter 1),
      .findCacheLocation 0 "video", .clearCacheLocation, .clearCacheLocation, .published, .finish 0] = some settled ∧
      settled.clearing = none ∧ settled.requests = Function.update waitingServer.requests 0 none :=
    ⟨_, rfl, rfl, rfl⟩
  obtain ⟨settled, ran, published, requests⟩ := rest
  have fromStart := run_afterLookUp ran
  have done := settled_of_finished published requests
  refine ⟨settled, fromStart, done, settled_current denverServer_initial ?_ fromStart done⟩
  rw [Runs.throughout_append, run_lookUpSteps]
  refine ⟨⟨trivial, fun _ _ => ⟨trivial, fun _ _ => trivial⟩⟩, ?_⟩
  rintro _ ⟨⟩
  refine ⟨trivial, fun swapped stepped => ⟨?_, fun _ _ => ⟨trivial, fun _ _ => ⟨trivial, fun _ _ =>
    ⟨trivial, fun _ _ => ⟨trivial, fun _ _ => trivial⟩⟩⟩⟩⟩⟩
  cases stepped
  rintro request ⟨⟩ networkNode ⟨⟩ _
  exact ⟨by decide, Or.inr ⟨_, rfl, by decide⟩⟩

/-- A request reads the router, the register is swapped and the tree cleared, and only then the
request sets the location of the old register. -/
theorem late_request_stale : ∃ settled, denverServer.Initial ∧
    Runs.run (step denverZone) denverServer (lookUpSteps ++
      [.setCacheRegister (denverRouter 1), .clearCacheLocation, .clearCacheLocation, .published,
        .findCacheLocation 0 "video", .finish 0]) = some settled ∧
      settled.Settled ∧ ¬settled.Current := by
  have rest : ∃ settled, Runs.run (step denverZone) waitingServer [.setCacheRegister (denverRouter 1),
      .clearCacheLocation, .clearCacheLocation, .published, .findCacheLocation 0 "video", .finish 0] = some settled ∧
      settled.clearing = none ∧ settled.requests = Function.update waitingServer.requests 0 none ∧
      settled.trafficRouter = denverRouter 1 ∧ settled.memory.cacheLocation 1 = some 0 :=
    ⟨_, rfl, rfl, rfl, rfl, rfl⟩
  obtain ⟨settled, ran, published, requests, router, stale⟩ := rest
  refine ⟨settled, denverServer_initial, run_afterLookUp ran, settled_of_finished published requests, fun current => ?_⟩
  have installed := current 1 0 stale
  rw [Installed, router] at installed
  exact absurd installed (by decide)

end OneLocation

end Server

end TrafficControl.TrafficRouter
