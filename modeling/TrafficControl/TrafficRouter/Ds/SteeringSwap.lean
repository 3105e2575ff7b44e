import TrafficControl.Lib.Runs
import TrafficControl.TrafficRouter.Ds.SteeringRegistry

set_option autoImplicit false

namespace TrafficControl.TrafficRouter.SteeringRegistry

open PutAll

variable {α : Type}

def has (this : Registry α) (steeringId : String) : Bool := (this.lookup (some steeringId)).isSome

def get (this : Registry α) (steeringId : String) : Option (Steering α) := this.lookup (some steeringId)

-- Where a request is in its reads of the registry. `isMultiRouteRequest` comes first and answers
-- `multiRoute`; then one of the two methods that hash delivery services reads again.
inductive Reading (α : Type) where
  | hasMultiRoute
  | getMultiRoute
  | hasSteering (multiRoute : Bool)
  | getSteering (multiRoute : Bool)
  | ordinary
  | steered (steering : Steering α)
  | nullPointerException

structure Request (α : Type) where
  deliveryService : String
  reading : Reading α

-- An update under way, with the entries it has still to put.
structure Swap (α : Type) where
  newSteerings : Registry α
  remaining : List (Sigma fun _ : Option String => Steering α)

-- `steerings` is the data of the last update that is over.
structure Shared (α : Type) where
  registry : Registry α
  steerings : Registry α
  swap : Option (Swap α)
  requests : Nat → Option (Request α)

inductive SwapStep (α : Type) where
  | clear (newSteerings : Registry α)
  | put
  | updated
  | route (i : Nat) (deliveryService : String)
  | consistentHash (i : Nat) (deliveryService : String) (multiRoute : Bool)
  | read (i : Nat)
  | finish (i : Nat)

def Request.read (this : Request α) (registry : Registry α) : Option (Request α) :=
  match this.reading with
  | .hasMultiRoute =>
    some { this with reading := if has registry this.deliveryService then .getMultiRoute else .hasSteering false }
  | .getMultiRoute =>
    match get registry this.deliveryService with
    | none => some { this with reading := .nullPointerException }
    | some steering => some { this with reading := .hasSteering steering.clientSteering }
  | .hasSteering multiRoute =>
    some { this with reading := if has registry this.deliveryService then .getSteering multiRoute else .ordinary }
  | .getSteering _ =>
    match get registry this.deliveryService with
    | none => some { this with reading := .nullPointerException }
    | some steering => some { this with reading := .steered steering }
  | _ => none

namespace Shared

def new : Shared α := ⟨∅, ∅, none, fun _ => none⟩

def begin (this : Shared α) (i : Nat) (request : Request α) : Option (Shared α) :=
  match this.requests i with
  | none => some { this with requests := Function.update this.requests i (some request) }
  | some _ => none

-- One thread updates; the requests read whenever they come to it.
def step (this : Shared α) : SwapStep α → Option (Shared α)
  | .clear newSteerings =>
    match this.swap with
    | none => some { this with registry := ∅, swap := some ⟨newSteerings, newSteerings.entries⟩ }
    | some _ => none
  | .put =>
    match this.swap with
    | some ⟨newSteerings, entry :: remaining⟩ => some { this with
        registry := PutAll.put Sigma.fst Sigma.snd this.registry entry, swap := some ⟨newSteerings, remaining⟩ }
    | _ => none
  | .updated =>
    match this.swap with
    | some ⟨newSteerings, []⟩ => some { this with steerings := newSteerings, swap := none }
    | _ => none
  | .route i deliveryService => this.begin i ⟨deliveryService, .hasMultiRoute⟩
  | .consistentHash i deliveryService multiRoute => this.begin i ⟨deliveryService, .hasSteering multiRoute⟩
  | .read i => do
    let request ← this.requests i
    let request ← request.read this.registry
    return { this with requests := Function.update this.requests i (some request) }
  | .finish i => some { this with requests := Function.update this.requests i none }

/-- The data of the update under way, or else of the last one. -/
def latest (this : Shared α) : Registry α :=
  match this.swap with
  | none => this.steerings
  | some swap => swap.newSteerings

def missing (this : Shared α) : List (Option String) :=
  match this.swap with
  | none => []
  | some swap => swap.remaining.keys

/-- A read finds a delivery service that is in the old and the new data, and a `get` finds the
Steering of the old or the new data. -/
def Whole (this : Shared α) : SwapStep α → Prop
  | .read i => ∀ request ∈ this.requests i,
    let id := request.deliveryService
    match request.reading with
    | .hasMultiRoute | .hasSteering _ => some id ∈ this.steerings → some id ∈ this.latest → has this.registry id
    | .getMultiRoute | .getSteering _ => ∃ steering, get this.registry id = some steering ∧
        (this.steerings.lookup (some id) = some steering ∨ this.latest.lookup (some id) = some steering)
    | _ => True
  | _ => True

/-- No read comes between the `clear` of an update and its `put` of the delivery service, and no
`get` after the `clear` of an update without it. -/
def Timely (this : Shared α) : SwapStep α → Prop
  | .read i => ∀ request ∈ this.requests i,
    let id := request.deliveryService
    match request.reading with
    | .hasMultiRoute | .hasSteering _ => some id ∈ this.steerings → some id ∈ this.latest → some id ∉ this.missing
    | .getMultiRoute | .getSteering _ => some id ∈ this.latest ∧ some id ∉ this.missing
    | _ => True
  | _ => True

/-- The registry is a copy of the data, as far as the update has come. -/
def Copied (this : Shared α) : Prop :=
  match this.swap with
  | none => ∀ id, this.registry.lookup id = this.steerings.lookup id
  | some swap => ∃ done, swap.newSteerings.entries = done ++ swap.remaining ∧
      this.registry = putAll Sigma.fst Sigma.snd ∅ done

variable {this next : Shared α}

theorem Copied.lookup_missing (copied : this.Copied) {id : Option String} (missing : id ∈ this.missing) :
    this.registry.lookup id = none := by
  unfold Copied at copied
  unfold Shared.missing at missing
  cases swap : this.swap with
  | none => simp [swap] at missing
  | some swap' =>
    rw [swap] at copied missing
    obtain ⟨done, entries, same⟩ := copied
    rw [same, lookup_copying (entries ▸ swap'.newSteerings.nodupKeys), if_pos missing]

theorem Copied.lookup_latest (copied : this.Copied) {id : Option String} (there : id ∉ this.missing) :
    this.registry.lookup id = this.latest.lookup id := by
  unfold Copied at copied
  unfold missing at there
  unfold latest
  cases swap : this.swap with
  | none =>
    rw [swap] at copied
    exact copied id
  | some swap' =>
    rw [swap] at copied there
    obtain ⟨done, entries, same⟩ := copied
    rw [same, lookup_copying (entries ▸ swap'.newSteerings.nodupKeys), if_neg there, ← entries]
    rfl

theorem step_copied (this : Shared α) (event : SwapStep α) (next : Shared α) (copied : this.Copied)
    (stepped : this.step event = some next) : next.Copied := by
  have begun : ∀ i request, this.begin i request = some next → next.Copied := by
    intro i request begun
    unfold begin at begun
    split at begun <;> cases begun
    exact copied
  cases event with
  | clear newSteerings =>
    simp only [step] at stepped
    split at stepped <;> cases stepped
    exact ⟨[], rfl, rfl⟩
  | put =>
    simp only [step] at stepped
    split at stepped <;> cases stepped
    next newSteerings entry remaining swap =>
      unfold Copied at copied
      rw [swap] at copied
      obtain ⟨done, entries, same⟩ := copied
      refine ⟨done ++ [entry], entries.trans (by simp), ?_⟩
      simp only [same, putAll, List.foldl_append, List.foldl_cons, List.foldl_nil]
  | updated =>
    simp only [step] at stepped
    split at stepped <;> cases stepped
    next newSteerings swap =>
      intro id
      have none_missing : id ∉ this.missing := by simp [missing, swap]
      rw [copied.lookup_latest none_missing]
      simp [latest, swap]
  | route i deliveryService => exact begun _ _ stepped
  | consistentHash i deliveryService multiRoute => exact begun _ _ stepped
  | read i =>
    obtain ⟨request, _, stepped⟩ := Option.bind_eq_some_iff.mp stepped
    obtain ⟨_, _, stepped⟩ := Option.bind_eq_some_iff.mp stepped
    cases stepped
    exact copied
  | finish i =>
    cases stepped
    exact copied

theorem whole_iff_timely (this : Shared α) (event : SwapStep α) (copied : this.Copied) :
    this.Whole event ↔ this.Timely event := by
  have hasSteering (id : String) : (some id ∈ this.latest → has this.registry id) ↔
      (some id ∈ this.latest → some id ∉ this.missing) := by
    refine forall_congr' fun known => ?_
    rw [has]
    by_cases missing : some id ∈ this.missing
    · simp [copied.lookup_missing missing, missing]
    · rw [copied.lookup_latest missing]
      simp [missing, AList.lookup_isSome, known]
  have getSteering (id : String) : (∃ steering, get this.registry id = some steering ∧
        (this.steerings.lookup (some id) = some steering ∨ this.latest.lookup (some id) = some steering)) ↔
      some id ∈ this.latest ∧ some id ∉ this.missing := by
    rw [get]
    by_cases missing : some id ∈ this.missing
    · simp [copied.lookup_missing missing, missing]
    · rw [copied.lookup_latest missing, ← AList.lookup_isSome, Option.isSome_iff_exists]
      simp only [missing, not_false_eq_true, and_true]
      exact exists_congr fun steering => ⟨fun found => found.1, fun found => ⟨found, Or.inr found⟩⟩
  cases event with
  | read i =>
    refine forall_congr' fun request => forall_congr' fun _ => ?_
    cases request.reading with
    | hasMultiRoute => exact forall_congr' fun _ => hasSteering _
    | hasSteering multiRoute => exact forall_congr' fun _ => hasSteering _
    | getMultiRoute => exact getSteering _
    | getSteering multiRoute => exact getSteering _
    | ordinary => exact Iff.rfl
    | steered steering => exact Iff.rfl
    | nullPointerException => exact Iff.rfl
  | clear newSteerings => exact Iff.rfl
  | put => exact Iff.rfl
  | updated => exact Iff.rfl
  | route i deliveryService => exact Iff.rfl
  | consistentHash i deliveryService multiRoute => exact Iff.rfl
  | finish i => exact Iff.rfl

/-- The steps of an update that no other thread sees. -/
def updateSteps (newSteerings : Registry α) : List (SwapStep α) :=
  .clear newSteerings :: newSteerings.entries.map (fun _ => .put) ++ [.updated]

theorem run_put (newSteerings : Registry α) (this : Shared α) (remaining : List (Sigma fun _ : Option String => Steering α)) :
    Runs.run step { this with swap := some ⟨newSteerings, remaining⟩ } (remaining.map (fun _ => .put) ++ [.updated]) =
      some { this with
        registry := putAll Sigma.fst Sigma.snd this.registry remaining, steerings := newSteerings, swap := none } := by
  induction remaining generalizing this with
  | nil => rfl
  | cons entry remaining ih => exact ih { this with registry := PutAll.put Sigma.fst Sigma.snd this.registry entry }

/-- Without requests in between, the steps of an update do to the registry what `update` does. -/
theorem run_update [LinearOrder α] {hash : String → α}
    {readValue : String → Except ReadException (Option (SteeringLists α))} {json : String} {m : Option (SteeringLists α)}
    {newSteerings : Registry α} (read : readValue json = .ok m)
    (accepted : SteeringRegistry.newSteerings hash m = .ok newSteerings) (idle : this.swap = none) :
    Runs.run step this (updateSteps newSteerings) = some { this with
      registry := (Routine.outcome (update hash readValue json) this.registry).2, steerings := newSteerings, swap := none } := by
  have cleared : step this (.clear newSteerings) =
      some { this with registry := ∅, swap := some ⟨newSteerings, newSteerings.entries⟩ } := by
    simp only [step, idle]
  rw [updateSteps, List.cons_append, Runs.run, cleared, update_eq read, accepted]
  exact run_put newSteerings { this with registry := ∅ } newSteerings.entries

/-- Every read of a run is whole if and only if every read is timely. -/
theorem reads_whole_iff (events : List (SwapStep α)) :
    Runs.Throughout step Whole (new : Shared α) events ↔ Runs.Throughout step Timely new events :=
  Runs.throughout_iff step_copied whole_iff_timely (show Copied new from fun _ => rfl) events

section VideoSteering

def videoSteering : Registry Nat := (∅ : Registry Nat).insert (some "video") ⟨some "video", false, some []⟩

-- The same data is loaded twice, and a request begins in between.
def videoSteps : List (SwapStep Nat) := updateSteps videoSteering ++ [.consistentHash 0 "video" false]

theorem reads_torn :
    (∃ shared, Runs.run step new (videoSteps ++ [.read 0, .clear videoSteering, .read 0]) = some shared ∧
      (shared.requests 0).map (·.reading) = some .nullPointerException ∧
      ¬Runs.Throughout step Whole new (videoSteps ++ [.read 0, .clear videoSteering, .read 0])) ∧
    ∃ shared, Runs.run step new (videoSteps ++ [.clear videoSteering, .read 0]) = some shared ∧
      (shared.requests 0).map (·.reading) = some .ordinary ∧
      ¬Runs.Throughout step Whole new (videoSteps ++ [.clear videoSteering, .read 0]) := by
  refine ⟨⟨_, rfl, rfl, fun whole => ?_⟩, ⟨_, rfl, rfl, fun whole => ?_⟩⟩
  · have atRead := ((Runs.throughout_append.mp whole).2 _ rfl).2 _ rfl
    obtain ⟨_, found, _⟩ := (atRead.2 _ rfl).1 _ rfl
    cases found
  · have atRead := ((Runs.throughout_append.mp whole).2 _ rfl).2 _ rfl
    have missed := atRead.1 _ rfl (by decide) (by decide)
    cases missed

end VideoSteering

end Shared

end TrafficControl.TrafficRouter.SteeringRegistry
