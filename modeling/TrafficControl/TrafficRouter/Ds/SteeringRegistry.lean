import Mathlib.Data.List.Sort
import TrafficControl.Lib.ExceptList
import TrafficControl.Lib.PutAll
import TrafficControl.Lib.Routine

set_option autoImplicit false

namespace TrafficControl.TrafficRouter.SteeringRegistry

open PutAll Routine

-- The Steering classes as Jackson binds them: text that names a field may set it to null.
structure Target (α : Type) where
  deliveryService : Option String
  weight : Int
  order : Int
  hashes : List α

structure Steering (α : Type) where
  deliveryService : Option String
  clientSteering : Bool
  targets : Option (List (Option (Target α)))

abbrev Registry (α : Type) := AList fun _ : Option String => Steering α

-- A `HashMap<String, List<Steering>>` with its entries in the order of its iterator.
abbrev SteeringLists (α : Type) := List (String × Option (List (Option (Steering α))))

-- What `readValue` throws.
inductive ReadException where
  | ioException
  | runtimeException

inductive UpdateException where
  | nullPointerException
  | noSuchElementException
  | runtimeException

section Read

variable {α : Type} (readValue : String → Except ReadException (Option (SteeringLists α)))

def verify (json : String) : Except ReadException Bool :=
  match readValue json with
  | .error .ioException => .ok false
  | .error .runtimeException => .error .runtimeException
  | .ok _ => .ok true

-- `m.values().iterator().next()`.
def firstList (m : Option (SteeringLists α)) : Except UpdateException (List (Option (Steering α))) :=
  match m with
  | none => .error .nullPointerException
  | some [] => .error .noSuchElementException
  | some ((_, none) :: _) => .error .nullPointerException
  | some ((_, some steerings) :: _) => .ok steerings

end Read

section Hashes

variable {α : Type} [LinearOrder α] (hash : String → α)

-- The hashes are collected in a TreeSet.
def Target.generateHashes (this : Target α) : Target α :=
  let hashId := this.deliveryService.getD "null"
  { this with hashes :=
      ((List.range this.weight.toNat).map fun i => hash (hashId ++ "--" ++ toString i)).dedup.insertionSort (· ≤ ·) }

/-- A Steering whose targets all have their hashes. -/
def Steering.generated (this : Steering α) : Steering α :=
  { this with targets := this.targets.map (List.map (Option.map (Target.generateHashes hash))) }

def generateTargetHashes (target : Option (Target α)) : Except UpdateException (Option (Target α)) :=
  match target with
  | none => .error .nullPointerException
  | some target => .ok (some (target.generateHashes hash))

def generateHashes (steering : Option (Steering α)) : Except UpdateException (Steering α) :=
  match steering with
  | none => .error .nullPointerException
  | some steering =>
    match steering.targets with
    | none => .error .nullPointerException
    | some targets => do
      let targets ← targets.mapM (generateTargetHashes hash)
      return { steering with targets := some targets }

end Hashes

section Update

variable {α : Type} [LinearOrder α] (hash : String → α) (readValue : String → Except ReadException (Option (SteeringLists α)))

def newSteerings (m : Option (SteeringLists α)) : Except UpdateException (Registry α) := do
  let steerings ← firstList m
  let generated ← steerings.mapM (generateHashes hash)
  return putAll Steering.deliveryService id ∅ generated

-- The loop that logs the targets reads again what the first loop has read, and does not throw.
def update (json : String) : Routine UpdateException (Registry α) Unit :=
  match readValue json with
  | .error .ioException => pure ()
  | .error .runtimeException => throw .runtimeException
  | .ok m =>
    match newSteerings hash m with
    | .error e => throw e
    | .ok newSteerings => do
      modifyState fun _ => ∅
      modifyState fun registry => putAll Sigma.fst Sigma.snd registry newSteerings.entries

end Update

/-- A steering without nulls where loading looks. -/
def Complete {α : Type} (steering : Option (Steering α)) : Prop :=
  ∃ data ∈ steering, ∃ targets ∈ data.targets, none ∉ targets

/-- The first list of the data exists, and its steerings are complete. -/
def Loadable {α : Type} (m : Option (SteeringLists α)) : Prop :=
  ∃ key steerings rest, m = some ((key, some steerings) :: rest) ∧ ∀ steering ∈ steerings, Complete steering

section Loading

variable {α : Type} [LinearOrder α] (hash : String → α) (readValue : String → Except ReadException (Option (SteeringLists α)))

/-- The registry holds one Steering for each delivery service that the list names, with the hashes
of all targets. -/
structure Holds (steerings : List (Option (Steering α))) (registry : Registry α) : Prop where
  named : ∀ deliveryService, deliveryService ∈ registry ↔
    ∃ data, some data ∈ steerings ∧ data.deliveryService = deliveryService
  hashed : ∀ deliveryService, ∀ steering ∈ registry.lookup deliveryService,
    ∃ data, some data ∈ steerings ∧ data.deliveryService = deliveryService ∧ steering = data.generated hash

/-- What verification promises of loading: accepted text loads, and rejected text changes nothing. -/
structure Promised (json : String) (registry : Registry α) : Prop where
  accepted : verify readValue json = .ok true → ∃ key steerings rest loaded,
    readValue json = .ok (some ((key, some steerings) :: rest)) ∧
      outcome (update hash readValue json) registry = (.ok (), loaded) ∧ Holds hash steerings loaded
  rejected : verify readValue json ≠ .ok true → (outcome (update hash readValue json) registry).2 = registry

variable {hash} {readValue}

theorem generateHashes_complete {data : Steering α} (complete : Complete (some data)) :
    generateHashes hash (some data) = .ok (data.generated hash) := by
  obtain ⟨_, ⟨⟩, targets, given, whole⟩ := complete
  have given : data.targets = some targets := given
  have hashed : targets.mapM (generateTargetHashes hash) =
      .ok (targets.map (Option.map (Target.generateHashes hash))) := by
    rw [ExceptList.mapM_ok_iff, List.map_map]
    refine List.map_congr_left fun target member => ?_
    cases target with
    | none => exact absurd member whole
    | some target => rfl
  unfold generateHashes Steering.generated
  simp only [given, hashed]
  rfl

theorem generateHashes_ok {steering : Option (Steering α)} {generated : Steering α}
    (ok : generateHashes hash steering = .ok generated) : Complete steering := by
  unfold generateHashes at ok
  split at ok
  · cases ok
  next data =>
    split at ok
    · cases ok
    next targets given =>
      obtain ⟨hashed, accepted, _⟩ := ExceptList.bind_ok ok
      refine ⟨data, rfl, targets, given, fun null => ?_⟩
      obtain ⟨_, _, read⟩ := ExceptList.mapM_ok_mem accepted null
      cases read

theorem generateHashes_eq {steering : Option (Steering α)} (complete : Complete steering) (generated : Steering α) :
    generateHashes hash steering = .ok generated ↔ ∃ data, some data = steering ∧ generated = data.generated hash := by
  obtain ⟨data, rfl, _⟩ := id complete
  rw [generateHashes_complete complete, Except.ok.injEq]
  constructor
  · exact fun same => ⟨data, rfl, same.symm⟩
  · rintro ⟨other, same, rfl⟩
    rw [Option.some.inj same]

theorem newSteerings_ok {m : Option (SteeringLists α)} {loaded : Registry α}
    (ok : newSteerings hash m = .ok loaded) : Loadable m := by
  obtain ⟨steerings, first, ok⟩ := ExceptList.bind_ok ok
  obtain ⟨generated, accepted, _⟩ := ExceptList.bind_ok ok
  unfold firstList at first
  split at first <;> cases first
  next key rest =>
    refine ⟨key, steerings, rest, rfl, fun steering member => ?_⟩
    obtain ⟨_, _, read⟩ := ExceptList.mapM_ok_mem accepted member
    exact generateHashes_ok read

theorem newSteerings_holds (hash : String → α) (key : String) {steerings : List (Option (Steering α))} (rest : SteeringLists α)
    (complete : ∀ steering ∈ steerings, Complete steering) :
    ∃ loaded, newSteerings hash (some ((key, some steerings) :: rest)) = .ok loaded ∧ Holds hash steerings loaded := by
  obtain ⟨generated, accepted⟩ : ∃ generated, steerings.mapM (generateHashes hash) = .ok generated := by
    refine ExceptList.mapM_ok_of_forall fun steering member => ?_
    obtain ⟨data, rfl, _⟩ := id (complete steering member)
    exact ⟨_, generateHashes_complete (complete _ member)⟩
  have origin : ∀ steering, steering ∈ generated ↔ ∃ data, some data ∈ steerings ∧ steering = data.generated hash := by
    intro steering
    rw [ExceptList.mem_mapM_ok accepted]
    constructor
    · rintro ⟨item, member, read⟩
      obtain ⟨data, rfl, same⟩ := (generateHashes_eq (complete item member) steering).mp read
      exact ⟨data, member, same⟩
    · rintro ⟨data, member, same⟩
      exact ⟨some data, member, (generateHashes_eq (complete _ member) steering).mpr ⟨data, rfl, same⟩⟩
  refine ⟨putAll Steering.deliveryService id ∅ generated, ?_, ?_, ?_⟩
  · rw [newSteerings, firstList]
    change (steerings.mapM (generateHashes hash) >>= fun generated => _) = _
    rw [accepted]
    rfl
  · intro deliveryService
    rw [mem_putAll_empty]
    constructor
    · rintro ⟨steering, member, named⟩
      obtain ⟨data, given, rfl⟩ := (origin steering).mp member
      exact ⟨data, given, named⟩
    · rintro ⟨data, given, named⟩
      exact ⟨data.generated hash, (origin _).mpr ⟨data, given, rfl⟩, named⟩
  · intro deliveryService steering found
    obtain ⟨_, member, named, rfl⟩ := lookup_putAll_empty found
    obtain ⟨data, given, same⟩ := (origin _).mp member
    refine ⟨data, given, ?_, same⟩
    rw [← named]
    exact (congrArg Steering.deliveryService same).symm

/-- Copying the new steerings to the cleared registry loses none. -/
theorem Holds.copied {steerings : List (Option (Steering α))} {loaded : Registry α} (holds : Holds hash steerings loaded) :
    Holds hash steerings (putAll Sigma.fst Sigma.snd ∅ loaded.entries) := by
  have same (deliveryService : Option String) :
      (putAll Sigma.fst Sigma.snd (∅ : Registry α) loaded.entries).lookup deliveryService = loaded.lookup deliveryService := by
    ext steering
    rw [lookup_copy loaded.nodupKeys, ← AList.mem_lookup_iff]
    rfl
  constructor
  · intro deliveryService
    rw [← AList.lookup_isSome, same, AList.lookup_isSome]
    exact holds.named deliveryService
  · intro deliveryService
    rw [same]
    exact holds.hashed deliveryService

theorem update_eq {json : String} {m : Option (SteeringLists α)} (read : readValue json = .ok m) (registry : Registry α) :
    outcome (update hash readValue json) registry = match newSteerings hash m with
      | .error e => (.error e, registry)
      | .ok newSteerings => (.ok (), putAll Sigma.fst Sigma.snd ∅ newSteerings.entries) := by
  unfold update
  simp only [read]
  cases newSteerings hash m <;> rfl

omit [LinearOrder α] in
theorem verify_eq (json : String) : verify readValue json = .ok true ↔ ∃ m, readValue json = .ok m := by
  unfold verify
  split <;> simp_all

theorem Promised.loadable {json : String} {registry : Registry α} (promised : Promised hash readValue json registry)
    {m : Option (SteeringLists α)} (read : readValue json = .ok m) : Loadable m := by
  obtain ⟨key, steerings, rest, loaded, given, completes, _⟩ := promised.accepted ((verify_eq json).mpr ⟨m, read⟩)
  rw [update_eq read] at completes
  split at completes
  · cases completes
  next ok => exact newSteerings_ok ok

/-- Verified data loads if and only if the first list of the data is there and complete. -/
theorem update_promised_iff (hash : String → α) (readValue : String → Except ReadException (Option (SteeringLists α)))
    (json : String) (registry : Registry α) :
    Promised hash readValue json registry ↔ ∀ m, readValue json = .ok m → Loadable m := by
  constructor
  · exact fun promised _ => promised.loadable
  · intro loadable
    constructor
    · intro verified
      obtain ⟨m, read⟩ := (verify_eq json).mp verified
      obtain ⟨key, steerings, rest, rfl, complete⟩ := loadable m read
      obtain ⟨loaded, ok, holds⟩ := newSteerings_holds hash key rest complete
      refine ⟨key, steerings, rest, _, read, ?_, holds.copied⟩
      rw [update_eq read, ok]
    · intro rejected
      have unread : ∀ m, readValue json ≠ .ok m := fun m read => rejected ((verify_eq json).mpr ⟨m, read⟩)
      unfold update
      split
      · rfl
      · rfl
      next m read => exact absurd read (unread m)

end Loading

/-- What Jackson reads from an empty object and from null. -/
def readBare (json : String) : Except ReadException (Option (SteeringLists Nat)) :=
  if json = "\x7b\x7d" then .ok (some []) else if json = "null" then .ok none else .error .ioException

theorem update_promised_fails :
    ¬Promised String.length readBare "\x7b\x7d" ∅ ∧ ¬Promised String.length readBare "null" ∅ := by
  constructor
  · intro promised
    obtain ⟨_, _, _, nonempty, _⟩ := promised.loadable (m := some []) rfl
    cases nonempty
  · intro promised
    obtain ⟨_, _, _, nonempty, _⟩ := promised.loadable (m := none) rfl
    cases nonempty

end TrafficControl.TrafficRouter.SteeringRegistry
