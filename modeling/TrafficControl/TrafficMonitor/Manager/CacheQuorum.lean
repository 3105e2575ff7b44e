import Mathlib.Data.List.Chain
import TrafficControl.TrafficMonitor.Manager.StateCombiner

set_option autoImplicit false

namespace TrafficControl.TrafficMonitor.Combiner

open Peer KeyedLoop

/-- What belongs to one cache: its combined availability, whether it is overridden, and its events. -/
def ofCache (c : String) (s : Combiner) : Option Bool × Bool × List Event :=
  (s.combinedStates.caches.lookup c, s.overrideMap c, s.events.filter fun e => e.name = c)

-- The turn of the loop for the cache.
def turn (run : CombineRun) (c : String) (localCacheState : Bool) (before : Option Bool × Bool × List Event) :
    Option Bool × Bool × List Event :=
  let (available, overrideCondition, override) := run.cacheState c localCacheState before.2.1
  (some available, override,
    before.2.2 ++ if overrideCondition ≠ "" then [run.overrideEvent c overrideCondition available] else [])

theorem ofCache_own (run : CombineRun) (c : String) (s : Combiner) (localCacheState : Bool) :
    ofCache c (run.combineCacheState s (c, localCacheState)) = turn run c localCacheState (ofCache c s) := by
  unfold ofCache turn CombineRun.combineCacheState
  simp only [Peer.CRStates.addCache, AList.lookup_insert, Function.update_self]
  split_ifs with told
  · rw [List.filter_append, List.filter_cons_of_pos (by simp [CombineRun.overrideEvent])]
    rfl
  · rw [List.append_nil]

theorem ofCache_other (run : CombineRun) (c : String) (s : Combiner) (entry : String × Bool) (apart : entry.1 ≠ c) :
    ofCache c (run.combineCacheState s entry) = ofCache c s := by
  unfold ofCache CombineRun.combineCacheState
  simp only [Peer.CRStates.addCache, AList.lookup_insert_ne (Ne.symm apart), Function.update_of_ne (Ne.symm apart)]
  split_ifs with told
  · rw [List.filter_append, List.filter_cons_of_neg (by simp [CombineRun.overrideEvent, apart]), List.filter_nil,
      List.append_nil]
  · rfl

theorem ofCache_combineDSState (run : CombineRun) (c : String) (s : Combiner)
    (entries : List (String × Peer.CRStatesDeliveryService)) :
    ofCache c (entries.foldl run.combineDSState s) = ofCache c s := by
  induction entries generalizing s with
  | nil => rfl
  | cons entry entries ih => exact ih _

theorem lookup_pruneCombinedCaches (combinedStates localStates : Peer.CRStates) (c : String) :
    (pruneCombinedCaches combinedStates localStates).caches.lookup c =
      if (localStates.caches.lookup c).isNone then none else combinedStates.caches.lookup c := by
  let cache (states : Peer.CRStates) : Option Bool := states.caches.lookup c
  have frame : ∀ (states : Peer.CRStates) (other : String), other ≠ c →
      cache (if (localStates.caches.lookup other).isNone then states.deleteCache other else states) = cache states := by
    intro states other apart
    split_ifs
    · exact AList.lookup_erase_ne (Ne.symm apart)
    · rfl
  by_cases present : c ∈ combinedStates.getCaches.keys
  · refine foldl_own id cache (fun before => if (localStates.caches.lookup c).isNone then none else before)
      (by simpa using combinedStates.getCaches.keys_nodup) present frame (fun states => ?_) _
    split_ifs
    · exact AList.lookup_erase _ _
    · rfl
  · have absent : combinedStates.caches.lookup c = none := AList.lookup_eq_none.mpr fun member => present (AList.mem_keys.mp member)
    have kept := foldl_other id cache frame (fun name member same => present (by rw [← same]; exact member)) combinedStates
    rw [absent, ite_self, ← absent]
    exact kept

theorem ofCache_pruned (s : Combiner) (localStates : Peer.CRStates) (c : String) :
    ofCache c { s with combinedStates := pruneCombinedCaches s.combinedStates localStates } =
      (if (localStates.caches.lookup c).isNone then none else (ofCache c s).1, (ofCache c s).2) :=
  congrArg (fun available => (available, (ofCache c s).2)) (lookup_pruneCombinedCaches _ _ c)

/-- A run takes one turn for each cache that is there, and forgets those that are not. -/
theorem ofCache_combineCrStates (s : Combiner) (run : CombineRun) (c : String) :
    ofCache c (s.combineCrStates run) = match run.localStates.caches.lookup c with
      | none => (none, (ofCache c s).2)
      | some localCacheState => turn run c localCacheState (ofCache c s) := by
  have looped := foldl_inOrder (ofCache c) run.caches.perm run.localStates.caches (turn run c) (ofCache_other run c)
    (ofCache_own run c) s
  rw [combineCrStates, ofCache_pruned, ofCache_combineDSState, looped]
  cases run.localStates.caches.lookup c <;> rfl

/-- The cache is available on a peer that is available itself. -/
def OnPeer (run : CombineRun) (c : String) : Prop :=
  ∃ peer states, run.peerStates.crStates.lookup peer = some states ∧
    run.peerStates.getPeerAvailability run.now peer = true ∧ states.caches.lookup c = some true

theorem onlineOnPeers_iff (run : CombineRun) (c : String) : 0 < (run.onlineOnPeers c).length ↔ OnPeer run c := by
  rw [List.length_pos_iff_exists_mem]
  unfold CombineRun.onlineOnPeers OnPeer
  simp only [List.mem_filterMap]
  constructor
  · rintro ⟨name, ⟨peer, states⟩, listed, chosen⟩
    have stored := (mem_inOrder (run.peersOfCache c).perm run.peerStates.getCrstates).mp listed
    dsimp only at chosen
    split_ifs at chosen with reachable there
    refine ⟨peer, states, stored, reachable, ?_⟩
    simpa [Option.getD_eq_iff] using there
  · rintro ⟨peer, states, stored, reachable, there⟩
    refine ⟨peer, (peer, states), (mem_inOrder (run.peersOfCache c).perm run.peerStates.getCrstates).mpr stored, ?_⟩
    simp [reachable, there]

theorem hasAvailablePeers_of_onPeer {run : CombineRun} {c : String} (there : OnPeer run c) :
    run.peerStates.hasAvailablePeers = true := by
  obtain ⟨peer, _, -, reachable, -⟩ := there
  exact CRStatesPeers.getPeerAvailability_peerStates reachable

-- The override condition with which an override begins or ends.
def Condition (override : Bool) (overrideCondition : String) : Prop :=
  if override then ∃ peers, peers ≠ [] ∧
    overrideCondition = "detected; healthy on (at least) " ++ String.intercalate ", " peers
  else overrideCondition ∈
    ["cleared; healthy locally", "irrelevant; no peers online", "irrelevant; not online on any peers"]

def Announces (override : Bool) (e : Event) : Prop :=
  ∃ overrideCondition, Condition override overrideCondition ∧
    e.description = "Health protocol override condition " ++ overrideCondition

theorem condition_ne_empty {override : Bool} {overrideCondition : String} (condition : Condition override overrideCondition) :
    overrideCondition ≠ "" := by
  unfold Condition at condition
  rintro rfl
  split_ifs at condition
  · obtain ⟨peers, -, empty⟩ := condition
    simp at empty
  · simp at condition

theorem cacheState_eq {run : CombineRun} (optimistic : run.peerOptimistic = true) (c : String)
    (localCacheState override : Bool) : ∃ available overrideCondition,
      (available = true ↔ localCacheState = true ∨ OnPeer run c) ∧
      Condition (!localCacheState && available) overrideCondition ∧
      run.cacheState c localCacheState override =
        (available, if override = (!localCacheState && available) then "" else overrideCondition, !localCacheState && available) := by
  unfold CombineRun.cacheState
  rw [optimistic]
  cases localCacheState with
  | true =>
    refine ⟨true, "cleared; healthy locally", by simp, by simp [Condition], ?_⟩
    cases override <;> rfl
  | false =>
    by_cases online : OnPeer run c
    · have listed := (onlineOnPeers_iff run c).mpr online
      refine ⟨true, "detected; healthy on (at least) " ++ String.intercalate ", " (run.onlineOnPeers c), by simp [online], ?_, ?_⟩
      · exact ⟨_, List.ne_nil_of_length_pos listed, rfl⟩
      · rw [hasAvailablePeers_of_onPeer online]
        dsimp only
        rw [if_pos listed]
        cases override <;> rfl
    · have none : ¬0 < (run.onlineOnPeers c).length := fun listed => online ((onlineOnPeers_iff run c).mp listed)
      cases run.peerStates.hasAvailablePeers with
      | false =>
        refine ⟨false, "irrelevant; no peers online", by simp [online], by simp [Condition], ?_⟩
        cases override <;> rfl
      | true =>
        refine ⟨false, "irrelevant; not online on any peers", by simp [online], by simp [Condition], ?_⟩
        dsimp only
        rw [if_neg none]
        cases override <;> rfl

/-- The new values at which a sequence of values changes. -/
def changes : Bool → List Bool → List Bool
  | _, [] => []
  | before, value :: values => if value = before then changes before values else value :: changes value values

theorem changes_alternate (before : Bool) (values : List Bool) : (before :: changes before values).IsChain (· ≠ ·) := by
  induction values generalizing before with
  | nil => exact List.isChain_singleton _
  | cons value values ih =>
    rw [changes]
    split_ifs with same
    · exact ih before
    · exact List.isChain_cons_cons.mpr ⟨Ne.symm same, ih value⟩

structure TurnedTo (run : CombineRun) (c : String) (localCacheState : Bool) (before after : Option Bool × Bool × List Event) :
    Prop where
  available : ∃ available, after.1 = some available ∧ (available = true ↔ localCacheState = true ∨ OnPeer run c)
  overridden : after.2.1 = true ↔ localCacheState = false ∧ after.1 = some true
  events : ∃ added, after.2.2 = before.2.2 ++ added ∧ List.Forall₂ Announces (changes before.2.1 [after.2.1]) added

theorem turn_turnedTo {run : CombineRun} (optimistic : run.peerOptimistic = true) (c : String) (localCacheState : Bool)
    (before : Option Bool × Bool × List Event) :
    TurnedTo run c localCacheState before (turn run c localCacheState before) := by
  obtain ⟨available, overrideCondition, reported, condition, state⟩ :=
    cacheState_eq optimistic c localCacheState before.2.1
  unfold turn
  rw [state]
  refine ⟨⟨available, rfl, reported⟩, ?_, ?_⟩
  · simp
  · refine ⟨_, rfl, ?_⟩
    dsimp only
    by_cases same : before.2.1 = (!localCacheState && available)
    · rw [if_pos same, if_neg (not_not.mpr rfl), changes, if_pos same.symm]
      exact .nil
    · rw [if_neg same, if_pos (condition_ne_empty condition), changes, if_neg (Ne.symm same)]
      exact .cons ⟨_, condition, rfl⟩ .nil

/-- The combined caches are the local ones, each available here or on an available peer, and overridden when it is
available only there. -/
structure Quorum (run : CombineRun) (s : Combiner) : Prop where
  caches : ∀ c, c ∈ s.combinedStates.caches ↔ c ∈ run.localStates.caches
  available : ∀ c localCacheState, run.localStates.caches.lookup c = some localCacheState →
    (s.combinedStates.caches.lookup c = some true ↔ localCacheState = true ∨ OnPeer run c)
  overridden : ∀ c localCacheState, run.localStates.caches.lookup c = some localCacheState →
    (s.overrideMap c = true ↔ localCacheState = false ∧ s.combinedStates.caches.lookup c = some true)

theorem quorum_combineCrStates {run : CombineRun} (optimistic : run.peerOptimistic = true) (s : Combiner) :
    Quorum run (s.combineCrStates run) := by
  have turned (c : String) {localCacheState : Bool} (there : run.localStates.caches.lookup c = some localCacheState) :
      TurnedTo run c localCacheState (ofCache c s) (ofCache c (s.combineCrStates run)) := by
    rw [ofCache_combineCrStates, there]
    exact turn_turnedTo optimistic c localCacheState _
  refine ⟨fun c => ?_, fun c localCacheState there => ?_, fun c localCacheState there => (turned c there).overridden⟩
  · rw [← AList.lookup_isSome, ← AList.lookup_isSome]
    cases there : run.localStates.caches.lookup c with
    | none =>
      have gone := congrArg Prod.fst (ofCache_combineCrStates s run c)
      rw [there] at gone
      exact iff_of_false (by rw [show (s.combineCrStates run).combinedStates.caches.lookup c = none from gone]; simp) (by simp)
    | some localCacheState =>
      obtain ⟨available, combined, -⟩ := (turned c there).available
      exact iff_of_true (Option.isSome_of_eq_some combined) rfl
  · obtain ⟨available, combined, reported⟩ := (turned c there).available
    rw [show (s.combineCrStates run).combinedStates.caches.lookup c = some available from combined, ← reported]
    simp

-- Whether the cache is overridden after each of the runs.
def overrides (c : String) : Combiner → List CombineRun → List Bool
  | _, [] => []
  | s, run :: runs => (s.combineCrStates run).overrideMap c :: overrides c (s.combineCrStates run) runs

theorem changes_cons (before value : Bool) (values : List Bool) :
    changes before (value :: values) = changes before [value] ++ changes value values := by
  rw [changes, changes, changes]
  split_ifs with same
  · rw [same]
    rfl
  · rfl

theorem events_combineCrStates {run : CombineRun} (optimistic : run.peerOptimistic = true) (s : Combiner) (c : String) :
    ∃ added, ((s.combineCrStates run).events.filter fun e => e.name = c) = (s.events.filter fun e => e.name = c) ++ added ∧
      List.Forall₂ Announces (changes (s.overrideMap c) [(s.combineCrStates run).overrideMap c]) added := by
  have turned := ofCache_combineCrStates s run c
  cases there : run.localStates.caches.lookup c with
  | none =>
    rw [there] at turned
    have override : (s.combineCrStates run).overrideMap c = s.overrideMap c := congrArg (fun state => state.2.1) turned
    refine ⟨[], (congrArg (fun state => state.2.2) turned).trans (List.append_nil _).symm, ?_⟩
    rw [override, changes, if_pos rfl]
    exact .nil
  | some localCacheState =>
    rw [there] at turned
    have events := (turn_turnedTo optimistic c localCacheState (ofCache c s)).events
    dsimp only at turned
    rw [← turned] at events
    exact events

/-- The events of a cache are one for each change of its override, whatever happens in between. -/
theorem events_runs (c : String) {runs : List CombineRun} (optimistic : ∀ run ∈ runs, run.peerOptimistic = true)
    (s : Combiner) : ∃ added,
      ((runs.foldl combineCrStates s).events.filter fun e => e.name = c) = (s.events.filter fun e => e.name = c) ++ added ∧
      List.Forall₂ Announces (changes (s.overrideMap c) (overrides c s runs)) added := by
  induction runs generalizing s with
  | nil => exact ⟨[], (List.append_nil _).symm, .nil⟩
  | cons run runs ih =>
    obtain ⟨first, told, announced⟩ := events_combineCrStates (optimistic run List.mem_cons_self) s c
    obtain ⟨rest, told', announced'⟩ := ih (fun r member => optimistic r (List.mem_cons_of_mem _ member)) (s.combineCrStates run)
    refine ⟨first ++ rest, ?_, ?_⟩
    · rw [List.foldl_cons, told', told, List.append_assoc]
    · rw [overrides, changes_cons]
      exact List.rel_append announced announced'

/-- After every run the combined caches follow the optimistic quorum, and the override events of a cache
alternate, one for each change of its override. -/
theorem combineAll_quorum (past : List CombineRun) (run : CombineRun)
    (optimistic : ∀ r ∈ past ++ [run], r.peerOptimistic = true) :
    Quorum run (combineAll (past ++ [run])) ∧
      ∀ c, List.Forall₂ Announces (changes false (overrides c new (past ++ [run])))
          ((combineAll (past ++ [run])).events.filter fun e => e.name = c) ∧
        (false :: changes false (overrides c new (past ++ [run]))).IsChain (· ≠ ·) := by
  refine ⟨?_, fun c => ⟨?_, changes_alternate _ _⟩⟩
  · rw [combineAll, List.foldl_append]
    exact quorum_combineCrStates (optimistic run (by simp)) _
  · obtain ⟨added, told, announced⟩ := events_runs c optimistic new
    rw [show combineAll (past ++ [run]) = (past ++ [run]).foldl combineCrStates new from rfl, told]
    exact announced

section OneEdge

def asListed : RangeOrder := ⟨fun keys => keys, fun _ => .refl _⟩

-- The peer has found the edge to be healthy.
def tm2 : CRStatesPeers :=
  (CRStatesPeers.new.set ⟨"tm2", true, Peer.CRStates.new.addCache "edge1" true, 1000⟩).setPeers ["tm2"]

def edgeRun (localCacheState : Bool) : CombineRun where
  peerOptimistic := true
  peerStates := tm2
  localStates := Peer.CRStates.new.addCache "edge1" localCacheState
  toData := ⟨fun _ => none, fun _ => some .EDGE, fun _ => none⟩
  now := 2000
  caches := asListed
  deliveryServices := asListed
  peersOfCache _ := asListed
  peersOfDeliveryService _ := asListed

theorem combineAll_quorum_edge : Quorum (edgeRun true) (combineAll [edgeRun false, edgeRun true]) ∧
    List.Forall₂ Announces [true, false]
      ((combineAll [edgeRun false, edgeRun true]).events.filter fun e => e.name = "edge1") := by
  obtain ⟨quorum, announced⟩ := combineAll_quorum [edgeRun false] (edgeRun true) (by simp [edgeRun])
  have overridden : overrides "edge1" new [edgeRun false, edgeRun true] = [true, false] := by decide
  have changed := (announced "edge1").1
  rw [show [edgeRun false] ++ [edgeRun true] = [edgeRun false, edgeRun true] from rfl, overridden] at changed
  exact ⟨quorum, changed⟩

end OneEdge

end TrafficControl.TrafficMonitor.Combiner
