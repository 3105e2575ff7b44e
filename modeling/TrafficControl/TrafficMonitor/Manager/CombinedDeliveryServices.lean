import TrafficControl.Lib.Runs
import TrafficControl.TrafficMonitor.Manager.CacheQuorum

set_option autoImplicit false

namespace TrafficControl.TrafficMonitor.Combiner

open Peer KeyedLoop Runs

/-- The peer, available or not, has reported the delivery service. -/
def Stored (run : CombineRun) (ds peer : String) (report : Peer.CRStatesDeliveryService) : Prop :=
  ∃ states, run.peerStates.crStates.lookup peer = some states ∧ states.deliveryService.lookup ds = some report

def Reported (run : CombineRun) (ds : String) (report : Peer.CRStatesDeliveryService) : Prop :=
  ∃ peer, run.peerStates.getPeerAvailability run.now peer = true ∧ Stored run ds peer report

-- What some reports make of the local state.
structure Combines (reports : Peer.CRStatesDeliveryService → Prop)
    (localDeliveryService combined : Peer.CRStatesDeliveryService) : Prop where
  available : combined.isAvailable = true ↔
    localDeliveryService.isAvailable = true ∨ ∃ report, reports report ∧ report.isAvailable = true
  disabled : ∀ location, location ∈ combined.disabledLocations ↔
    location ∈ localDeliveryService.disabledLocations ∧ ∀ report, reports report → location ∈ report.disabledLocations

/-- The combined delivery services are the local ones, each combined with the reports of the available peers. -/
structure Combined (run : CombineRun) (s : Combiner) : Prop where
  deliveryServices : ∀ ds, ds ∈ s.combinedStates.deliveryService ↔ ds ∈ run.localStates.deliveryService
  states : ∀ ds localDeliveryService, run.localStates.deliveryService.lookup ds = some localDeliveryService →
    ∃ combined, s.combinedStates.deliveryService.lookup ds = some combined ∧
      Combines (Reported run ds) localDeliveryService combined

/-- No delivery service has been removed, and what unavailable peers have reported changes nothing. -/
structure Undisturbed (s : Combiner) (run : CombineRun) : Prop where
  kept : ∀ ds ∈ s.combinedStates.deliveryService, ds ∈ run.localStates.deliveryService
  available : ∀ ds localDeliveryService, run.localStates.deliveryService.lookup ds = some localDeliveryService →
    ∀ peer report, run.peerStates.getPeerAvailability run.now peer = false → Stored run ds peer report →
      report.isAvailable = true →
      localDeliveryService.isAvailable = true ∨ ∃ other, Reported run ds other ∧ other.isAvailable = true
  disabled : ∀ ds localDeliveryService, run.localStates.deliveryService.lookup ds = some localDeliveryService →
    ∀ peer report, run.peerStates.getPeerAvailability run.now peer = false → Stored run ds peer report →
      ∀ location ∈ localDeliveryService.disabledLocations,
        (∀ other, Reported run ds other → location ∈ other.disabledLocations) → location ∈ report.disabledLocations

theorem foldl_withPeer (ds : String) (entries : List (String × Peer.CRStates))
    (localDeliveryService : Peer.CRStatesDeliveryService) :
    Combines (fun report => ∃ entry ∈ entries, entry.2.deliveryService.lookup ds = some report) localDeliveryService
      (entries.foldl (CombineRun.withPeer ds) localDeliveryService) := by
  induction entries generalizing localDeliveryService with
  | nil => exact ⟨by simp, by simp⟩
  | cons entry entries ih =>
    rw [List.foldl_cons]
    cases found : entry.2.deliveryService.lookup ds with
    | none =>
      have turned : CombineRun.withPeer ds localDeliveryService entry = localDeliveryService := by
        rw [CombineRun.withPeer, found]
      rw [turned]
      refine ⟨(ih _).available.trans ?_, fun location => ((ih _).disabled location).trans ?_⟩
      · simp [found]
      · simp [found]
    | some report =>
      have turned : CombineRun.withPeer ds localDeliveryService entry =
          ⟨intersection localDeliveryService.disabledLocations report.disabledLocations,
            if report.isAvailable then true else localDeliveryService.isAvailable⟩ := by
        rw [CombineRun.withPeer, found]
      rw [turned]
      refine ⟨(ih _).available.trans ?_, fun location => ((ih _).disabled location).trans ?_⟩
      · simp [found]
        tauto
      · simp [found, mem_intersection, and_assoc, or_imp, forall_and]

def ofDeliveryService (ds : String) (s : Combiner) : Option Peer.CRStatesDeliveryService :=
  s.combinedStates.deliveryService.lookup ds

theorem ofDeliveryService_caches (ds : String) (run : CombineRun) (entries : List (String × Bool)) (s : Combiner) :
    ofDeliveryService ds (entries.foldl run.combineCacheState s) = ofDeliveryService ds s := by
  induction entries generalizing s with
  | nil => rfl
  | cons entry entries ih => exact ih _

theorem deliveryService_pruned (combinedStates localStates : Peer.CRStates) :
    (pruneCombinedCaches combinedStates localStates).deliveryService = combinedStates.deliveryService := by
  unfold pruneCombinedCaches
  generalize combinedStates.getCaches.keys = names
  induction names generalizing combinedStates with
  | nil => rfl
  | cons name names ih =>
    rw [List.foldl_cons, ih]
    split_ifs <;> rfl

/-- A run combines each local delivery service with the reports of all peers, and leaves the others as they are. -/
theorem ofDeliveryService_combineCrStates (s : Combiner) (run : CombineRun) (ds : String) :
    ofDeliveryService ds (s.combineCrStates run) = match run.localStates.deliveryService.lookup ds with
      | none => ofDeliveryService ds s
      | some localDeliveryService => some
          ((inOrder (run.peersOfDeliveryService ds).order run.peerStates.getCrstates).foldl
            (CombineRun.withPeer ds) localDeliveryService) := by
  let combine (localDeliveryService : Peer.CRStatesDeliveryService) (_ : Option Peer.CRStatesDeliveryService) :=
    some ((inOrder (run.peersOfDeliveryService ds).order run.peerStates.getCrstates).foldl
      (CombineRun.withPeer ds) localDeliveryService)
  have frame (s : Combiner) (entry : String × Peer.CRStatesDeliveryService) (apart : entry.1 ≠ ds) :
      ofDeliveryService ds (run.combineDSState s entry) = ofDeliveryService ds s :=
    AList.lookup_insert_ne (Ne.symm apart)
  have turn (s : Combiner) (localDeliveryService : Peer.CRStatesDeliveryService) :
      ofDeliveryService ds (run.combineDSState s (ds, localDeliveryService)) =
        combine localDeliveryService (ofDeliveryService ds s) :=
    AList.lookup_insert _
  have looped := foldl_inOrder (ofDeliveryService ds) run.deliveryServices.perm run.localStates.deliveryService combine
    frame turn ((inOrder run.caches.order run.localStates.caches).foldl run.combineCacheState s)
  have pruned := congrArg (fun states => states.lookup ds) (deliveryService_pruned
    ((inOrder run.deliveryServices.order run.localStates.deliveryService).foldl run.combineDSState
      ((inOrder run.caches.order run.localStates.caches).foldl run.combineCacheState s)).combinedStates run.localStates)
  refine (pruned.trans looped).trans ?_
  rw [ofDeliveryService_caches]
  cases run.localStates.deliveryService.lookup ds <;> rfl

theorem combines_stored (run : CombineRun) (ds : String) (localDeliveryService : Peer.CRStatesDeliveryService) :
    Combines (fun report => ∃ peer, Stored run ds peer report) localDeliveryService
      ((inOrder (run.peersOfDeliveryService ds).order run.peerStates.getCrstates).foldl
        (CombineRun.withPeer ds) localDeliveryService) := by
  have listed (report : Peer.CRStatesDeliveryService) :
      (∃ entry ∈ inOrder (run.peersOfDeliveryService ds).order run.peerStates.getCrstates,
        entry.2.deliveryService.lookup ds = some report) ↔ ∃ peer, Stored run ds peer report := by
    constructor
    · rintro ⟨⟨peer, states⟩, member, found⟩
      exact ⟨peer, states, (mem_inOrder (run.peersOfDeliveryService ds).perm _).mp member, found⟩
    · rintro ⟨peer, states, stored, found⟩
      exact ⟨(peer, states), (mem_inOrder (run.peersOfDeliveryService ds).perm _).mpr stored, found⟩
  have all := foldl_withPeer ds (inOrder (run.peersOfDeliveryService ds).order run.peerStates.getCrstates) localDeliveryService
  simpa only [listed] using all

theorem lookup_combineCrStates (s : Combiner) {run : CombineRun} {ds : String}
    {localDeliveryService : Peer.CRStatesDeliveryService}
    (there : run.localStates.deliveryService.lookup ds = some localDeliveryService) :
    ∃ combined, (s.combineCrStates run).combinedStates.deliveryService.lookup ds = some combined ∧
      Combines (fun report => ∃ peer, Stored run ds peer report) localDeliveryService combined := by
  have combined := ofDeliveryService_combineCrStates s run ds
  rw [there] at combined
  exact ⟨_, combined, combines_stored run ds localDeliveryService⟩

theorem mem_combineCrStates (s : Combiner) (run : CombineRun) (ds : String) :
    ds ∈ (s.combineCrStates run).combinedStates.deliveryService ↔
      ds ∈ run.localStates.deliveryService ∨ ds ∈ s.combinedStates.deliveryService := by
  simp only [← AList.lookup_isSome]
  have combined := ofDeliveryService_combineCrStates s run ds
  unfold ofDeliveryService at combined
  rw [combined]
  cases run.localStates.deliveryService.lookup ds <;> simp

theorem Stored.reported_or {run : CombineRun} {ds peer : String} {report : Peer.CRStatesDeliveryService}
    (stored : Stored run ds peer report) :
    Reported run ds report ∨ run.peerStates.getPeerAvailability run.now peer = false := by
  cases reachable : run.peerStates.getPeerAvailability run.now peer with
  | true => exact Or.inl ⟨peer, reachable, stored⟩
  | false => exact Or.inr rfl

/-- What a run combines is right just when unavailable peers change nothing and none has been removed. -/
theorem combined_iff (s : Combiner) (run : CombineRun) : Combined run (s.combineCrStates run) ↔ Undisturbed s run := by
  constructor
  · rintro ⟨deliveryServices, states⟩
    refine ⟨fun ds member => ?_, ?_, ?_⟩
    · exact (deliveryServices ds).mp ((mem_combineCrStates s run ds).mpr (Or.inr member))
    · intro ds localDeliveryService there peer report _ stored up
      obtain ⟨combined, found, right⟩ := states ds localDeliveryService there
      obtain ⟨_, found', all⟩ := lookup_combineCrStates s there
      obtain rfl := Option.some.inj (found.symm.trans found')
      exact right.available.mp (all.available.mpr (Or.inr ⟨report, ⟨peer, stored⟩, up⟩))
    · intro ds localDeliveryService there peer report _ stored location disabled everywhere
      obtain ⟨combined, found, right⟩ := states ds localDeliveryService there
      obtain ⟨_, found', all⟩ := lookup_combineCrStates s there
      obtain rfl := Option.some.inj (found.symm.trans found')
      exact ((all.disabled location).mp ((right.disabled location).mpr ⟨disabled, everywhere⟩)).2 report ⟨peer, stored⟩
  · intro undisturbed
    refine ⟨fun ds => ?_, fun ds localDeliveryService there => ?_⟩
    · rw [mem_combineCrStates]
      exact or_iff_left_of_imp (undisturbed.kept ds)
    · obtain ⟨combined, found, all⟩ := lookup_combineCrStates s there
      refine ⟨combined, found, ?_, fun location => ?_⟩
      · rw [all.available]
        constructor
        · rintro (own | ⟨report, ⟨peer, stored⟩, up⟩)
          · exact Or.inl own
          · rcases stored.reported_or with reported | unreachable
            · exact Or.inr ⟨report, reported, up⟩
            · exact undisturbed.available ds localDeliveryService there peer report unreachable stored up
        · rintro (own | ⟨report, ⟨peer, -, stored⟩, up⟩)
          · exact Or.inl own
          · exact Or.inr ⟨report, ⟨peer, stored⟩, up⟩
      · rw [all.disabled]
        constructor
        · rintro ⟨own, everywhere⟩
          exact ⟨own, fun report ⟨peer, _, stored⟩ => everywhere report ⟨peer, stored⟩⟩
        · rintro ⟨own, everywhere⟩
          refine ⟨own, ?_⟩
          rintro report ⟨peer, stored⟩
          rcases stored.reported_or with reported | unreachable
          · exact everywhere report reported
          · exact undisturbed.disabled ds localDeliveryService there peer report unreachable stored location own everywhere

-- The two runs find the same but for what is stored of unavailable peers.
structure SameAvailable (first second : CombineRun) : Prop where
  localStates : first.localStates = second.localStates
  available : ∀ peer, first.peerStates.getPeerAvailability first.now peer =
    second.peerStates.getPeerAvailability second.now peer
  states : ∀ peer, first.peerStates.getPeerAvailability first.now peer = true →
    first.peerStates.crStates.lookup peer = second.peerStates.crStates.lookup peer

/-- The same delivery services, each as available and with the same set of disabled locations. -/
def SameDeliveryServices (first second : Peer.CRStates) : Prop :=
  ∀ ds, Option.Rel (fun one other => one.isAvailable = other.isAvailable ∧
      ∀ location, location ∈ one.disabledLocations ↔ location ∈ other.disabledLocations)
    (first.deliveryService.lookup ds) (second.deliveryService.lookup ds)

theorem reported_iff {first second : CombineRun} (same : SameAvailable first second) (ds : String)
    (report : Peer.CRStatesDeliveryService) : Reported first ds report ↔ Reported second ds report := by
  refine exists_congr fun peer => ?_
  rw [← same.available peer]
  refine and_congr_right fun reachable => ?_
  unfold Stored
  rw [same.states peer reachable]

/-- Runs that are right do not depend on what unavailable peers have reported. -/
theorem sameDeliveryServices {first second : CombineRun} (same : SameAvailable first second) {s t : Combiner}
    (one : Combined first s) (other : Combined second t) : SameDeliveryServices s.combinedStates t.combinedStates := by
  intro ds
  cases there : first.localStates.deliveryService.lookup ds with
  | none =>
    have absent := AList.lookup_eq_none.mp there
    rw [AList.lookup_eq_none.mpr (mt (one.deliveryServices ds).mp absent),
      AList.lookup_eq_none.mpr (mt (other.deliveryServices ds).mp (same.localStates ▸ absent))]
    exact .none
  | some localDeliveryService =>
    obtain ⟨combined, found, right⟩ := one.states ds localDeliveryService there
    obtain ⟨combined', found', right'⟩ := other.states ds localDeliveryService (same.localStates ▸ there)
    rw [found, found']
    refine .some ⟨?_, fun location => ?_⟩
    · rw [Bool.eq_iff_iff, right.available, right'.available]
      simp only [reported_iff same ds]
    · rw [right.disabled, right'.disabled]
      simp only [reported_iff same ds]

def SameStates (first second : Peer.CRStates) : Prop :=
  SameDeliveryServices first second ∧ ∀ c, first.caches.lookup c = second.caches.lookup c

theorem onPeer_iff {first second : CombineRun} (same : SameAvailable first second) (c : String) :
    OnPeer first c ↔ OnPeer second c := by
  refine exists_congr fun peer => exists_congr fun states => ?_
  rw [← same.available peer]
  constructor
  · rintro ⟨stored, reachable, up⟩
    exact ⟨same.states peer reachable ▸ stored, reachable, up⟩
  · rintro ⟨stored, reachable, up⟩
    exact ⟨(same.states peer reachable).trans stored, reachable, up⟩

theorem sameCaches {first second : CombineRun} (same : SameAvailable first second) {s t : Combiner}
    (one : Quorum first s) (other : Quorum second t) (c : String) :
    s.combinedStates.caches.lookup c = t.combinedStates.caches.lookup c := by
  cases there : first.localStates.caches.lookup c with
  | none =>
    have absent := AList.lookup_eq_none.mp there
    rw [AList.lookup_eq_none.mpr (mt (one.caches c).mp absent),
      AList.lookup_eq_none.mpr (mt (other.caches c).mp (same.localStates ▸ absent))]
  | some localCacheState =>
    have present : c ∈ first.localStates.caches := AList.lookup_isSome.mp (Option.isSome_of_eq_some there)
    obtain ⟨up, found⟩ := Option.isSome_iff_exists.mp (AList.lookup_isSome.mpr ((one.caches c).mpr present))
    obtain ⟨up', found'⟩ := Option.isSome_iff_exists.mp
      (AList.lookup_isSome.mpr ((other.caches c).mpr (same.localStates ▸ present)))
    have available := one.available c localCacheState there
    have available' := other.available c localCacheState (same.localStates ▸ there)
    rw [found, onPeer_iff same] at available
    rw [found'] at available'
    rw [found, found', Option.some.injEq, Bool.eq_iff_iff]
    simpa using available.trans available'.symm

def step (s : Combiner) (run : CombineRun) : Option Combiner := some (s.combineCrStates run)

theorem run_step (s : Combiner) (runs : List CombineRun) : run step s runs = some (runs.foldl combineCrStates s) := by
  induction runs generalizing s with
  | nil => rfl
  | cons r runs ih => exact ih _

/-- The combined delivery services are right after each run just when each run is undisturbed, and in undisturbed runs
the reports of unavailable peers do not matter. -/
theorem combineAll_combined_iff (runs : List CombineRun) :
    ((∀ past r future, runs = past ++ r :: future → Combined r (combineAll (past ++ [r]))) ↔
      Throughout step Undisturbed new runs) ∧
    ∀ s first second, first.peerOptimistic = true → second.peerOptimistic = true → SameAvailable first second →
      Undisturbed s first → Undisturbed s second →
      SameStates (s.combineCrStates first).combinedStates (s.combineCrStates second).combinedStates := by
  refine ⟨⟨fun right => throughout_of_splits ?_, ?_⟩, ?_⟩
  · intro past r future split t ran
    rw [run_step] at ran
    obtain rfl := Option.some.inj ran
    have after := right past r future split
    rw [combineAll, List.foldl_append] at after
    exact (combined_iff _ r).mp after
  · rintro throughout past r future rfl
    rw [throughout_append] at throughout
    rw [combineAll, List.foldl_append]
    exact (combined_iff _ r).mpr (throughout.2 _ (run_step _ _)).1
  · intro s first second optimistic optimistic' same one other
    refine ⟨sameDeliveryServices same ((combined_iff s first).mpr one) ((combined_iff s second).mpr other), ?_⟩
    exact sameCaches same (quorum_combineCrStates optimistic s) (quorum_combineCrStates optimistic' s)

section OneDeliveryService

-- The peer has answered and is not heard of again.
def silentPeer : CRStatesPeers :=
  (CRStatesPeers.new.set ⟨"tm2", true, Peer.CRStates.new.setDeliveryService "video" ⟨[], true⟩, 1000⟩).setPeers ["tm2"]

def videoRun (localStates : Peer.CRStates) (now : Int) : CombineRun where
  peerOptimistic := true
  peerStates := silentPeer
  localStates := localStates
  toData := ⟨fun _ => none, fun _ => some .EDGE, fun _ => none⟩
  now := now
  caches := asListed
  deliveryServices := asListed
  peersOfCache _ := asListed
  peersOfDeliveryService _ := asListed

def disabledVideo : Peer.CRStates := Peer.CRStates.new.setDeliveryService "video" ⟨["east"], false⟩

def twoHours : Int := 7200000000000

theorem stored_tm2 {localStates : Peer.CRStates} {now : Int} {ds peer : String} {report : Peer.CRStatesDeliveryService}
    (stored : Stored (videoRun localStates now) ds peer report) : peer = "tm2" := by
  obtain ⟨states, found, -⟩ := stored
  by_contra other
  have missing : (videoRun localStates now).peerStates.crStates.lookup peer = none :=
    (AList.lookup_insert_ne other).trans (AList.lookup_empty peer)
  rw [missing] at found
  cases found

theorem combineAll_combined_video : Combined (videoRun disabledVideo 2000) (combineAll [videoRun disabledVideo 2000]) := by
  have reachable : (videoRun disabledVideo 2000).peerStates.getPeerAvailability 2000 "tm2" = true := by decide
  refine (combineAll_combined_iff [videoRun disabledVideo 2000]).1.mpr ⟨⟨?_, ?_, ?_⟩, fun _ _ => trivial⟩ [] _ [] rfl
  · intro ds member
    cases member
  · intro ds localDeliveryService _ peer report unreachable stored
    rw [stored_tm2 stored] at unreachable
    cases reachable.symm.trans unreachable
  · intro ds localDeliveryService _ peer report unreachable stored
    rw [stored_tm2 stored] at unreachable
    cases reachable.symm.trans unreachable

/-- After two hours the answer of the peer still enables the delivery service and its location, and a delivery
service that is removed stays. -/
theorem combineAll_not_combined :
    ¬Combined (videoRun disabledVideo twoHours) (combineAll [videoRun disabledVideo twoHours]) ∧
    ¬Combined (videoRun Peer.CRStates.new 2000)
      (combineAll [videoRun disabledVideo 2000, videoRun Peer.CRStates.new 2000]) := by
  constructor
  · rintro ⟨-, states⟩
    obtain ⟨combined, found, right⟩ := states "video" ⟨["east"], false⟩ rfl
    obtain rfl : (⟨[], true⟩ : Peer.CRStatesDeliveryService) = combined := Option.some.inj found
    obtain impossible | ⟨report, ⟨peer, reachable, stored⟩, -⟩ := right.available.mp rfl
    · cases impossible
    · rw [stored_tm2 stored] at reachable
      exact absurd reachable (by decide)
  · rintro ⟨deliveryServices, -⟩
    exact absurd ((deliveryServices "video").mp (by decide)) (by decide)

end OneDeliveryService

end TrafficControl.TrafficMonitor.Combiner
