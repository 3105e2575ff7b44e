import TrafficControl.Lib.KeyedLoop
import TrafficControl.Lib.KeyedSums
import TrafficControl.TrafficMonitor.Cache.AstatsBounds
import TrafficControl.TrafficMonitor.Cache.RemapStats
import TrafficControl.TrafficMonitor.Ds.CreateStats

set_option autoImplicit false

-- The counters of a delivery service are the same sums for its groups, its types and its caches, through every pass.
namespace TrafficControl.TrafficMonitor.Ds

open DsData MachineInt KeyedSums Astats

section Tables

variable {α : Type} (arith : Arith α) {κ : Type} [DecidableEq κ] {c : Counter}
  {table : AList fun _ : κ => StatCacheStats α} {sum more : Int} {bound room : Nat}

theorem value_sumCacheStats (c : Counter) (a b : StatCacheStats α) :
    c.value (sumCacheStats arith a b) = wrap 64 (c.value a + c.value b) := by cases c <;> rfl

theorem value_addLastStats (c : Counter) (s : StatCacheStats α) (l : LastStatsData α) :
    c.value (addLastStatsToStatCacheStats arith s l) = c.value s := by cases c <;> rfl

theorem value_statsAt (c : Counter) (table : AList fun _ : κ => StatCacheStats α) (key : κ) :
    c.value (statsAt arith table key) = share c.value table key := by
  unfold statsAt share
  cases table.lookup key with
  | none => cases c <;> rfl
  | some stats => rfl

theorem natAbs_statsAt (c : Counter) (table : AList fun _ : κ => StatCacheStats α) (key : κ) :
    (c.value (statsAt arith table key)).natAbs = share (fun stats => (c.value stats).natAbs) table key := by
  rw [value_statsAt]
  unfold share
  cases table.lookup key <;> rfl

/-- The rows add up to this sum, up to the width of a counter. -/
structure Tallies (c : Counter) (table : AList fun _ : κ => StatCacheStats α) (sum : Int) (bound : Nat) : Prop where
  sum : wrap 64 (total c.value table) = wrap 64 sum
  small : total (fun stats => (c.value stats).natAbs) table ≤ bound

theorem Tallies.same {key : κ} {stats : StatCacheStats α} (tallies : Tallies c table sum bound)
    (same : c.value stats = c.value (statsAt arith table key)) : Tallies c (table.insert key stats) sum bound where
  sum := by
    rw [total_insert_same c.value (same.trans (value_statsAt arith c table key))]
    exact tallies.sum
  small := by
    have size : (c.value stats).natAbs = share (fun stats => (c.value stats).natAbs) table key := by
      rw [same, natAbs_statsAt]
    rw [total_insert_same (fun stats => (c.value stats).natAbs) size]
    exact tallies.small

theorem Tallies.add {key : κ} {stats : StatCacheStats α} (tallies : Tallies c table sum bound)
    (adds : wrap 64 (c.value stats) = wrap 64 more) (small : (c.value stats).natAbs ≤ room) :
    Tallies c (table.insert key (sumCacheStats arith (statsAt arith table key) stats)) (sum + more) (bound + room) where
  sum := by
    rw [total_insert, value_sumCacheStats, wrap_wrap_add, value_statsAt, add_right_comm, total_erase]
    exact wrap_add_congr tallies.sum adds
  small := by
    have grows : (c.value (sumCacheStats arith (statsAt arith table key) stats)).natAbs ≤
        share (fun stats => (c.value stats).natAbs) table key + room := by
      rw [value_sumCacheStats, ← natAbs_statsAt arith]
      exact (natAbs_wrap_le 64 _).trans ((Int.natAbs_add_le _ _).trans (Nat.add_le_add_left small _))
    exact (total_insert_le _ grows).trans (Nat.add_le_add_right tallies.small _)

end Tables

section Stats

variable {α : Type} (arith : Arith α) {c : Counter} {stat : Stat α} {dsStats : Stats α} {sum more : Int} {bound room : Nat}

structure Counts (n sum : Int) (bound : Nat) : Prop where
  sum : wrap 64 n = wrap 64 sum
  fits : Fits 64 n
  small : n.natAbs ≤ bound

theorem Counts.add {m n : Int} (counts : Counts m sum bound) (other : Counts n more room) :
    Counts (wrap 64 (m + n)) (sum + more) (bound + room) where
  sum := by
    rw [wrap_eq (fits_wrap _ _)]
    exact wrap_add_congr counts.sum other.sum
  fits := fits_wrap _ _
  small := (natAbs_wrap_le 64 _).trans ((Int.natAbs_add_le _ _).trans (Nat.add_le_add counts.small other.small))

/-- The total, the groups, the types and the caches have the same sum. -/
structure Balanced (c : Counter) (stat : Stat α) (sum : Int) (bound : Nat) : Prop where
  total : Counts (c.value stat.totalStats) sum bound
  cacheGroups : Tallies c stat.cacheGroups sum bound
  types : Tallies c stat.types sum bound
  caches : Tallies c stat.caches sum bound

/-- A delivery service that has no stat yet has nothing to add up. -/
def Fed (c : Counter) (stat : Option (Stat α)) (sum : Int) (bound : Nat) : Prop :=
  match stat with
  | none => wrap 64 sum = 0
  | some stat => Balanced c stat sum bound

theorem balanced_newStat (c : Counter) : Balanced c (newStat arith) 0 0 where
  total := by
    have zero : c.value (newStat arith).totalStats = 0 := by cases c <;> rfl
    rw [zero]
    exact ⟨rfl, by decide, le_rfl⟩
  cacheGroups := ⟨rfl, le_rfl⟩
  types := ⟨rfl, le_rfl⟩
  caches := ⟨rfl, le_rfl⟩

/-- Every delivery service has the sum that belongs to it. -/
def AllFed (c : Counter) (dsStats : Stats α) (sums : String → Int) (bounds : String → Nat) : Prop :=
  ∀ ds, Fed c (dsStats.deliveryService.lookup ds) (sums ds) (bounds ds)

variable {sums : String → Int} {bounds : String → Nat}

theorem AllFed.setStat {ds : String} (fed : AllFed c dsStats sums bounds) (balanced : Balanced c stat (sums ds) (bounds ds)) :
    AllFed c (setStat dsStats ds stat) sums bounds := by
  intro other
  unfold Ds.setStat
  by_cases same : other = ds
  · rw [same, AList.lookup_insert]
    exact balanced
  · rw [AList.lookup_insert_ne same]
    exact fed other

theorem AllFed.balanced {ds : String} (fed : AllFed c dsStats sums bounds)
    (found : dsStats.deliveryService.lookup ds = some stat) : Balanced c stat (sums ds) (bounds ds) := by
  have own := fed ds
  rw [found] at own
  exact own

theorem Balanced.available (balanced : Balanced c stat sum bound) (cacheGroup : String) (cacheType : CacheType) :
    Balanced c (setAvailable arith cacheGroup cacheType stat) sum bound where
  total := by
    have same : c.value (setAvailable arith cacheGroup cacheType stat).totalStats = c.value stat.totalStats := by cases c <;> rfl
    rw [same]
    exact balanced.total
  cacheGroups := balanced.cacheGroups.same arith (by cases c <;> rfl)
  types := balanced.types.same arith (by cases c <;> rfl)
  caches := balanced.caches

theorem Balanced.common (balanced : Balanced c stat sum bound) (commonStats : StatCommon) :
    Balanced c { stat with commonStats } sum bound :=
  ⟨balanced.total, balanced.cacheGroups, balanced.types, balanced.caches⟩

/-- The stat of one cache, that counts the same for its group, its type and itself. -/
theorem balanced_own {server cachegroup : String} {cacheType : CacheType} (own : OwnStat server cachegroup cacheType stat)
    (counts : Counts (c.value stat.totalStats) sum bound) : Balanced c stat sum bound where
  total := counts
  cacheGroups := by
    rw [own.cacheGroups]
    exact ⟨by rw [total_singleton, counts.sum], by rw [total_singleton]; exact counts.small⟩
  types := by
    rw [own.types]
    exact ⟨by rw [total_singleton, counts.sum], by rw [total_singleton]; exact counts.small⟩
  caches := by
    rw [own.caches]
    exact ⟨by rw [total_singleton, counts.sum], by rw [total_singleton]; exact counts.small⟩

theorem statsAt_singleton {κ : Type} [DecidableEq κ] (key : κ) (stats : StatCacheStats α) :
    statsAt arith (AList.singleton key stats) key = stats := by
  unfold statsAt
  rw [← AList.insert_empty, AList.lookup_insert, Option.getD_some]

theorem Balanced.addResult {server cachegroup : String} {cacheType : CacheType} {resultStat : Stat α}
    (balanced : Balanced c stat sum bound) (own : OwnStat server cachegroup cacheType resultStat)
    (counts : Counts (c.value resultStat.totalStats) more room) :
    Balanced c (addResultStat arith server cachegroup cacheType stat resultStat) (sum + more) (bound + room) where
  total := by
    have added : c.value (addResultStat arith server cachegroup cacheType stat resultStat).totalStats =
        wrap 64 (c.value stat.totalStats + c.value resultStat.totalStats) := value_sumCacheStats arith c _ _
    rw [added]
    exact balanced.total.add counts
  cacheGroups := by
    refine balanced.cacheGroups.add arith ?_ ?_ <;> rw [own.cacheGroups, statsAt_singleton]
    · exact counts.sum
    · exact counts.small
  types := by
    refine balanced.types.add arith ?_ ?_ <;> rw [own.types, statsAt_singleton]
    · exact counts.sum
    · exact counts.small
  caches := by
    refine balanced.caches.add arith ?_ ?_ <;> rw [own.caches, statsAt_singleton]
    · exact counts.sum
    · exact counts.small

end Stats

section Availability

variable {α : Type} (arith : Arith α) {c : Counter} {dsStats : Stats α} {sums : String → Int} {bounds : String → Nat}

theorem foldl_allFed {ε : Type} {entries : List ε} {step : Stats α → ε → Stats α} (fed : AllFed c dsStats sums bounds)
    (keeps : ∀ dsStats entry, entry ∈ entries → AllFed c dsStats sums bounds → AllFed c (step dsStats entry) sums bounds) :
    AllFed c (entries.foldl step dsStats) sums bounds := by
  induction entries generalizing dsStats with
  | nil => exact fed
  | cons entry entries ih =>
    exact ih (keeps dsStats entry List.mem_cons_self fed) fun s e member => keeps s e (List.mem_cons_of_mem _ member)

theorem allFed_newStats (c : Counter) (deliveryServices : List String) :
    AllFed c (deliveryServices.foldl (fun dsStats ds => if ds = "" then dsStats else setStat dsStats ds (newStat arith)) ⟨∅, 0⟩)
      (fun _ => 0) fun _ => 0 := by
  refine foldl_allFed (fun ds => rfl) fun dsStats ds _ fed => ?_
  split
  · exact fed
  · exact fed.setStat (balanced_newStat arith c)

theorem AllFed.setStaticData (fed : AllFed c dsStats sums bounds) (dsServers : String → Option (List String)) :
    AllFed c (setStaticData dsStats dsServers) sums bounds := by
  refine foldl_allFed fed fun later entry member fed' => fed'.setStat ?_
  exact (fed.balanced (AList.mem_lookup_iff.mpr member)).common _

theorem AllFed.addAvailability (fed : AllFed c dsStats sums bounds) (cache cacheGroup : String) (cacheType : CacheType)
    (available : Bool) (precomputed : AList fun _ : String => PrecomputedData α) (ds : String) :
    AllFed c (addAvailability arith cache cacheGroup cacheType available precomputed dsStats ds) sums bounds := by
  unfold Ds.addAvailability
  split
  · exact fed
  · split
    · exact fed
    · next stat found =>
      have balanced : Balanced c (if available then setAvailable arith cacheGroup cacheType stat else stat) (sums ds) (bounds ds) := by
        split
        · exact (fed.balanced found).available arith cacheGroup cacheType
        · exact fed.balanced found
      refine fed.setStat ?_
      split
      · split
        · exact balanced.common _
        · exact balanced
      · exact balanced

theorem AllFed.addAvailableData (fed : AllFed c dsStats sums bounds) (crStates : Peer.CRStates)
    (serverCachegroups : String → Option String) (serverDs : String → Option (List String))
    (serverTypes : String → Option CacheType) (precomputed : AList fun _ : String => PrecomputedData α) :
    AllFed c (addAvailableData arith dsStats crStates serverCachegroups serverDs serverTypes precomputed) sums bounds := by
  unfold Ds.addAvailableData
  refine foldl_allFed (foldl_allFed fed fun later entry _ fed' => ?_) fun later entry _ fed' => ?_
  · split
    · exact foldl_allFed fed' fun s ds _ fed => fed.addAvailability arith _ _ _ _ _ ds
    · exact fed'
  · unfold setDisabled
    split
    · exact fed'
    · next stat found => exact fed'.setStat ((fed'.balanced found).common _)

end Availability

section Merge

variable {α : Type} (arith : Arith α) {c : Counter} {dsStats : Stats α} {sums : String → Int} {bounds : String → Nat}
  {server cachegroup : String} {cacheType : CacheType}

theorem lookup_addPrecomputedStat_ne {ds other : String} (apart : other ≠ ds) (resultStat : Stat α) :
    (addPrecomputedStat arith server cachegroup cacheType dsStats ds resultStat).deliveryService.lookup other =
      dsStats.deliveryService.lookup other := by
  unfold addPrecomputedStat
  split
  · rfl
  · split <;> exact AList.lookup_insert_ne apart

theorem lookup_addPrecomputedStat {ds : String} (named : ds ≠ "") (resultStat : Stat α) :
    (addPrecomputedStat arith server cachegroup cacheType dsStats ds resultStat).deliveryService.lookup ds =
      some ((dsStats.deliveryService.lookup ds).elim resultStat fun httpDsStat =>
        addResultStat arith server cachegroup cacheType httpDsStat resultStat) := by
  unfold addPrecomputedStat
  rw [if_neg named]
  cases dsStats.deliveryService.lookup ds <;> exact AList.lookup_insert _

theorem Tallies.idle {κ : Type} {table : AList fun _ : κ => StatCacheStats α} {sum more : Int} {bound room : Nat}
    (tallies : Tallies c table sum bound) (nothing : wrap 64 more = wrap 64 0) : Tallies c table (sum + more) (bound + room) where
  sum := by
    have kept := wrap_add_congr tallies.sum nothing.symm
    rwa [Int.add_zero] at kept
  small := tallies.small.trans (Nat.le_add_right _ _)

theorem Fed.idle {stat : Option (Stat α)} {sum more : Int} {bound room : Nat} (fed : Fed c stat sum bound)
    (nothing : wrap 64 more = wrap 64 0) : Fed c stat (sum + more) (bound + room) := by
  cases stat with
  | none =>
    have zero : wrap 64 sum = wrap 64 0 := fed
    exact wrap_add_congr zero nothing
  | some stat =>
    obtain ⟨total, cacheGroups, types, caches⟩ := fed
    refine ⟨⟨?_, total.fits, total.small.trans (Nat.le_add_right _ _)⟩, cacheGroups.idle nothing, types.idle nothing,
      caches.idle nothing⟩
    have kept := wrap_add_congr total.sum nothing.symm
    rwa [Int.add_zero] at kept

theorem Fed.merge {before : Option (Stat α)} {resultStat : Stat α} {sum more : Int} {bound room : Nat}
    (fed : Fed c before sum bound) (own : OwnStat server cachegroup cacheType resultStat)
    (counts : Counts (c.value resultStat.totalStats) more room) :
    Fed c (some (before.elim resultStat fun httpDsStat => addResultStat arith server cachegroup cacheType httpDsStat resultStat))
      (sum + more) (bound + room) := by
  cases before with
  | none =>
    have zero : wrap 64 sum = wrap 64 0 := fed
    have same := wrap_add_congr zero (rfl : wrap 64 more = wrap 64 more)
    rw [Int.zero_add] at same
    exact balanced_own own ⟨counts.sum.trans same.symm, counts.fits, counts.small.trans (Nat.le_add_left _ _)⟩
  | some stat => exact Balanced.addResult arith fed own counts

/-- The stats of one cache add to each delivery service what they record of it. -/
theorem AllFed.addAll {stats : DsStats α} {added : String → Int} {rooms : String → Nat} (fed : AllFed c dsStats sums bounds)
    (recorded : ∀ ds, Astats.Recorded server cachegroup cacheType c ds stats (added ds) (rooms ds)) (unnamed : added "" = 0) :
    AllFed c (stats.entries.foldl (fun dsStats entry =>
      addPrecomputedStat arith server cachegroup cacheType dsStats entry.1 entry.2) dsStats)
      (fun ds => sums ds + added ds) fun ds => bounds ds + rooms ds := by
  intro ds
  dsimp only
  have frame : ∀ (s : Stats α) (entry : Sigma fun _ : String => Stat α), entry.1 ≠ ds →
      (addPrecomputedStat arith server cachegroup cacheType s entry.1 entry.2).deliveryService.lookup ds =
        s.deliveryService.lookup ds := fun s entry apart => lookup_addPrecomputedStat_ne arith apart.symm entry.2
  by_cases named : ds = ""
  · subst named
    have kept : ∀ (entries : List (Sigma fun _ : String => Stat α)) (s : Stats α), (entries.foldl (fun dsStats entry =>
        addPrecomputedStat arith server cachegroup cacheType dsStats entry.1 entry.2) s).deliveryService.lookup "" =
          s.deliveryService.lookup "" := by
      intro entries
      induction entries with
      | nil => exact fun _ => rfl
      | cons entry entries ih =>
        intro s
        rw [List.foldl_cons, ih]
        by_cases here : entry.1 = ""
        · rw [addPrecomputedStat, if_pos here]
        · exact frame s entry here
    rw [kept]
    exact (fed "").idle (by rw [unnamed])
  · cases found : stats.lookup ds with
    | none =>
      have absent : ∀ entry ∈ stats.entries, entry.1 ≠ ds := by
        intro entry member same
        have here := AList.mem_lookup_iff.mpr (same ▸ member : (⟨ds, entry.2⟩ : Sigma fun _ : String => Stat α) ∈ stats.entries)
        rw [found] at here
        cases here
      rw [KeyedLoop.foldl_other Sigma.fst (fun s : Stats α => s.deliveryService.lookup ds) frame absent]
      refine (fed ds).idle ?_
      have nothing := (recorded ds).total
      rw [Astats.counted, found] at nothing
      exact nothing.symm
    | some resultStat =>
      have member := AList.mem_lookup_iff.mp found
      have own := (recorded ds).own resultStat found
      have total := (recorded ds).total
      have small := (recorded ds).small
      rw [Astats.counted, found] at total small
      rw [KeyedLoop.foldl_own Sigma.fst (fun s : Stats α => s.deliveryService.lookup ds)
        (fun before => some (before.elim resultStat fun httpDsStat =>
          addResultStat arith server cachegroup cacheType httpDsStat resultStat)) stats.keys_nodup member frame
        fun s => lookup_addPrecomputedStat arith named resultStat]
      exact (fed ds).merge arith own.1 ⟨total, own.2, small⟩

end Merge

section PerSec

variable {α : Type} (arith : Arith α) {c : Counter} {dsStats : Stats α} {sums : String → Int} {bounds : String → Nat}
  {sum : Int} {bound : Nat}

theorem Tallies.addLast {κ : Type} [DecidableEq κ] {table : AList fun _ : κ => StatCacheStats α}
    (tallies : Tallies c table sum bound) (last : List (Sigma fun _ : κ => LastStatsData α)) :
    Tallies c (last.foldl (fun table entry =>
      table.insert entry.1 (addLastStatsToStatCacheStats arith (statsAt arith table entry.1) entry.2)) table) sum bound := by
  induction last generalizing table with
  | nil => exact tallies
  | cons entry last ih => exact ih (tallies.same arith (value_addLastStats arith c _ _))

/-- A turn leaves the stats of the caches, or sets a rate. -/
theorem addCacheKbps_caches (precomputed : AList fun _ : String => PrecomputedData α)
    (state : LastDSStat α × AList fun _ : String => StatCacheStats α) (cacheName : String) (cacheStats : StatCacheStats α) :
    (addCacheKbps arith precomputed state cacheName cacheStats).2 = state.2 ∨
      ∃ kbps, (addCacheKbps arith precomputed state cacheName cacheStats).2 =
        state.2.insert cacheName { cacheStats with kbps } := by
  unfold addCacheKbps
  cases precomputed.lookup cacheName with
  | none => exact .inr ⟨_, rfl⟩
  | some data =>
    dsimp only
    split
    · exact .inl rfl
    · exact .inr ⟨_, rfl⟩

theorem statsAt_insert {κ : Type} [DecidableEq κ] (table : AList fun _ : κ => StatCacheStats α) (key other : κ)
    (stats : StatCacheStats α) :
    statsAt arith (table.insert key stats) other = if other = key then stats else statsAt arith table other := by
  unfold statsAt
  split
  · next same => rw [same, AList.lookup_insert, Option.getD_some]
  · next apart => rw [AList.lookup_insert_ne apart]

/-- The rates leave what each cache counts. -/
theorem Tallies.addKbps {caches : AList fun _ : String => StatCacheStats α} (tallies : Tallies c caches sum bound)
    (precomputed : AList fun _ : String => PrecomputedData α) (lastStat : LastDSStat α) :
    Tallies c (caches.entries.foldl (fun state entry => addCacheKbps arith precomputed state entry.1 entry.2)
      (lastStat, caches)).2 sum bound := by
  have kept : ∀ (entries : List (Sigma fun _ : String => StatCacheStats α))
      (state : LastDSStat α × AList fun _ : String => StatCacheStats α), (∀ entry ∈ entries, entry ∈ caches.entries) →
      (∀ key, c.value (statsAt arith state.2 key) = c.value (statsAt arith caches key)) → Tallies c state.2 sum bound →
      Tallies c (entries.foldl (fun state entry => addCacheKbps arith precomputed state entry.1 entry.2) state).2 sum bound := by
    intro entries
    induction entries with
    | nil => exact fun _ _ _ tallies => tallies
    | cons entry entries ih =>
      intro state listed same tallies
      have own : statsAt arith caches entry.1 = entry.2 := by
        unfold statsAt
        rw [AList.mem_lookup_iff.mpr (listed entry List.mem_cons_self), Option.getD_some]
      have later : ∀ e ∈ entries, e ∈ caches.entries := fun e member => listed e (List.mem_cons_of_mem _ member)
      obtain left | ⟨kbps, set⟩ := addCacheKbps_caches arith precomputed state entry.1 entry.2
      · exact ih _ later (left ▸ same) (left ▸ tallies)
      · have value : c.value { entry.2 with kbps } = c.value entry.2 := by cases c <;> rfl
        refine ih _ later (fun key => ?_) ?_
        · rw [set, statsAt_insert]
          split
          · next here => rw [value, here, own]
          · exact same key
        · rw [set]
          exact tallies.same arith (by rw [value, same, own])
  exact kept caches.entries (lastStat, caches) (fun _ member => member) (fun _ => rfl) tallies

theorem Balanced.addPerSec {stat : Stat α} (balanced : Balanced c stat sum bound) (ds : String) (dsStats : Stats α)
    (lastStats : LastStats α) (serverCachegroups : String → Option String) (serverTypes : String → Option CacheType)
    (mc : String → Option TMDeliveryService) (precomputed : AList fun _ : String => PrecomputedData α) :
    ∃ result, (addDSPerSecStats arith ds stat lastStats dsStats serverCachegroups serverTypes mc precomputed).1 =
      setStat dsStats ds result ∧ Balanced c result sum bound := by
  refine ⟨_, rfl, ⟨?_, ?_, ?_, ?_⟩⟩
  · rw [value_addLastStats]
    exact balanced.total
  · exact balanced.cacheGroups.addLast arith _
  · exact balanced.types.addLast arith _
  · exact balanced.caches.addKbps arith precomputed _

theorem AllFed.addPerSecStats (fed : AllFed c dsStats sums bounds) (precomputed : AList fun _ : String => PrecomputedData α)
    (lastStats : LastStats α) (serverCachegroups : String → Option String) (serverTypes : String → Option CacheType)
    (mc : String → Option TMDeliveryService) :
    AllFed c (addPerSecStats arith precomputed dsStats lastStats serverCachegroups serverTypes mc).1 sums bounds := by
  have kept : ∀ (entries : List (Sigma fun _ : String => Stat α)) (state : Stats α × LastStats α),
      (∀ entry ∈ entries, entry ∈ dsStats.deliveryService.entries) → AllFed c state.1 sums bounds →
      AllFed c (entries.foldl (fun state entry => addDSPerSecStats arith entry.1 entry.2 state.2 state.1 serverCachegroups
        serverTypes mc precomputed) state).1 sums bounds := by
    intro entries
    induction entries with
    | nil => exact fun _ _ fed => fed
    | cons entry entries ih =>
      intro state listed fed'
      refine ih _ (fun e member => listed e (List.mem_cons_of_mem _ member)) ?_
      have balanced := fed.balanced (AList.mem_lookup_iff.mpr (listed entry List.mem_cons_self))
      obtain ⟨result, same, kept⟩ := balanced.addPerSec arith entry.1 state.1 state.2 serverCachegroups serverTypes mc precomputed
      rw [same]
      exact fed'.setStat kept
  exact kept dsStats.deliveryService.entries (dsStats, lastStats) (fun _ member => member) fed

end PerSec

section Conservation

/-- The total of a delivery service is the sum over its groups, its types, its caches and what was served. -/
structure Conserved {α : Type} (width : Int → Int) (c : Counter) (stat : Stat α) (served : Int) : Prop where
  cacheGroups : c.value stat.totalStats = width (total c.value stat.cacheGroups)
  types : c.value stat.totalStats = width (total c.value stat.types)
  caches : c.value stat.totalStats = width (total c.value stat.caches)
  served : c.value stat.totalStats = width served

theorem natAbs_total_le {α κ : Type} (c : Counter) (table : AList fun _ : κ => StatCacheStats α) :
    (total c.value table).natAbs ≤ total (fun stats => (c.value stats).natAbs) table := by
  unfold total
  induction table.entries with
  | nil => exact le_rfl
  | cons entry entries ih =>
    rw [List.map_cons, List.sum_cons, List.map_cons, List.sum_cons]
    exact (Int.natAbs_add_le _ _).trans (Nat.add_le_add_left ih _)

theorem Balanced.conserved {α : Type} {c : Counter} {stat : Stat α} {sum : Int} {bound : Nat}
    (balanced : Balanced c stat sum bound) : Conserved (wrap 64) c stat sum := by
  have whole := balanced.total.sum
  rw [wrap_eq balanced.total.fits] at whole
  exact ⟨whole.trans balanced.cacheGroups.sum.symm, whole.trans balanced.types.sum.symm,
    whole.trans balanced.caches.sum.symm, whole⟩

/-- Nothing is cut off while everything together is small. -/
theorem Balanced.exact {α : Type} {c : Counter} {stat : Stat α} {sum : Int} {bound : Nat}
    (balanced : Balanced c stat sum bound) (least : sum.natAbs ≤ bound) (small : bound < 2 ^ 63) : Conserved id c stat sum := by
  have fits : ∀ n : Int, n.natAbs ≤ bound → wrap 64 n = n := fun n le => wrap_eq ⟨by omega, by omega⟩
  obtain ⟨cacheGroups, types, caches, served⟩ := balanced.conserved
  rw [fits _ ((natAbs_total_le c _).trans balanced.cacheGroups.small)] at cacheGroups
  rw [fits _ ((natAbs_total_le c _).trans balanced.types.small)] at types
  rw [fits _ ((natAbs_total_le c _).trans balanced.caches.small)] at caches
  rw [fits _ least] at served
  exact ⟨cacheGroups, types, caches, served⟩

variable {α : Type} (arith : Arith α) {engine : Regexp.Engine} (toData : ToData.TOData engine)
  (visit : String → String → List (engine.Expr × String)) (raw : String → AList fun _ : String => Value α)

def known (server : String) : Bool := (toData.serverCachegroups server).isSome && (toData.serverTypes server).isSome

/-- What the known ones of these caches served, by their own stats. -/
def answersSum (c : Counter) (ds : String) (servers : List String) : Int :=
  ((servers.filter (known toData)).map fun server => addedUp arith toData (visit server) c ds (raw server).entries).sum

def answersMagnitude (c : Counter) (ds : String) (servers : List String) : Nat :=
  ((servers.filter (known toData)).map fun server => magnitude arith toData (visit server) c ds (raw server).entries).sum

theorem natAbs_answersSum_le (c : Counter) (ds : String) (servers : List String) :
    (answersSum arith toData visit raw c ds servers).natAbs ≤ answersMagnitude arith toData visit raw c ds servers := by
  unfold answersSum answersMagnitude
  induction servers.filter (known toData) with
  | nil => exact le_rfl
  | cons server servers ih =>
    rw [List.map_cons, List.sum_cons, List.map_cons, List.sum_cons]
    exact (Int.natAbs_add_le _ _).trans (Nat.add_le_add (natAbs_addedUp_le arith toData (visit server) c ds _) ih)

/-- The data of a cache is computed from its stats. -/
def Computed (system : String → AstatsSystem) (server : String) (data : PrecomputedData α) : Prop :=
  ∃ pre, astatsPrecompute arith toData (visit server) server (raw server) (system server) = some pre ∧
    data.deliveryServiceStats = pre.deliveryServiceStats

variable {arith toData visit raw} {c : Counter} {dsStats : Stats α} {sums : String → Int} {bounds : String → Nat}
  {system : String → AstatsSystem}

theorem AllFed.server {server : String} {data : PrecomputedData α} (fed : AllFed c dsStats sums bounds)
    (computed : Computed arith toData visit raw system server data) :
    AllFed c (addPrecomputed arith toData.serverCachegroups toData.serverTypes dsStats server data)
      (fun ds => sums ds + answersSum arith toData visit raw c ds [server])
      fun ds => bounds ds + answersMagnitude arith toData visit raw c ds [server] := by
  have skipped : known toData server = false → AllFed c dsStats
      (fun ds => sums ds + answersSum arith toData visit raw c ds [server])
      fun ds => bounds ds + answersMagnitude arith toData visit raw c ds [server] := by
    intro unknown
    simp only [answersSum, answersMagnitude, List.filter_cons, unknown, List.filter_nil, Bool.false_eq_true, if_false,
      List.map_nil, List.sum_nil, Int.add_zero, Nat.add_zero]
    exact fed
  unfold addPrecomputed
  cases inGroup : toData.serverCachegroups server with
  | none => exact skipped (by rw [known, inGroup]; rfl)
  | some cachegroup =>
    cases ofType : toData.serverTypes server with
    | none => exact skipped (by rw [known, ofType, Bool.and_comm]; rfl)
    | some cacheType =>
      have both : known toData server = true := by rw [known, inGroup, ofType]; rfl
      have kept : [server].filter (known toData) = [server] := List.filter_cons_of_pos both
      simp only [answersSum, answersMagnitude, kept, List.map_singleton, List.sum_singleton]
      obtain ⟨pre, precomputed, same⟩ := computed
      rw [same]
      exact fed.addAll arith (recorded_precompute arith toData (visit server) inGroup ofType precomputed c)
        (addedUp_unnamed arith toData (visit server) c _)

theorem AllFed.servers {entries : List (Sigma fun _ : String => PrecomputedData α)}
    (computed : ∀ entry ∈ entries, Computed arith toData visit raw system entry.1 entry.2)
    (fed : AllFed c dsStats sums bounds) :
    AllFed c (entries.foldl (fun dsStats entry =>
        addPrecomputed arith toData.serverCachegroups toData.serverTypes dsStats entry.1 entry.2) dsStats)
      (fun ds => sums ds + answersSum arith toData visit raw c ds entries.keys)
      fun ds => bounds ds + answersMagnitude arith toData visit raw c ds entries.keys := by
  induction entries generalizing dsStats sums bounds with
  | nil =>
    simpa only [answersSum, answersMagnitude, List.foldl_nil, List.keys_nil, List.filter_nil, List.map_nil, List.sum_nil, Int.add_zero,
      Nat.add_zero] using fed
  | cons entry entries ih =>
    have sum : ∀ ds, answersSum arith toData visit raw c ds [entry.1] + answersSum arith toData visit raw c ds entries.keys =
        answersSum arith toData visit raw c ds (entry.1 :: entries.keys) := fun ds => by
      rw [answersSum, answersSum, answersSum, ← List.sum_append, ← List.map_append, ← List.filter_append, List.singleton_append]
    have size : ∀ ds, answersMagnitude arith toData visit raw c ds [entry.1] +
        answersMagnitude arith toData visit raw c ds entries.keys =
          answersMagnitude arith toData visit raw c ds (entry.1 :: entries.keys) := fun ds => by
      rw [answersMagnitude, answersMagnitude, answersMagnitude, ← List.sum_append, ← List.map_append, ← List.filter_append,
        List.singleton_append]
    have rest := ih (fun e member => computed e (List.mem_cons_of_mem _ member))
      (fed.server (computed entry List.mem_cons_self))
    simpa only [List.foldl_cons, List.keys_cons, Int.add_assoc, Nat.add_assoc, sum, size] using rest

end Conservation

/-- The counters of a delivery service are the sums of what its caches served, in the width of a counter, and exactly while
everything together fits into it. -/
theorem createStats_conserved {α : Type} (arith : Arith α) {engine : Regexp.Engine} (toData : ToData.TOData engine)
    (visit : String → String → List (engine.Expr × String)) (raw : String → AList fun _ : String => Value α)
    (system : String → AstatsSystem) (precomputed : AList fun _ : String => PrecomputedData α)
    (computed : ∀ server data, precomputed.lookup server = some data → Computed arith toData visit raw system server data)
    (deliveryServices : List String) (crStates : Peer.CRStates) (lastStats : LastStats α) (now : Int)
    (mc : String → Option TMDeliveryService) (c : Counter) (ds : String) (stat : Stat α)
    (created : (createStats arith precomputed toData deliveryServices crStates lastStats now mc).1.deliveryService.lookup ds =
      some stat) :
    Conserved (wrap 64) c stat (answersSum arith toData visit raw c ds precomputed.keys) ∧
      (answersMagnitude arith toData visit raw c ds precomputed.keys < 2 ^ 63 →
        Conserved id c stat (answersSum arith toData visit raw c ds precomputed.keys)) := by
  have start := allFed_newStats arith c deliveryServices
  have available := (start.setStaticData toData.deliveryServiceServers).addAvailableData arith crStates
    toData.serverCachegroups toData.serverDeliveryServices toData.serverTypes precomputed
  have answered : ∀ entry ∈ precomputed.entries, Computed arith toData visit raw system entry.1 entry.2 :=
    fun entry member => computed entry.1 entry.2 (AList.mem_lookup_iff.mpr member)
  have merged := available.servers answered
  have fed := merged.addPerSecStats arith precomputed lastStats toData.serverCachegroups toData.serverTypes mc
  simp only [Int.zero_add, Nat.zero_add] at fed
  have balanced := fed.balanced created
  exact ⟨balanced.conserved, balanced.exact (natAbs_answersSum_le arith toData visit raw c ds _)⟩

section Edge

def twoGroups : ToData.TOData Regexp.pieceEngine where
  deliveryServiceServers := fun ds => if ds = "video" then some ["edge1", "edge2"] else none
  serverDeliveryServices := fun server => if server = "edge1" ∨ server = "edge2" then some ["video"] else none
  serverTypes := fun server => if server = "edge1" ∨ server = "edge2" then some .EDGE else none
  deliveryServiceTypes := fun ds => if ds = "video" then some .HTTP else none
  deliveryServiceRegexes :=
    ⟨fun _ => none, fun foo => if foo = "video".toList then some "video" else none, []⟩
  serverCachegroups := fun server => if server = "edge1" then some "east" else if server = "edge2" then some "west" else none

def sentBytes (n : Int) (_ : String) : AList fun _ : String => Value Int :=
  AList.singleton "plugin.remap_stats.edge.video.net.out_bytes" (.float n)

def idle (_ : String) : AstatsSystem := ⟨"", 0, "", "", 0, 0, 0, 0, 0, false⟩

def noData : PrecomputedData Int := ⟨∅, 0, 0, [], false, 0⟩

def polledData (n : Int) (server : String) : PrecomputedData Int :=
  (astatsPrecompute wholeNumbers twoGroups (fun _ => []) server (sentBytes n server) (idle server)).getD noData

def polled (n : Int) : AList fun _ : String => PrecomputedData Int :=
  (AList.singleton "edge1" (polledData n "edge1")).insert "edge2" (polledData n "edge2")

def createdStat (n : Int) : Option (Stat Int) :=
  (createStats wholeNumbers (polled n) twoGroups ["video"] ⟨∅, ∅⟩ ⟨∅, ∅⟩ 0 fun _ => none).1.deliveryService.lookup "video"

theorem polled_computed (n : Int) (server : String) (data : PrecomputedData Int)
    (found : (polled n).lookup server = some data) :
    Computed wholeNumbers twoGroups (fun _ _ => []) (sentBytes n) idle server data := by
  have answered : ∀ edge, Computed wholeNumbers twoGroups (fun _ _ => []) (sentBytes n) idle edge (polledData n edge) := by
    intro edge
    have calm : astatsPrecompute wholeNumbers twoGroups (fun _ => []) edge (sentBytes n edge) (idle edge) ≠ none := by
      rw [Ne, astatsPrecompute_none_iff]
      exact fun ends => ends.1 rfl
    obtain ⟨pre, got⟩ := Option.ne_none_iff_exists'.mp calm
    exact ⟨pre, got, by rw [polledData, got, Option.getD_some]⟩
  unfold polled at found
  by_cases second : server = "edge2"
  · rw [second, AList.lookup_insert] at found
    rw [second, ← Option.some.inj found]
    exact answered "edge2"
  · rw [AList.lookup_insert_ne second, ← AList.insert_empty] at found
    by_cases first : server = "edge1"
    · rw [first, AList.lookup_insert] at found
      rw [first, ← Option.some.inj found]
      exact answered "edge1"
    · rw [AList.lookup_insert_ne first] at found
      cases found

/-- Two caches of 100 bytes each. -/
theorem createStats_conserved_two : ∃ stat, createdStat 100 = some stat ∧
    Conserved id .bytes stat (answersSum wholeNumbers twoGroups (fun _ _ => []) (sentBytes 100) .bytes "video" ["edge2", "edge1"]) :=
  ⟨_, rfl, (createStats_conserved wholeNumbers twoGroups (fun _ _ => []) (sentBytes 100) idle (polled 100)
    (polled_computed 100) ["video"] ⟨∅, ∅⟩ ⟨∅, ∅⟩ 0 (fun _ => none) .bytes "video" _ rfl).2 (by decide)⟩

/-- The sum of two groups is more than a counter holds. -/
theorem createStats_cut : (∀ server data, (polled (2 ^ 62)).lookup server = some data →
      Computed wholeNumbers twoGroups (fun _ _ => []) (sentBytes (2 ^ 62)) idle server data) ∧
    ∃ stat, createdStat (2 ^ 62) = some stat ∧ stat.totalStats.outBytes = -2 ^ 63 ∧
      total Counter.bytes.value stat.cacheGroups = 2 ^ 63 := by
  exact ⟨polled_computed _, _, rfl, by decide, by decide⟩

end Edge

end TrafficControl.TrafficMonitor.Ds
