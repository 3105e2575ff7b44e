import TrafficControl.TrafficMonitor.Cache.Astats
import Mathlib.Algebra.BigOperators.Group.List.Basic

set_option autoImplicit false

-- What the stats of the remap rules of one cache add up to.
namespace TrafficControl.TrafficMonitor.Astats

open DsData MachineInt ToData Regexp

def counterName : Counter → String
  | .bytes => "out_bytes"
  | .status2xx => "status_2xx"
  | .status3xx => "status_3xx"
  | .status4xx => "status_4xx"
  | .status5xx => "status_5xx"

section Target

variable {engine : Engine} (toData : ToData.TOData engine) (visit : String → List (engine.Expr × String))

/-- The delivery service of a well-formed stat of a remap rule, and the name behind its host. -/
def remapTarget (stat : String) : Option (String × String) :=
  match split stat with
  | "plugin" :: "remap_stats" :: subsubdomain :: subdomain :: part :: parts => do
    let domain := String.intercalate "." (part :: parts).dropLast
    let ds ← toData.deliveryServiceRegexes.deliveryService (visit stat) domain.toList subdomain.toList subsubdomain.toList
    if ds = "" then none else some (ds, (part :: parts).getLast (List.cons_ne_nil _ _))
  | _ => none

theorem remapTarget_named {stat ds statName : String} (target : remapTarget toData visit stat = some (ds, statName)) :
    ds ≠ "" := by
  unfold remapTarget at target
  split at target
  · obtain ⟨found, -, chosen⟩ := Option.bind_eq_some_iff.mp target
    split at chosen
    · cases chosen
    · next named =>
      cases chosen
      exact named
  · cases target

variable {α : Type} (arith : Arith α)

/-- What a stat with this name behind its host adds to a counter. -/
def amount (c : Counter) (statName : String) (value : Value α) : Int :=
  match value with
  | .float v => if statName = counterName c then arith.toInt v else 0
  | _ => 0

/-- What an entry adds to a counter of a delivery service. -/
def contribution (c : Counter) (ds stat : String) (value : Value α) : Int :=
  match remapTarget toData visit stat with
  | some (target, statName) => if target = ds then amount arith c statName value else 0
  | none => 0

end Target

section AddStat

variable {α : Type} (arith : Arith α) (c : Counter)

/-- An error adds nothing. -/
theorem astatsAddCacheStat_error {stat : StatCacheStats α} {statName : String} {value : Value α} {err : StatError α}
    (failed : astatsAddCacheStat arith stat statName value = .error err) : amount arith c statName value = 0 := by
  unfold amount
  cases value with
  | float v =>
    refine if_neg fun same => ?_
    rw [same] at failed
    cases c <;> cases failed
  | _ => rfl

theorem astatsAddCacheStat_ok {stat result : StatCacheStats α} {statName : String} {value : Value α}
    (added : astatsAddCacheStat arith stat statName value = .ok result) :
    c.value result = wrap 64 (c.value stat + amount arith c statName value) ∨
      amount arith c statName value = 0 ∧ c.value result = c.value stat := by
  unfold astatsAddCacheStat wantFloat wantInt at added
  cases value with
  | float v => split at added <;> cases added <;> cases c <;> simp [amount, counterName, Counter.value]
  | bool v =>
    refine .inr ⟨rfl, ?_⟩
    split at added <;> cases added
    cases v <;> cases c <;> rfl
  | _ =>
    refine .inr ⟨rfl, ?_⟩
    split at added <;> cases added <;> cases c <;> rfl

end AddStat

section Server

variable {α : Type} (arith : Arith α) {engine : Engine} (toData : ToData.TOData engine)
  (visit : String → List (engine.Expr × String)) (server cachegroup : String) (cacheType : CacheType)

/-- What one cache tells of a delivery service is the same for its group, its type and itself. -/
structure OwnStat (stat : Stat α) : Prop where
  cacheGroups : stat.cacheGroups = AList.singleton cachegroup stat.totalStats
  types : stat.types = AList.singleton cacheType stat.totalStats
  caches : stat.caches = AList.singleton server stat.totalStats

def counted (c : Counter) (ds : String) (stats : DsStats α) : Int :=
  (stats.lookup ds).elim 0 fun stat => c.value stat.totalStats

/-- A counter of a delivery service is this sum, up to its width. -/
structure Recorded (c : Counter) (ds : String) (stats : DsStats α) (sum : Int) (bound : Nat) : Prop where
  total : wrap 64 (counted c ds stats) = wrap 64 sum
  small : (counted c ds stats).natAbs ≤ bound
  own : ∀ stat, stats.lookup ds = some stat → OwnStat server cachegroup cacheType stat ∧ Fits 64 (c.value stat.totalStats)

theorem recorded_empty (c : Counter) (ds : String) : Recorded server cachegroup cacheType c ds (∅ : DsStats α) 0 0 where
  total := rfl
  small := le_rfl
  own := fun _ found => by cases found

variable {server cachegroup cacheType} {c : Counter} {ds statName : String} {stats result : DsStats α} {value : Value α}
  {sum : Int} {bound : Nat}

theorem putStat_error {target : String} {err : StatError α} (inGroup : toData.serverCachegroups server = some cachegroup)
    (ofType : toData.serverTypes server = some cacheType)
    (failed : putStat arith toData server stats target statName value = .error err) : amount arith c statName value = 0 := by
  unfold putStat at failed
  simp only [inGroup, ofType] at failed
  cases added : astatsAddCacheStat arith ((stats.lookup target).getD (newStat arith)).totalStats statName value with
  | error other => exact astatsAddCacheStat_error arith c added
  | ok totalStats =>
    rw [added] at failed
    cases failed

theorem value_getD (c : Counter) (ds : String) (stats : DsStats α) :
    c.value ((stats.lookup ds).getD (newStat arith)).totalStats = counted c ds stats := by
  unfold counted
  cases stats.lookup ds with
  | none => cases c <;> rfl
  | some stat => rfl

theorem putStat_ok {target : String} (inGroup : toData.serverCachegroups server = some cachegroup)
    (ofType : toData.serverTypes server = some cacheType)
    (put : putStat arith toData server stats target statName value = .ok result) :
    ∃ stat, result = stats.insert target stat ∧
      ((∀ old, stats.lookup target = some old → OwnStat server cachegroup cacheType old) →
        OwnStat server cachegroup cacheType stat) ∧
      ∀ c : Counter, c.value stat.totalStats = wrap 64 (counted c target stats + amount arith c statName value) ∨
        amount arith c statName value = 0 ∧ c.value stat.totalStats = counted c target stats := by
  unfold putStat at put
  simp only [inGroup, ofType] at put
  cases added : astatsAddCacheStat arith ((stats.lookup target).getD (newStat arith)).totalStats statName value with
  | error other =>
    rw [added] at put
    cases put
  | ok totalStats =>
    rw [added] at put
    cases put
    refine ⟨_, rfl, fun own => ?_, fun c => ?_⟩
    · cases found : stats.lookup target with
      | none => exact ⟨AList.insert_empty _ _, AList.insert_empty _ _, AList.insert_empty _ _⟩
      | some old =>
        obtain ⟨cacheGroups, types, caches⟩ := own old found
        constructor
        · simp only [Option.getD_some, cacheGroups, AList.insert_singleton_eq]
        · simp only [Option.getD_some, types, AList.insert_singleton_eq]
        · simp only [Option.getD_some, caches, AList.insert_singleton_eq]
    · rw [← value_getD arith]
      exact astatsAddCacheStat_ok arith c added

theorem Recorded.put {target : String} (recorded : Recorded server cachegroup cacheType c ds stats sum bound)
    (inGroup : toData.serverCachegroups server = some cachegroup) (ofType : toData.serverTypes server = some cacheType)
    (put : putStat arith toData server stats target statName value = .ok result) {more : Int}
    (adds : more = if target = ds then amount arith c statName value else 0) :
    Recorded server cachegroup cacheType c ds result (sum + more) (bound + more.natAbs) := by
  obtain ⟨stat, rfl, owned, counts⟩ := putStat_ok arith toData inGroup ofType put
  by_cases here : target = ds
  · subst here
    rw [if_pos rfl] at adds
    have own := owned fun old found => (recorded.own old found).1
    have now : counted c target (stats.insert target stat) = c.value stat.totalStats := by
      rw [counted, AList.lookup_insert, Option.elim_some]
    have only : ∀ other, (stats.insert target stat).lookup target = some other → other = stat := by
      intro other found
      exact (Option.some.inj ((AList.lookup_insert _).symm.trans found)).symm
    have small := recorded.small
    rcases counts c with sent | ⟨nothing, same⟩
    · rw [← adds] at sent
      refine ⟨?_, ?_, fun other found => ?_⟩
      · rw [now, sent, wrap_eq (fits_wrap _ _)]
        exact wrap_add_congr recorded.total rfl
      · have shrinks := natAbs_wrap_le 64 (counted c target stats + more)
        rw [now, sent]
        omega
      · rw [only other found, sent]
        exact ⟨own, fits_wrap _ _⟩
    · rw [adds, nothing, Int.add_zero]
      refine ⟨by rw [now, same, recorded.total], by rw [now, same]; omega, fun other found => ?_⟩
      rw [only other found, same]
      refine ⟨own, ?_⟩
      unfold counted
      cases before : stats.lookup target with
      | none => exact (by decide : Fits 64 0)
      | some old => exact (recorded.own old before).2
  · rw [if_neg here] at adds
    have other : (stats.insert target stat).lookup ds = stats.lookup ds := AList.lookup_insert_ne (Ne.symm here)
    have same : counted c ds (stats.insert target stat) = counted c ds stats := by rw [counted, other, counted]
    rw [adds, Int.add_zero, Int.natAbs_zero, Nat.add_zero]
    exact ⟨same ▸ recorded.total, same ▸ recorded.small, other ▸ recorded.own⟩

end Server

section Entries

variable {α : Type} (arith : Arith α) {engine : Engine} (toData : ToData.TOData engine)
  (visit : String → List (engine.Expr × String)) (server : String) (stats : DsStats α) (stat : String) (value : Value α)

/-- A stat of another kind is an error. -/
theorem astatsProcessStat_error (other : ∀ parts, split stat ≠ "plugin" :: "remap_stats" :: parts) :
    ∃ err, astatsProcessStat arith toData visit server stats stat value = some (.error err) := by
  unfold astatsProcessStat
  dsimp only
  cases parts : split stat with
  | nil => exact ⟨_, rfl⟩
  | cons first rest =>
    have behind : slice (first :: rest) 1 (first :: rest).length = some rest := by simp [slice]
    rw [if_neg (by simp), behind]
    simp only [List.getElem?_cons_zero, Option.bind_eq_bind, Option.bind_some]
    split
    · unfold astatsProcessStatPlugin
      cases rest with
      | nil => exact ⟨_, rfl⟩
      | cons second rest =>
        rw [if_neg (by simp)]
        simp only [List.getElem?_cons_zero, Option.bind_eq_bind, Option.bind_some]
        split
        · exact absurd parts (other rest)
        · exact ⟨_, rfl⟩
    · exact ⟨_, rfl⟩
    · exact ⟨_, rfl⟩
    · exact ⟨_, rfl⟩

theorem astatsProcessStat_remap {statParts : List String} (parts : split stat = "plugin" :: "remap_stats" :: statParts) :
    astatsProcessStat arith toData visit server stats stat value =
      astatsProcessStatPluginRemapStats arith toData visit server stats stat statParts value := by
  simp [astatsProcessStat, astatsProcessStatPlugin, parts, slice]

/-- An entry is put where it belongs, or is an error. -/
theorem astatsProcessStat_eq :
    (remapTarget toData visit stat = none ∧
        ∃ err, astatsProcessStat arith toData visit server stats stat value = some (.error err)) ∨
      ∃ target statName, remapTarget toData visit stat = some (target, statName) ∧
        astatsProcessStat arith toData visit server stats stat value =
          some (putStat arith toData server stats target statName value) := by
  by_cases remap : ∃ statParts, split stat = "plugin" :: "remap_stats" :: statParts
  · obtain ⟨statParts, parts⟩ := remap
    rw [astatsProcessStat_remap arith toData visit server stats stat value parts]
    unfold remapTarget
    rw [parts]
    match statParts with
    | [] => exact .inl ⟨rfl, _, rfl⟩
    | [_] => exact .inl ⟨rfl, _, rfl⟩
    | [_, _] => exact .inl ⟨rfl, _, rfl⟩
    | subsubdomain :: subdomain :: part :: rest =>
      have middle : slice (subsubdomain :: subdomain :: part :: rest) 2
          ((subsubdomain :: subdomain :: part :: rest).length - 1) = some (part :: rest).dropLast := by
        simp [slice, List.dropLast_eq_take]
      have last : (subsubdomain :: subdomain :: part :: rest)[(subsubdomain :: subdomain :: part :: rest).length - 1]? =
          some ((part :: rest).getLast (List.cons_ne_nil _ _)) := by
        simp [List.getLast_eq_getElem]
      unfold astatsProcessStatPluginRemapStats
      rw [if_neg (by simp), middle, last]
      simp only [List.getElem?_cons_zero, List.getElem?_cons_succ, Option.bind_eq_bind, Option.bind_some]
      cases toData.deliveryServiceRegexes.deliveryService (visit stat) _ subdomain.toList subsubdomain.toList with
      | none => exact .inl ⟨rfl, _, rfl⟩
      | some ds =>
        by_cases named : ds = ""
        · exact .inl ⟨if_pos named, _, if_pos named⟩
        · exact .inr ⟨ds, _, if_neg named, if_neg named⟩
  · have other : ∀ statParts, split stat ≠ "plugin" :: "remap_stats" :: statParts := fun statParts parts => remap ⟨statParts, parts⟩
    refine .inl ⟨?_, astatsProcessStat_error arith toData visit server stats stat value other⟩
    unfold remapTarget
    split
    · next parts => exact absurd parts (other _)
    · rfl

end Entries

section Precompute

variable {α : Type} (arith : Arith α) {engine : Engine} (toData : ToData.TOData engine)
  (visit : String → List (engine.Expr × String)) {server cachegroup : String} {cacheType : CacheType} {c : Counter} {ds : String}
  {sum : Int} {bound : Nat}

/-- What the stats of a cache add to a counter of a delivery service. -/
def addedUp (c : Counter) (ds : String) (entries : List (Sigma fun _ : String => Value α)) : Int :=
  (entries.map fun entry => contribution toData visit arith c ds entry.1 entry.2).sum

def magnitude (c : Counter) (ds : String) (entries : List (Sigma fun _ : String => Value α)) : Nat :=
  (entries.map fun entry => (contribution toData visit arith c ds entry.1 entry.2).natAbs).sum

theorem natAbs_addedUp_le (c : Counter) (ds : String) (entries : List (Sigma fun _ : String => Value α)) :
    (addedUp arith toData visit c ds entries).natAbs ≤ magnitude arith toData visit c ds entries := by
  induction entries with
  | nil => exact le_rfl
  | cons entry entries ih =>
    rw [addedUp, magnitude, List.map_cons, List.sum_cons, List.map_cons, List.sum_cons]
    exact (Int.natAbs_add_le _ _).trans (Nat.add_le_add_left ih _)

theorem addedUp_unnamed (c : Counter) (entries : List (Sigma fun _ : String => Value α)) :
    addedUp arith toData visit c "" entries = 0 := by
  refine List.sum_eq_zero fun n member => ?_
  obtain ⟨entry, -, rfl⟩ := List.mem_map.mp member
  unfold contribution
  split
  · next target statName found => exact if_neg (remapTarget_named toData visit found)
  · rfl

theorem Recorded.turn {state next : DsStats α × List (StatError α)} {stat : String} {value : Value α}
    (recorded : Recorded server cachegroup cacheType c ds state.1 sum bound)
    (inGroup : toData.serverCachegroups server = some cachegroup) (ofType : toData.serverTypes server = some cacheType)
    (step : processed arith toData visit server state stat value = some next) :
    Recorded server cachegroup cacheType c ds next.1 (sum + contribution toData visit arith c ds stat value)
      (bound + (contribution toData visit arith c ds stat value).natAbs) := by
  unfold processed at step
  unfold contribution
  have unchanged : next.1 = state.1 → ∀ more : Int, more = 0 →
      Recorded server cachegroup cacheType c ds next.1 (sum + more) (bound + more.natAbs) := by
    rintro same _ rfl
    rw [same, Int.add_zero]
    exact recorded
  obtain ⟨none, err, failed⟩ | ⟨target, statName, some, put⟩ :=
    astatsProcessStat_eq arith toData visit server state.1 stat value
  · rw [none]
    rw [failed] at step
    refine unchanged ?_ 0 rfl
    cases err <;> cases step <;> rfl
  · rw [some]
    rw [put] at step
    cases result : putStat arith toData server state.1 target statName value with
    | ok stats =>
      rw [result] at step
      cases step
      exact recorded.put arith toData inGroup ofType result rfl
    | error err =>
      rw [result] at step
      refine unchanged ?_ _ ?_
      · cases err <;> cases step <;> rfl
      · exact ite_eq_right_iff.mpr fun _ => putStat_error arith toData inGroup ofType result

theorem Recorded.run {entries : List (Sigma fun _ : String => Value α)} {state last : DsStats α × List (StatError α)}
    (recorded : Recorded server cachegroup cacheType c ds state.1 sum bound)
    (inGroup : toData.serverCachegroups server = some cachegroup) (ofType : toData.serverTypes server = some cacheType)
    (ran : entries.foldlM (fun state entry => processed arith toData visit server state entry.1 entry.2) state = some last) :
    Recorded server cachegroup cacheType c ds last.1 (sum + addedUp arith toData visit c ds entries)
      (bound + magnitude arith toData visit c ds entries) := by
  induction entries generalizing state sum bound with
  | nil =>
    cases ran
    rw [addedUp, List.map_nil, List.sum_nil, Int.add_zero]
    exact recorded
  | cons entry entries ih =>
    rw [List.foldlM_cons] at ran
    obtain ⟨next, step, rest⟩ := Option.bind_eq_some_iff.mp ran
    rw [addedUp, magnitude, List.map_cons, List.sum_cons, List.map_cons, List.sum_cons, ← Int.add_assoc, ← Nat.add_assoc]
    exact ih (recorded.turn arith toData visit inGroup ofType step) rest

theorem recorded_precompute {rawStats : AList fun _ : String => Value α} {system : AstatsSystem} {data : PrecomputedData α}
    (inGroup : toData.serverCachegroups server = some cachegroup) (ofType : toData.serverTypes server = some cacheType)
    (computed : astatsPrecompute arith toData visit server rawStats system = some data) (c : Counter) (ds : String) :
    Recorded server cachegroup cacheType c ds data.deliveryServiceStats (addedUp arith toData visit c ds rawStats.entries)
      (magnitude arith toData visit c ds rawStats.entries) := by
  unfold astatsPrecompute at computed
  obtain ⟨outBytes, -, computed⟩ := Option.bind_eq_some_iff.mp computed
  obtain ⟨last, ran, built⟩ := Option.bind_eq_some_iff.mp computed
  cases built
  have whole := (recorded_empty server cachegroup cacheType c ds).run arith toData visit inGroup ofType ran
  rwa [Int.zero_add, Nat.zero_add] at whole

end Precompute

end TrafficControl.TrafficMonitor.Astats
