import Mathlib.Data.Rat.Floor
import Mathlib.Tactic.Linarith
import TrafficControl.TrafficOps.Routing.Matching

set_option autoImplicit false

-- What is registered for a table of routes, in which order, and which of it is served.
namespace Routing

open Appends DoubleText

variable {H : Type}

/-- A route of the table, whose path is written as a list of segments. -/
structure WrittenRoute (H : Type) where
  version : Rat
  method : String
  path : WrittenPath
  handler : H
  requiredPrivLevel : Int
  authenticated : Bool
  middlewares : Option (List (H → H))

def WrittenRoute.route (r : WrittenRoute H) : Route H where
  version := r.version
  method := r.method
  path := r.path.text
  handler := r.handler
  requiredPrivLevel := r.requiredPrivLevel
  authenticated := r.authenticated
  middlewares := r.middlewares

def versions (table : List (WrittenRoute H)) : List Rat := getSortedRouteVersions (table.map (·.route))

/-- The routes of a method in the order of the table, each with every version of the table. -/
def pairs (table : List (WrittenRoute H)) (method : String) : List (WrittenRoute H × Rat) :=
  (table.filter (·.method = method)).flatMap fun r => (versions table).map fun version => (r, version)

-- Versions of the same major, from the one of the route on.
def Registered (entry : WrittenRoute H × Rat) : Prop :=
  entry.1.version ≤ entry.2 ∧ entry.2 < nextMajorVer entry.1.version

instance : DecidablePred (Registered (H := H)) := fun _ => inferInstanceAs (Decidable (_ ∧ _))

def registered (table : List (WrittenRoute H)) (method : String) : List (WrittenRoute H × Rat) :=
  (pairs table method).filter fun entry => decide (Registered entry)

theorem major_eq_floor {version : Rat} (nonnegative : 0 ≤ version) (small : version < 2 ^ 53) : major version = ⌊version⌋ := by
  have whole : version.num.tdiv version.den = ⌊version⌋ := by
    rw [Int.tdiv_eq_ediv_of_nonneg (Rat.num_nonneg.mpr nonnegative), Rat.floor_def']
  have low : 0 ≤ ⌊version⌋ := Int.floor_nonneg.mpr nonnegative
  have high : ⌊version⌋ < 2 ^ 53 := Int.floor_lt.mpr (by exact_mod_cast small)
  unfold major toInt64
  simp only [whole]
  rw [if_pos (by omega)]

/-- As long as doubles count one by one, a route is registered under the versions of its major from its own on. -/
theorem registered_iff {entry : WrittenRoute H × Rat} (nonnegative : 0 ≤ entry.1.version) (small : entry.2 < 2 ^ 53 - 1) :
    Registered entry ↔ entry.1.version ≤ entry.2 ∧ major entry.2 = major entry.1.version := by
  refine and_congr_right fun order => ?_
  have own : entry.1.version < 2 ^ 53 := by linarith
  have other : entry.2 < 2 ^ 53 := by linarith
  rw [nextMajorVer, major_eq_floor nonnegative own, major_eq_floor (le_trans nonnegative order) other]
  have low : 0 ≤ ⌊entry.1.version⌋ := Int.floor_nonneg.mpr nonnegative
  have high : ⌊entry.1.version⌋ < 2 ^ 53 - 1 := Int.floor_lt.mpr (by push_cast; linarith)
  have exact_next : MachineInt.toDouble (⌊entry.1.version⌋ + 1) = ⌊entry.1.version⌋ + 1 := by
    obtain ⟨n, next⟩ := Int.eq_ofNat_of_zero_le (show 0 ≤ ⌊entry.1.version⌋ + 1 by omega)
    rw [next, MachineInt.toDouble_natCast, MachineInt.nearestDouble_small (by omega)]
  have monotone : ⌊entry.1.version⌋ ≤ ⌊entry.2⌋ := Int.floor_mono order
  rw [exact_next, ← Int.floor_lt]
  omega
section Create

variable (wrappers : Wrappers H) (table : List (WrittenRoute H))

theorem sorted_versions (rs : List (Route H)) : (getSortedRouteVersions rs).Pairwise (· ≤ ·) :=
  List.pairwise_insertionSort (· ≤ ·) _

theorem versions_of_route (rs : List (Route H)) (version : Rat) :
    ((getSortedRouteVersions rs).drop (searchFloat64s (getSortedRouteVersions rs) version)).takeWhile
        (· < nextMajorVer version) =
      (getSortedRouteVersions rs).filter fun v => decide (version ≤ v ∧ v < nextMajorVer version) := by
  have sorted := sorted_versions rs
  rw [searchFloat64s, BinarySearch.drop_first sorted, BinarySearch.takeWhile_below (sorted.filter _), List.filter_filter]
  refine List.filter_congr fun v _ => ?_
  rw [Bool.decide_and, Bool.and_comm]

def allPairs (rows : List (WrittenRoute H)) (vs : List Rat) : List (WrittenRoute H × Rat) :=
  rows.flatMap fun r => (vs.filter fun v => decide (r.version ≤ v ∧ v < nextMajorVer r.version)).map fun v => (r, v)

def pathHandler (entry : WrittenRoute H × Rat) : PathHandler H :=
  ⟨fullPath entry.1.route entry.2, wrapped wrappers entry.1.route⟩

theorem createRouteMap_eq :
    createRouteMap wrappers (table.map (·.route)) = (allPairs table (versions table)).foldl
      (fun m entry => append m entry.1.method (pathHandler wrappers entry)) ∅ := by
  unfold createRouteMap allPairs
  rw [List.foldl_map, List.foldl_flatMap]
  simp only [List.foldl_map, versions_of_route]
  rfl

theorem allPairs_method (rows : List (WrittenRoute H)) (vs : List Rat) (method : String) :
    (allPairs rows vs).filter (·.1.method = method) =
      ((rows.filter (·.method = method)).flatMap fun r => vs.map fun v => (r, v)).filter fun entry =>
        decide (Registered entry) := by
  induction rows with
  | nil => rfl
  | cons r rows ih =>
    have front : allPairs (r :: rows) vs =
        (vs.filter fun v => decide (r.version ≤ v ∧ v < nextMajorVer r.version)).map (fun v => (r, v)) ++ allPairs rows vs := rfl
    rw [front, List.filter_append, List.filter_map, ih]
    by_cases own : r.method = method
    · have kept : (r :: rows).filter (fun r => decide (r.method = method)) = r :: rows.filter fun r => decide (r.method = method) :=
        List.filter_cons_of_pos (decide_eq_true own)
      rw [kept, List.flatMap_cons, List.filter_append, List.filter_map]
      have all : ((fun entry : WrittenRoute H × Rat => decide (entry.1.method = method)) ∘ fun v => (r, v)) = fun _ => true :=
        funext fun _ => decide_eq_true own
      rw [all, List.filter_true]
      rfl
    · have left : (r :: rows).filter (fun r => decide (r.method = method)) = rows.filter fun r => decide (r.method = method) :=
        List.filter_cons_of_neg (by simpa using own)
      rw [left]
      simp [Function.comp_def, own]

theorem createRouteMap_listed (method : String) :
    listed (createRouteMap wrappers (table.map (·.route))) method =
      (registered table method).map (pathHandler wrappers) := by
  rw [createRouteMap_eq, listed_foldl (fun entry : WrittenRoute H × Rat => entry.1.method) (pathHandler wrappers),
    listed_empty, List.nil_append, allPairs_method]
  rfl

theorem mem_pairs {r : WrittenRoute H} {other : WrittenRoute H} (listed : r ∈ table) (same : other ∈ table) :
    (r, other.version) ∈ pairs table r.method := by
  have version : other.version ∈ versions table := by
    unfold versions getSortedRouteVersions
    rw [List.mem_insertionSort, List.mem_dedup, List.map_map]
    exact List.mem_map_of_mem (f := fun r : WrittenRoute H => r.version) same
  exact List.mem_flatMap.mpr ⟨r, List.mem_filter.mpr ⟨listed, decide_eq_true rfl⟩, List.mem_map_of_mem version⟩

end Create

section Compile

variable (wrappers : Wrappers H) (table : List (WrittenRoute H))

def compiled (entry : WrittenRoute H × Rat) : CompiledRoute H :=
  ⟨wrapped wrappers entry.1.route, Submatch.Expr.seq (routeItems entry.2 entry.1.path), names entry.1.path.segments⟩

theorem compileRoute_pathHandler (entry : WrittenRoute H × Rat) :
    compileRoute (pathHandler wrappers entry) = .ok (compiled wrappers entry) :=
  compileRoute_written entry.2 entry.1.path _

-- What a path is compiled to, where it can be.
def compiledOr (pathHandler : PathHandler H) : CompiledRoute H :=
  match compileRoute pathHandler with
  | .ok compiled => compiled
  | .error _ => ⟨pathHandler.handler, .empty, []⟩

theorem compileMethod_ok {mRoutes : List (PathHandler H)} (compile : ∀ p ∈ mRoutes, ∃ c, compileRoute p = .ok c)
    (m : AList fun _ : String => List (CompiledRoute H)) (method : String) :
    compileMethod m method mRoutes = .ok (mRoutes.foldl (fun m p => append m method (compiledOr p)) m) := by
  induction mRoutes generalizing m with
  | nil => rfl
  | cons p mRoutes ih =>
    obtain ⟨⟨c, ok⟩, others⟩ := List.forall_mem_cons.mp compile
    have here : compiledOr p = c := by rw [compiledOr, ok]
    have step := ih others (append m method c)
    unfold compileMethod at step ⊢
    rw [List.foldlM_cons, List.foldl_cons, here, ok]
    exact step

/-- When all paths compile, each method gets its routes in their order. -/
theorem compileRoutes_ok {routes : AList fun _ : String => List (PathHandler H)}
    (compile : ∀ entry ∈ routes.entries, ∀ p ∈ entry.2, ∃ c, compileRoute p = .ok c) :
    compileRoutes routes = .ok ((flat routes.entries).foldl (fun m entry => append m entry.1 (compiledOr entry.2)) ∅) := by
  unfold compileRoutes flat
  rw [List.foldl_flatMap]
  generalize (∅ : AList fun _ : String => List (CompiledRoute H)) = m
  generalize routes.entries = entries at compile
  induction entries generalizing m with
  | nil => rfl
  | cons entry entries ih =>
    obtain ⟨own, others⟩ := List.forall_mem_cons.mp compile
    rw [List.foldlM_cons, List.foldl_cons, compileMethod_ok own, List.foldl_map]
    exact ih _ others

theorem serve_eq (method : String) (requested : List Char) :
    serve wrappers (table.map (·.route)) method ('/' :: requested) =
      tryRoutes requested 0 ((registered table method).map (compiled wrappers)) := by
  have compile : ∀ entry ∈ (createRouteMap wrappers (table.map (·.route))).entries, ∀ p ∈ entry.2,
      ∃ c, compileRoute p = .ok c := by
    rintro ⟨method, mRoutes⟩ member p inside
    have found := AList.mem_lookup_iff.mpr member
    have list := createRouteMap_listed wrappers table method
    rw [listed, found, Option.getD_some] at list
    rw [list] at inside
    obtain ⟨entry, _, rfl⟩ := List.mem_map.mp inside
    exact ⟨_, compileRoute_pathHandler wrappers entry⟩
  have each (entry : WrittenRoute H × Rat) : compiledOr (pathHandler wrappers entry) = compiled wrappers entry := by
    rw [compiledOr, compileRoute_pathHandler]
  have list := listed_flat compiledOr (createRouteMap wrappers (table.map (·.route))) method
  rw [createRouteMap_listed, List.map_map] at list
  unfold serve
  rw [compileRoutes_ok compile]
  simp only [bind, Except.bind, handler]
  generalize (flat _).foldl _ _ = routes at list
  cases found : routes.lookup method with
  | none =>
    rw [listed, found, Option.getD_none] at list
    rw [List.map_eq_nil_iff.mp list.symm]
    rfl
  | some mRoutes =>
    rw [listed, found, Option.getD_some] at list
    subst list
    refine congrArg _ (List.map_congr_left fun entry _ => each entry)

end Compile

end Routing
