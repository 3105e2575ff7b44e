import TrafficControl.Lib.ExceptList
import TrafficControl.Lib.PutAll
import TrafficControl.TrafficMonitor.Health.Vitals

set_option autoImplicit false

-- `getProfiles`, which reads the parameters of the caches' profiles.
namespace Monitoring

open ExceptList PutAll
open TrafficControl.TrafficMonitor (atoi)

structure Cache where
  profile : String
  type : String

structure Router where
  profile : String
  type : String

/-- A parameter as the tables link it to a profile; a missing text is the empty one. -/
structure Parameter where
  profile : String
  name : String
  configFile : String
  value : String

inductive ParameterValue where
  | int (value : Int)
  | string (value : String)

-- The parameters of a profile that has none are `nil`, which is read back like the empty map.
structure Profile where
  name : String
  type : String
  parameters : AList fun _ : String => ParameterValue

def cacheMonitorConfigFile : String := "rascal.properties"

abbrev Profiles := AList fun _ : String => Profile

def addRouter (profiles : Profiles) (router : Router) : Profiles :=
  profiles.insert router.profile ⟨router.profile, router.type, ∅⟩

def addCache (state : Profiles × List String) (cache : Cache) : Profiles × List String :=
  if cache.profile ∈ state.2 then state
  else (state.1.insert cache.profile ⟨cache.profile, cache.type, ∅⟩, state.2 ++ [cache.profile])

def query (db : List Parameter) (profileNames : List String) : List Parameter :=
  db.filter fun parameter => parameter.profile ∈ profileNames ∧ parameter.configFile = cacheMonitorConfigFile

/-- A text that looks like an integer is written as one. -/
def parameterValue (value : String) : ParameterValue :=
  match atoi value with
  | .ok valNum => .int valNum
  | .error _ => .string value

def addParameter (profiles : Profiles) (row : Parameter) : Except String Profiles :=
  if row.name = "" then .error "null name"
  else
    let profile := (profiles.lookup row.profile).getD ⟨"", "", ∅⟩
    .ok (profiles.insert row.profile
      { profile with parameters := profile.parameters.insert row.name (parameterValue row.value) })

/-- The profiles are listed in any order, so the map stands for the list. -/
def getProfiles (db : List Parameter) (caches : List Cache) (routers : List Router) : Except String Profiles :=
  let (profiles, profileNames) := caches.foldl addCache (routers.foldl addRouter ∅, [])
  (query db profileNames).foldlM addParameter profiles

/-- The parameters that are read for a profile. -/
def parametersOf (db : List Parameter) (profile : String) : List Parameter :=
  db.filter fun parameter => parameter.profile = profile ∧ parameter.configFile = cacheMonitorConfigFile

def encode (parameters : List Parameter) : AList fun _ : String => ParameterValue :=
  putAll Parameter.name (fun parameter => parameterValue parameter.value) ∅ parameters

-- The profiles that parameters are asked for are there, and still without them.
def Fresh (state : Profiles × List String) : Prop :=
  ∀ name ∈ state.2, ∃ profile, state.1.lookup name = some profile ∧ profile.parameters = ∅

theorem addCache_fresh {state : Profiles × List String} (fresh : Fresh state) (cache : Cache) :
    Fresh (addCache state cache) ∧ cache.profile :: state.2 ⊆ (addCache state cache).2 := by
  unfold addCache
  split
  · next known => exact ⟨fresh, List.cons_subset.mpr ⟨known, List.Subset.refl _⟩⟩
  · refine ⟨fun name member => ?_, by simp⟩
    by_cases same : name = cache.profile
    · subst same
      exact ⟨_, AList.lookup_insert _, rfl⟩
    · rcases List.mem_append.mp member with earlier | last
      · rw [AList.lookup_insert_ne same]
        exact fresh name earlier
      · exact absurd (List.mem_singleton.mp last) same

theorem addCaches_fresh (caches : List Cache) {state : Profiles × List String} (fresh : Fresh state) :
    Fresh (caches.foldl addCache state) ∧ caches.map Cache.profile ++ state.2 ⊆ (caches.foldl addCache state).2 := by
  induction caches generalizing state with
  | nil => exact ⟨fresh, List.Subset.refl _⟩
  | cons cache caches ih =>
    obtain ⟨first, named⟩ := addCache_fresh fresh cache
    obtain ⟨rest, kept⟩ := ih first
    refine ⟨rest, fun name member => kept ?_⟩
    have moved : name ∈ caches.map Cache.profile ∨ name ∈ cache.profile :: state.2 := by
      simp only [List.map_cons, List.cons_append, List.mem_cons, List.mem_append] at member ⊢
      tauto
    rcases moved with later | earlier
    · exact List.mem_append_left _ later
    · exact List.mem_append_right _ (named earlier)

theorem addParameters_lookup {rows : List Parameter} {profiles profiles' : Profiles} {name : String} {profile : Profile}
    (added : rows.foldlM addParameter profiles = .ok profiles') (known : profiles.lookup name = some profile) :
    ∃ profile', profiles'.lookup name = some profile' ∧ profile'.parameters =
      putAll Parameter.name (fun parameter => parameterValue parameter.value) profile.parameters
        (rows.filter fun row => row.profile = name) := by
  induction rows generalizing profiles profile with
  | nil =>
    cases added
    exact ⟨profile, known, rfl⟩
  | cons row rows ih =>
    rw [List.foldlM_cons] at added
    obtain ⟨next, first, rest⟩ := bind_ok added
    unfold addParameter at first
    split at first
    · cases first
    · cases first
      by_cases own : row.profile = name
      · subst own
        rw [List.filter_cons_of_pos (by simp)]
        rw [known] at rest
        exact ih rest (AList.lookup_insert _)
      · rw [List.filter_cons_of_neg (by simpa using own)]
        exact ih rest ((AList.lookup_insert_ne (Ne.symm own)).trans known)

theorem getProfiles_parameters {db : List Parameter} {caches : List Cache} {routers : List Router} {profiles : Profiles}
    (produced : getProfiles db caches routers = .ok profiles) {cache : Cache} (used : cache ∈ caches) :
    ∃ profile, profiles.lookup cache.profile = some profile ∧
      profile.parameters = encode (parametersOf db cache.profile) := by
  have start : Fresh (routers.foldl addRouter ∅, []) := fun _ none => absurd none List.not_mem_nil
  obtain ⟨fresh, named⟩ := addCaches_fresh caches start
  have asked := named (List.mem_append_left _ (List.mem_map_of_mem used))
  obtain ⟨profile, known, empty⟩ := fresh _ asked
  obtain ⟨profile', found, parameters⟩ := addParameters_lookup produced known
  have rows : (query db (caches.foldl addCache (routers.foldl addRouter ∅, [])).2).filter (fun row => row.profile = cache.profile) =
      parametersOf db cache.profile := by
    rw [query, List.filter_filter, parametersOf]
    apply List.filter_congr
    intro row _
    by_cases own : row.profile = cache.profile
    · simp [own, asked]
    · simp [own]
  exact ⟨profile', found, by rw [parameters, rows, empty, encode]⟩

end Monitoring
