import TrafficControl.TrafficMonitor.Cache.Astats
import TrafficControl.TrafficMonitor.Manager.Histories

set_option autoImplicit false

-- Which answers of a cache the monitor reads without an index or a slice out of range.
namespace TrafficControl.TrafficMonitor.Astats

open DsData ToData Regexp

/-- The interface is first found at the very end of the text. -/
def EndsWithInterface (procNetDev iface : String) : Prop :=
  iface ≠ "" ∧ iface.toList <:+ procNetDev.toList ∧ ¬iface.toList <:+: procNetDev.toList.dropLast

section OutBytes

variable {procNetDev iface : String}

theorem behindInterface_none_iff (named : iface ≠ "") :
    behindInterface procNetDev iface = none ↔ EndsWithInterface procNetDev iface := by
  have word : iface.toList ≠ [] := by simpa using named
  rw [EndsWithInterface, and_iff_right named, ← CStrings.strstr_self_iff word]
  unfold behindInterface
  cases search : CStrings.strstr iface.toList procNetDev.toList with
  | none => simp
  | some found =>
    obtain ⟨rest, rfl⟩ := CStrings.strstr_prefix search
    simp only [List.drop_left]
    cases rest with
    | nil => simp
    | cons c rest => simp

theorem astatsOutBytes_none_iff : astatsOutBytes procNetDev iface = none ↔ EndsWithInterface procNetDev iface := by
  unfold astatsOutBytes
  split
  · next empty =>
    refine iff_of_false nofun ?_
    rintro ⟨named, suffix, -⟩
    rw [empty] at suffix
    exact named (by simpa using suffix)
  · split
    · next unnamed => exact iff_of_false nofun fun ends => ends.1 unnamed
    · next named =>
      rw [← behindInterface_none_iff named]
      cases behindInterface procNetDev iface with
      | none => simp
      | some bytes =>
        cases bytes with
        | none => simp
        | some text =>
          refine iff_of_false ?_ nofun
          simp only [Option.bind_eq_bind, Option.bind_some]
          split
          · nofun
          · next enough =>
            have bound : 8 < (fields text).length := by omega
            simp [List.getElem?_eq_getElem bound]

end OutBytes

section Stats

variable {α : Type} (arith : Arith α) {engine : Engine} (toData : ToData.TOData engine)
  (visit : String → List (engine.Expr × String)) (server : String)

theorem remapStats_some (stats : DsStats α) (stat : String) (statParts : List String) (value : Value α) :
    astatsProcessStatPluginRemapStats arith toData visit server stats stat statParts value ≠ none := by
  unfold astatsProcessStatPluginRemapStats
  split
  · nofun
  · next enough =>
    have first := List.getElem?_eq_getElem (show 0 < statParts.length by omega)
    have second := List.getElem?_eq_getElem (show 1 < statParts.length by omega)
    have last := List.getElem?_eq_getElem (show statParts.length - 1 < statParts.length by omega)
    have middle : slice statParts 2 (statParts.length - 1) = some ((statParts.take (statParts.length - 1)).drop 2) :=
      if_pos ⟨by omega, by omega⟩
    simp only [first, second, last, middle, Option.bind_eq_bind, Option.bind_some]
    split
    · nofun
    · split <;> nofun

theorem plugin_some (stats : DsStats α) (stat : String) (statParts : List String) (value : Value α) :
    astatsProcessStatPlugin arith toData visit server stats stat statParts value ≠ none := by
  unfold astatsProcessStatPlugin
  split
  · nofun
  · next enough =>
    have first := List.getElem?_eq_getElem (show 0 < statParts.length by omega)
    have rest : slice statParts 1 statParts.length = some ((statParts.take statParts.length).drop 1) :=
      if_pos ⟨by omega, le_refl _⟩
    simp only [first, rest, Option.bind_eq_bind, Option.bind_some]
    split
    · exact remapStats_some arith toData visit server stats stat _ value
    · nofun

theorem processStat_some (stats : DsStats α) (stat : String) (value : Value α) :
    astatsProcessStat arith toData visit server stats stat value ≠ none := by
  unfold astatsProcessStat
  dsimp only
  split
  · nofun
  · next enough =>
    have first := List.getElem?_eq_getElem (show 0 < (split stat).length by omega)
    have rest : slice (split stat) 1 (split stat).length = some (((split stat).take (split stat).length).drop 1) :=
      if_pos ⟨by omega, le_refl _⟩
    simp only [first, rest, Option.bind_eq_bind, Option.bind_some]
    split
    · exact plugin_some arith toData visit server stats stat _ value
    · nofun
    · nofun
    · nofun

theorem processAll_some (entries : List (Sigma fun _ : String => Value α)) (state : DsStats α × List (StatError α)) :
    entries.foldlM (fun state entry => processed arith toData visit server state entry.1 entry.2) state ≠ none := by
  induction entries generalizing state with
  | nil => nofun
  | cons entry entries ih =>
    rw [List.foldlM_cons]
    obtain ⟨result, stepped⟩ :=
      Option.ne_none_iff_exists'.mp (processStat_some arith toData visit server state.1 entry.1 entry.2)
    rw [processed, stepped]
    exact ih _

theorem astatsPrecompute_none_iff (rawStats : AList fun _ : String => Value α) (system : AstatsSystem) :
    astatsPrecompute arith toData visit server rawStats system = none ↔
      EndsWithInterface system.procNetDev system.infName := by
  rw [← astatsOutBytes_none_iff, astatsPrecompute]
  obtain ⟨state, all⟩ := Option.ne_none_iff_exists'.mp (processAll_some arith toData visit server rawStats.entries (∅, []))
  cases astatsOutBytes system.procNetDev system.infName with
  | none => simp
  | some outBytes => simp [all]

end Stats

section Vitals

variable {α : Type} (float64 : FloatText α)

/-- The load average is read, and behind the first colon of the network text there are too few numbers before the next. -/
def FewNumbers (newResult : PolledResult α) : Prop :=
  newResult.error = none ∧
    (∃ oneMin rest oneMinAvg, fields newResult.system.procLoadavg = oneMin :: rest ∧ float64.parseFloat oneMin = .ok oneMinAvg) ∧
      ∃ first part rest, newResult.system.procNetDev.toList.splitOn ':' = first :: part :: rest ∧
        (fields (String.ofList part)).length < 9

theorem getNetVitals_none_iff (newResult : PolledResult α) (prevResult : Option (PolledResult α)) :
    getNetVitals float64 newResult prevResult = none ↔
      ∃ first part rest, newResult.system.procNetDev.toList.splitOn ':' = first :: part :: rest ∧
        (fields (String.ofList part)).length < 9 := by
  unfold getNetVitals
  rcases newResult.system.procNetDev.toList.splitOn ':' with _ | ⟨first, _ | ⟨part, rest⟩⟩
  · simp
  · simp
  · have few : (∃ first' part' rest', first :: part :: rest = first' :: part' :: rest' ∧
        (fields (String.ofList part')).length < 9) ↔ (fields (String.ofList part)).length < 9 := by simp
    rw [few]
    simp only [List.map_cons, Option.bind_eq_bind]
    by_cases enough : (fields (String.ofList part)).length < 9
    · have missing : (fields (String.ofList part))[8]? = none := List.getElem?_eq_none (by omega)
      simp [missing, enough]
    · refine iff_of_false ?_ enough
      have sent := List.getElem?_eq_getElem (show 8 < (fields (String.ofList part)).length by omega)
      have received := List.getElem?_eq_getElem (show 0 < (fields (String.ofList part)).length by omega)
      simp only [sent, received, Option.bind_some]
      rcases parseInt (fields (String.ofList part))[8] with ⟨bytesOut, _ | err⟩
      · rcases parseInt (fields (String.ofList part))[0] with ⟨bytesIn, _ | err⟩ <;> exact Option.some_ne_none _
      · exact Option.some_ne_none _

theorem getVitals_none_iff (newResult : PolledResult α) (prevResult : Option (PolledResult α)) :
    getVitals float64 newResult prevResult = none ↔ FewNumbers float64 newResult := by
  unfold getVitals FewNumbers
  dsimp only
  cases newResult.error with
  | some err => simp
  | none =>
    cases read : fields newResult.system.procLoadavg with
    | nil => simp
    | cons oneMin rest =>
      cases parsed : float64.parseFloat oneMin with
      | error err => simp [parsed]
      | ok oneMinAvg => simp [parsed, getNetVitals_none_iff]

end Vitals

/-- An answer is read without a panic exactly when the text goes on behind the interface and there are enough numbers. -/
theorem noCrash_iff {α : Type} (arith : Arith α) (float64 : FloatText α) {engine : Engine} (toData : ToData.TOData engine)
    (visit : String → List (engine.Expr × String)) (newResult : PolledResult α) (prevResult : Option (PolledResult α)) :
    (astatsPrecompute arith toData visit newResult.id newResult.ats newResult.system ≠ none ∧
        getVitals float64 newResult prevResult ≠ none) ↔
      ¬EndsWithInterface newResult.system.procNetDev newResult.system.infName ∧ ¬FewNumbers float64 newResult := by
  rw [Ne, Ne, astatsPrecompute_none_iff, getVitals_none_iff]

section Edge

def noRoutes : ToData.TOData pieceEngine :=
  ⟨fun _ => none, fun _ => none, fun _ => none, fun _ => none, ToData.Regexes.new, fun _ => none⟩

def answer (procNetDev : String) : PolledResult Int :=
  { id := "edge1", error := none, requestTime := 1000000, vitals := ⟨0, 0, 0⟩
    system := ⟨"bond0", 10000, procNetDev, "2 1 1 1/967 29536", 0, 0, 0, 0, 0, false⟩
    ats := ∅, available := true, range := fun thresholds => thresholds, range_perm := listed_perm
    time := 0, pollID := 0, bytesOut := 0, bytesIn := 0 }

/-- The text of one answer ends with the interface, and that of the other has two numbers. -/
theorem noCrash_short :
    astatsPrecompute wholeNumbers noRoutes (fun _ => []) "edge1" ∅ (answer "bond0").system = none ∧
      getVitals wholeText (answer "bond0:9 1") none = none := by
  decide

end Edge

end TrafficControl.TrafficMonitor.Astats
