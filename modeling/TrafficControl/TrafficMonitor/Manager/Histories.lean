import TrafficControl.TrafficMonitor.Health.Vitals

set_option autoImplicit false

namespace TrafficControl.TrafficMonitor

open MachineInt PrunedHistory

namespace ThreadsafeEvents

def new (maxEvents : Nat) : ThreadsafeEvents := ⟨[], 0, maxEvents⟩

/-- The events after all are added, and the indexes that these received. -/
def addAll : ThreadsafeEvents → List Event → Option (ThreadsafeEvents × List Nat)
  | this, [] => some (this, [])
  | this, e :: es => do
    let (last, indexes) ← addAll (← this.add e) es
    return (last, this.nextIndex :: indexes)

def indexed (e : Event) (index : Nat) : Event := { e with index }

def KeepsNewest (limit : Nat) (es : List Event) : Prop :=
  ∃ last indexes, (new limit).addAll es = some (last, indexes) ∧ indexes.length = es.length ∧
    last.events = (List.zipWith indexed es indexes).reverse.take limit ∧ indexes.Pairwise (· < ·)

-- A limit that no `int` holds is a panic at the first event, and an index is a `uint64`.
def Keeps (limit : Nat) (es : List Event) : Prop :=
  es = [] ∨ limit < 2 ^ 63 ∧ es.length ≤ 2 ^ 64 ∧ Whole limit es.length

instance (limit : Nat) (es : List Event) : Decidable (Keeps limit es) := inferInstanceAs (Decidable (_ ∨ _))

theorem add_eq {this : ThreadsafeEvents} (positive : 0 < this.max) (small : this.max < 2 ^ 63) (e : Event) :
    this.add e = some ⟨PrunedHistory.add this.max this.events (indexed e this.nextIndex),
      (this.nextIndex + 1) % 2 ^ 64, this.max⟩ := by
  have signed : wrap 64 this.max = this.max := wrap_eq ⟨by omega, by omega⟩
  unfold ThreadsafeEvents.add PrunedHistory.add prune indexed
  dsimp only
  rw [signed]
  split_ifs <;> simp_all <;> omega

theorem add_new_panics {limit : Nat} (large : 2 ^ 63 ≤ limit) (bound : limit < 2 ^ 64) (e : Event) :
    (new limit).add e = none := by
  have negative : wrap 64 limit < 0 := by
    have cast : (limit : Int).bmod (2 ^ 64) = limit - 2 ^ 64 := by
      rw [Int.bmod, if_neg (by omega)]
      omega
    rw [wrap, cast]
    omega
  unfold ThreadsafeEvents.add new
  dsimp only
  rw [if_pos (by omega), if_neg (by rw [List.length_singleton]; omega)]

def indexes (start n : Nat) : List Nat := (List.range n).map fun i => (start + i) % 2 ^ 64

theorem indexes_succ {start : Nat} (bound : start < 2 ^ 64) (n : Nat) :
    indexes start (n + 1) = start :: indexes ((start + 1) % 2 ^ 64) n := by
  unfold indexes
  rw [List.range_succ_eq_map, List.map_cons, List.map_map, Nat.add_zero, Nat.mod_eq_of_lt bound]
  congr 1
  refine List.map_congr_left fun i _ => ?_
  simp only [Function.comp_apply, Nat.mod_add_mod]
  congr 1
  omega

theorem indexes_increase_iff (n : Nat) : (indexes 0 n).Pairwise (· < ·) ↔ n ≤ 2 ^ 64 := by
  unfold indexes
  rw [List.pairwise_iff_getElem]
  simp only [List.length_map, List.length_range, List.getElem_map, List.getElem_range, Nat.zero_add]
  constructor
  · intro increase
    by_contra beyond
    have wrapped := increase 0 (2 ^ 64) (by omega) (by omega) (by omega)
    omega
  · intro bound i j _ within smaller
    rw [Nat.mod_eq_of_lt (by omega), Nat.mod_eq_of_lt (by omega)]
    exact smaller

theorem addAll_eq (es : List Event) (this : ThreadsafeEvents) (positive : 0 < this.max) (small : this.max < 2 ^ 63)
    (bound : this.nextIndex < 2 ^ 64) : ∃ last, this.addAll es = some (last, indexes this.nextIndex es.length) ∧
      last.events = (List.zipWith indexed es (indexes this.nextIndex es.length)).foldl (PrunedHistory.add this.max)
        this.events := by
  induction es generalizing this with
  | nil => exact ⟨this, rfl, rfl⟩
  | cons e es ih =>
    have added := add_eq positive small e
    obtain ⟨last, ran, events⟩ := ih ⟨_, (this.nextIndex + 1) % 2 ^ 64, this.max⟩ positive small (Nat.mod_lt _ (by omega))
    refine ⟨last, ?_, ?_⟩
    · rw [addAll, added]
      simp only [Option.bind_eq_bind, Option.bind_some]
      rw [ran, List.length_cons, indexes_succ bound]
      rfl
    · rw [events, List.length_cons, indexes_succ bound]
      rfl

/-- The newest events are kept just when the limit was last exceeded an even number of events ago. -/
theorem keepsNewest_iff {limit : Nat} (positive : 0 < limit) (bound : limit < 2 ^ 64) (es : List Event) :
    KeepsNewest limit es ↔ Keeps limit es := by
  cases es with
  | nil => exact iff_of_true ⟨new limit, [], rfl, rfl, by simp [new], List.Pairwise.nil⟩ (Or.inl rfl)
  | cons e es =>
    by_cases small : limit < 2 ^ 63
    · obtain ⟨last, ran, events⟩ := addAll_eq (e :: es) (new limit) positive small (Nat.two_pow_pos 64)
      have count : (indexes 0 (e :: es).length).length = (e :: es).length := by
        rw [indexes, List.length_map, List.length_range]
      have newest := foldl_add_newest positive (List.zipWith indexed (e :: es) (indexes 0 (e :: es).length))
      rw [List.length_zipWith, count, Nat.min_self] at newest
      constructor
      · rintro ⟨last', received, added, length, kept, increase⟩
        obtain ⟨rfl, rfl⟩ := Prod.mk.inj (Option.some.inj (ran.symm.trans added))
        exact Or.inr ⟨small, (indexes_increase_iff _).mp increase, newest.mp (events.symm.trans kept)⟩
      · rintro (empty | ⟨-, few, whole⟩)
        · cases empty
        · exact ⟨last, _, ran, count, events.trans (newest.mpr whole), (indexes_increase_iff _).mpr few⟩
    · refine iff_of_false ?_ ?_
      · rintro ⟨last, received, added, -⟩
        rw [addAll, add_new_panics (by omega) bound] at added
        cases added
      · rintro (empty | ⟨small', -⟩)
        · cases empty
        · exact small small'

end ThreadsafeEvents

theorem ResultInfoHistory.foldl_add_newest {α : Type} {limit : Nat} (positive : 0 < limit)
    (results : List (PolledResult α)) (name : String) :
    results.foldl (fun history r => ResultInfoHistory.add history r limit) (fun _ => []) name =
        ((results.filter fun r => r.id = name).map toInfo).reverse.take limit ↔
      Whole limit (results.filter fun r => r.id = name).length := by
  have keyed := foldl_addKeyed (fun r : PolledResult α => r.id) toInfo (fun _ => limit) (fun _ => []) results name
  have newest := PrunedHistory.foldl_add_newest positive ((results.filter fun r => r.id = name).map toInfo)
  rw [List.length_map, ← keyed] at newest
  exact newest

section Health

variable {α : Type} (float64 : FloatText α)

-- `historyCount` is that of a profile. One that is missing is the zero value, as a missing server is.
def maxHistory (historyCount : String → Int) (mc : TrafficMonitorConfigMap α) (id : String) : Nat :=
  let count := historyCount ((mc.trafficServer id).elim "" (·.profile))
  let maxHistory := (count % 2 ^ 64).toNat
  if maxHistory < 1 then 1 else maxHistory

-- One turn of the loop of `processHealthResult`, with the results that the loop has set.
def addHealthResult (historyCount : String → Int) (mc : TrafficMonitorConfigMap α)
    (state : ResultHistory α × List (PolledResult α)) (healthResult : PolledResult α) :
    Option (ResultHistory α × List (PolledResult α)) :=
  let healthResultHistory := state.1 healthResult.id
  let withVitals :=
    if healthResult.error = none then getVitals float64 healthResult healthResultHistory.getLast? else some healthResult
  withVitals.map fun healthResult =>
    let history := pruneHistory (healthResult :: healthResultHistory) (maxHistory historyCount mc healthResult.id)
    (Function.update state.1 healthResult.id history, state.2 ++ [healthResult])

-- `CalcAvailability` is called with the results before the history is set.
def processHealthResult (historyCount : String → Int) (mc : TrafficMonitorConfigMap α) (healthHistory : ResultHistory α)
    (results : List (PolledResult α)) : Option (ResultHistory α × List (PolledResult α)) :=
  results.foldlM (addHealthResult float64 historyCount mc) (healthHistory, [])

/-- The history after the manager has processed one list of results after the other, and what was added. -/
def processAll (historyCount : String → Int) (mc : TrafficMonitorConfigMap α) :
    ResultHistory α → List (List (PolledResult α)) → Option (ResultHistory α × List (PolledResult α))
  | healthHistory, [] => some (healthHistory, [])
  | healthHistory, results :: rest => do
    let (healthHistory, processed) ← processHealthResult float64 historyCount mc healthHistory results
    let (last, added) ← processAll historyCount mc healthHistory rest
    return (last, processed ++ added)

variable {historyCount : String → Int} {mc : TrafficMonitorConfigMap α}

theorem maxHistory_pos (id : String) : 0 < maxHistory historyCount mc id := by
  unfold maxHistory
  dsimp only
  split_ifs <;> omega

abbrev addResult (historyCount : String → Int) (mc : TrafficMonitorConfigMap α) :
    ResultHistory α → PolledResult α → ResultHistory α :=
  addKeyed (fun r => r.id) (fun r => r) (maxHistory historyCount mc)

theorem addHealthResult_eq {state after : ResultHistory α × List (PolledResult α)} {healthResult : PolledResult α}
    (added : addHealthResult float64 historyCount mc state healthResult = some after) :
    ∃ result, result.id = healthResult.id ∧
      after = (addResult historyCount mc state.1 result, state.2 ++ [result]) := by
  obtain ⟨result, got, rfl⟩ := Option.map_eq_some_iff.mp added
  have same : result.id = healthResult.id := by
    split_ifs at got
    · exact getVitals_id float64 got
    · exact Option.some.inj got ▸ rfl
  refine ⟨result, same, ?_⟩
  simp only [addResult, addKeyed, same]
  rfl

theorem processHealthResult_eq {start last : ResultHistory α} {results processed : List (PolledResult α)}
    (ran : processHealthResult float64 historyCount mc start results = some (last, processed)) :
    last = processed.foldl (addResult historyCount mc) start ∧
      processed.map (fun r => r.id) = results.map fun r => r.id := by
  suffices law : ∀ state : ResultHistory α × List (PolledResult α),
      state.1 = state.2.foldl (addResult historyCount mc) start →
      results.foldlM (addHealthResult float64 historyCount mc) state = some (last, processed) →
      last = processed.foldl (addResult historyCount mc) start ∧
        processed.map (fun r => r.id) = (state.2 ++ results).map fun r => r.id from law _ rfl ran
  clear ran
  induction results with
  | nil =>
    intro state so_far ran
    obtain rfl := Option.some.inj ran
    exact ⟨so_far, by rw [List.append_nil]⟩
  | cons r results ih =>
    intro state so_far ran
    obtain ⟨after, added, rest⟩ := Option.bind_eq_some_iff.mp ran
    obtain ⟨result, same, rfl⟩ := addHealthResult_eq float64 added
    obtain ⟨history, ids⟩ := ih _ (by rw [List.foldl_append, ← so_far]; rfl) rest
    refine ⟨history, ids.trans ?_⟩
    simp [same]

theorem processAll_eq {start last : ResultHistory α} {batches : List (List (PolledResult α))}
    {added : List (PolledResult α)} (ran : processAll float64 historyCount mc start batches = some (last, added)) :
    last = added.foldl (addResult historyCount mc) start ∧
      added.map (fun r => r.id) = batches.flatten.map fun r => r.id := by
  induction batches generalizing start added with
  | nil =>
    obtain ⟨rfl, rfl⟩ := Prod.mk.inj (Option.some.inj ran)
    exact ⟨rfl, rfl⟩
  | cons results rest ih =>
    obtain ⟨⟨next, processed⟩, here, ran⟩ := Option.bind_eq_some_iff.mp ran
    obtain ⟨⟨last', added'⟩, later, returned⟩ := Option.bind_eq_some_iff.mp ran
    obtain ⟨rfl, rfl⟩ := Prod.mk.inj (Option.some.inj returned)
    obtain ⟨history, ids⟩ := processHealthResult_eq float64 here
    obtain ⟨histories, rest_ids⟩ := ih later
    refine ⟨by rw [List.foldl_append, ← history]; exact histories, ?_⟩
    rw [List.map_append, ids, rest_ids, List.flatten_cons, List.map_append]

theorem length_filter_id {first second : List (PolledResult α)}
    (ids : first.map (fun r => r.id) = second.map fun r => r.id) (name : String) :
    (first.filter fun r => r.id = name).length = (second.filter fun r => r.id = name).length := by
  have counted := congrArg (List.countP (· = name)) ids
  rw [List.countP_map, List.countP_map] at counted
  rw [← List.countP_eq_length_filter, ← List.countP_eq_length_filter]
  exact counted

theorem processAll_newest {last : ResultHistory α} {batches : List (List (PolledResult α))}
    {added : List (PolledResult α)} (name : String)
    (ran : processAll float64 historyCount mc (fun _ => []) batches = some (last, added)) :
    last name = (added.filter fun r => r.id = name).reverse.take (maxHistory historyCount mc name) ↔
      Whole (maxHistory historyCount mc name) (batches.flatten.filter fun r => r.id = name).length := by
  obtain ⟨history, ids⟩ := processAll_eq float64 ran
  have keyed := foldl_addKeyed (fun r : PolledResult α => r.id) (fun r => r) (maxHistory historyCount mc)
    (fun _ => []) added name
  have positive : 0 < maxHistory historyCount mc name := maxHistory_pos name
  have newest := foldl_add_newest positive (added.filter fun r => r.id = name)
  rw [List.map_id', ← history] at keyed
  rw [← keyed, length_filter_id ids name] at newest
  exact newest

end Health

/-- Each history holds the newest of what was added, as many as its limit allows, just when the limit
was last exceeded an even number of additions ago. -/
theorem histories_newest_iff {α : Type} {limit : Nat} (positive : 0 < limit) (bound : limit < 2 ^ 64) :
    (∀ es, ThreadsafeEvents.KeepsNewest limit es ↔ ThreadsafeEvents.Keeps limit es) ∧
    (∀ (results : List (PolledResult α)) (name : String),
      results.foldl (fun history r => ResultInfoHistory.add history r limit) (fun _ => []) name =
          ((results.filter fun r => r.id = name).map toInfo).reverse.take limit ↔
        Whole limit (results.filter fun r => r.id = name).length) ∧
    ∀ (float64 : FloatText α) (historyCount : String → Int) (mc : TrafficMonitorConfigMap α)
      (batches : List (List (PolledResult α))) (last : ResultHistory α) (added : List (PolledResult α)) (name : String),
      processAll float64 historyCount mc (fun _ => []) batches = some (last, added) →
      maxHistory historyCount mc name = limit →
      (last name = (added.filter fun r => r.id = name).reverse.take limit ↔
        Whole limit (batches.flatten.filter fun r => r.id = name).length) := by
  refine ⟨ThreadsafeEvents.keepsNewest_iff positive bound, ResultInfoHistory.foldl_add_newest positive, ?_⟩
  rintro float64 historyCount mc batches last added name ran rfl
  exact processAll_newest float64 name ran

section Edge

-- A number whose text is a whole one.
def wholeText : FloatText Int :=
  { ofInt := fun n => n, div := Int.tdiv, toInt := fun n => n, quote := fun s => "\"" ++ s ++ "\""
    parseFloat := fun s => match parseInt s with
      | (n, none) => .ok n
      | (_, some err) => .error ("strconv.ParseFloat: parsing \"" ++ s ++ "\": " ++ err.error) }

def available : Event := ⟨0, "REPORTED - available", "edge1", "edge1", .EDGE, true⟩

def healthPoll (pollID : Nat) : PolledResult Int :=
  { id := "edge1", error := none, requestTime := 1000000, vitals := ⟨0, 0, 0⟩
    system := ⟨"bond0", 10000, "bond0:9 1 0 0 0 0 0 0 8 1 0 0 0 0 0 0", "2 1 1 1/967 29536", 0, 0, 0, 0, 0, false⟩
    ats := ∅, available := true, range := fun thresholds => thresholds, range_perm := listed_perm
    time := pollID, pollID, bytesOut := 0, bytesIn := 0 }

def edges : TrafficMonitorConfigMap Int := ⟨fun _ => some ⟨"EDGE", "REPORTED"⟩, fun _ => none⟩

-- The polls of one edge, two to a list.
def healthHistory (limit : Nat) (batches : Nat) : Option (ResultHistory Int × List (PolledResult Int)) :=
  processAll wholeText (fun _ => limit) edges (fun _ => [])
    ((List.range batches).map fun i => [healthPoll (2 * i), healthPoll (2 * i + 1)])

/-- A limit of two has been reached again after four additions. -/
theorem histories_newest_four :
    ThreadsafeEvents.KeepsNewest 2 (List.replicate 4 available) ∧
    ([healthPoll 0, healthPoll 1, healthPoll 2, healthPoll 3].foldl (fun history r => ResultInfoHistory.add history r 2)
      (fun _ => [])) "edge1" = [toInfo (healthPoll 3), toInfo (healthPoll 2)] ∧
    ∃ last added, healthHistory 2 2 = some (last, added) ∧ last "edge1" = added.reverse.take 2 := by
  obtain ⟨events, infos, results⟩ := histories_newest_iff (α := Int) (by decide : 0 < 2) (by decide)
  refine ⟨(events _).mpr (by decide), ?_, ?_⟩
  · exact (infos [healthPoll 0, healthPoll 1, healthPoll 2, healthPoll 3] "edge1").mpr (by decide)
  · have ran : healthHistory 2 2 = some (_, _) := rfl
    have newest := (results wholeText (fun _ => 2) edges [[healthPoll 0, healthPoll 1], [healthPoll 2, healthPoll 3]]
      _ _ "edge1" ran rfl).mpr (by decide)
    exact ⟨_, _, ran, newest⟩

/-- The second addition empties a history of one, and the third leaves one entry in a history of two. -/
theorem histories_lose :
    (¬ThreadsafeEvents.KeepsNewest 1 (List.replicate 2 available) ∧
      ¬ThreadsafeEvents.KeepsNewest 2 (List.replicate 3 available)) ∧
    ([healthPoll 0, healthPoll 1].foldl (fun history r => ResultInfoHistory.add history r 1) (fun _ => [])) "edge1" = [] ∧
    ∃ last added, healthHistory 1 1 = some (last, added) ∧ last "edge1" = [] ∧ added.length = 2 := by
  refine ⟨⟨?_, ?_⟩, rfl, _, _, rfl, rfl, rfl⟩
  · rintro ⟨last, indexes, ran, -, kept, -⟩
    have added : (ThreadsafeEvents.new 1).addAll (List.replicate 2 available) = some (⟨[], 2, 1⟩, [0, 1]) := by decide
    obtain ⟨rfl, rfl⟩ := Prod.mk.inj (Option.some.inj (added.symm.trans ran))
    exact absurd kept (by decide)
  · rintro ⟨last, indexes, ran, -, kept, -⟩
    have added : (ThreadsafeEvents.new 2).addAll (List.replicate 3 available) =
        some (⟨[ThreadsafeEvents.indexed available 2], 3, 2⟩, [0, 1, 2]) := by decide
    obtain ⟨rfl, rfl⟩ := Prod.mk.inj (Option.some.inj (added.symm.trans ran))
    exact absurd kept (by decide)

end Edge

end TrafficControl.TrafficMonitor
