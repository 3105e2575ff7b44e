import TrafficControl.TrafficMonitor.Cache.Data

set_option autoImplicit false

namespace TrafficControl.TrafficMonitor.ResultStatHistory

open RunLength

variable {α : Type}

-- What was polled of a stat of a cache, oldest first.
def polled (results : List (PolledResult α)) (id statName : String) : List (Value α) :=
  results.filterMap fun r => if r.id = id then r.ats.lookup statName else none

/-- The entries of a history without their times. -/
def spans (statHistory : List (ResultStatVal α)) : List (Value α × Nat) :=
  statHistory.map fun entry => (entry.val, entry.span)

def Primitive (statHistory : List (ResultStatVal α)) : Prop := ∀ entry ∈ statHistory, entry.val.primitive = true

theorem setStat_same (this : ResultStatHistory α) (id statName : String) (history : List (ResultStatVal α)) :
    (this.setStat id statName history).statHistory id statName = some history := by
  simp [setStat, statHistory]

theorem setStat_other (this : ResultStatHistory α) {id statName other otherStat : String}
    (history : List (ResultStatVal α)) (apart : ¬(id = other ∧ statName = otherStat)) :
    (this.setStat other otherStat history).statHistory id statName = this.statHistory id statName := by
  unfold setStat statHistory
  by_cases same : id = other
  · subst same
    rw [Function.update_self, Option.bind_some, Function.update_of_ne fun stat => apart ⟨rfl, stat⟩]
    cases this id <;> rfl
  · rw [Function.update_of_ne same]

variable [DecidableEq α] (typeName : Value α → String)

-- A poll that is left out leaves the history as it was.
def poll (r : PolledResult α) (limit : Nat) (statHistory : List (ResultStatVal α)) (statVal : Value α) :
    List (ResultStatVal α) :=
  match addStat typeName r limit statHistory statVal with
  | .error _ => statHistory
  | .ok added => added

theorem addEntry_eq (r : PolledResult α) (limit : Nat) (state : ResultStatHistory α × String)
    (entry : Sigma fun _ : String => Value α) : (addEntry typeName r limit state entry).1 =
      state.1.setStat r.id entry.1 (poll typeName r limit ((state.1.statHistory r.id entry.1).getD []) entry.2) := by
  unfold addEntry poll
  dsimp only
  cases addStat typeName r limit ((state.1.statHistory r.id entry.1).getD []) entry.2 <;> rfl

/-- The loop over the stats of a result records each of them once. -/
theorem foldl_addEntry (r : PolledResult α) (limit : Nat) {entries : List (Sigma fun _ : String => Value α)}
    (distinct : entries.NodupKeys) (state : ResultStatHistory α × String) (id statName : String) :
    (entries.foldl (addEntry typeName r limit) state).1.statHistory id statName =
      match if r.id = id then entries.dlookup statName else none with
      | none => state.1.statHistory id statName
      | some statVal => some (poll typeName r limit ((state.1.statHistory id statName).getD []) statVal) := by
  induction entries generalizing state with
  | nil => split_ifs <;> rfl
  | cons entry entries ih =>
    obtain ⟨absent, distinct⟩ := List.nodupKeys_cons.mp distinct
    rw [List.foldl_cons, ih distinct, addEntry_eq]
    by_cases own : r.id = id
    · subst own
      rw [if_pos rfl, if_pos rfl]
      by_cases here : statName = entry.1
      · subst here
        rw [List.dlookup_eq_none.mpr absent, List.dlookup_cons_eq]
        exact setStat_same _ _ _ _
      · rw [List.dlookup_cons_ne _ _ here, setStat_other _ _ fun both => here both.2]
    · rw [if_neg own, if_neg own]
      exact setStat_other _ _ fun both => own both.1.symm

theorem add_statHistory (this : ResultStatHistory α) (r : PolledResult α) (limit : Nat) (id statName : String) :
    (this.add typeName r limit).1.statHistory id statName =
      match if r.id = id then r.ats.lookup statName else none with
      | none => this.statHistory id statName
      | some statVal => some (poll typeName r limit ((this.statHistory id statName).getD []) statVal) :=
  foldl_addEntry typeName r limit r.ats.nodupKeys (this, "") id statName

/-- A primitive value is recorded in the run-length encoding. -/
theorem spans_poll (r : PolledResult α) (limit : Nat) {history : List (ResultStatVal α)} (primitive : Primitive history)
    {statVal : Value α} (own : statVal.primitive = true) :
    spans (poll typeName r limit history statVal) = record limit (spans history) statVal ∧
      Primitive (poll typeName r limit history statVal) := by
  have pruned : Primitive (pruneStats (⟨statVal, r.time, 1⟩ :: history) limit) := by
    intro entry member
    unfold pruneStats PrunedHistory.prune at member
    have listed : entry ∈ (⟨statVal, r.time, 1⟩ : ResultStatVal α) :: history := by
      split_ifs at member
      · exact List.mem_of_mem_take member
      · exact member
    rcases List.mem_cons.mp listed with rfl | earlier
    · exact own
    · exact primitive entry earlier
  have mapped : spans (pruneStats (⟨statVal, r.time, 1⟩ :: history) limit) =
      PrunedHistory.prune limit ((statVal, 1) :: spans history) := by
    unfold spans pruneStats PrunedHistory.prune
    simp only [List.length_cons, List.length_map]
    split_ifs
    · rw [List.map_take]
      rfl
    · rfl
  cases history with
  | nil => exact ⟨mapped, pruned⟩
  | cons newest rest =>
    have first := primitive newest List.mem_cons_self
    unfold poll addStat newStatEqual
    simp only [own, first, Bool.not_true, Bool.false_eq_true, if_false, Except.map]
    by_cases same : statVal = newest.val
    · simp only [same, decide_true]
      refine ⟨(if_pos rfl).symm, fun entry member => ?_⟩
      rcases List.mem_cons.mp member with rfl | earlier
      · exact first
      · exact primitive entry (List.mem_cons_of_mem _ earlier)
    · simp only [same, decide_false]
      exact ⟨mapped.trans (if_neg same).symm, pruned⟩

theorem addAll_spans (limit : Nat) (results : List (PolledResult α)) (id statName : String)
    (primitive : ∀ statVal ∈ polled results id statName, statVal.primitive = true) :
    spans (((addAll typeName (fun _ => none) results limit).statHistory id statName).getD []) =
        (polled results id statName).foldl (record limit) [] ∧
      Primitive (((addAll typeName (fun _ => none) results limit).statHistory id statName).getD []) := by
  induction results using List.reverseRecOn with
  | nil => exact ⟨rfl, fun entry member => absurd member List.not_mem_nil⟩
  | append_singleton results r ih =>
    have earlier := ih fun statVal member => primitive statVal (by
      unfold polled
      rw [List.filterMap_append]
      exact List.mem_append_left _ member)
    have step := add_statHistory typeName (addAll typeName (fun _ => none) results limit) r limit id statName
    unfold addAll polled at *
    rw [List.foldl_append, List.filterMap_append]
    simp only [List.foldl_cons, List.foldl_nil, List.filterMap_cons, List.filterMap_nil] at step ⊢
    rw [step]
    cases value : (if r.id = id then r.ats.lookup statName else none) with
    | none => simpa using earlier
    | some statVal =>
      have own : statVal.primitive = true := primitive statVal (by simp [value])
      have recorded := spans_poll typeName r limit earlier.2 own
      rw [earlier.1] at recorded
      simpa using recorded

/-- The history of a stat is the bounded run-length encoding of what was polled just when no run that
the limit allows has been cut off. -/
theorem statHistory_encodes_iff {limit : Nat} (positive : 0 < limit) (results : List (PolledResult α))
    (id statName : String) (primitive : ∀ statVal ∈ polled results id statName, statVal.primitive = true) :
    Encodes limit (polled results id statName)
        (spans (((addAll typeName (fun _ => none) results limit).statHistory id statName).getD [])) ↔
      Keeps limit (polled results id statName) := by
  rw [(addAll_spans typeName limit results id statName primitive).1]
  exact encodes_iff positive _

section Connections

-- A poll of one edge with its number of connections.
def connections (value : Int) : PolledResult Int :=
  { id := "edge1", error := none, requestTime := 1000000, vitals := ⟨0, 0, 10000000⟩
    system := ⟨"bond0", 10000, "", "", 0, 0, 0, 0, 0, false⟩
    ats := AList.singleton "current_client_connections" (.float value), available := true
    range := fun thresholds => thresholds, range_perm := listed_perm, time := 0, pollID := 0
    bytesOut := 0, bytesIn := 0 }

def connectionHistory (limit : Nat) (values : List Int) : List (ResultStatVal Int) :=
  ((addAll (fun _ => "float64") (fun _ => none) (values.map connections) limit).statHistory
    "edge1" "current_client_connections").getD []

theorem polled_connections (values : List Int) :
    polled (values.map connections) "edge1" "current_client_connections" = values.map .float := by
  induction values with
  | nil => rfl
  | cons value values ih =>
    unfold polled at ih ⊢
    rw [List.map_cons, List.filterMap_cons, ih]
    rfl

theorem statHistory_encodes_connections :
    Encodes 2 ([.float 7, .float 7, .float 8] : List (Value Int)) (spans (connectionHistory 2 [7, 7, 8])) := by
  have law := statHistory_encodes_iff (fun _ : Value Int => "float64") (by decide : 0 < 2)
    ([7, 7, 8].map connections) "edge1" "current_client_connections" (by
      rw [polled_connections]
      decide)
  rw [polled_connections] at law
  exact law.mpr (by decide)

/-- The second of two values empties a history of one, and the third of three leaves one entry in a
history of two. -/
theorem statHistory_loses :
    (connectionHistory 1 [7, 8] = [] ∧
      ¬Encodes 1 ([.float 7, .float 8] : List (Value Int)) (spans (connectionHistory 1 [7, 8]))) ∧
    ((connectionHistory 2 [7, 8, 9]).length = 1 ∧
      ¬Encodes 2 ([.float 7, .float 8, .float 9] : List (Value Int)) (spans (connectionHistory 2 [7, 8, 9]))) := by
  refine ⟨⟨rfl, fun encodes => ?_⟩, rfl, fun encodes => ?_⟩
  · have length : 0 = 1 := encodes.length
    cases length
  · have length : 1 = 2 := encodes.length
    cases length

end Connections

end TrafficControl.TrafficMonitor.ResultStatHistory
