set_option autoImplicit false

universe u v

namespace Runs

variable {σ : Type u} {ε : Type v} (step : σ → ε → Option σ)

/-- Runs of a system whose steps are partial functions of the state and an event. -/
def run : σ → List ε → Option σ
  | s, [] => some s
  | s, event :: events => (step s event).bind fun s' => run s' events

/-- Every step the run takes starts in a state where the condition holds of the event. -/
def Throughout (condition : σ → ε → Prop) : σ → List ε → Prop
  | _, [] => True
  | s, event :: events => condition s event ∧ ∀ s', step s event = some s' → Throughout condition s' events

instance decidableThroughout (condition : σ → ε → Prop) [∀ s event, Decidable (condition s event)] :
    ∀ s events, Decidable (Throughout step condition s events)
  | _, [] => isTrue trivial
  | s, event :: events =>
    match stepped : step s event with
    | none => decidable_of_iff (condition s event) (by simp [Throughout, stepped])
    | some s' =>
      have := decidableThroughout condition s' events
      decidable_of_iff (condition s event ∧ Throughout step condition s' events) (by simp [Throughout, stepped])

variable {step}

theorem run_cons {s t : σ} {event : ε} {events : List ε} (ran : run step s (event :: events) = some t) :
    ∃ s', step s event = some s' ∧ run step s' events = some t :=
  Option.bind_eq_some_iff.mp ran

theorem run_append (s : σ) (first second : List ε) :
    run step s (first ++ second) = (run step s first).bind fun t => run step t second := by
  induction first generalizing s with
  | nil => rfl
  | cons event rest ih =>
    rw [List.cons_append, run, run, Option.bind_assoc]
    exact congrArg _ (funext fun s' => ih s')

theorem throughout_append {condition : σ → ε → Prop} {s : σ} {first second : List ε} :
    Throughout step condition s (first ++ second) ↔ Throughout step condition s first ∧
      ∀ t, run step s first = some t → Throughout step condition t second := by
  induction first generalizing s with
  | nil => simp [Throughout, run]
  | cons event rest ih =>
    simp only [List.cons_append, Throughout, run, ih, Option.bind_eq_some_iff]
    constructor
    · rintro ⟨here, later⟩
      exact ⟨⟨here, fun s' stepped => (later s' stepped).1⟩, fun t ⟨s', stepped, ran⟩ => (later s' stepped).2 t ran⟩
    · rintro ⟨⟨here, later⟩, after⟩
      exact ⟨here, fun s' stepped => ⟨later s' stepped, fun t ran => after t ⟨s', stepped, ran⟩⟩⟩

theorem throughout_of_forall {allowed : ε → Prop} {events : List ε} (all : ∀ event ∈ events, allowed event) (s : σ) :
    Throughout step (fun _ => allowed) s events := by
  induction events generalizing s with
  | nil => trivial
  | cons event events ih =>
    exact ⟨all event List.mem_cons_self, fun s' _ => ih (fun other member => all other (List.mem_cons_of_mem _ member)) s'⟩

theorem throughout_of_splits {condition : σ → ε → Prop} {s : σ} {events : List ε}
    (splits : ∀ past event future, events = past ++ event :: future → ∀ t, run step s past = some t → condition t event) :
    Throughout step condition s events := by
  induction events generalizing s with
  | nil => trivial
  | cons event events ih =>
    refine ⟨splits [] event events rfl s rfl, fun s' stepped => ih fun past later future split t ran => ?_⟩
    refine splits (event :: past) later future (congrArg _ split) t ?_
    rw [run, stepped]
    exact ran

theorem run_invariant {invariant : σ → Prop} {condition : σ → ε → Prop}
    (kept : ∀ s event s', invariant s → condition s event → step s event = some s' → invariant s')
    {s t : σ} {events : List ε} (holds : invariant s) (throughout : Throughout step condition s events)
    (ran : run step s events = some t) : invariant t := by
  induction events generalizing s with
  | nil => exact Option.some.inj ran ▸ holds
  | cons event events ih =>
    obtain ⟨s', stepped, rest⟩ := run_cons ran
    exact ih (kept s event s' holds throughout.1 stepped) (throughout.2 s' stepped) rest

theorem run_induction {invariant : σ → Prop} (kept : ∀ s event s', invariant s → step s event = some s' → invariant s')
    {s t : σ} {events : List ε} (holds : invariant s) (ran : run step s events = some t) : invariant t := by
  induction events generalizing s with
  | nil => exact Option.some.inj ran ▸ holds
  | cons event events ih =>
    obtain ⟨s', stepped, rest⟩ := run_cons ran
    exact ih (kept s event s' holds stepped) rest

theorem run_eq_foldlM (s : σ) (events : List ε) : run step s events = events.foldlM step s := by
  induction events generalizing s with
  | nil => rfl
  | cons event events ih => exact congrArg _ (funext ih)

/-- The invariant may speak of the events so far. -/
theorem run_history {invariant : List ε → σ → Prop} {condition : σ → ε → Prop}
    (kept : ∀ past s event s', invariant past s → condition s event → step s event = some s' →
      invariant (past ++ [event]) s')
    {past events : List ε} {s t : σ} (holds : invariant past s) (throughout : Throughout step condition s events)
    (ran : run step s events = some t) : invariant (past ++ events) t := by
  induction events generalizing past s with
  | nil =>
    obtain rfl := Option.some.inj ran
    simpa using holds
  | cons event events ih =>
    obtain ⟨s', stepped, rest⟩ := run_cons ran
    have later := ih (kept past s event s' holds throughout.1 stepped) (throughout.2 s' stepped) rest
    simpa using later

/-- Two conditions that agree in the states of an invariant agree throughout a run. -/
theorem throughout_iff {invariant : σ → Prop} {first second : σ → ε → Prop}
    (kept : ∀ s event s', invariant s → step s event = some s' → invariant s')
    (agree : ∀ s event, invariant s → (first s event ↔ second s event)) {s : σ} (holds : invariant s)
    (events : List ε) : Throughout step first s events ↔ Throughout step second s events := by
  induction events generalizing s with
  | nil => exact Iff.rfl
  | cons event events ih =>
    refine and_congr (agree s event holds) (forall_congr' fun s' => ?_)
    exact forall_congr' fun stepped => ih (kept s event s' holds stepped)

theorem throughout_congr {first second : σ → ε → Prop} (agree : ∀ s event, first s event ↔ second s event) (s : σ)
    (events : List ε) : Throughout step first s events ↔ Throughout step second s events := by
  have same : first = second := funext fun s => funext fun event => propext (agree s event)
  rw [same]

theorem throughout_and {first second : σ → ε → Prop} {s : σ} {events : List ε} :
    Throughout step (fun s event => first s event ∧ second s event) s events ↔
      Throughout step first s events ∧ Throughout step second s events := by
  induction events generalizing s with
  | nil => simp [Throughout]
  | cons event events ih =>
    simp only [Throughout, ih]
    constructor
    · rintro ⟨⟨one, two⟩, later⟩
      exact ⟨⟨one, fun s' stepped => (later s' stepped).1⟩, two, fun s' stepped => (later s' stepped).2⟩
    · rintro ⟨⟨one, laterOne⟩, two, laterTwo⟩
      exact ⟨⟨one, two⟩, fun s' stepped => ⟨laterOne s' stepped, laterTwo s' stepped⟩⟩

/-- Every state that the run passes through is good. -/
def Always (step : σ → ε → Option σ) (good : σ → Prop) : σ → List ε → Prop
  | s, [] => good s
  | s, event :: events => good s ∧ ∀ s', step s event = some s' → Always step good s' events

theorem always_iff {good : σ → Prop} {s : σ} {events : List ε} : Always step good s events ↔
    ∀ past future t, events = past ++ future → run step s past = some t → good t := by
  induction events generalizing s with
  | nil =>
    constructor
    · intro holds past future t split ran
      obtain ⟨rfl, -⟩ := List.append_eq_nil_iff.mp split.symm
      exact Option.some.inj ran ▸ holds
    · exact fun reached => reached [] [] s rfl rfl
  | cons event events ih =>
    constructor
    · rintro ⟨here, later⟩ past future t split ran
      cases past with
      | nil => exact Option.some.inj ran ▸ here
      | cons first past =>
        obtain ⟨rfl, rest⟩ := List.cons.inj split
        obtain ⟨s', stepped, ran⟩ := run_cons ran
        exact ih.mp (later s' stepped) past future t rest ran
    · intro reached
      refine ⟨reached [] (event :: events) s rfl rfl, fun s' stepped => ih.mpr fun past future t split ran => ?_⟩
      refine reached (event :: past) future t (congrArg _ split) ?_
      rw [run, stepped]
      exact ran

theorem always_of_invariant {invariant good : σ → Prop} {condition : σ → ε → Prop}
    (kept : ∀ s event s', invariant s → condition s event → step s event = some s' → invariant s')
    (enough : ∀ s, invariant s → good s) {s : σ} (holds : invariant s) {events : List ε}
    (throughout : Throughout step condition s events) : Always step good s events := by
  induction events generalizing s with
  | nil => exact enough s holds
  | cons event events ih =>
    refine ⟨enough s holds, fun s' stepped => ?_⟩
    exact ih (kept s event s' holds throughout.1 stepped) (throughout.2 s' stepped)

theorem run_isSome {invariant : σ → Prop} {condition : σ → ε → Prop}
    (kept : ∀ s event s', invariant s → condition s event → step s event = some s' → invariant s')
    (progress : ∀ s event, invariant s → condition s event → (step s event).isSome = true) {s : σ} (holds : invariant s)
    {events : List ε} (throughout : Throughout step condition s events) : (run step s events).isSome = true := by
  induction events generalizing s with
  | nil => rfl
  | cons event events ih =>
    obtain ⟨s', stepped⟩ := Option.isSome_iff_exists.mp (progress s event holds throughout.1)
    rw [run, stepped]
    exact ih (kept s event s' holds throughout.1 stepped) (throughout.2 s' stepped)

/-- Where a condition says exactly when a step leaves a good state good, it says so of whole runs. -/
theorem always_iff_throughout {invariant good : σ → Prop} {condition : σ → ε → Prop}
    (kept : ∀ s event s', invariant s → step s event = some s' → invariant s')
    (exact : ∀ s event s', invariant s → good s → step s event = some s' → (good s' ↔ condition s event))
    (blocked : ∀ s event, step s event = none → condition s event)
    {s : σ} (holds : invariant s) (starts : good s) (events : List ε) :
    Always step good s events ↔ Throughout step condition s events := by
  induction events generalizing s with
  | nil => exact ⟨fun _ => trivial, fun _ => starts⟩
  | cons event events ih =>
    cases stepped : step s event with
    | none => simp [Always, Throughout, stepped, starts, blocked s event stepped]
    | some s' =>
      have here := exact s event s' holds starts stepped
      have later := kept s event s' holds stepped
      simp only [Always, Throughout, stepped, Option.some.injEq, forall_eq', starts, true_and]
      constructor
      · intro always
        have next : good s' := by
          cases events with
          | nil => exact always
          | cons _ _ => exact always.1
        exact ⟨here.mp next, (ih later next).mp always⟩
      · rintro ⟨condition, throughout⟩
        have next := here.mpr condition
        exact (ih later next).mpr throughout

theorem always_iff_of_steps {good : σ → Prop} {condition : σ → ε → Prop}
    (exact : ∀ s event s', good s → step s event = some s' → (good s' ↔ condition s event))
    (blocked : ∀ s event, step s event = none → condition s event) {s : σ} (starts : good s) (events : List ε) :
    Always step good s events ↔ Throughout step condition s events := by
  have kept : ∀ s event s', True → step s event = some s' → True := fun _ _ _ _ _ => trivial
  exact always_iff_throughout kept (fun s event s' _ => exact s event s') blocked trivial starts events

/-- The same for a run that is never blocked. -/
theorem always_iff_of_run {good : σ → Prop} {condition : σ → ε → Prop}
    (exact : ∀ s event s', good s → step s event = some s' → (good s' ↔ condition s event)) {s t : σ} (starts : good s)
    {events : List ε} (ran : run step s events = some t) :
    Always step good s events ↔ Throughout step condition s events := by
  induction events generalizing s with
  | nil => exact ⟨fun _ => trivial, fun _ => starts⟩
  | cons event events ih =>
    obtain ⟨s', stepped, rest⟩ := run_cons ran
    have here := exact s event s' starts stepped
    simp only [Always, Throughout, stepped, Option.some.injEq, forall_eq', starts, true_and]
    constructor
    · intro always
      have next : good s' := (always_iff.mp always) [] events s' rfl rfl
      exact ⟨here.mp next, (ih next rest).mp always⟩
    · rintro ⟨condition, throughout⟩
      exact (ih (here.mpr condition) rest).mpr throughout

end Runs
