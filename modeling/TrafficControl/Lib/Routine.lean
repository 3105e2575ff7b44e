set_option autoImplicit false

/-- Code that reads and writes a state and may throw; a throw keeps the writes made so far. -/
abbrev Routine (ε σ : Type) := ExceptT ε (StateM σ)

namespace Routine

variable {ε σ α β : Type}

def outcome (routine : Routine ε σ α) (s : σ) : Except ε α × σ := routine s

def readState : Routine ε σ σ := fun s => (.ok s, s)

def modifyState (change : σ → σ) : Routine ε σ Unit := fun s => (.ok (), change s)

def lift (value : Except ε α) : Routine ε σ α := fun s => (value, s)

/-- The routine with other exceptions in place of its own. -/
def adapt {δ : Type} (wrap : ε → δ) (routine : Routine ε σ α) : Routine δ σ α :=
  fun s => ((outcome routine s).1.mapError wrap, (outcome routine s).2)

/-- `try … catch` for the exceptions that satisfy `caught`; the others pass. -/
def recover (routine : Routine ε σ α) (caught : ε → Bool) (handler : Routine ε σ α) : Routine ε σ α :=
  fun s => match outcome routine s with
    | (.ok a, s') => (.ok a, s')
    | (.error e, s') => if caught e then outcome handler s' else (.error e, s')

/-- Run from `s`, the routine either returns with the postcondition or throws in a state that
satisfies `thrown`. -/
def Ensures (routine : Routine ε σ α) (s : σ) (thrown : σ → Prop) (post : α → σ → Prop) : Prop :=
  match outcome routine s with
  | (.ok a, s') => post a s'
  | (.error _, s') => thrown s'

variable {s : σ} {thrown : σ → Prop} {post : α → σ → Prop} {routine : Routine ε σ α}

theorem Ensures.returns (ensures : Ensures routine s thrown post) {a : α} {s' : σ}
    (returned : outcome routine s = (.ok a, s')) : post a s' := by
  rw [Ensures, returned] at ensures
  exact ensures

theorem outcome_bind (routine : Routine ε σ α) (next : α → Routine ε σ β) (s : σ) :
    outcome (routine >>= next) s = match outcome routine s with
      | (.ok a, s') => outcome (next a) s'
      | (.error e, s') => (.error e, s') := by
  change ExceptT.bindCont next (outcome routine s).1 (outcome routine s).2 = _
  rcases outcome routine s with ⟨result, s'⟩
  cases result <;> rfl

theorem outcome_bind_ok {next : α → Routine ε σ β} {s s' : σ} {a : α} (returned : outcome routine s = (.ok a, s')) :
    outcome (routine >>= next) s = outcome (next a) s' := by
  rw [outcome_bind, returned]

theorem outcome_bind_error {next : α → Routine ε σ β} {s s' : σ} {e : ε} (thrown : outcome routine s = (.error e, s')) :
    outcome (routine >>= next) s = (.error e, s') := by
  rw [outcome_bind, thrown]

theorem outcome_readState_bind (next : σ → Routine ε σ β) (s : σ) :
    outcome (readState >>= next) s = outcome (next s) s := by
  rw [outcome_bind]
  rfl

theorem outcome_lift (value : Except ε α) (s : σ) : outcome (lift value) s = (value, s) := rfl

theorem outcome_lift_bind {value : Except ε α} {a : α} (given : value = .ok a) (next : α → Routine ε σ β) (s : σ) :
    outcome (lift value >>= next) s = outcome (next a) s := by
  rw [outcome_bind, outcome_lift, given]

theorem outcome_adapt {δ : Type} (wrap : ε → δ) (routine : Routine ε σ α) (s : σ) :
    outcome (adapt wrap routine) s = ((outcome routine s).1.mapError wrap, (outcome routine s).2) := rfl

theorem outcome_modifyState (change : σ → σ) (s : σ) :
    outcome (modifyState change : Routine ε σ Unit) s = (.ok (), change s) := rfl

theorem outcome_recover (routine : Routine ε σ α) (caught : ε → Bool) (handler : Routine ε σ α) (s : σ) :
    outcome (recover routine caught handler) s = match outcome routine s with
      | (.ok a, s') => (.ok a, s')
      | (.error e, s') => if caught e then outcome handler s' else (.error e, s') := rfl

theorem bind_returned {next : α → Routine ε σ β} {s s'' : σ} {b : β} (returned : outcome (routine >>= next) s = (.ok b, s'')) :
    ∃ a s', outcome routine s = (.ok a, s') ∧ outcome (next a) s' = (.ok b, s'') := by
  rw [outcome_bind] at returned
  generalize outcome routine s = first at returned ⊢
  obtain ⟨result, s'⟩ := first
  cases result with
  | error e => cases returned
  | ok a => exact ⟨a, s', rfl, returned⟩

theorem lift_returned {value : Except ε α} {s s' : σ} {a : α} (returned : outcome (lift value) s = (.ok a, s')) :
    value = .ok a ∧ s' = s := by
  cases returned
  exact ⟨rfl, rfl⟩

theorem adapt_returned {δ : Type} {wrap : ε → δ} {s s' : σ} {a : α} (returned : outcome (adapt wrap routine) s = (.ok a, s')) :
    outcome routine s = (.ok a, s') := by
  rw [outcome_adapt] at returned
  generalize outcome routine s = ran at returned ⊢
  obtain ⟨result, s''⟩ := ran
  cases result with
  | error e => cases returned
  | ok value =>
    cases returned
    rfl

@[simp] theorem ensures_bind {next : α → Routine ε σ β} {post : β → σ → Prop} :
    Ensures (routine >>= next) s thrown post ↔
      Ensures routine s thrown fun a s' => Ensures (next a) s' thrown post := by
  unfold Ensures
  rw [outcome_bind]
  rcases outcome routine s with ⟨result, s'⟩
  cases result <;> rfl

theorem ensures_recover (caught : ε → Bool) (handler : Routine ε σ α)
    (tried : Ensures routine s (fun s' => thrown s' ∧ Ensures handler s' thrown post) post) :
    Ensures (recover routine caught handler) s thrown post := by
  rw [Ensures] at tried ⊢
  rw [outcome_recover]
  generalize outcome routine s = result at tried ⊢
  obtain ⟨result, s'⟩ := result
  cases result with
  | ok a => exact tried
  | error e =>
    change match (if caught e then outcome handler s' else (.error e, s')) with
      | (.ok a, s') => post a s'
      | (.error _, s') => thrown s'
    cases caught e
    · exact tried.1
    · exact tried.2

theorem Ensures.mono {thrown' : σ → Prop} {post' : α → σ → Prop} (ensures : Ensures routine s thrown post)
    (thrownMono : ∀ s', thrown s' → thrown' s') (postMono : ∀ a s', post a s' → post' a s') :
    Ensures routine s thrown' post' := by
  unfold Ensures at ensures ⊢
  split at ensures
  · exact postMono _ _ ensures
  · exact thrownMono _ ensures

/-- The routine moves the state along a preorder, whether it returns or throws, and a return has
the postcondition. -/
def Yields (keeps : σ → σ → Prop) (routine : Routine ε σ α) (s : σ) (post : α → σ → Prop) : Prop :=
  Ensures routine s (keeps s) fun a s' => keeps s s' ∧ post a s'

theorem Yields.state (yields : Yields Eq routine s post) : (outcome routine s).2 = s := by
  unfold Yields Ensures at yields
  split at yields
  next ran => rw [ran, ← yields.1]
  next ran => rw [ran, ← yields]

section Yields

variable {keeps : σ → σ → Prop} [Std.Refl keeps] [Trans keeps keeps keeps]

omit [Trans keeps keeps keeps] in
theorem yields_pure {a : α} (holds : post a s) : Yields keeps (pure a : Routine ε σ α) s post :=
  ⟨Std.Refl.refl s, holds⟩

omit [Trans keeps keeps keeps] in
theorem yields_throw (e : ε) : Yields keeps (throw e : Routine ε σ α) s post := Std.Refl.refl (r := keeps) s

omit [Trans keeps keeps keeps] in
theorem yields_readState {post : σ → σ → Prop} (holds : post s s) :
    Yields keeps (readState : Routine ε σ σ) s post :=
  ⟨Std.Refl.refl s, holds⟩

omit [Trans keeps keeps keeps] in
theorem yields_lift {value : Except ε α} (holds : ∀ a, value = .ok a → post a s) : Yields keeps (lift value) s post := by
  cases value with
  | error e => exact yields_throw e
  | ok a => exact yields_pure (holds a rfl)

omit [Trans keeps keeps keeps] in
theorem yields_lift_ok {value : Except ε α} : Yields keeps (lift value) s fun a _ => value = .ok a :=
  yields_lift fun _ given => given

omit [Std.Refl keeps] [Trans keeps keeps keeps] in
theorem yields_adapt {δ : Type} (wrap : ε → δ) (yields : Yields keeps routine s post) :
    Yields keeps (adapt wrap routine) s post := by
  unfold Yields Ensures at yields ⊢
  rw [outcome_adapt]
  generalize outcome routine s = ran at yields ⊢
  obtain ⟨result, s'⟩ := ran
  cases result <;> exact yields

omit [Std.Refl keeps] [Trans keeps keeps keeps] in
theorem yields_modifyState {change : σ → σ} {post : Unit → σ → Prop} (kept : keeps s (change s))
    (holds : post () (change s)) : Yields keeps (modifyState change : Routine ε σ Unit) s post :=
  ⟨kept, holds⟩

omit [Std.Refl keeps] [Trans keeps keeps keeps] in
theorem Yields.mono {post' : α → σ → Prop} (yields : Yields keeps routine s post)
    (implies : ∀ a s', keeps s s' → post a s' → post' a s') : Yields keeps routine s post' :=
  Ensures.mono yields (fun _ => id) fun a s' ⟨kept, holds⟩ => ⟨kept, implies a s' kept holds⟩

omit [Std.Refl keeps] in
theorem yields_bind {next : α → Routine ε σ β} {middle : α → σ → Prop} {post : β → σ → Prop}
    (first : Yields keeps routine s middle)
    (rest : ∀ a s', keeps s s' → middle a s' → Yields keeps (next a) s' post) :
    Yields keeps (routine >>= next) s post := by
  rw [Yields, ensures_bind]
  refine Ensures.mono first (fun _ => id) fun a s' ⟨kept, holds⟩ => ?_
  exact Ensures.mono (rest a s' kept holds) (fun _ => Trans.trans kept)
    fun b s'' ⟨keptOn, result⟩ => ⟨Trans.trans kept keptOn, result⟩

omit [Std.Refl keeps] in
theorem yields_recover (caught : ε → Bool) (handler : Routine ε σ α) (tried : Yields keeps routine s post)
    (handled : ∀ s', keeps s s' → Yields keeps handler s' post) :
    Yields keeps (recover routine caught handler) s post :=
  ensures_recover caught handler (Ensures.mono tried
    (fun s' kept => ⟨kept, Ensures.mono (handled s' kept) (fun _ => Trans.trans kept)
      fun _ _ ⟨keptOn, result⟩ => ⟨Trans.trans kept keptOn, result⟩⟩)
    fun _ _ => id)

theorem yields_foldlM {step : β → α → Routine ε σ β} {list : List α} {init : β} {s : σ}
    {invariant : β → σ → Prop} (start : invariant init s)
    (kept : ∀ x ∈ list, ∀ b s, invariant b s → Yields keeps (step b x) s invariant) :
    Yields keeps (list.foldlM step init) s invariant := by
  induction list generalizing init s with
  | nil => exact yields_pure start
  | cons x rest ih =>
    rw [List.foldlM_cons]
    refine yields_bind (kept x (by simp) init s start) fun b s' _ holds => ?_
    exact ih holds fun y member => kept y (List.mem_cons_of_mem _ member)

/-- The preorder of an invariant. -/
def Carries (invariant : σ → Prop) (s s' : σ) : Prop := invariant s → invariant s'

instance (invariant : σ → Prop) : Std.Refl (Carries invariant) := ⟨fun _ => id⟩

instance (invariant : σ → Prop) : Trans (Carries invariant) (Carries invariant) (Carries invariant) :=
  ⟨fun first second holds => second (first holds)⟩

omit [Std.Refl keeps] [Trans keeps keeps keeps] in
theorem Yields.kept (yields : Yields keeps routine s post) : keeps s (outcome routine s).2 := by
  unfold Yields Ensures at yields
  split at yields
  next ran => rw [ran]; exact yields.1
  next ran => rw [ran]; exact yields

omit [Std.Refl keeps] [Trans keeps keeps keeps] in
theorem yields_readState_bind {next : σ → Routine ε σ β} {post : β → σ → Prop} (rest : Yields keeps (next s) s post) :
    Yields keeps (readState >>= next) s post := by
  unfold Yields Ensures at rest ⊢
  rw [outcome_readState_bind]
  exact rest

omit [Trans keeps keeps keeps] in
theorem keeps_bind (keeps : σ → σ → Prop) [Std.Refl keeps] {next : α → Routine ε σ β}
    (rest : ∀ a s', Yields keeps (next a) s' fun _ _ => True) :
    keeps (outcome routine s).2 (outcome (routine >>= next) s).2 := by
  rw [outcome_bind]
  rcases outcome routine s with ⟨result, s'⟩
  cases result with
  | ok a => exact (rest a s').kept
  | error e => exact Std.Refl.refl s'

end Yields

theorem recover_pure_state (routine : Routine ε σ α) (caught : ε → Bool) (a : α) (s : σ) :
    (outcome (recover routine caught (pure a)) s).2 = (outcome routine s).2 := by
  rw [outcome_recover]
  rcases outcome routine s with ⟨result, s'⟩
  cases result with
  | ok a => rfl
  | error e =>
    dsimp only
    split <;> rfl

end Routine
