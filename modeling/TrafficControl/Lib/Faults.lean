import TrafficControl.Lib.Routine

set_option autoImplicit false

-- Code against an environment that may make any step fail and may stop the process before any step.
namespace Faults

open Routine

inductive Fault where
  | succeeds
  | fails
  | stops

inductive Halt (ε : Type) where
  | stopped
  | thrown (e : ε)

structure World (σ : Type) where
  state : σ
  steps : Nat

variable {ε σ : Type}

def Halt.isThrown : Halt ε → Bool
  | .stopped => false
  | .thrown _ => true

/-- A step that answers whether it was done. `effect` is `none` where the state does not allow it. -/
def attempt (faults : Nat → Fault) (effect : σ → Option σ) : Routine (Halt ε) (World σ) Bool := fun world =>
  match faults world.steps with
  | .stops => (.error .stopped, world)
  | .fails => (.ok false, { world with steps := world.steps + 1 })
  | .succeeds =>
    match effect world.state with
    | some state => (.ok true, ⟨state, world.steps + 1⟩)
    | none => (.ok false, { world with steps := world.steps + 1 })

def stopsAt (steps : Nat) : Nat → Fault := fun i => if i < steps then .succeeds else .stops

/-- From `world` on, the next `count` steps are let through. -/
def Lets (faults : Nat → Fault) (world : World σ) (count : Nat) : Prop :=
  ∀ i < count, faults (world.steps + i) = .succeeds

variable {faults : Nat → Fault} {effect : σ → Option σ} {world : World σ}

theorem lets_stopsAt {steps count : Nat} (within : world.steps + count ≤ steps) : Lets (stopsAt steps) world count :=
  fun _ bound => if_pos (by omega)

theorem stopsAt_self (steps : Nat) : stopsAt steps steps = .stops := if_neg (Nat.lt_irrefl steps)

theorem attempt_succeeds (lets : Lets faults world 1) :
    outcome (attempt (ε := ε) faults effect) world =
      (.ok (effect world.state).isSome, ⟨(effect world.state).getD world.state, world.steps + 1⟩) := by
  have here : faults world.steps = .succeeds := lets 0 Nat.one_pos
  simp only [outcome, attempt, here]
  cases effect world.state <;> rfl

theorem attempt_stops (stops : faults world.steps = .stops) :
    outcome (attempt (ε := ε) faults effect) world = (.error .stopped, world) := by
  simp only [outcome, attempt, stops]

def Holds (invariant : σ → Prop) (world : World σ) : Prop := invariant world.state

theorem yields_attempt (invariant : σ → Prop)
    (kept : ∀ state, effect world.state = some state → invariant world.state → invariant state) :
    Yields (Carries (Holds invariant)) (attempt (ε := ε) faults effect) world fun _ _ => True := by
  unfold Yields Ensures outcome attempt
  cases faults world.steps with
  | stops => exact id
  | fails => exact ⟨id, trivial⟩
  | succeeds =>
    cases effected : effect world.state with
    | none => exact ⟨id, trivial⟩
    | some state => exact ⟨kept state effected, trivial⟩

/-- Where the next step stops the process, no step changes anything. -/
theorem yields_attempt_stopped {stopped : World σ} (stops : faults stopped.steps = .stops) (effect : σ → Option σ)
    (world : World σ) :
    Yields (Carries fun world => world = stopped) (attempt (ε := ε) faults effect) world fun _ _ => True := by
  unfold Yields Ensures
  by_cases here : world = stopped
  · subst here
    rw [attempt_stops stops]
    exact id
  · split
    · exact ⟨fun there => absurd there here, trivial⟩
    · exact fun there => absurd there here

end Faults
