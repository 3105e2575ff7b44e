import Mathlib.Logic.Relation

set_option autoImplicit false

universe u

-- Following a partial function from a start.
namespace Orbit

open Relation

variable {α : Type u} (next : α → Option α)

def visit : Nat → α → Option α
  | 0, a => some a
  | n + 1, a => (visit n a).bind next

/-- No value is visited twice. -/
def NeverTwice (a : α) : Prop := ∀ m n, m < n → ∀ b, visit next m a = some b → visit next n a ≠ some b

variable {next} {a b : α}

theorem visit_add {m : Nat} (reached : visit next m a = some b) (k : Nat) : visit next (m + k) a = visit next k b := by
  induction k with
  | zero => exact reached
  | succ k ih => exact congrArg (·.bind next) ih

theorem visit_succ (n : Nat) (a : α) : visit next (n + 1) a = (next a).bind (visit next n) := by
  cases first : next a with
  | none =>
    induction n with
    | zero => exact first
    | succ n ih => exact congrArg (·.bind next) ih
  | some c =>
    have reached : visit next 1 a = some c := first
    rw [Nat.add_comm, visit_add reached]
    rfl

theorem visit_transGen {k : Nat} (reached : visit next (k + 1) a = some b) : TransGen (fun a b => next a = some b) a b := by
  induction k generalizing b with
  | zero => exact .single reached
  | succ k ih =>
    obtain ⟨c, earlier, last⟩ := Option.bind_eq_some_iff.mp reached
    exact .tail (ih earlier) last

theorem transGen_visit (path : TransGen (fun a b => next a = some b) a b) : ∃ k, visit next (k + 1) a = some b := by
  induction path with
  | single last => exact ⟨0, last⟩
  | tail _ last ih =>
    obtain ⟨k, reached⟩ := ih
    exact ⟨k + 1, Option.bind_eq_some_iff.mpr ⟨_, reached, last⟩⟩

theorem reflTransGen_iff_visit : ReflTransGen (fun a b => next a = some b) a b ↔ ∃ k, visit next k a = some b := by
  rw [reflTransGen_iff_eq_or_transGen]
  constructor
  · rintro (rfl | path)
    · exact ⟨0, rfl⟩
    · obtain ⟨k, reached⟩ := transGen_visit path
      exact ⟨k + 1, reached⟩
  · rintro ⟨k, reached⟩
    cases k with
    | zero => exact .inl (Option.some.inj reached).symm
    | succ k => exact .inr (visit_transGen reached)

theorem visit_none_of_le {m n : Nat} (ends : visit next m a = none) (le : m ≤ n) : visit next n a = none := by
  induction le with
  | refl => exact ends
  | step _ ih => exact congrArg (·.bind next) ih

theorem neverTwice_iff : (∀ a, NeverTwice next a) ↔ ¬∃ a, TransGen (fun a b => next a = some b) a a := by
  constructor
  · rintro never ⟨a, cycle⟩
    obtain ⟨k, returned⟩ := transGen_visit cycle
    exact never a 0 (k + 1) (Nat.succ_pos k) a rfl returned
  · intro acyclic a m n less b first second
    obtain ⟨k, rfl⟩ := Nat.exists_eq_add_of_lt less
    rw [Nat.add_assoc, visit_add first] at second
    exact acyclic ⟨b, visit_transGen second⟩

end Orbit
