set_option autoImplicit false

universe u v

-- Checks that stop a computation with an error of their own.
namespace Guards

variable {ε : Type u} {α : Type v}

def refuse (condition : Prop) [Decidable condition] (error : ε) : Except ε Unit :=
  if condition then .error error else .ok ()

def require (value : Option α) (error : ε) : Except ε α := value.elim (.error error) .ok

theorem refuse_ok_iff {condition : Prop} [Decidable condition] {error : ε} {done : Unit} :
    refuse condition error = .ok done ↔ ¬condition := by
  unfold refuse
  split <;> simp [*]

theorem refuse_error_iff {condition : Prop} [Decidable condition] {error e : ε} :
    refuse condition error = .error e ↔ condition ∧ error = e := by
  unfold refuse
  split <;> simp [*]

theorem require_ok_iff {value : Option α} {error : ε} {a : α} : require value error = .ok a ↔ value = some a := by
  cases value <;> simp [require]

theorem require_error_iff {value : Option α} {error e : ε} :
    require value error = .error e ↔ value = none ∧ error = e := by
  cases value <;> simp [require]

end Guards
