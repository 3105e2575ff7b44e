import Mathlib.Data.Finset.Erase
import Mathlib.Data.List.AList

set_option autoImplicit false

universe u v w

-- A table whose rows are found by their primary key, and a column that at most one of some rows may share.
namespace KeyedTable

variable {κ : Type u} {ρ : Type v} [DecidableEq κ] {table : AList fun _ : κ => ρ}

/-- `UPDATE … WHERE key`: no row of the key is no error. -/
def change (table : AList fun _ : κ => ρ) (key : κ) (set : ρ → ρ) : AList fun _ : κ => ρ :=
  (table.lookup key).elim table fun row => table.insert key (set row)

theorem lookup_insert_if (key other : κ) (row : ρ) :
    (table.insert key row).lookup other = if other = key then some row else table.lookup other := by
  split
  case isTrue same => rw [same, AList.lookup_insert]
  case isFalse different => rw [AList.lookup_insert_ne different]

theorem lookup_erase_if (key other : κ) :
    (table.erase key).lookup other = if other = key then none else table.lookup other := by
  split
  case isTrue same => rw [same, AList.lookup_erase]
  case isFalse different => rw [AList.lookup_erase_ne different]

theorem lookup_change (key other : κ) (set : ρ → ρ) :
    (change table key set).lookup other = if other = key then (table.lookup key).map set else table.lookup other := by
  unfold change
  cases found : table.lookup key with
  | none =>
    simp only [Option.elim_none, Option.map_none]
    split
    case isTrue same => rw [same, found]
    case isFalse => rfl
  | some row => rw [Option.elim_some, lookup_insert_if, Option.map_some]

/-- Only the row of the key can be another one after a write. -/
theorem eq_of_changed {key other : κ} {row : ρ} {set : ρ → ρ} (found : table.lookup other = some row)
    (changed : (change table key set).lookup other ≠ some row) : other = key := by
  by_contra different
  rw [lookup_change, if_neg different] at changed
  exact changed found

theorem eq_of_erased {key other : κ} {row : ρ} (found : table.lookup other = some row)
    (erased : (table.erase key).lookup other ≠ some row) : other = key := by
  by_contra different
  rw [lookup_erase_if, if_neg different] at erased
  exact erased found

theorem mem_of_lookup {key : κ} {row : ρ} (found : table.lookup key = some row) : key ∈ table := by
  rw [← AList.lookup_isSome, found]
  rfl

def keySet (table : AList fun _ : κ => ρ) : Finset κ := ⟨table.keys, table.keys_nodup⟩

omit [DecidableEq κ] in
theorem mem_keySet {key : κ} : key ∈ keySet table ↔ key ∈ table := AList.mem_keys.symm

theorem keySet_erase (key : κ) : keySet (table.erase key) = (keySet table).erase key := by
  ext other
  rw [mem_keySet, AList.mem_erase, Finset.mem_erase, mem_keySet]

section Distinct

variable {α : Type w} (column : ρ → Option α)

/-- No two rows share a value of the column; rows without a value do not count. -/
def Distinct (table : AList fun _ : κ => ρ) : Prop :=
  ∀ key key' row row', table.lookup key = some row → table.lookup key' = some row' → column row ≠ none →
    column row = column row' → key = key'

/-- No row apart from that of `key` has this value. -/
def Free (table : AList fun _ : κ => ρ) (key : κ) (value : Option α) : Prop :=
  ∀ other row, other ≠ key → table.lookup other = some row → value ≠ none → column row ≠ value

variable {column}

theorem Distinct.erase (distinct : Distinct column table) (key : κ) : Distinct column (table.erase key) := by
  intro first second row row' found found'
  rw [lookup_erase_if] at found found'
  split at found
  · cases found
  · split at found'
    · cases found'
    · exact distinct first second row row' found found'

/-- A row may be put in exactly when its value is free. -/
theorem distinct_insert_iff (distinct : Distinct column table) (key : κ) (row : ρ) :
    Distinct column (table.insert key row) ↔ Free column table key (column row) := by
  constructor
  · intro inserted other row' different found value same
    have kept : (table.insert key row).lookup other = some row' := by rw [lookup_insert_if, if_neg different, found]
    exact different (inserted other key row' row kept (AList.lookup_insert table) (same ▸ value) same)
  · intro free first second row₁ row₂ found₁ found₂ value same
    rw [lookup_insert_if] at found₁ found₂
    split at found₁ <;> rename_i key₁ <;> split at found₂ <;> rename_i key₂
    · exact key₁.trans key₂.symm
    · obtain rfl := Option.some.inj found₁
      exact absurd same.symm (free second row₂ key₂ found₂ value)
    · obtain rfl := Option.some.inj found₂
      exact absurd same (free first row₁ key₁ found₁ (same ▸ value))
    · exact distinct first second row₁ row₂ found₁ found₂ value same

end Distinct

end KeyedTable
