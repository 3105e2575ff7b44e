import Mathlib.Algebra.BigOperators.Group.List.Basic
import Mathlib.Algebra.Order.BigOperators.Group.List
import Mathlib.Data.List.AList

set_option autoImplicit false

universe u v w

-- Tables whose rows are added up.
namespace KeyedSums

variable {κ : Type u} {ρ : Type v} {M : Type w} [AddCommMonoid M] (weight : ρ → M)

def total (table : AList fun _ : κ => ρ) : M := (table.entries.map fun entry => weight entry.2).sum

@[simp] theorem total_singleton (key : κ) (row : ρ) : total weight (AList.singleton key row) = weight row := by
  simp [total, AList.singleton_entries]

variable [DecidableEq κ] {table : AList fun _ : κ => ρ}

/-- What a key adds to the total. -/
def share (table : AList fun _ : κ => ρ) (key : κ) : M := (table.lookup key).elim 0 weight

theorem total_erase (key : κ) : share weight table key + total weight (table.erase key) = total weight table := by
  unfold share
  cases found : table.lookup key with
  | none =>
    have absent : key ∉ table := AList.lookup_eq_none.mp found
    have same : (table.erase key).entries = table.entries :=
      List.kerase_of_notMem_keys fun listed => absent (AList.mem_keys.mpr listed)
    simp [total, same]
  | some row =>
    have listed : key ∈ table.entries.keys := AList.mem_keys.mp (AList.lookup_isSome.mp (by rw [found]; rfl))
    obtain ⟨other, before, after, -, split, rest⟩ := List.exists_of_kerase listed
    have own : other = row := by
      have here : table.lookup key = some other :=
        (List.mem_dlookup_iff table.nodupKeys).mpr (by rw [split]; exact List.mem_append_right _ List.mem_cons_self)
      exact Option.some.inj (here.symm.trans found)
    have erased : (table.erase key).entries = before ++ after := rest
    simp only [Option.elim_some, total, erased, split, own, List.map_append, List.map_cons, List.sum_append, List.sum_cons]
    exact add_left_comm _ _ _

theorem total_insert (key : κ) (row : ρ) :
    total weight (table.insert key row) = weight row + total weight (table.erase key) := by
  rw [total, AList.entries_insert, List.map_cons, List.sum_cons]
  rfl

/-- A row that is put in the place of another of the same weight leaves the total. -/
theorem total_insert_same {key : κ} {row : ρ} (same : weight row = share weight table key) :
    total weight (table.insert key row) = total weight table := by
  rw [total_insert, same, total_erase]

theorem total_insert_le [PartialOrder M] [IsOrderedAddMonoid M] {key : κ} {row : ρ} {more : M}
    (adds : weight row ≤ share weight table key + more) :
    total weight (table.insert key row) ≤ total weight table + more := by
  calc total weight (table.insert key row) = weight row + total weight (table.erase key) := total_insert weight key row
    _ ≤ share weight table key + more + total weight (table.erase key) := by gcongr
    _ = total weight table + more := by rw [add_right_comm, total_erase]

end KeyedSums
