import Mathlib.Data.List.AList

set_option autoImplicit false

universe u v w

-- Maps of lists, each of which grows at its end.
namespace Appends

variable {α : Type u} {κ : Type v} {β : Type w} [DecidableEq κ]

def listed (map : AList fun _ : κ => List β) (k : κ) : List β := (map.lookup k).getD []

def append (map : AList fun _ : κ => List β) (k : κ) (value : β) : AList fun _ : κ => List β :=
  map.insert k (listed map k ++ [value])

@[simp] theorem listed_empty (k : κ) : listed (∅ : AList fun _ : κ => List β) k = [] := rfl

theorem listed_append (map : AList fun _ : κ => List β) (k other : κ) (value : β) :
    listed (append map k value) other = listed map other ++ if k = other then [value] else [] := by
  unfold append
  by_cases same : k = other
  · subst same
    rw [if_pos rfl, listed, AList.lookup_insert, Option.getD_some]
  · rw [if_neg same, List.append_nil, listed, AList.lookup_insert_ne (Ne.symm same), ← listed]

/-- Every list has the items of its key, in order. -/
theorem listed_foldl (key : α → κ) (value : α → β) (items : List α) (map : AList fun _ : κ => List β) (k : κ) :
    listed (items.foldl (fun map item => append map (key item) (value item)) map) k =
      listed map k ++ (items.filter (key · = k)).map value := by
  induction items generalizing map with
  | nil => simp
  | cons item items ih =>
    rw [List.foldl_cons, ih, listed_append, List.append_assoc]
    by_cases same : key item = k <;> simp [same]

section Entries

-- The values of all lists, each with the key of its list.
def flat (entries : List (Sigma fun _ : κ => List β)) : List (κ × β) :=
  entries.flatMap fun entry => entry.2.map fun value => (entry.1, value)

theorem flat_filter_absent {entries : List (Sigma fun _ : κ => List β)} {k : κ} (absent : k ∉ entries.keys) :
    (flat entries).filter (·.1 = k) = [] := by
  rw [List.filter_eq_nil_iff]
  rintro ⟨other, value⟩ member
  obtain ⟨entry, listed, inside⟩ := List.mem_flatMap.mp member
  obtain ⟨_, _, same⟩ := List.mem_map.mp inside
  have key : entry.1 = other := congrArg Prod.fst same
  subst key
  simp only [decide_eq_true_eq]
  rintro rfl
  exact absent (List.mem_keys_of_mem listed)

theorem flat_filter {entries : List (Sigma fun _ : κ => List β)} (distinct : entries.NodupKeys) (k : κ) :
    ((flat entries).filter (·.1 = k)).map Prod.snd = (entries.dlookup k).getD [] := by
  induction entries with
  | nil => rfl
  | cons entry entries ih =>
    obtain ⟨other, values⟩ := entry
    obtain ⟨absent, distinct⟩ := List.nodupKeys_cons.mp distinct
    have front : flat (⟨other, values⟩ :: entries) = values.map (fun value => (other, value)) ++ flat entries := rfl
    rw [front, List.filter_append, List.map_append, List.filter_map]
    by_cases same : other = k
    · subst same
      rw [flat_filter_absent absent, List.dlookup_cons_eq]
      simp [Function.comp_def]
    · rw [ih distinct, List.dlookup_cons_ne _ _ (Ne.symm same)]
      simp [Function.comp_def, same]

/-- A map of lists that is gone through, with a value in place of each, is a map of the new lists. -/
theorem listed_flat {γ : Type w} (change : β → γ) (map : AList fun _ : κ => List β) (k : κ) :
    listed ((flat map.entries).foldl (fun new entry => append new entry.1 (change entry.2)) ∅) k =
      (listed map k).map change := by
  rw [listed_foldl (fun entry : κ × β => entry.1) (fun entry => change entry.2), listed_empty, List.nil_append]
  have values := flat_filter map.nodupKeys k
  rw [listed, AList.lookup, ← values, List.map_map]
  rfl

end Entries

end Appends
