import Mathlib.Data.List.AList
import Mathlib.Data.List.Induction

set_option autoImplicit false

universe u v w

-- Maps that are filled by one `put` after the other.
namespace PutAll

variable {α : Type u} {κ : Type v} {β : Type w} [DecidableEq κ] (key : α → κ) (value : α → β)

def put (map : AList fun _ : κ => β) (item : α) : AList fun _ : κ => β := map.insert (key item) (value item)

def putAll (map : AList fun _ : κ => β) (items : List α) : AList fun _ : κ => β := items.foldl (put key value) map

variable {key value} {map : AList fun _ : κ => β} {items : List α}

-- The last item put under a key stays.
theorem lookup_putAll (k : κ) : (putAll key value map items).lookup k =
    ((items.reverse.find? fun item => decide (key item = k)).map value).or (map.lookup k) := by
  induction items using List.reverseRecOn with
  | nil => rfl
  | append_singleton rest last ih =>
    rw [putAll, List.foldl_append, List.reverse_append, List.reverse_singleton, List.singleton_append, List.find?_cons]
    change ((putAll key value map rest).insert (key last) (value last)).lookup k = _
    by_cases same : key last = k
    · subst same
      simp [AList.lookup_insert]
    · rw [AList.lookup_insert_ne (Ne.symm same), ih]
      simp [same]

theorem lookup_putAll_empty {k : κ} {b : β} (found : (putAll key value ∅ items).lookup k = some b) :
    ∃ item ∈ items, key item = k ∧ value item = b := by
  rw [lookup_putAll, AList.lookup_empty, Option.or_none, Option.map_eq_some_iff] at found
  obtain ⟨item, hit, same⟩ := found
  have own := List.find?_some hit
  exact ⟨item, List.mem_reverse.mp (List.mem_of_find?_eq_some hit), of_decide_eq_true own, same⟩

theorem mem_putAll_empty (k : κ) : k ∈ putAll key value ∅ items ↔ ∃ item ∈ items, key item = k := by
  rw [← AList.lookup_isSome, lookup_putAll, AList.lookup_empty, Option.or_none, Option.isSome_map, List.find?_isSome]
  simp

section Copy

variable {entries done rest : List (Sigma fun _ : κ => β)}

theorem lookup_copy (distinct : entries.NodupKeys) {k : κ} {b : β} :
    (putAll Sigma.fst Sigma.snd ∅ entries).lookup k = some b ↔ ⟨k, b⟩ ∈ entries := by
  constructor
  · intro found
    obtain ⟨entry, member, rfl, rfl⟩ := lookup_putAll_empty found
    exact member
  · intro member
    have present : k ∈ putAll Sigma.fst Sigma.snd ∅ entries := (mem_putAll_empty k).mpr ⟨⟨k, b⟩, member, rfl⟩
    obtain ⟨other, found⟩ := Option.isSome_iff_exists.mp (AList.lookup_isSome.mpr present)
    obtain ⟨entry, own, rfl, rfl⟩ := lookup_putAll_empty found
    rw [found, distinct.eq_of_mk_mem member own]

/-- While the entries of a map are copied to an empty one, those still to come are missing. -/
theorem lookup_copying (distinct : (done ++ rest).NodupKeys) (k : κ) :
    (putAll Sigma.fst Sigma.snd ∅ done).lookup k = if k ∈ rest.keys then none else (done ++ rest).dlookup k := by
  have left : done.NodupKeys := distinct.sublist (List.sublist_append_left done rest)
  ext b
  rw [lookup_copy left]
  split
  next later =>
    have apart := List.nodup_append.mp (List.keys_append ▸ distinct : (done.keys ++ rest.keys).Nodup)
    exact ⟨fun member => absurd rfl (apart.2.2 k (List.mem_keys_of_mem member) k later), fun none => by cases none⟩
  next earlier =>
    rw [← Option.mem_def, List.mem_dlookup_iff distinct, List.mem_append]
    exact ⟨Or.inl, fun either => either.resolve_right fun member => earlier (List.mem_keys_of_mem member)⟩

end Copy

end PutAll
