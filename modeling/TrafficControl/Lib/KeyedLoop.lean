import Mathlib.Data.List.AList

set_option autoImplicit false

universe u v w x

-- Loops whose turns each change what belongs to one key.
namespace KeyedLoop

variable {σ : Type u} {ε : Type v} {κ : Type w} {ω : Type x} (key : ε → κ) {step : σ → ε → σ} (view : σ → ω)

theorem foldl_other {k : κ} {entries : List ε} (frame : ∀ s entry, key entry ≠ k → view (step s entry) = view s)
    (absent : ∀ entry ∈ entries, key entry ≠ k) (s : σ) : view (entries.foldl step s) = view s := by
  induction entries generalizing s with
  | nil => rfl
  | cons entry entries ih =>
    rw [List.foldl_cons, ih fun e member => absent e (List.mem_cons_of_mem _ member)]
    exact frame s entry (absent entry List.mem_cons_self)

/-- With distinct keys a loop does to each of them what its own turn does. -/
theorem foldl_own (f : ω → ω) {own : ε} {entries : List ε} (distinct : (entries.map key).Nodup) (member : own ∈ entries)
    (frame : ∀ s entry, key entry ≠ key own → view (step s entry) = view s)
    (turn : ∀ s, view (step s own) = f (view s)) (s : σ) : view (entries.foldl step s) = f (view s) := by
  induction entries generalizing s with
  | nil => cases member
  | cons entry entries ih =>
    rw [List.map_cons, List.nodup_cons] at distinct
    rw [List.foldl_cons]
    by_cases here : own = entry
    · subst here
      rw [foldl_other key view frame ?_ (step s own), turn]
      intro later listed same
      exact distinct.1 (List.mem_map.mpr ⟨later, listed, same⟩)
    · have later : own ∈ entries := (List.mem_cons.mp member).resolve_left here
      have apart : key entry ≠ key own := fun same => distinct.1 (List.mem_map.mpr ⟨own, later, same.symm⟩)
      rw [ih distinct.2 later, frame s entry apart]

/-- The entries of a map in the order in which a loop visits its keys. -/
def inOrder {β : Type v} [DecidableEq κ] (order : List κ → List κ) (map : AList fun _ : κ => β) : List (κ × β) :=
  (order map.keys).filterMap fun k => (map.lookup k).map fun value => (k, value)

section Order

variable {β : Type v} [DecidableEq κ] {order : List κ → List κ} (perm : ∀ keys, (order keys).Perm keys)
  (map : AList fun _ : κ => β)

include perm

theorem mem_inOrder {k : κ} {value : β} : (k, value) ∈ inOrder order map ↔ map.lookup k = some value := by
  simp only [inOrder, List.mem_filterMap, Option.map_eq_some_iff, Prod.mk.injEq]
  constructor
  · rintro ⟨_, -, _, found, rfl, rfl⟩
    exact found
  · intro found
    have present : k ∈ map.keys := AList.mem_keys.mp (AList.lookup_isSome.mp (Option.isSome_of_eq_some found))
    exact ⟨k, (perm map.keys).mem_iff.mpr present, value, found, rfl, rfl⟩

theorem nodup_inOrder : ((inOrder order map).map Prod.fst).Nodup := by
  have keys : (inOrder order map).map Prod.fst = (order map.keys).filter fun k => (map.lookup k).isSome := by
    unfold inOrder
    generalize order map.keys = visited
    induction visited with
    | nil => rfl
    | cons k visited ih =>
      cases found : map.lookup k with
      | none => rw [List.filterMap_cons_none (by rw [found]; rfl), List.filter_cons_of_neg (by simp [found]), ih]
      | some value => rw [List.filterMap_cons_some (by rw [found]; rfl), List.filter_cons_of_pos (by simp [found]), List.map_cons, ih]
  rw [keys]
  exact ((perm map.keys).nodup_iff.mpr map.keys_nodup).filter _

theorem foldl_inOrder (f : β → ω → ω) {step : σ → κ × β → σ} {k : κ}
    (frame : ∀ s entry, entry.1 ≠ k → view (step s entry) = view s)
    (turn : ∀ s value, view (step s (k, value)) = f value (view s)) (s : σ) :
    view ((inOrder order map).foldl step s) = (map.lookup k).elim (view s) fun value => f value (view s) := by
  cases found : map.lookup k with
  | none =>
    refine foldl_other Prod.fst view frame (fun entry member same => ?_) s
    have listed := (mem_inOrder perm map).mp (show (entry.1, entry.2) ∈ inOrder order map from member)
    rw [same, found] at listed
    cases listed
  | some value =>
    exact foldl_own Prod.fst view (f value) (nodup_inOrder perm map) ((mem_inOrder perm map).mpr found) frame (fun s => turn s value) s

end Order

end KeyedLoop
