import Mathlib.Data.List.Forall2

set_option autoImplicit false

universe u v w

-- Reading a list of inputs, each of which may be rejected.
namespace ExceptList

variable {ε : Type} {α : Type u} {β σ : Type v}

theorem bind_ok {γ : Type v} {first : Except ε β} {next : β → Except ε γ} {result : γ}
    (accepted : (first >>= next) = .ok result) : ∃ value, first = .ok value ∧ next value = .ok result := by
  cases first with
  | error e => cases accepted
  | ok value => exact ⟨value, rfl, accepted⟩

theorem bind_ok_iff {γ : Type v} {first : Except ε β} {next : β → Except ε γ} {result : γ} :
    (first >>= next) = .ok result ↔ ∃ value, first = .ok value ∧ next value = .ok result := by
  constructor
  · exact bind_ok
  · rintro ⟨value, accepted, rest⟩
    rw [accepted]
    exact rest

theorem bind_error_iff {γ : Type v} {first : Except ε β} {next : β → Except ε γ} {e : ε} :
    (first >>= next) = .error e ↔ first = .error e ∨ ∃ value, first = .ok value ∧ next value = .error e := by
  cases first with
  | error _ => simp [bind, Except.bind]
  | ok value => simp [bind, Except.bind]

theorem map_ok {γ : Type v} {first : Except ε β} {change : β → γ} {result : γ}
    (accepted : first.map change = .ok result) : ∃ value, first = .ok value ∧ change value = result := by
  cases first with
  | error e => cases accepted
  | ok value => exact ⟨value, rfl, Except.ok.inj accepted⟩

theorem mapError_ok {δ : Type} {first : Except ε β} {wrap : ε → δ} {result : β}
    (accepted : first.mapError wrap = .ok result) : first = .ok result := by
  cases first with
  | error e => cases accepted
  | ok value =>
    cases accepted
    rfl

theorem mapError_ok_iff {δ : Type} {first : Except ε β} {wrap : ε → δ} {result : β} :
    first.mapError wrap = .ok result ↔ first = .ok result := by
  constructor
  · exact mapError_ok
  · rintro rfl
    rfl

theorem mapM_ok_iff (read : α → Except ε β) (items : List α) (results : List β) :
    items.mapM read = .ok results ↔ items.map read = results.map .ok := by
  induction items generalizing results with
  | nil => cases results <;> simp [pure, Except.pure]
  | cons item items ih =>
    simp only [List.mapM_cons, List.map_cons]
    cases first : read item with
    | error _ => cases results <;> simp [bind, Except.bind]
    | ok value =>
      cases rest : items.mapM read with
      | error _ =>
        cases results with
        | nil => simp [bind, Except.bind]
        | cons result results =>
          have different := (ih results).not.mp (by simp [rest])
          simp [bind, Except.bind, different]
      | ok values =>
        cases results with
        | nil => simp [bind, Except.bind, pure, Except.pure]
        | cons result results =>
          have tail := ih results
          rw [rest] at tail
          simp [bind, Except.bind, pure, Except.pure, ← tail]

theorem mapM_ok_mem {read : α → Except ε β} {items : List α} {results : List β}
    (accepted : items.mapM read = .ok results) {item : α} (member : item ∈ items) :
    ∃ result ∈ results, read item = .ok result := by
  have found := List.mem_map_of_mem (f := read) member
  rw [(mapM_ok_iff read items results).mp accepted] at found
  obtain ⟨result, inResults, same⟩ := List.mem_map.mp found
  exact ⟨result, inResults, same.symm⟩

theorem mem_mapM_ok {read : α → Except ε β} {items : List α} {results : List β}
    (accepted : items.mapM read = .ok results) (result : β) :
    result ∈ results ↔ ∃ item ∈ items, read item = .ok result := by
  have same := (mapM_ok_iff read items results).mp accepted
  rw [← List.mem_map, same, List.mem_map]
  constructor
  · exact fun member => ⟨result, member, rfl⟩
  · rintro ⟨other, member, equal⟩
    exact Except.ok.inj equal ▸ member

theorem mapM_ok_of_forall {read : α → Except ε β} {items : List α}
    (accepted : ∀ item ∈ items, ∃ result, read item = .ok result) :
    ∃ results, items.mapM read = .ok results := by
  induction items with
  | nil => exact ⟨[], rfl⟩
  | cons item items ih =>
    obtain ⟨result, first⟩ := accepted item (by simp)
    obtain ⟨results, rest⟩ := ih fun other member => accepted other (by simp [member])
    exact ⟨result :: results, by simp [first, rest, bind, Except.bind, pure, Except.pure]⟩

theorem mapM_ok_forall₂ {read : α → Except ε β} {items : List α} {results : List β}
    (accepted : items.mapM read = .ok results) :
    List.Forall₂ (fun item result => read item = .ok result) items results := by
  rw [mapM_ok_iff, ← List.forall₂_eq_eq_eq, List.forall₂_map_left_iff, List.forall₂_map_right_iff] at accepted
  exact accepted

theorem find_forall₂ {related : α → β → Prop} {chosen : α → Bool} {chosen' : β → Bool} {items : List α}
    {results : List β} (relation : List.Forall₂ related items results)
    (alike : ∀ item result, related item result → chosen item = chosen' result) :
    Option.Rel related (items.find? chosen) (results.find? chosen') := by
  induction relation with
  | nil => exact .none
  | @cons item result _ _ first _ ih =>
    rw [List.find?_cons, List.find?_cons, alike item result first]
    cases chosen' result
    · exact ih
    · exact .some first

-- A loop that reads one input and then updates its state is a read of all inputs and a fold.
theorem foldlM_read (step : σ → α → Except ε σ) (read : α → Except ε β) (extend : σ → β → σ)
    (items : List α) (stepRead : ∀ item ∈ items, ∀ state, step state item = (read item).map (extend state))
    (state : σ) : items.foldlM step state = (items.mapM read).map fun results => results.foldl extend state := by
  induction items generalizing state with
  | nil => rfl
  | cons item items ih =>
    rw [List.foldlM_cons, List.mapM_cons, stepRead item (by simp)]
    cases read item with
    | error _ => rfl
    | ok value =>
      change items.foldlM step (extend state value) = _
      rw [ih fun other member => stepRead other (by simp [member])]
      cases items.mapM read <;> rfl

section Options

theorem option_mapM_iff (read : α → Option β) (items : List α) (results : List β) :
    items.mapM read = some results ↔ items.map read = results.map some := by
  induction items generalizing results with
  | nil => cases results <;> simp
  | cons item items ih =>
    cases results with
    | nil => simp [Option.bind_eq_some_iff]
    | cons result results => simp [Option.bind_eq_some_iff, ih]

theorem option_mapM_none_iff {read : α → Option β} {items : List α} :
    items.mapM read = none ↔ ∃ item ∈ items, read item = none := by
  induction items with
  | nil => simp
  | cons item items ih =>
    cases first : read item with
    | none => simp [first]
    | some result =>
      simp only [List.mapM_cons, first, Option.bind_eq_bind, Option.bind_some, List.mem_cons, exists_eq_or_imp,
        reduceCtorEq, false_or, ← ih]
      cases items.mapM read <;> simp

theorem mem_option_mapM {read : α → Option β} {items : List α} {results : List β}
    (accepted : items.mapM read = some results) {result : β} :
    result ∈ results ↔ ∃ item ∈ items, read item = some result := by
  rw [option_mapM_iff] at accepted
  have member : some result ∈ items.map read ↔ some result ∈ results.map some := by rw [accepted]
  simpa [eq_comm] using member.symm

end Options

end ExceptList
