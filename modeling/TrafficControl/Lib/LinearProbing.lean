import Mathlib.Data.List.Count
import Mathlib.Data.List.Nodup
import Mathlib.Data.List.Perm.Subperm
import Mathlib.Data.List.Range
import Mathlib.Data.List.Sort
import Mathlib.Order.Nat

set_option autoImplicit false

-- Items that are put into numbered slots, each into the first free one from its own number on.
namespace LinearProbing

/-- The first slot from `d` on that is not taken. -/
structure Probes (taken : List Nat) (d y : Nat) : Prop where
  start : d ≤ y
  free : y ∉ taken
  passed : ∀ z, d ≤ z → z < y → z ∈ taken

theorem Probes.unique {taken : List Nat} {d y y' : Nat} (probes : Probes taken d y) (probes' : Probes taken d y') : y = y' := by
  rcases Nat.lt_trichotomy y y' with below | same | above
  · exact absurd (probes'.passed y probes.start below) probes.free
  · exact same
  · exact absurd (probes.passed y' probes'.start above) probes'.free

theorem exists_probes (taken : List Nat) (d : Nat) : ∃ y, Probes taken d y ∧ y ≤ d + taken.length := by
  have free : ∃ k, d + k ∉ taken ∧ k ≤ taken.length := by
    by_contra full
    have all : (List.range (taken.length + 1)).map (d + ·) ⊆ taken := by
      intro x member
      obtain ⟨k, inRange, rfl⟩ := List.mem_map.mp member
      by_contra absent
      exact full ⟨k, absent, Nat.lt_succ_iff.mp (List.mem_range.mp inRange)⟩
    have distinct : ((List.range (taken.length + 1)).map (d + ·)).Nodup :=
      List.nodup_range.map fun a b same => Nat.add_left_cancel same
    have short := (distinct.subperm all).length_le
    rw [List.length_map, List.length_range] at short
    omega
  obtain ⟨k, absent, near⟩ := free
  have some_free : ∃ k, d + k ∉ taken := ⟨k, absent⟩
  refine ⟨d + Nat.find some_free, ⟨Nat.le_add_right _ _, Nat.find_spec some_free, fun z low high => ?_⟩, ?_⟩
  · have earlier := Nat.find_min some_free (m := z - d) (by omega)
    rw [Nat.add_sub_cancel' low] at earlier
    exact not_not.mp earlier
  · have least := Nat.find_min' some_free absent
    omega

/-- The items, each with its own number and its slot, in the order in which they were put. -/
inductive Run : List (Nat × Nat) → Prop
  | nil : Run []
  | snoc {placed : List (Nat × Nat)} {d y : Nat} (run : Run placed) (probes : Probes (placed.map Prod.snd) d y) :
    Run (placed ++ [(d, y)])

/-- How many of the numbers lie from `a` to `x`. -/
def load (ds : List Nat) (a x : Nat) : Nat := ds.countP fun d => a ≤ d ∧ d ≤ x

/-- As many of the numbers lie from some number to `x` as there are slots. -/
def Full (ds : List Nat) (x : Nat) : Prop := ∃ a ≤ x, x < a + load ds a x

section Load

variable (ds : List Nat)

theorem load_snoc (d a x : Nat) : load (ds ++ [d]) a x = load ds a x + if a ≤ d ∧ d ≤ x then 1 else 0 := by
  simp [load, List.countP_append, List.countP_singleton]

theorem load_split {a y x : Nat} (first : a ≤ y + 1) (second : y ≤ x) : load ds a x = load ds a y + load ds (y + 1) x := by
  unfold load
  induction ds with
  | nil => rfl
  | cons d ds ih =>
    simp only [List.countP_cons, decide_eq_true_eq]
    rw [ih]
    split_ifs <;> omega

theorem load_mono {a x x' : Nat} (longer : x ≤ x') : load ds a x ≤ load ds a x' := by
  refine List.countP_mono_left fun d _ inside => ?_
  simp only [decide_eq_true_eq] at inside ⊢
  omega

end Load

/-- Full slots in a row, from `d` on, are full together with all before them. -/
theorem full_from {ds : List Nat} {d y : Nat} (all : ∀ z, d ≤ z → z < y → Full ds z) (some_passed : d < y) :
    ∃ a ≤ d, y ≤ a + load ds a (y - 1) := by
  have last := all (y - 1) (by omega) (by omega)
  obtain ⟨a, below, enough⟩ := last
  -- The start of the interval moves down until it is at `d` or before.
  have descend : ∀ a, a < y → y ≤ a + load ds a (y - 1) → ∃ a' ≤ d, y ≤ a' + load ds a' (y - 1) := by
    intro a
    induction a using Nat.strong_induction_on with
    | _ a ih =>
      intro inside enough
      rcases Nat.lt_or_ge d a with after | before
      · obtain ⟨b, low, more⟩ := all (a - 1) (by omega) (by omega)
        refine ih b (by omega) (by omega) ?_
        have split := load_split ds (a := b) (y := a - 1) (x := y - 1) (by omega) (by omega)
        rw [Nat.sub_add_cancel (by omega)] at split
        omega
      · exact ⟨a, before, enough⟩
  exact descend a (by omega) (by omega)

theorem full_snoc {ds : List Nat} {d y : Nat} (start : d ≤ y) (free : ¬Full ds y) (passed : ∀ z, d ≤ z → z < y → Full ds z) (x : Nat) :
    Full (ds ++ [d]) x ↔ Full ds x ∨ x = y := by
  constructor
  · rintro ⟨a, below, enough⟩
    rw [load_snoc] at enough
    by_cases already : Full ds x
    · exact Or.inl already
    have short : ¬x < a + load ds a x := fun more => already ⟨a, below, more⟩
    split_ifs at enough with inside
    · right
      rcases Nat.lt_trichotomy x y with lower | same | upper
      · exact absurd (passed x inside.2 lower) already
      · exact same
      · -- What `y` leaves free has to be made up for behind it.
        have room : ¬y < a + load ds a y := fun more => free ⟨a, inside.1.trans start, more⟩
        have split := load_split ds (a := a) (y := y) (x := x) (by omega) (by omega)
        exact absurd ⟨y + 1, by omega, by omega⟩ already
    · omega
  · rintro (⟨a, below, enough⟩ | rfl)
    · refine ⟨a, below, ?_⟩
      rw [load_snoc]
      omega
    · rcases Nat.lt_or_eq_of_le start with some_passed | rfl
      · obtain ⟨a, low, enough⟩ := full_from passed some_passed
        refine ⟨a, low.trans start, ?_⟩
        have more := load_mono ds (a := a) (Nat.sub_le x 1)
        rw [load_snoc, if_pos ⟨low, start⟩]
        omega
      · refine ⟨d, le_rfl, ?_⟩
        rw [load_snoc, if_pos ⟨le_rfl, le_rfl⟩]
        omega

/-- Which slots are taken depends on the numbers only. -/
theorem Run.taken_iff {placed : List (Nat × Nat)} (run : Run placed) (x : Nat) :
    x ∈ placed.map Prod.snd ↔ Full (placed.map Prod.fst) x := by
  induction run generalizing x with
  | nil =>
    refine iff_of_false List.not_mem_nil ?_
    rintro ⟨a, below, enough⟩
    simp only [load, List.map_nil, List.countP_nil] at enough
    omega
  | @snoc placed d y run probes ih =>
    simp only [List.map_append, List.map_cons, List.map_nil, List.mem_append, List.mem_singleton]
    rw [full_snoc probes.start (fun full => probes.free ((ih y).mpr full)) (fun z low high => (ih z).mp (probes.passed z low high)), ih]

theorem Run.passed {placed : List (Nat × Nat)} (run : Run placed) {p : Nat × Nat} (member : p ∈ placed) :
    p.1 ≤ p.2 ∧ ∀ z, p.1 ≤ z → z < p.2 → z ∈ placed.map Prod.snd := by
  induction run with
  | nil => cases member
  | @snoc placed d y run probes ih =>
    rw [List.map_append]
    rcases List.mem_append.mp member with old | new
    · exact ⟨(ih old).1, fun z low high => List.mem_append_left _ ((ih old).2 z low high)⟩
    · rw [List.mem_singleton.mp new]
      exact ⟨probes.start, fun z low high => List.mem_append_left _ (probes.passed z low high)⟩

/-- One number follows a greater one, and all the slots between them are full by then. -/
def Crowded (ds : List Nat) : Prop :=
  ∃ earlier d later, ds = earlier ++ d :: later ∧ ∃ d' ∈ earlier, d < d' ∧ ∀ x, d ≤ x → x ≤ d' → Full earlier x

theorem crowded_snoc (ds : List Nat) (d : Nat) :
    Crowded (ds ++ [d]) ↔ Crowded ds ∨ ∃ d' ∈ ds, d < d' ∧ ∀ x, d ≤ x → x ≤ d' → Full ds x := by
  constructor
  · rintro ⟨earlier, e, later, split, jumped⟩
    rcases List.eq_nil_or_concat later with rfl | ⟨later, last, rfl⟩
    · obtain ⟨rfl, same⟩ := List.append_inj' split rfl
      obtain rfl := (List.cons.inj same).1
      exact Or.inr jumped
    · rw [List.concat_eq_append, ← List.cons_append, ← List.append_assoc] at split
      exact Or.inl ⟨earlier, e, later, (List.append_inj' split rfl).1, jumped⟩
  · rintro (⟨earlier, e, later, rfl, jumped⟩ | jumped)
    · exact ⟨earlier, e, later ++ [d], by simp, jumped⟩
    · exact ⟨ds, d, [], rfl, jumped⟩

/-- The slots are in the order of the numbers unless the numbers are crowded. -/
theorem Run.ordered_iff {placed : List (Nat × Nat)} (run : Run placed) :
    (∀ p ∈ placed, ∀ q ∈ placed, p.2 < q.2 → p.1 ≤ q.1) ↔ ¬Crowded (placed.map Prod.fst) := by
  induction run with
  | nil =>
    refine iff_of_true (fun _ none => absurd none List.not_mem_nil) ?_
    rintro ⟨earlier, d, later, split, _⟩
    cases earlier <;> cases split
  | @snoc placed d y run probes ih =>
    rw [List.map_append, List.map_cons, List.map_nil, crowded_snoc, not_or, ← ih]
    have taken : ∀ x, x ∈ placed.map Prod.snd ↔ Full (placed.map Prod.fst) x := run.taken_iff
    constructor
    · intro ordered
      refine ⟨fun p first q second => ordered p (List.mem_append_left _ first) q (List.mem_append_left _ second), ?_⟩
      rintro ⟨d', member, less, full⟩
      obtain ⟨p, inPlaced, rfl⟩ := List.mem_map.mp member
      have beyond : p.1 < y := by
        by_contra within
        exact probes.free ((taken y).mpr (full y probes.start (Nat.not_lt.mp within)))
      rcases Nat.lt_trichotomy p.2 y with before | same | after
      · have order := ordered p (List.mem_append_left _ inPlaced) (d, y) (by simp) before
        exact absurd less (Nat.not_lt.mpr order)
      · exact probes.free (same ▸ List.mem_map_of_mem inPlaced)
      · exact probes.free ((run.passed inPlaced).2 y beyond.le after)
    · rintro ⟨ordered, room⟩ p first q second less
      rcases List.mem_append.mp first with old | new
      · rcases List.mem_append.mp second with old' | new'
        · exact ordered p old q old' less
        · rw [List.mem_singleton.mp new'] at less ⊢
          by_contra greater
          refine room ⟨p.1, List.mem_map_of_mem old, Nat.not_le.mp greater, fun x low high => (taken x).mp ?_⟩
          have slot := (run.passed old).1
          exact probes.passed x low (by omega)
      · rw [List.mem_singleton.mp new] at less ⊢
        rcases List.mem_append.mp second with old' | new'
        · by_contra smaller
          have start := probes.start
          exact probes.free ((run.passed old').2 y (by omega) less)
        · rw [List.mem_singleton.mp new'] at less
          exact absurd less (Nat.lt_irrefl y)

end LinearProbing
