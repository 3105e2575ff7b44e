import TrafficControl.TrafficRouterGolang.Quadtree.Tree

set_option autoImplicit false

-- The point that the search returns, and when it is a nearest one.
namespace TrafficRouterGolang.Quadtree

section Search

variable {top left : Rat}

theorem foldl_closer (top left : Rat) (candidates : List DataT) (start : DataT × Rat) :
    let best := candidates.foldl (closer top left) start
    best.2 ≤ start.2 ∧ (∀ e ∈ candidates, best.2 ≤ distSq top left e.lat e.lon) ∧
      (best = start ∨ best.1 ∈ candidates ∧ best.2 = distSq top left best.1.lat best.1.lon) := by
  induction candidates generalizing start with
  | nil => simp
  | cons e candidates ih =>
    obtain ⟨below, least, origin⟩ := ih (closer top left start e)
    have step : (closer top left start e).2 ≤ start.2 ∧ (closer top left start e).2 ≤ distSq top left e.lat e.lon := by
      unfold closer
      dsimp only
      split
      · next less => exact ⟨less.le, le_rfl⟩
      · next notLess => exact ⟨le_rfl, not_lt.mp notLess⟩
    refine ⟨below.trans step.1, ?_, ?_⟩
    · intro f member
      rcases List.mem_cons.mp member with rfl | later
      · exact below.trans step.2
      · exact least f later
    · rcases origin with same | ⟨member, dist⟩
      · rw [List.foldl_cons, same]
        unfold closer
        dsimp only
        split
        · exact Or.inr ⟨List.mem_cons_self, rfl⟩
        · exact Or.inl rfl
      · exact Or.inr ⟨List.mem_cons_of_mem _ member, dist⟩

theorem bestOf_none_iff {candidates : List DataT} : bestOf top left candidates = none ↔ candidates = [] := by
  simp [bestOf]

theorem bestOf_spec {candidates : List DataT} (near : ∀ e ∈ candidates, distSq top left e.lat e.lon < maxFloat64) {d : DataT}
    (best : bestOf top left candidates = some d) :
    d ∈ candidates ∧ ∀ e ∈ candidates, distSq top left d.lat d.lon ≤ distSq top left e.lat e.lon := by
  cases candidates with
  | nil => cases best
  | cons e candidates =>
    obtain ⟨below, least, origin⟩ := foldl_closer top left (e :: candidates) ({ lat := 0, lon := 0, obj := "" }, maxFloat64)
    obtain rfl := Option.some.inj best
    rcases origin with same | ⟨member, dist⟩
    · have first := (congrArg Prod.snd same).symm.trans_le (least e List.mem_cons_self)
      exact absurd (near e List.mem_cons_self) (not_lt.mpr first)
    · refine ⟨member, fun f other => ?_⟩
      rw [← dist]
      exact least f other

/-- The search returns a point that is least among those that it comes to, and fails where there is none. -/
theorem nearest_spec {n : Node} {cell : Cell} {points : Set DataT} (represents : Represents n cell points)
    (near : ∀ e ∈ points, distSq top left e.lat e.lon < maxFloat64) :
    (nearest top left n = none ↔ points = ∅) ∧ ∀ d, nearest top left n = some d →
      Visited top left cell points d ∧
        ∀ e, Visited top left cell points e → distSq top left d.lat d.lon ≤ distSq top left e.lat e.lon := by
  induction n generalizing cell points with
  | leaf c elements =>
    obtain ⟨rfl, one, same⟩ := represents
    have near' : ∀ e ∈ elements, distSq top left e.lat e.lon < maxFloat64 := fun e member => near e ((same e).mp member)
    refine ⟨?_, fun d found => ?_⟩
    · rw [nearest, bestOf_none_iff, List.eq_nil_iff_forall_not_mem, Set.eq_empty_iff_forall_notMem]
      exact forall_congr' fun e => not_congr (same e)
    · obtain ⟨member, least⟩ := bestOf_spec near' found
      exact ⟨.leaf one ((same d).mp member), fun e visited => least e ((same e).mpr visited.mem)⟩
  | split c children ih =>
    obtain ⟨rfl, several, represents⟩ := represents
    have below (k : Quadrant) := ih k (represents k) fun e member => near e member.1
    cases own : nearest top left (children (c.quadrant top left)) with
    | some d =>
      have inhabited : within c points (c.quadrant top left) ≠ ∅ := by
        rw [Ne, ← (below _).1, own]
        nofun
      obtain ⟨visited, least⟩ := (below _).2 d own
      have near' : ∀ e ∈ [d], distSq top left e.lat e.lon < maxFloat64 := by
        intro e member
        rw [List.mem_singleton.mp member]
        exact near d visited.mem.1
      have answer : nearest top left (.split c children) = bestOf top left [d] := by simp [nearest, own]
      rw [answer]
      refine ⟨?_, fun e found => ?_⟩
      · rw [bestOf_none_iff]
        refine iff_of_false nofun ?_
        rintro rfl
        exact visited.mem.1
      · rw [List.mem_singleton.mp (bestOf_spec near' found).1]
        refine ⟨.own several visited, fun e visited => ?_⟩
        cases visited with
        | leaf one _ => exact absurd one several
        | own _ visited => exact least e visited
        | elsewhere _ empty _ _ => exact absurd empty inhabited
    | none =>
      have empty := (below _).1.mp own
      have answer : nearest top left (.split c children) = bestOf top left
          ([.topLeft, .topRight, .bottomLeft, .bottomRight].filterMap fun k => nearest top left (children k)) := by
        simp [nearest, own]
      have candidate {d : DataT} : d ∈ ([.topLeft, .topRight, .bottomLeft, .bottomRight].filterMap fun k =>
          nearest top left (children k)) ↔ ∃ k, nearest top left (children k) = some d := by
        rw [List.mem_filterMap]
        refine exists_congr fun k => and_iff_right ?_
        cases k <;> simp
      rw [answer]
      refine ⟨?_, fun d found => ?_⟩
      · rw [bestOf_none_iff, List.eq_nil_iff_forall_not_mem, Set.eq_empty_iff_forall_notMem]
        constructor
        · intro none e member
          have inhabited : nearest top left (children (c.quadrant e.lat e.lon)) ≠ Option.none := by
            rw [Ne, (below _).1]
            exact Set.Nonempty.ne_empty ⟨e, member, rfl⟩
          obtain ⟨d, found⟩ := Option.ne_none_iff_exists'.mp inhabited
          exact none d (candidate.mpr ⟨_, found⟩)
        · intro none d member
          obtain ⟨k, found⟩ := candidate.mp member
          exact none d ((below k).2 d found).1.mem.1
      · have near' : ∀ e ∈ ([.topLeft, .topRight, .bottomLeft, .bottomRight].filterMap fun k =>
            nearest top left (children k)), distSq top left e.lat e.lon < maxFloat64 := by
          intro e member
          obtain ⟨k, found⟩ := candidate.mp member
          exact near e ((below k).2 e found).1.mem.1
        obtain ⟨member, least⟩ := bestOf_spec near' found
        obtain ⟨k, found⟩ := candidate.mp member
        refine ⟨.elsewhere several empty k ((below k).2 d found).1, fun e visited => ?_⟩
        cases visited with
        | leaf one _ => exact absurd one several
        | own _ visited => exact absurd visited.mem (Set.eq_empty_iff_forall_notMem.mp empty e)
        | elsewhere _ _ k visited =>
          have inhabited : nearest top left (children k) ≠ none := by
            rw [Ne, (below k).1]
            exact Set.Nonempty.ne_empty ⟨e, visited.mem⟩
          obtain ⟨f, best⟩ := Option.ne_none_iff_exists'.mp inhabited
          exact (least f (candidate.mpr ⟨k, best⟩)).trans (((below k).2 f best).2 e visited)

end Search

section Trees

variable {points : List DataT}

theorem insertions_represents {fuel : Nat} {n tree : Node} {cell : Cell} {before : Set DataT}
    (represents : Represents n cell before) (built : points.foldlM (insert fuel) n = some tree) :
    Represents tree cell ({d | d ∈ points} ∪ before) := by
  induction points generalizing n before with
  | nil =>
    cases built
    simpa using represents
  | cons d points ih =>
    rw [List.foldlM_cons] at built
    obtain ⟨next, first, rest⟩ := Option.bind_eq_some_iff.mp built
    have later := ih (insert_represents represents first) rest
    rwa [insert_union_list] at later

theorem empty_represents : Represents (.leaf world []) world ∅ := by
  refine ⟨rfl, ?_, fun d => ?_⟩
  · rintro d ⟨⟩
  · exact iff_of_false List.not_mem_nil id

theorem build_represents {fuel : Nat} {tree : Node} (built : build fuel points = some tree) :
    Represents tree world {d | d ∈ points} := by
  have represents := insertions_represents empty_represents built
  rwa [Set.union_empty] at represents

theorem build_mono {fuel more : Nat} {n tree : Node} (enough : fuel ≤ more)
    (built : points.foldlM (insert fuel) n = some tree) : points.foldlM (insert more) n = some tree :=
  foldlM_mono (fun _ _ _ => insert_mono enough) built

theorem insertions_total {n : Node} {before : Set DataT} (represents : Represents n world before)
    (insideBefore : ∀ d ∈ before, world.Inside d.lat d.lon) (inside : ∀ d ∈ points, world.Inside d.lat d.lon) :
    ∃ fuel tree, points.foldlM (insert fuel) n = some tree := by
  induction points generalizing n before with
  | nil => exact ⟨0, n, rfl⟩
  | cons d points ih =>
    have insideNew := inside d List.mem_cons_self
    obtain ⟨fuel, next, first⟩ := insert_total represents insideBefore insideNew
    have insideNext : ∀ e ∈ Insert.insert d before, world.Inside e.lat e.lon := by
      rintro e (rfl | member)
      · exact insideNew
      · exact insideBefore e member
    obtain ⟨more, tree, rest⟩ := ih (insert_represents represents first) insideNext fun e member =>
      inside e (List.mem_cons_of_mem _ member)
    refine ⟨max fuel more, tree, ?_⟩
    rw [List.foldlM_cons, insert_mono (le_max_left fuel more) first]
    exact build_mono (le_max_right fuel more) rest

theorem build_total (inside : ∀ d ∈ points, world.Inside d.lat d.lon) : ∃ fuel tree, build fuel points = some tree := by
  refine insertions_total empty_represents ?_ inside
  rintro d ⟨⟩

theorem build_unique {fuel fuel' : Nat} {tree tree' : Node} (built : build fuel points = some tree)
    (built' : build fuel' points = some tree') : tree = tree' := by
  have first := build_mono (le_max_left fuel fuel') built
  have second := build_mono (le_max_right fuel fuel') built'
  exact Option.some.inj (first.symm.trans second)

end Trees

theorem square_le {low high x y : Rat} (lowX : low ≤ x) (highX : x ≤ high) (lowY : low ≤ y) (highY : y ≤ high) :
    (y - x) * (y - x) ≤ (high - low) * (high - low) := by
  have close := close_of_inside lowY highY lowX highX
  have squares := mul_le_mul close close (abs_nonneg _) (by linarith)
  rwa [abs_mul_abs_self] at squares

theorem distSq_lt {top left lat lon : Rat} (query : world.Inside top left) (inside : world.Inside lat lon) :
    distSq top left lat lon < maxFloat64 := by
  have lats := square_le query.2.2.1 query.2.2.2 inside.2.2.1 inside.2.2.2
  have lons := square_le query.1 query.2.1 inside.1 inside.2.1
  have power : (1 : Rat) ≤ 2 ^ 971 := one_le_pow₀ (by norm_num)
  calc distSq top left lat lon
    _ ≤ (world.top - world.bottom) * (world.top - world.bottom) + (world.right - world.left) * (world.right - world.left) :=
      add_le_add lats lons
    _ < (2 ^ 53 - 1) * 1 := by norm_num [world]
    _ ≤ maxFloat64 := mul_le_mul_of_nonneg_left power (by norm_num)

/-- The answer of `Nearest` after the insertions: none when there were none, and else an inserted point at the least
distance. -/
def Correct (points : List DataT) (top left : Rat) (answer : Option DataT) : Prop :=
  (answer.isSome = true ↔ points ≠ []) ∧ ∀ d, answer = some d →
    d ∈ points ∧ ∀ e ∈ points, distSq top left d.lat d.lon ≤ distSq top left e.lat e.lon

/-- The insertions end in one tree, and its answer is right exactly when there are no points or the search comes to a nearest
one. -/
theorem nearest_correct_iff {points : List DataT} (inside : ∀ d ∈ points, world.Inside d.lat d.lon) {top left : Rat}
    (insideQuery : world.Inside top left) :
    ∃ tree, (∃ fuel, build fuel points = some tree) ∧ (∀ fuel other, build fuel points = some other → other = tree) ∧
      (Correct points top left (nearest top left tree) ↔ points = [] ∨ Reaches top left {d | d ∈ points}) := by
  obtain ⟨fuel, tree, built⟩ := build_total inside
  have represents := build_represents built
  obtain ⟨none, found⟩ := nearest_spec represents fun e member => distSq_lt insideQuery (inside e member)
  refine ⟨tree, ⟨fuel, built⟩, fun fuel' other built' => build_unique built' built, ?_⟩
  have empty : {d | d ∈ points} = (∅ : Set DataT) ↔ points = [] := by
    rw [Set.eq_empty_iff_forall_notMem, List.eq_nil_iff_forall_not_mem]
    exact Iff.rfl
  rw [empty] at none
  cases answer : nearest top left tree with
  | none =>
    have noPoints := none.mp answer
    subst noPoints
    exact iff_of_true ⟨by simp, nofun⟩ (Or.inl rfl)
  | some d =>
    have somePoints : points ≠ [] := fun noPoints => by simp [none.mpr noPoints] at answer
    obtain ⟨visited, least⟩ := found d answer
    constructor
    · rintro ⟨-, right⟩
      exact Or.inr ⟨d, visited, (right d rfl).2⟩
    · rintro (noPoints | ⟨e, reached, closest⟩)
      · exact absurd noPoints somePoints
      · refine ⟨iff_of_true rfl somePoints, fun f same => ?_⟩
        obtain rfl := Option.some.inj same
        exact ⟨visited.mem, fun f member => (least e reached).trans (closest f member)⟩

def far : DataT where
  lat := 80
  lon := 170
  obj := "far"

def near : DataT where
  lat := -1
  lon := -1
  obj := "near"

theorem nearest_correct_iff_far :
    ∃ tree, (∃ fuel, build fuel [far, near] = some tree) ∧
      (∀ fuel other, build fuel [far, near] = some other → other = tree) ∧
        (Correct [far, near] 1 1 (nearest 1 1 tree) ↔ [far, near] = [] ∨ Reaches 1 1 {d | d ∈ [far, near]}) :=
  nearest_correct_iff (by simp [far, near, Cell.Inside, world]; norm_num) (by norm_num [Cell.Inside, world])

/-- The query's quadrant has a point, but the nearest one is across both split lines. -/
theorem not_correct : ∃ tree, build 2 [far, near] = some tree ∧ nearest 1 1 tree = some far ∧
    ¬Correct [far, near] 1 1 (nearest 1 1 tree) := by
  have answer : (build 2 [far, near]).bind (nearest 1 1) = some far := by decide +kernel
  obtain ⟨tree, built, found⟩ := Option.bind_eq_some_iff.mp answer
  refine ⟨tree, built, found, fun correct => ?_⟩
  have least := (correct.2 far found).2 near (by simp)
  norm_num [distSq, far, near] at least

end TrafficRouterGolang.Quadtree
