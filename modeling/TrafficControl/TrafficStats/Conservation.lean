import TrafficControl.TrafficStats.Publishing

set_option autoImplicit false

-- Where the points of Traffic Stats are.
namespace TrafficStats.Publishing

open Runs SharedLists

def Rest.loose : Rest → List Nat
  | .bytesServed _ => []
  | .write _ pts => pts

-- The batch that the task keeps the points of.
def Task.refs : Task → List Nat
  | .send bp _ => [bp]
  | .connect bps => [bps]
  | .run _ => []

-- The points that the task keeps apart from a batch.
def Task.loose : Task → List Nat
  | .send _ rest => rest.elim [] Rest.loose
  | .connect _ => []
  | .run rest => rest.loose

def State.refs (s : State) : List Nat := s.bps.entries.map Sigma.snd ++ s.tasks.flatMap Task.refs

/-- All places of points: what is written, the batches in the map and in flight, and what `sendMetrics` has left to write. -/
def places (s : State) : List Nat :=
  s.written.flatMap Prod.snd ++ held s.points s.refs ++ s.tasks.flatMap Task.loose

/-- Every point that was made is in exactly one place. -/
def Conserved (s : State) : Prop := ∀ p, (places s).count p = if p < s.nextPoint then 1 else 0

/-- No points are added to a batch that has a second reference. -/
def Separate (s : State) : Event → Prop
  | .bytesServed i (some n) => ∀ bp, s.tasks[i]? = some (.run (.bytesServed bp)) → s.points bp = [] ∧ (n = 0 ∨ bp ∉ s.refs)
  | .receive i => ∀ batchPoints rest bp, s.tasks[i]? = some (.send batchPoints rest) →
      s.bps.lookup (s.key batchPoints) = some bp → s.points batchPoints = [] ∨ s.refs.count bp = 1
  | _ => True

section Copies

variable {s : State} {i n : Nat} {task : Task} {p : Nat}

def copies (s : State) (p : Nat) : Nat := (places s).count p

theorem copies_eq (s : State) (p : Nat) : copies s p =
    (s.written.flatMap Prod.snd).count p + (held s.points s.refs).count p + (s.tasks.flatMap Task.loose).count p := by
  rw [copies, places, List.count_append, List.count_append]

theorem refs_go (s : State) (task : Task) : (s.go task).refs.Perm (task.refs ++ s.refs) := by
  simp only [State.refs, State.go, List.flatMap_cons]
  exact List.perm_append_comm_assoc _ _ _

theorem copies_go (s : State) (task : Task) (p : Nat) :
    copies (s.go task) p = copies s p + (held s.points task.refs).count p + task.loose.count p := by
  have reached : (held (s.go task).points (s.go task).refs).count p = _ := (held_perm (refs_go s task)).count_eq p
  rw [copies_eq, copies_eq, reached, count_held]
  simp only [State.go, List.flatMap_cons, List.count_append]
  omega

theorem tasks_perm (found : s.tasks[i]? = some task) : s.tasks.Perm (task :: (s.finished i).tasks) := by
  obtain ⟨bound, rfl⟩ := List.getElem?_eq_some_iff.mp found
  exact (List.getElem_cons_eraseIdx_perm bound).symm

theorem refs_finished (found : s.tasks[i]? = some task) : s.refs.Perm (task.refs ++ (s.finished i).refs) := by
  have parts := (tasks_perm found).flatMap_right Task.refs
  rw [List.flatMap_cons] at parts
  exact (parts.append_left _).trans (List.perm_append_comm_assoc _ _ _)

theorem copies_finished (found : s.tasks[i]? = some task) (p : Nat) :
    copies s p = copies (s.finished i) p + (held s.points task.refs).count p + task.loose.count p := by
  have reached : (held s.points s.refs).count p = _ := (held_perm (refs_finished found)).count_eq p
  have kept := ((tasks_perm found).flatMap_right Task.loose).count_eq p
  rw [List.flatMap_cons, List.count_append] at kept
  rw [copies_eq, copies_eq, kept, reached, count_held]
  simp only [State.finished]
  omega

theorem copies_newBatchPoints (fresh : s.nextBatch ∉ s.refs) (config : BatchPointsConfig) (points : List Nat) (p : Nat) :
    copies (s.newBatchPoints config points) p = copies s p := by
  rw [copies_eq, copies_eq]
  have reached : held (s.newBatchPoints config points).points (s.newBatchPoints config points).refs = held s.points s.refs :=
    held_update fresh points
  rw [reached]
  rfl

theorem copies_addPoints (s : State) (bp : Nat) (points : List Nat) (p : Nat) :
    copies (s.addPoints bp points) p = copies s p + s.refs.count bp * points.count p := by
  have reached : (held (s.addPoints bp points).points (s.addPoints bp points).refs).count p = _ :=
    count_held_append bp points p
  rw [copies_eq, copies_eq, reached]
  simp only [State.addPoints, State.refs]
  omega

theorem refs_publish (s : State) : s.publish.refs = s.refs := by
  simp only [State.refs, State.publish, AList.empty_entries, List.map_nil, List.nil_append, List.flatMap_append,
    List.flatMap_map, List.append_cancel_right_eq]
  exact List.map_eq_flatMap.symm

theorem copies_publish (s : State) (p : Nat) : copies s.publish p = copies s p := by
  have loose : s.publish.tasks.flatMap Task.loose = s.tasks.flatMap Task.loose := by
    simp [State.publish, List.flatMap_append, List.flatMap_map, Task.loose]
  rw [copies_eq, copies_eq, refs_publish, loose]
  rfl

end Copies

-- The batch that a daily summary may come back to.
def Rest.waiting : Rest → List Nat
  | .bytesServed bp => [bp]
  | .write _ _ => []

def Task.waiting : Task → List Nat
  | .send _ rest => rest.elim [] Rest.waiting
  | .connect _ => []
  | .run rest => rest.waiting

def Task.Bounded (s : State) (task : Task) : Prop :=
  (∀ bp ∈ task.refs ++ task.waiting, bp < s.nextBatch) ∧ ∀ p ∈ task.loose, p < s.nextPoint

/-- Batches and points are numbered as they are made. -/
structure Bounded (s : State) : Prop where
  bps : ∀ entry ∈ s.bps.entries, entry.2 < s.nextBatch
  tasks : ∀ task ∈ s.tasks, task.Bounded s
  points : ∀ bp, ∀ p ∈ s.points bp, p < s.nextPoint

namespace Bounded

variable {s s' : State} {i n : Nat}

theorem task_mono {task : Task} (bounded : task.Bounded s) (batches : s.nextBatch ≤ s'.nextBatch)
    (points : s.nextPoint ≤ s'.nextPoint) : task.Bounded s' :=
  ⟨fun bp member => Nat.lt_of_lt_of_le (bounded.1 bp member) batches,
    fun p member => Nat.lt_of_lt_of_le (bounded.2 p member) points⟩

theorem fresh (bounded : Bounded s) : s.nextBatch ∉ s.refs := by
  intro member
  rcases List.mem_append.mp member with inMap | inTasks
  · obtain ⟨entry, listed, same⟩ := List.mem_map.mp inMap
    exact absurd (bounded.bps entry listed) (by omega)
  · obtain ⟨task, listed, held⟩ := List.mem_flatMap.mp inTasks
    exact absurd ((bounded.tasks task listed).1 _ (List.mem_append_left _ held)) (Nat.lt_irrefl _)

theorem go (bounded : Bounded s) {task : Task} (taskBounded : task.Bounded s) : Bounded (s.go task) :=
  ⟨bounded.bps, List.forall_mem_cons.mpr ⟨taskBounded, bounded.tasks⟩, bounded.points⟩

theorem finished (bounded : Bounded s) (i : Nat) : Bounded (s.finished i) :=
  ⟨bounded.bps, fun task member => bounded.tasks task (List.mem_of_mem_eraseIdx member), bounded.points⟩

theorem newBatchPoints (bounded : Bounded s) (config : BatchPointsConfig) {points : List Nat}
    (made : ∀ p ∈ points, p < s.nextPoint + n) : Bounded ((s.newBatchPoints config points).made n) := by
  refine ⟨fun entry member => ?_, fun task member => ?_, fun bp p member => ?_⟩
  · exact Nat.lt_succ_of_lt (bounded.bps entry member)
  · exact task_mono (bounded.tasks task member) (Nat.le_succ _) (Nat.le_add_right _ _)
  · by_cases new : bp = s.nextBatch
    · subst new
      exact made p (by simpa [State.newBatchPoints, State.made] using member)
    · have old : p ∈ s.points bp := by simpa [State.newBatchPoints, State.made, new] using member
      exact Nat.lt_of_lt_of_le (bounded.points bp p old) (Nat.le_add_right _ _)

theorem addPoints (bounded : Bounded s) (bp : Nat) {points : List Nat} (made : ∀ p ∈ points, p < s.nextPoint + n) :
    Bounded ((s.addPoints bp points).made n) := by
  refine ⟨bounded.bps, fun task member => ?_, fun other p member => ?_⟩
  · exact task_mono (bounded.tasks task member) (Nat.le_refl _) (Nat.le_add_right _ _)
  · have known (old : p ∈ s.points other) : p < s.nextPoint + n :=
      Nat.lt_of_lt_of_le (bounded.points other p old) (Nat.le_add_right _ _)
    by_cases same : other = bp
    · subst same
      have parts : p ∈ s.points other ++ points := by simpa [State.addPoints, State.made] using member
      exact (List.mem_append.mp parts).elim known (made p)
    · exact known (by simpa [State.addPoints, State.made, same] using member)

theorem receive (bounded : Bounded s) {batchPoints : Nat} (known : batchPoints < s.nextBatch) :
    Bounded (s.receive batchPoints) := by
  unfold State.receive
  split
  · exact bounded.addPoints (n := 0) _ (bounded.points batchPoints)
  · next absent =>
    refine ⟨?_, bounded.tasks, bounded.points⟩
    rw [AList.entries_insert_of_notMem (AList.lookup_eq_none.mp absent)]
    exact List.forall_mem_cons.mpr ⟨known, bounded.bps⟩

theorem publish (bounded : Bounded s) : Bounded s.publish := by
  refine ⟨by simp [State.publish], fun task member => ?_, bounded.points⟩
  rcases List.mem_append.mp member with published | other
  · obtain ⟨entry, listed, rfl⟩ := List.mem_map.mp published
    exact ⟨by simpa [Task.refs, Task.waiting, State.publish] using bounded.bps entry listed, by simp [Task.loose]⟩
  · exact bounded.tasks task other

theorem proceed (bounded : Bounded s) {rest : Option Rest} (waiting : ∀ bp ∈ rest.elim [] Rest.waiting, bp < s.nextBatch)
    (loose : ∀ p ∈ rest.elim [] Rest.loose, p < s.nextPoint) : Bounded (s.proceed rest) := by
  cases rest with
  | none => exact bounded
  | some rest => exact bounded.go ⟨waiting, loose⟩

theorem sendChunk (bounded : Bounded s) (maxPublishSize bps : Nat) {pts : List Nat} (made : ∀ p ∈ pts, p < s.nextPoint)
    (ok : Bool) : Bounded (sendChunk maxPublishSize s bps pts ok) := by
  have left : ∀ p ∈ pts.drop maxPublishSize, p < s.nextPoint := fun p member => made p (List.mem_of_mem_drop member)
  cases ok with
  | true =>
    have kept : Bounded { s with written := (s.config bps, pts.take maxPublishSize) :: s.written } :=
      ⟨bounded.bps, bounded.tasks, bounded.points⟩
    exact kept.go ⟨by simp [Task.refs, Task.waiting, Rest.waiting], left⟩
  | false =>
    have chunk : ∀ p ∈ pts.take maxPublishSize, p < s.nextPoint := fun p member => made p (List.mem_of_mem_take member)
    exact (bounded.newBatchPoints (n := 0) (s.config bps) chunk).go
      ⟨by simp [Task.refs, Task.waiting, Rest.waiting, State.newBatchPoints, State.made], left⟩

end Bounded

theorem newPoints_bounded {s : State} {n : Nat} : ∀ p ∈ s.newPoints n, p < s.nextPoint + n := by
  intro p member
  exact (List.mem_range'_1.mp member).2

theorem receive_next (s : State) (batchPoints : Nat) :
    (s.receive batchPoints).nextBatch = s.nextBatch ∧ (s.receive batchPoints).nextPoint = s.nextPoint := by
  unfold State.receive
  split <;> exact ⟨rfl, rfl⟩

theorem step_bounded {maxPublishSize : Nat} {s s' : State} {event : Event} (bounded : Bounded s)
    (stepped : step maxPublishSize s event = some s') : Bounded s' := by
  have ended {i : Nat} {task : Task} (found : s.tasks[i]? = some task) : Bounded (s.finished i) ∧ task.Bounded s :=
    ⟨bounded.finished i, bounded.tasks task (List.mem_of_getElem? found)⟩
  cases event with
  | poll config n =>
    cases stepped
    exact (bounded.newBatchPoints config newPoints_bounded).go
      ⟨by simp [Task.refs, Task.waiting, State.newBatchPoints, State.made], by simp [Task.loose]⟩
  | dailySummary retentionPolicy maxGbps =>
    cases maxGbps with
    | none =>
      cases stepped
      exact (bounded.newBatchPoints (n := 0) _ (by simp)).go
        ⟨by simp [Task.refs, Task.waiting, Rest.waiting, State.newBatchPoints, State.made], by simp [Task.loose, Rest.loose]⟩
    | some n =>
      cases stepped
      exact (bounded.newBatchPoints _ newPoints_bounded).go
        ⟨by simp [Task.refs, Task.waiting, Rest.waiting, State.newBatchPoints, State.made], by simp [Task.loose, Rest.loose]⟩
  | bytesServed i n =>
    obtain ⟨bp, found, rfl⟩ := step_bytesServed stepped
    obtain ⟨finished, known, _⟩ := ended found
    cases n with
    | none => exact finished
    | some n =>
      refine (finished.addPoints bp newPoints_bounded).go ⟨fun other member => known other ?_, by simp [Task.loose]⟩
      simpa [Task.refs, Task.waiting, Rest.waiting] using member
  | receive i =>
    obtain ⟨bp, rest, found, rfl⟩ := step_receive stepped
    obtain ⟨finished, known, loose⟩ := ended found
    obtain ⟨batches, points⟩ := receive_next (s.finished i) bp
    refine (finished.receive (known bp (by simp [Task.refs]))).proceed (fun other member => ?_) fun p member => ?_
    · rw [batches]
      exact known other (List.mem_append_right _ member)
    · rw [points]
      exact loose p member
  | publish =>
    cases stepped
    exact bounded.publish
  | connected i ok =>
    obtain ⟨bps, found, rfl⟩ := step_connected stepped
    obtain ⟨finished, known, loose⟩ := ended found
    cases ok with
    | true => exact finished.go ⟨by simp [Task.refs, Task.waiting, Rest.waiting], bounded.points bps⟩
    | false => exact finished.go ⟨known, by simp [Task.loose]⟩
  | written i ok =>
    obtain ⟨bps, pts, found, ⟨_, rfl⟩ | rfl⟩ := step_written stepped
    · exact (ended found).1
    · exact (ended found).1.sendChunk maxPublishSize bps (ended found).2.2 ok

section Exact

variable {s s' : State} {i n : Nat}

theorem count_newPoints (s : State) (n : Nat) (p : Nat) :
    (s.newPoints n).count p = if s.nextPoint ≤ p ∧ p < s.nextPoint + n then 1 else 0 := by
  have distinct : (s.newPoints n).Nodup := List.nodup_range'
  by_cases new : s.nextPoint ≤ p ∧ p < s.nextPoint + n
  · rw [if_pos new, List.count_eq_one_of_mem distinct (List.mem_range'_1.mpr new)]
  · rw [if_neg new, List.count_eq_zero]
    exact fun member => new (List.mem_range'_1.mp member)

theorem conserved_same (conserved : Conserved s) (next : s'.nextPoint = s.nextPoint) (same : ∀ p, copies s' p = copies s p) :
    Conserved s' := by
  intro p
  rw [next, ← conserved p]
  exact same p

theorem conserved_made (conserved : Conserved s) (next : s'.nextPoint = s.nextPoint + n)
    (made : ∀ p, copies s' p = copies s p + (s.newPoints n).count p) : Conserved s' := by
  intro p
  have before : copies s p = _ := conserved p
  have now : (places s').count p = _ := made p
  rw [now, before, next, count_newPoints]
  split <;> split <;> split <;> omega

/-- A new batch is sent with the points that it is made with. -/
theorem copies_sendNew (bounded : Bounded s) (config : BatchPointsConfig) (points : List Nat) (rest : Option Rest)
    (loose : rest.elim [] Rest.loose = []) (p : Nat) :
    copies (((s.newBatchPoints config points).made n).go (.send s.nextBatch rest)) p = copies s p + points.count p := by
  have new := copies_newBatchPoints bounded.fresh config points p
  have made : copies ((s.newBatchPoints config points).made n) p = copies (s.newBatchPoints config points) p := rfl
  rw [copies_go, made, new]
  simp [Task.refs, Task.loose, loose, held, State.newBatchPoints, State.made]

theorem copies_proceed (s : State) (rest : Option Rest) (p : Nat) :
    copies (s.proceed rest) p = copies s p + (rest.elim [] Rest.loose).count p := by
  cases rest with
  | none => rfl
  | some rest =>
    change copies (s.go (.run rest)) p = _
    rw [copies_go]
    simp [Task.refs, Task.loose, held]

/-- The first batch of its key goes into the map. -/
theorem refs_receive_first {batchPoints : Nat} (absent : s.bps.lookup (s.key batchPoints) = none) :
    (s.receive batchPoints).refs = [batchPoints] ++ s.refs := by
  simp only [State.refs, State.receive, absent, AList.entries_insert_of_notMem (AList.lookup_eq_none.mp absent),
    List.map_cons, List.cons_append, List.nil_append]

theorem copies_receive_first {batchPoints : Nat} (absent : s.bps.lookup (s.key batchPoints) = none) (p : Nat) :
    copies (s.receive batchPoints) p = copies s p + (s.points batchPoints).count p := by
  rw [copies_eq, copies_eq, refs_receive_first absent, count_held, held, List.flatMap_singleton]
  simp only [State.receive, absent]
  omega

theorem copies_receive_merged {batchPoints bp : Nat} (found : s.bps.lookup (s.key batchPoints) = some bp) (p : Nat) :
    copies (s.receive batchPoints) p = copies s p + s.refs.count bp * (s.points batchPoints).count p := by
  simp only [State.receive, found]
  exact copies_addPoints s bp _ p

theorem copies_chunk (bounded : Bounded s) (maxPublishSize bps : Nat) (pts : List Nat) (ok : Bool) (p : Nat) :
    copies (sendChunk maxPublishSize s bps pts ok) p = copies s p + pts.count p := by
  have parts : pts.count p = (pts.take maxPublishSize).count p + (pts.drop maxPublishSize).count p := by
    rw [← List.count_append, List.take_append_drop]
  cases ok with
  | true =>
    have gone := copies_go { s with written := (s.config bps, pts.take maxPublishSize) :: s.written }
      (.run (.write bps (pts.drop maxPublishSize))) p
    have stored : copies { s with written := (s.config bps, pts.take maxPublishSize) :: s.written } p =
        (pts.take maxPublishSize).count p + copies s p := by
      rw [copies_eq, copies_eq, List.flatMap_cons, List.count_append]
      simp only [State.refs]
      omega
    refine gone.trans ?_
    rw [stored, parts]
    simp [Task.refs, Task.loose, Rest.loose, held]
    omega
  | false =>
    have new := copies_newBatchPoints bounded.fresh (s.config bps) (pts.take maxPublishSize) p
    refine (copies_go _ _ p).trans ?_
    rw [new, parts]
    simp [Task.refs, Task.loose, Rest.loose, held, State.newBatchPoints]
    omega

theorem copies_bytesServed {bp : Nat} (found : s.tasks[i]? = some (.run (.bytesServed bp))) (p : Nat) :
    copies ((((s.finished i).addPoints bp (s.newPoints n)).made n).go (.send bp none)) p =
      copies s p + (s.points bp).count p + (s.refs.count bp + 1) * (s.newPoints n).count p := by
  have before := copies_finished found p
  have refs := (refs_finished found).count_eq bp
  have made (t : State) : copies (t.made n) p = copies t p := rfl
  rw [copies_go, made, copies_addPoints, before, refs]
  simp only [Task.refs, Task.loose, Rest.loose, held, State.addPoints, State.made, State.finished, List.flatMap_cons,
    List.flatMap_nil, List.append_nil, List.nil_append, List.count_nil, Option.elim, Function.update_self, List.count_append,
    Nat.add_mul, Nat.one_mul]
  omega

/-- What a daily summary sends for the second time is in one place only if it is sent for the first time. -/
theorem bytesServed_iff (bounded : Bounded s) (conserved : Conserved s) {bp : Nat}
    (found : s.tasks[i]? = some (.run (.bytesServed bp))) :
    Conserved ((((s.finished i).addPoints bp (s.newPoints n)).made n).go (.send bp none)) ↔
      s.points bp = [] ∧ (n = 0 ∨ bp ∉ s.refs) := by
  have count (p : Nat) := copies_bytesServed (n := n) found p
  have before (p : Nat) : copies s p = if p < s.nextPoint then 1 else 0 := conserved p
  constructor
  · intro after
    have now (p : Nat) : copies _ p = if p < s.nextPoint + n then 1 else 0 := after p
    constructor
    · apply List.eq_nil_iff_forall_not_mem.mpr
      intro p member
      have old := bounded.points bp p member
      have held := List.count_pos_iff.mpr member
      have both := (count p).symm.trans (now p)
      rw [before, if_pos old, if_pos (by omega)] at both
      omega
    · by_contra neither
      obtain ⟨some, referenced⟩ := not_or.mp neither
      have twice := List.count_pos_iff.mpr (not_not.mp referenced)
      have both := (count s.nextPoint).symm.trans (now s.nextPoint)
      rw [before, if_neg (Nat.lt_irrefl _), if_pos (by omega), count_newPoints, if_pos (by omega)] at both
      omega
  · rintro ⟨empty, once⟩
    refine conserved_made conserved rfl fun p => ?_
    rw [count, empty]
    rcases once with rfl | unreferenced
    · simp [State.newPoints]
    · rw [List.count_eq_zero.mpr unreferenced]
      simp

theorem copies_send {batchPoints : Nat} {rest : Option Rest} (found : s.tasks[i]? = some (.send batchPoints rest)) (p : Nat) :
    copies s p = copies (s.finished i) p + (s.points batchPoints).count p + (rest.elim [] Rest.loose).count p := by
  rw [copies_finished found, Task.refs, held, List.flatMap_singleton, Task.loose]

theorem mem_refs {key : String} {bp : Nat} (found : s.bps.lookup key = some bp) : bp ∈ s.refs :=
  List.mem_append_left _ (List.mem_map_of_mem (AList.mem_lookup_iff.mp found))

/-- A batch with two references has no points. -/
theorem points_eq_nil (conserved : Conserved s) {bp : Nat} (shared : 2 ≤ s.refs.count bp) : s.points bp = [] := by
  apply List.eq_nil_iff_forall_not_mem.mpr
  intro p member
  have twice := Nat.mul_le_mul shared (List.count_pos_iff.mpr member)
  have within : s.refs.count bp * (s.points bp).count p ≤ (held s.points s.refs).count p := count_mul_le_held bp p
  have here : copies s p = _ := conserved p
  rw [copies_eq] at here
  split at here <;> omega

theorem receive_iff (conserved : Conserved s) {batchPoints : Nat} {rest : Option Rest}
    (found : s.tasks[i]? = some (.send batchPoints rest)) :
    Conserved (((s.finished i).receive batchPoints).proceed rest) ↔
      ∀ bp, s.bps.lookup (s.key batchPoints) = some bp → s.points batchPoints = [] ∨ s.refs.count bp = 1 := by
  have next : (((s.finished i).receive batchPoints).proceed rest).nextPoint = s.nextPoint := by
    have received := (receive_next (s.finished i) batchPoints).2
    cases rest <;> exact received
  have before (p : Nat) := copies_send found p
  have after (p : Nat) := copies_proceed ((s.finished i).receive batchPoints) rest p
  cases lookup : s.bps.lookup (s.key batchPoints) with
  | none =>
    refine ⟨fun _ => by simp, fun _ => conserved_same conserved next fun p => ?_⟩
    have first : copies ((s.finished i).receive batchPoints) p =
        copies (s.finished i) p + (s.points batchPoints).count p := copies_receive_first (s := s.finished i) lookup p
    rw [after, before, first]
  | some bp =>
    have merged (p : Nat) : copies ((s.finished i).receive batchPoints) p =
        copies (s.finished i) p + (s.finished i).refs.count bp * (s.points batchPoints).count p :=
      copies_receive_merged (s := s.finished i) lookup p
    have inMap : 0 < (s.finished i).refs.count bp := List.count_pos_iff.mpr (mem_refs (s := s.finished i) lookup)
    have refs : s.refs.count bp = _ := (refs_finished found).count_eq bp
    rw [List.count_append, Task.refs] at refs
    simp only [Option.some.injEq, forall_eq']
    constructor
    · intro conserved'
      by_cases empty : s.points batchPoints = []
      · exact Or.inl empty
      obtain ⟨p, member⟩ := List.exists_mem_of_ne_nil _ empty
      have present := List.count_pos_iff.mpr member
      have here : copies s p = _ := conserved p
      have there : copies _ p = _ := conserved' p
      rw [next, ← here, after, before, merged] at there
      have once : (s.finished i).refs.count bp = 1 :=
        Nat.eq_of_mul_eq_mul_right present (by omega)
      by_cases same : batchPoints = bp
      · subst same
        refine Or.inl (points_eq_nil conserved ?_)
        rw [refs, List.count_singleton_self, once]
      · refine Or.inr ?_
        rw [refs, List.count_singleton, if_neg (by simpa using same), once]
    · intro separate
      refine conserved_same conserved next fun p => ?_
      rw [after, before, merged]
      rcases separate with empty | once
      · rw [empty]
        simp
      · rw [show (s.finished i).refs.count bp = 1 by omega, Nat.one_mul]

theorem step_conserved_iff {maxPublishSize : Nat} {event : Event} (bounded : Bounded s) (conserved : Conserved s)
    (stepped : step maxPublishSize s event = some s') : Conserved s' ↔ Separate s event := by
  cases event with
  | poll config n =>
    cases stepped
    refine iff_of_true (conserved_made (n := n) conserved rfl fun p => ?_) trivial
    exact copies_sendNew bounded config (s.newPoints n) none rfl p
  | dailySummary retentionPolicy maxGbps =>
    cases maxGbps with
    | none =>
      cases stepped
      refine iff_of_true (conserved_same conserved rfl fun p => ?_) trivial
      rw [copies_go, copies_newBatchPoints bounded.fresh]
      simp [Task.refs, Task.loose, Rest.loose, held]
    | some n =>
      cases stepped
      refine iff_of_true (conserved_made (n := n) conserved rfl fun p => ?_) trivial
      exact copies_sendNew bounded _ (s.newPoints n) (some (.bytesServed s.nextBatch)) rfl p
  | bytesServed i n =>
    obtain ⟨bp, found, rfl⟩ := step_bytesServed stepped
    cases n with
    | none =>
      refine iff_of_true (conserved_same conserved rfl fun p => ?_) trivial
      have before := copies_finished found p
      simpa [Task.refs, Task.loose, Rest.loose, held] using before.symm
    | some n =>
      refine (bytesServed_iff bounded conserved found).trans ?_
      simp [Separate, found]
  | receive i =>
    obtain ⟨batchPoints, rest, found, rfl⟩ := step_receive stepped
    refine (receive_iff conserved found).trans ?_
    constructor
    · intro separate _ _ bp sent inMap
      cases Option.some.inj (found.symm.trans sent)
      exact separate bp inMap
    · exact fun separate bp => separate batchPoints rest bp found
  | publish =>
    cases stepped
    exact iff_of_true (conserved_same conserved rfl fun p => copies_publish s p) trivial
  | connected i ok =>
    obtain ⟨bps, found, rfl⟩ := step_connected stepped
    refine iff_of_true (conserved_same conserved rfl fun p => ?_) trivial
    rw [copies_finished found, copies_go]
    cases ok <;> simp [Task.refs, Task.loose, Rest.loose, held, State.finished]
  | written i ok =>
    obtain ⟨bps, pts, found, ⟨rfl, rfl⟩ | rfl⟩ := step_written stepped
    · refine iff_of_true (conserved_same conserved rfl fun p => ?_) trivial
      have before := copies_finished found p
      simpa [Task.refs, Task.loose, Rest.loose, held] using before.symm
    · refine iff_of_true (conserved_same conserved ?_ fun p => ?_) trivial
      · cases ok <;> rfl
      · rw [copies_chunk (bounded.finished i), copies_finished found]
        simp [Task.refs, Task.loose, Rest.loose, held]

end Exact

theorem start_bounded : Bounded start := ⟨by simp [start], by simp [start], by simp [start]⟩

theorem start_conserved : Conserved start := by
  intro p
  simp [places, start, State.refs, held]

/-- Every point is in one place after every step of a run if and only if no step adds points to a batch that is in two
places. -/
theorem conserved_iff (maxPublishSize : Nat) (events : List Event) :
    Always (step maxPublishSize) Conserved start events ↔ Throughout (step maxPublishSize) Separate start events := by
  apply always_iff_throughout (fun s event s' (bounded : Bounded s) => step_bounded bounded) (fun s event s' => step_conserved_iff)
  · intro s event blocked
    cases event with
    | bytesServed i n =>
      cases n with
      | none => trivial
      | some n =>
        intro bp found
        simp [step, found] at blocked
    | receive i =>
      intro batchPoints rest bp found
      simp [step, found] at blocked
    | poll config n => trivial
    | dailySummary retentionPolicy maxGbps => trivial
    | publish => trivial
    | connected i ok => trivial
    | written i ok => trivial
  · exact start_bounded
  · exact start_conserved

-- One point of `calcDailyMaxGbps` and one of `calcDailyBytesServed`, each stored twice.
def bothSummaries : List Event :=
  [.dailySummary "rp" (some 1), .receive 0, .bytesServed 0 (some 1), .receive 0, .publish, .connected 0 true, .written 0 true]

theorem run_bothSummaries :
    (run (step 4) start bothSummaries).map State.written = some [(dailyConfig "rp", [0, 1, 0, 1])] := by decide

theorem not_conserved : ¬∀ maxPublishSize events, Always (step maxPublishSize) Conserved start events := by
  intro always
  have conserved := always_iff.mp (always 4 (bothSummaries.take 3))
  have reached := conserved (bothSummaries.take 3) [] _ (by simp) rfl 0
  revert reached
  decide

section Once

variable {s s' : State}

/-- `calcDailyBytesServed` does not send what `calcDailyMaxGbps` has sent. -/
def SentOnce (s : State) : Event → Prop
  | .bytesServed i (some _) => ∀ bp, s.tasks[i]? = some (.run (.bytesServed bp)) → s.points bp = [] ∧ bp ∉ s.refs
  | _ => True

theorem receive_nodup {batchPoints : Nat} (distinct : ([batchPoints] ++ s.refs).Nodup) :
    (s.receive batchPoints).refs.Nodup := by
  cases lookup : s.bps.lookup (s.key batchPoints) with
  | none => exact refs_receive_first lookup ▸ distinct
  | some bp =>
    simp only [State.receive, lookup]
    exact (List.nodup_append.mp distinct).2.1

theorem step_nodup {maxPublishSize : Nat} {event : Event} (bounded : Bounded s) (distinct : s.refs.Nodup)
    (once : SentOnce s event) (stepped : step maxPublishSize s event = some s') : s'.refs.Nodup := by
  have gone {t : State} {task : Task} (all : (task.refs ++ t.refs).Nodup) : (t.go task).refs.Nodup :=
    (refs_go t task).nodup_iff.mpr all
  have ended {i : Nat} {task : Task} (found : s.tasks[i]? = some task) : (task.refs ++ (s.finished i).refs).Nodup :=
    (refs_finished found).nodup_iff.mp distinct
  have fresh : (s.nextBatch :: s.refs).Nodup := List.nodup_cons.mpr ⟨bounded.fresh, distinct⟩
  cases event with
  | poll config n =>
    cases stepped
    exact gone fresh
  | dailySummary retentionPolicy maxGbps =>
    cases maxGbps with
    | none =>
      cases stepped
      exact gone distinct
    | some n =>
      cases stepped
      exact gone fresh
  | bytesServed i n =>
    obtain ⟨bp, found, rfl⟩ := step_bytesServed stepped
    have left : (s.finished i).refs.Nodup := ended found
    cases n with
    | none => exact left
    | some n =>
      have unsent : bp ∉ (s.finished i).refs := fun member =>
        (once bp found).2 ((refs_finished found).mem_iff.mpr (List.mem_append_right _ member))
      exact gone (List.nodup_cons.mpr ⟨unsent, left⟩)
  | receive i =>
    obtain ⟨batchPoints, rest, found, rfl⟩ := step_receive stepped
    have received := receive_nodup (ended found)
    cases rest with
    | none => exact received
    | some rest => exact gone received
  | publish =>
    cases stepped
    exact refs_publish s ▸ distinct
  | connected i ok =>
    obtain ⟨bps, found, rfl⟩ := step_connected stepped
    have left := ended found
    cases ok with
    | true => exact gone (List.nodup_append.mp left).2.1
    | false => exact gone left
  | written i ok =>
    obtain ⟨bps, pts, found, ⟨rfl, rfl⟩ | rfl⟩ := step_written stepped
    · exact ended found
    · have left : (s.finished i).refs.Nodup := ended found
      cases ok with
      | true => exact gone left
      | false => exact gone (List.nodup_cons.mpr ⟨(bounded.finished i).fresh, left⟩)

theorem separate_of_sentOnce {event : Event} (distinct : s.refs.Nodup) (once : SentOnce s event) : Separate s event := by
  cases event with
  | bytesServed i n =>
    cases n with
    | none => trivial
    | some n => exact fun bp found => ⟨(once bp found).1, Or.inr (once bp found).2⟩
  | receive i =>
    intro batchPoints rest bp _ inMap
    exact Or.inr (List.count_eq_one_of_mem distinct (mem_refs inMap))
  | poll config n => trivial
  | dailySummary retentionPolicy maxGbps => trivial
  | publish => trivial
  | connected i ok => trivial
  | written i ok => trivial

theorem always_conserved {maxPublishSize : Nat} {events : List Event}
    (once : Throughout (step maxPublishSize) SentOnce start events) : Always (step maxPublishSize) Conserved start events := by
  have good (s : State) (holds : Bounded s ∧ s.refs.Nodup ∧ Conserved s) : Conserved s := holds.2.2
  refine always_of_invariant ?_ good ?_ once
  · rintro s event s' ⟨bounded, distinct, conserved⟩ once stepped
    have separate := separate_of_sentOnce distinct once
    exact ⟨step_bounded bounded stepped, step_nodup bounded distinct once stepped,
      (step_conserved_iff bounded conserved stepped).mpr separate⟩
  · exact ⟨start_bounded, List.nodup_nil, start_conserved⟩

end Once

end TrafficStats.Publishing
