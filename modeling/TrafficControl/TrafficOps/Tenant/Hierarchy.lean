import TrafficControl.Lib.ExceptList
import TrafficControl.Lib.Runs
import TrafficControl.TrafficOps.Tenant.Agreement
import TrafficControl.TrafficOps.Tenant.TenantApi

set_option autoImplicit false

namespace TenantApi

open Guards Orbit Tenants

inductive Call where
  | create (drawn : Nat) (params : Params)
  | update (id : String) (params : Params)
  | delete (id : String)

/-- One tenant without a parent, an active one, above all others, and no tenant too far below it. -/
def HierarchyWellFormed (tenants : TenantsData) : Prop :=
  ∃ root, isActive tenants root = true ∧
    (∀ id ∈ tenants, parentOf tenants id = none ↔ id = root) ∧
    (∀ id ∈ tenants, ∃ k, visit (parentOf tenants) k id = some root) ∧
    ∀ id ∈ tenants, (getTenantHeirarchyDepth tenants (.ofId id)).isSome = true ∧
      (isAnchestorOf tenants (.ofId root) (.ofId id)).isSome = true

section Step

variable (isDigit : Char → Bool)

def answer (db : Database) (context : Context) : Call → Handled Database
  | .create drawn params => create isDigit db context (drawn + 1) params
  | .update id params => update isDigit db context id params
  | .delete id => delete db context id

/-- The sequence of the ids starts at one. A call that hangs is no step. -/
def step (db : Database) (event : Context × Call) : Option Database :=
  match answer isDigit db event.1 event.2 with
  | .ok db' => some db'
  | .error .hangs => none
  | .error _ => some db

def Context.owns (context : Context) (tenantId : Int) : Prop :=
  Context.owners context.deliveryServices tenantId ≠ [] ∨ Context.owners context.users tenantId ≠ []

/-- No tree of tenants moves to where its lowest would be at depth 100, and the last tenant stays. -/
def WithinLimit (db : Database) (event : Context × Call) : Prop :=
  match event.2 with
  | .create _ _ => True
  | .update id params => ∀ depth height,
      getTenantHeirarchyDepth db.tenants (.ofText (params.parentId.getD "")) = some depth →
        getTenantHeirarchyHeight db.tenants (.ofText id) = some (some height) → depth + height + 1 ≠ maxHeirarchyLimit
  | .delete id => event.1.isOper = true → event.1.useTenancy = false → ∀ tenantId, bigint id = some tenantId →
      ¬event.1.owns tenantId → db.tenants.keys ≠ [tenantId]

-- The root that the database is set up with.
def start (drawn : Nat) (name : String) : Database where
  tenants := (∅ : TenantsData).insert (drawn + 1) ⟨true, none⟩
  name _ := name

end Step

section Data

variable {tenants : TenantsData} {root id : Int}

abbrev Rooted (tenants : TenantsData) (root : Int) : Prop :=
  Forest.Rooted (parentOf tenants) {id | id ∈ tenants} root maxHeirarchyLimit

theorem mem_of_parent {up : Int} (edge : parentOf tenants id = some up) : id ∈ tenants := by
  obtain ⟨tenant, found, -⟩ := Option.bind_eq_some_iff.mp edge
  exact AList.lookup_isSome.mp (by rw [found]; rfl)

theorem mem_of_isActive (active : isActive tenants id = true) : id ∈ tenants := by
  obtain ⟨tenant, found, -⟩ := Option.any_eq_true _ _ |>.mp active
  exact AList.lookup_isSome.mp (by rw [found]; rfl)

theorem parentOf_of_notMem (missing : id ∉ tenants) : parentOf tenants id = none := by
  rw [parentOf, AList.lookup_eq_none.mpr missing, Option.bind_none]

theorem hierarchyWellFormed_iff : HierarchyWellFormed tenants ↔ ∃ root, isActive tenants root = true ∧ Rooted tenants root := by
  refine exists_congr fun root => and_congr_right fun active => ?_
  have rootMem := mem_of_isActive active
  constructor
  · rintro ⟨only, reaches, defined⟩
    have top := (only root rootMem).mpr rfl
    refine ⟨fun node member up edge => ?_, top, fun node member => ?_⟩
    · obtain ⟨k, reached⟩ := reaches node member
      cases k with
      | zero =>
        obtain rfl := Option.some.inj reached
        rw [top] at edge
        cases edge
      | succ k =>
        rw [visit_succ, edge, Option.bind_some] at reached
        cases k with
        | zero => exact Option.some.inj reached ▸ rootMem
        | succ k =>
          rw [visit_succ] at reached
          obtain ⟨above, edge', -⟩ := Option.bind_eq_some_iff.mp reached
          exact mem_of_parent edge'
    · obtain ⟨k, reached⟩ := reaches node member
      obtain ⟨d, deep⟩ := Option.isSome_iff_exists.mp (defined node member).1
      rw [depth_ofId member, Forest.depth_eq_some_iff] at deep
      obtain ⟨less, other, reached', ends⟩ := deep
      obtain ⟨rfl, -⟩ := Forest.end_unique reached' ends reached top
      exact ⟨d, less, reached⟩
  · intro rooted
    refine ⟨fun id member => ⟨fun ends => ?_, fun same => same ▸ rooted.top⟩, fun id member => ?_, fun id member => ⟨?_, ?_⟩⟩
    · have here : visit (parentOf tenants) 0 id = some id := rfl
      exact (rooted.depth_lt member here ends).2
    · obtain ⟨k, -, reached⟩ := rooted.reaches id member
      exact ⟨k, reached⟩
    · obtain ⟨k, less, reached⟩ := rooted.reaches id member
      rw [depth_ofId member, Forest.depth_eq_some_iff.mpr ⟨less, root, reached, rooted.top⟩]
      rfl
    · obtain ⟨k, less, reached⟩ := rooted.reaches id member
      rw [isAnchestorOf_ofId rootMem member, Forest.climb_eq_true_iff.mpr ⟨k, less.le, reached⟩]
      rfl

theorem parentOf_insert {tenant : Tenant} : parentOf (tenants.insert id tenant) id = tenant.parentId := by
  rw [parentOf, AList.lookup_insert]
  rfl

theorem parentOf_insert_ne {tenant : Tenant} {other : Int} (ne : other ≠ id) :
    parentOf (tenants.insert id tenant) other = parentOf tenants other := by
  rw [parentOf, AList.lookup_insert_ne ne]
  rfl

theorem parentOf_erase_ne {other : Int} (ne : other ≠ id) : parentOf (tenants.erase id) other = parentOf tenants other := by
  rw [parentOf, AList.lookup_erase_ne ne]
  rfl

theorem isActive_insert_ne {tenant : Tenant} {other : Int} (ne : other ≠ id) :
    isActive (tenants.insert id tenant) other = isActive tenants other := by
  rw [isActive, AList.lookup_insert_ne ne]
  rfl

theorem members_insert {tenant : Tenant} : {other | other ∈ tenants.insert id tenant} = insert id {other | other ∈ tenants} := by
  ext other
  simp [AList.mem_insert]

theorem members_insert_of_mem {tenant : Tenant} (member : id ∈ tenants) :
    {other | other ∈ tenants.insert id tenant} = {other | other ∈ tenants} := by
  rw [members_insert]
  exact Set.insert_eq_of_mem member

theorem members_erase : {other | other ∈ tenants.erase id} = {other | other ∈ tenants} \ {id} := by
  ext other
  simp [AList.mem_erase, and_comm]

/-- The search below a tenant of a well formed hierarchy ends. -/
theorem getTenantHeirarchyHeight_isSome (rooted : Rooted tenants root) (tenantId : Scalar) :
    (getTenantHeirarchyHeight tenants tenantId).isSome = true := by
  unfold getTenantHeirarchyHeight
  cases found : known tenants tenantId with
  | none => rfl
  | some id =>
    have member := (known_eq_some_iff.mp found).2
    have nodup : ∀ node, (childrenOf tenants node).Nodup := fun node => tenants.nodupKeys.filter _
    have ends : (getHierarchicTenantsList tenants id).isSome = true := by
      have inAll : ∀ {node low}, parentOf tenants low = some node → low ∈ tenants.keys.toFinset :=
        fun edge => List.mem_toFinset.mpr (AList.mem_keys.mp (mem_of_parent edge))
      exact Forest.preorder_top_isSome (List.mem_toFinset.mpr (AList.mem_keys.mp member)) nodup mem_childrenOf inAll
        (rooted.acyclic member) (List.toFinset_card_le _)
    simpa using ends

theorem getTenantHeirarchyHeight_bounds {tenantId : Scalar} {height : Nat}
    (high : getTenantHeirarchyHeight tenants tenantId = some (some height)) (isKnown : known tenants tenantId = some id) :
    IsGreatest {k | ∃ low, visit (parentOf tenants) k low = some id} height := by
  rw [getTenantHeirarchyHeight, isKnown, Option.elim_some, Option.map_eq_some_iff] at high
  obtain ⟨nodes, found, same⟩ := high
  obtain rfl := Option.some.inj same
  exact Forest.heights_isGreatest mem_childrenOf.mpr found

end Data

section Accepted

variable {isDigit : Char → Bool} {db db' : Database} {context : Context} {id : String} {params : Params} {tenantId : Int}

theorem bigint_eq {text : String} {value : Int} (read : bigint text = some value) : value = numeric text := by
  simp only [bigint, Option.ite_none_right_eq_some] at read
  exact (Option.some.inj read.2).symm

theorem known_ofText {tenants : TenantsData} {text : String} {value : Int}
    (isKnown : known tenants (.ofText text) = some value) : value = numeric text ∧ value ∈ tenants := by
  obtain ⟨key, member⟩ := known_eq_some_iff.mp isKnown
  unfold Scalar.ofText at key
  split at key
  · exact ⟨(Option.some.inj key).symm, member⟩
  · cases key

theorem store_ok {name : String} {tenant : Tenant} (stored : store db tenantId name tenant = .ok db') :
    (∀ parent, tenant.parentId = some parent → parent ≠ tenantId ∧ parent ∈ db.tenants) ∧
      db'.tenants = db.tenants.insert tenantId tenant := by
  simp only [store, ExceptList.bind_ok_iff, refuse_ok_iff, Except.ok.injEq] at stored
  obtain ⟨_, -, _, parents, rfl⟩ := stored
  refine ⟨fun parent isParent => ?_, rfl⟩
  simp only [isParent, Option.any_some, decide_eq_true_eq, not_or] at parents
  exact ⟨parents.1, AList.lookup_isSome.mp (Option.isSome_iff_ne_none.mpr parents.2)⟩

-- The parent that a tenant gets, and what was checked of it.
structure Replaces (tenants : TenantsData) (id parentId : String) (tenantId parent : Int) : Prop where
  tenantKnown : known tenants (.ofText id) = some tenantId
  parentKnown : known tenants (.ofText parentId) = some parent
  apart : isAnchestorOf tenants (.ofText id) (.ofText parentId) = some false
  room : ∃ depth height, getTenantHeirarchyDepth tenants (.ofText parentId) = some depth ∧
    getTenantHeirarchyHeight tenants (.ofText id) = some (some height) ∧ depth + height + 1 ≤ maxHeirarchyLimit

theorem checkParent_ok {parentId : String} {tenant : Tenant} {done : Unit}
    (checked : checkParent db context (.ofText id) (.ofText parentId) tenant = .ok done) :
    numeric parentId = tenant.parentId.getD 0 ∨ Replaces db.tenants id parentId (numeric id) (numeric parentId) := by
  unfold checkParent at checked
  split at checked
  next =>
    simp only [checkParentReplacement, ExceptList.bind_ok_iff, refuse_ok_iff, require_ok_iff] at checked
    obtain ⟨_, -, _, -, _, -, _, -, _, -, depth, deep, searched, found, height, high, _, room, _, -, isAnchestor, relation, apart⟩ :=
      checked
    obtain rfl : searched = some height := high
    obtain rfl : isAnchestor = false := by simpa using apart
    obtain ⟨anchestor, anchestorKnown, rest⟩ := Option.bind_eq_some_iff.mp relation
    obtain ⟨descendant, descendantKnown, -⟩ := Option.bind_eq_some_iff.mp rest
    obtain rfl := (known_ofText anchestorKnown).1
    obtain rfl := (known_ofText descendantKnown).1
    exact .inr ⟨anchestorKnown, descendantKnown, relation, depth, height, deep, found, by omega⟩
  next same => exact .inl (not_not.mp same)

theorem writtenParent_eq {tenant : Tenant} {parentId : String} {parent : Int}
    (written : writtenParent tenant parentId = some parent) : parent = numeric parentId := by
  unfold writtenParent at written
  split at written
  next kept => exact Option.some.inj (written.symm.trans kept)
  next => exact bigint_eq written

theorem update_ok (updated : update isDigit db context id params = .ok db') :
    ∃ tenantId tenant active parent, bigint id = some tenantId ∧ db.tenants.lookup tenantId = some tenant ∧
      db'.tenants = db.tenants.insert tenantId ⟨active, some parent⟩ ∧ parent ∈ db.tenants ∧
      (parent = tenant.parentId.getD 0 ∨ Replaces db.tenants id (params.parentId.getD "") tenantId parent) := by
  simp only [update, ExceptList.bind_ok_iff, refuse_ok_iff, require_ok_iff] at updated
  obtain ⟨_, -, tenantId, named, tenant, found, _, -, _, -, _, -, _, -, _, -, _, checked, active, -, parent, written, stored⟩ := updated
  obtain rfl := bigint_eq named
  obtain rfl := writtenParent_eq written
  obtain ⟨parents, inserted⟩ := store_ok stored
  exact ⟨_, tenant, active, _, named, found, inserted, (parents _ rfl).2, checkParent_ok checked⟩

theorem create_ok {drawn : Nat} (created : create isDigit db context (drawn + 1) params = .ok db') :
    ∃ parentId parent active depth, known db.tenants (.ofText parentId) = some parent ∧
      getTenantHeirarchyDepth db.tenants (.ofText parentId) = some depth ∧ depth + 1 < maxHeirarchyLimit ∧
      (drawn + 1 : Int) ∉ db.tenants ∧ db'.tenants = db.tenants.insert (drawn + 1 : Int) ⟨active, some parent⟩ := by
  simp only [create, ExceptList.bind_ok_iff, refuse_ok_iff, require_ok_iff] at created
  obtain ⟨_, -, _, -, _, -, _, -, _, -, depth, deep, _, room, _, -, active, -, parent, written, _, fresh, stored⟩ := created
  obtain ⟨known', isKnown, -⟩ := Option.bind_eq_some_iff.mp deep
  obtain rfl := (known_ofText isKnown).1
  obtain rfl := bigint_eq written
  have less : depth + 1 < maxHeirarchyLimit := by
    simp only [maxHeirarchyLimit] at room ⊢
    omega
  exact ⟨params.parentId.getD "", _, active, depth, isKnown, deep, less, fresh, (store_ok stored).2⟩

theorem delete_ok (deleted : delete db context id = .ok db') :
    ∃ tenantId, context.isOper = true ∧ bigint id = some tenantId ∧ tenantId ∈ db.tenants ∧
      isTenantResourceAccessible db context (some (.ofText id)) = .ok true ∧ childrenOf db.tenants tenantId = [] ∧
      ¬context.owns tenantId ∧ db'.tenants = db.tenants.erase tenantId := by
  simp only [delete, ExceptList.bind_ok_iff, refuse_ok_iff, require_ok_iff, Except.ok.injEq] at deleted
  obtain ⟨_, oper, tenantId, named, _, found, accessible, checked, _, open', _, -, _, -, _, -, _, unused, rfl⟩ := deleted
  obtain rfl : accessible = true := by simpa using open'
  rw [not_or, not_not] at unused
  exact ⟨tenantId, by simpa using oper, named, AList.lookup_isSome.mp (by rw [found]; rfl), checked, unused.1, unused.2, rfl⟩

end Accepted

section Hangs

variable {isDigit : Char → Bool} {db : Database} {context : Context} {root : Int}

theorem store_not_hangs {id : Int} {name : String} {tenant : Tenant} : store db id name tenant ≠ .error .hangs := by
  simp [store, ExceptList.bind_error_iff, refuse_error_iff]

theorem checkParent_not_hangs (rooted : Rooted db.tenants root) (id parentId : Scalar) (tenant : Tenant) :
    checkParent db context id parentId tenant ≠ .error .hangs := by
  obtain ⟨searched, found⟩ := Option.isSome_iff_exists.mp (getTenantHeirarchyHeight_isSome rooted id)
  unfold checkParent
  split
  · simp [checkParentReplacement, isTenantResourceAccessible, ExceptList.bind_error_iff, refuse_error_iff,
      require_error_iff, found]
  · exact fun failed => by cases failed

theorem answer_not_hangs (rooted : Rooted db.tenants root) (call : Call) : answer isDigit db context call ≠ .error .hangs := by
  cases call with
  | create drawn params =>
    simp [answer, create, isTenantResourceAccessible, ExceptList.bind_error_iff, refuse_error_iff, require_error_iff,
      store_not_hangs]
  | update id params =>
    simp [answer, update, isTenantResourceAccessible, ExceptList.bind_error_iff, refuse_error_iff, require_error_iff,
      store_not_hangs, checkParent_not_hangs rooted]
  | delete id =>
    simp [answer, delete, isTenantResourceAccessible, ExceptList.bind_error_iff, refuse_error_iff, require_error_iff]

theorem step_isSome (rooted : Rooted db.tenants root) (event : Context × Call) : (step isDigit db event).isSome = true := by
  have answers : answer isDigit db event.1 event.2 ≠ .error .hangs := answer_not_hangs rooted event.2
  unfold step
  cases given : answer isDigit db event.1 event.2 with
  | ok db' => rfl
  | error refusal =>
    cases refusal with
    | hangs => exact absurd given answers
    | forbidden | notFound | invalid | alert | died => rfl

theorem step_cases {db' : Database} {event : Context × Call} (stepped : step isDigit db event = some db') :
    answer isDigit db event.1 event.2 = .ok db' ∨ db' = db := by
  unfold step at stepped
  cases given : answer isDigit db event.1 event.2 with
  | ok _ =>
    rw [given] at stepped
    exact .inl (congrArg _ (Option.some.inj stepped))
  | error refusal =>
    rw [given] at stepped
    cases refusal with
    | hangs => cases stepped
    | forbidden | notFound | invalid | alert | died => exact .inr (Option.some.inj stepped).symm

end Hangs

-- What every call keeps.
structure Sound (tenants : TenantsData) (root : Int) : Prop where
  positive : ∀ id ∈ tenants, 0 < id
  active : isActive tenants root = true
  rooted : Rooted tenants root

namespace Sound

variable {isDigit : Char → Bool} {db db' : Database} {context : Context} {root : Int} (sound : Sound db.tenants root)

include sound

/-- A row whose parent stays: nothing moves. -/
theorem rewritten {tenantId parent : Int} (edge : parentOf db.tenants tenantId = some parent) (active : Bool)
    (inserted : db'.tenants = db.tenants.insert tenantId ⟨active, some parent⟩) : Sound db'.tenants root := by
  have member := mem_of_parent edge
  have notRoot : root ≠ tenantId := by
    rintro rfl
    exact Option.some_ne_none _ (edge.symm.trans sound.rooted.top)
  have same : parentOf db'.tenants = parentOf db.tenants := by
    funext id
    rw [inserted]
    by_cases here : id = tenantId
    · rw [here, parentOf_insert, edge]
    · exact parentOf_insert_ne here
  have members : {id | id ∈ db'.tenants} = {id | id ∈ db.tenants} := by
    rw [inserted, members_insert_of_mem member]
  refine ⟨fun id isMember => ?_, ?_, ?_⟩
  · exact sound.positive id (members.subset isMember)
  · rw [inserted, isActive_insert_ne notRoot]
    exact sound.active
  · rw [Rooted, same, members]
    exact sound.rooted

theorem parent_apart {id parentId : String} {tenantId parent : Int} {depth : Nat}
    (parentKnown : known db.tenants (.ofText parentId) = some parent)
    (tenantKnown : known db.tenants (.ofText id) = some tenantId)
    (apart : isAnchestorOf db.tenants (.ofText id) (.ofText parentId) = some false)
    (deep : getTenantHeirarchyDepth db.tenants (.ofText parentId) = some depth) :
    visit (parentOf db.tenants) depth parent = some root ∧ ∀ k, visit (parentOf db.tenants) k parent ≠ some tenantId := by
  rw [getTenantHeirarchyDepth, parentKnown, Option.bind_some, Forest.depth_eq_some_iff] at deep
  obtain ⟨-, top, reached, ends⟩ := deep
  obtain ⟨shallow, rfl⟩ := sound.rooted.depth_lt (known_ofText parentKnown).2 reached ends
  rw [isAnchestorOf, tenantKnown, parentKnown, Option.bind_some, Option.bind_some] at apart
  refine ⟨reached, fun k up => ?_⟩
  have late : visit (parentOf db.tenants) (depth + 1) parent = none := by rw [visit, reached, Option.bind_some, ends]
  have within : k ≤ maxHeirarchyLimit := by
    by_contra beyond
    exact Option.some_ne_none _ (up.symm.trans (visit_none_of_le late (by omega)))
  rw [Forest.climb_eq_true_iff.mpr ⟨k, within, up⟩] at apart
  cases apart

theorem replaced {id parentId : String} {tenantId parent : Int} (replaces : Replaces db.tenants id parentId tenantId parent)
    (active : Bool) (inserted : db'.tenants = db.tenants.insert tenantId ⟨active, some parent⟩)
    (within : ∀ depth height, getTenantHeirarchyDepth db.tenants (.ofText parentId) = some depth →
      getTenantHeirarchyHeight db.tenants (.ofText id) = some (some height) → depth + height + 1 ≠ maxHeirarchyLimit) :
    Sound db'.tenants root := by
  obtain ⟨tenantKnown, parentKnown, apart, depth, height, deep, high, room⟩ := replaces
  have limit := within depth height deep high
  have member := (known_ofText tenantKnown).2
  have under := (known_ofText parentKnown).2
  have bounds := getTenantHeirarchyHeight_bounds high tenantKnown
  obtain ⟨reached, notAbove⟩ := sound.parent_apart parentKnown tenantKnown apart deep
  have notRoot : root ≠ tenantId := fun same => notAbove depth (same ▸ reached)
  have members : {id | id ∈ db'.tenants} = {id | id ∈ db.tenants} := by
    rw [inserted, members_insert_of_mem member]
  have here : parentOf db'.tenants tenantId = some parent := by rw [inserted, parentOf_insert]
  have elsewhere : ∀ other, other ≠ tenantId → parentOf db'.tenants other = parentOf db.tenants other := fun other ne => by
    rw [inserted, parentOf_insert_ne ne]
  refine ⟨fun id isMember => sound.positive id (members.subset isMember), ?_, ?_⟩
  · rw [inserted, isActive_insert_ne notRoot]
    exact sound.active
  · rw [Rooted, members]
    exact sound.rooted.move here elsewhere under member notAbove reached (fun k low below => bounds.2 ⟨low, below⟩) (by omega)

/-- One step further down, and the depth of the lowest tenant is not defined any more. -/
theorem replaced_at_limit {id parentId : String} {tenantId parent : Int}
    (replaces : Replaces db.tenants id parentId tenantId parent) (active : Bool)
    (inserted : db'.tenants = db.tenants.insert tenantId ⟨active, some parent⟩) {depth height : Nat}
    (deep : getTenantHeirarchyDepth db.tenants (.ofText parentId) = some depth)
    (high : getTenantHeirarchyHeight db.tenants (.ofText id) = some (some height))
    (limit : depth + height + 1 = maxHeirarchyLimit) : ¬HierarchyWellFormed db'.tenants := by
  obtain ⟨tenantKnown, parentKnown, apart, -⟩ := replaces
  have member := (known_ofText tenantKnown).2
  have under := (known_ofText parentKnown).2
  obtain ⟨⟨low, below⟩, -⟩ := getTenantHeirarchyHeight_bounds high tenantKnown
  obtain ⟨reached, notAbove⟩ := sound.parent_apart parentKnown tenantKnown apart deep
  have here : parentOf db'.tenants tenantId = some parent := by rw [inserted, parentOf_insert]
  have elsewhere : ∀ other, other ≠ tenantId → parentOf db'.tenants other = parentOf db.tenants other := fun other ne => by
    rw [inserted, parentOf_insert_ne ne]
  have far := sound.rooted.move_visit here elsewhere notAbove member reached below
  have lowMem : low ∈ db'.tenants := by
    cases height with
    | zero =>
      obtain rfl := Option.some.inj below
      exact mem_of_parent here
    | succ height =>
      rw [visit_succ] at below
      obtain ⟨up, edge, -⟩ := Option.bind_eq_some_iff.mp below
      rw [inserted]
      exact (AList.mem_insert _).mpr (.inr (mem_of_parent edge))
  have top : parentOf db'.tenants root = none :=
    (elsewhere root fun same => notAbove depth (same ▸ reached)).trans sound.rooted.top
  intro wellFormed
  obtain ⟨root', -, rooted⟩ := hierarchyWellFormed_iff.mp wellFormed
  have shallow := (rooted.depth_lt lowMem far top).1
  omega

theorem update {id : String} {params : Params} (updated : update isDigit db context id params = .ok db')
    (within : WithinLimit db (context, .update id params)) : Sound db'.tenants root := by
  obtain ⟨tenantId, tenant, active, parent, -, found, inserted, under, kept | replaces⟩ := update_ok updated
  · cases edge : tenant.parentId with
    | none =>
      -- `!=` takes the missing parent of the root for 0, which is no tenant's id
      rw [edge, Option.getD_none] at kept
      exact absurd (sound.positive parent under) (by omega)
    | some up =>
      rw [edge, Option.getD_some] at kept
      subst kept
      refine sound.rewritten ?_ active inserted
      rw [parentOf, found, Option.bind_some, edge]
  · exact sound.replaced replaces active inserted within

theorem create {drawn : Nat} {params : Params} (created : create isDigit db context (drawn + 1) params = .ok db') :
    Sound db'.tenants root := by
  obtain ⟨parentId, parent, active, depth, isKnown, deep, room, fresh, inserted⟩ := create_ok created
  have under := (known_ofText isKnown).2
  rw [getTenantHeirarchyDepth, isKnown, Option.bind_some, Forest.depth_eq_some_iff] at deep
  obtain ⟨-, top, reached, ends⟩ := deep
  obtain ⟨-, rfl⟩ := sound.rooted.depth_lt under reached ends
  have rootMem := mem_of_isActive sound.active
  refine ⟨fun id isMember => ?_, ?_, ?_⟩
  · rw [inserted, AList.mem_insert] at isMember
    rcases isMember with rfl | old
    · omega
    · exact sound.positive id old
  · rw [inserted, isActive_insert_ne fun same : top = drawn + 1 => fresh (same ▸ rootMem)]
    exact sound.active
  · rw [Rooted, inserted, members_insert]
    exact sound.rooted.graft fresh parentOf_insert (fun other ne => parentOf_insert_ne ne) under reached room

/-- A root without children is alone. -/
theorem keys_of_childless (childless : childrenOf db.tenants root = []) : db.tenants.keys = [root] := by
  have only : ∀ id ∈ db.tenants.keys, id = root := by
    intro id member
    obtain ⟨k, -, reached⟩ := sound.rooted.reaches id (AList.mem_keys.mpr member)
    cases k with
    | zero => exact Option.some.inj reached
    | succ k =>
      obtain ⟨low, -, edge⟩ := Option.bind_eq_some_iff.mp reached
      have isChild := mem_childrenOf.mpr edge
      rw [childless] at isChild
      cases isChild
  have member := AList.mem_keys.mp (mem_of_isActive sound.active)
  exact List.perm_singleton.mp ((List.perm_ext_iff_of_nodup db.tenants.keys_nodup (List.nodup_singleton root)).mpr
    fun id => ⟨fun isMember => List.mem_singleton.mpr (only id isMember), fun same => List.mem_singleton.mp same ▸ member⟩)

/-- With tenancy, only users of the root may delete it, and then they are in its way. -/
theorem owns_of_accessible {id : String} (used : context.useTenancy = true) (named : bigint id = some root)
    (accessible : isTenantResourceAccessible db context (some (.ofText id)) = .ok true) : context.owns root := by
  rw [isTenantResourceAccessible, require_ok_iff, used] at accessible
  cases tenant : context.currentUserTenant with
  | none =>
    rw [tenant] at accessible
    cases accessible
  | some userTenant =>
    rw [tenant] at accessible
    obtain ⟨user, found, isTenant⟩ := Option.bind_eq_some_iff.mp tenant
    obtain ⟨member, decided⟩ := isResourceAccessableToTenant_user accessible
    have atRoot : userTenant = root := by
      rcases decided _ rfl with same | above | ends
      · exact same.trans (bigint_eq named).symm
      · obtain ⟨anchestor, isKnown, rest⟩ := Option.bind_eq_some_iff.mp above
        obtain ⟨descendant, isKnown', climbed⟩ := Option.bind_eq_some_iff.mp rest
        obtain rfl := (known_ofText isKnown').1
        rw [known_ofId member] at isKnown
        obtain rfl := Option.some.inj isKnown
        obtain ⟨k, -, up⟩ := Forest.climb_eq_true_iff.mp climbed
        rw [← bigint_eq named] at up
        cases k with
        | zero => exact (Option.some.inj up).symm
        | succ k =>
          rw [visit_succ, sound.rooted.top] at up
          cases up
      · have here : visit (parentOf db.tenants) 0 userTenant = some userTenant := rfl
        exact (sound.rooted.depth_lt member here ends).2
    subst atRoot
    refine .inr (List.ne_nil_of_mem (a := user.1) ?_)
    exact List.mem_map.mpr ⟨user, List.mem_filter.mpr ⟨List.mem_of_find?_eq_some found, by simpa using isTenant⟩, rfl⟩

theorem delete {id : String} (deleted : delete db context id = .ok db') (within : WithinLimit db (context, .delete id)) :
    Sound db'.tenants root := by
  obtain ⟨tenantId, oper, named, member, accessible, childless, unused, erased⟩ := delete_ok deleted
  have notRoot : tenantId ≠ root := by
    rintro rfl
    have alone := sound.keys_of_childless childless
    cases used : context.useTenancy with
    | false => exact within oper used tenantId named unused alone
    | true => exact unused (sound.owns_of_accessible used named accessible)
  refine ⟨fun id isMember => ?_, ?_, ?_⟩
  · rw [erased, AList.mem_erase] at isMember
    exact sound.positive id isMember.2
  · rw [isActive, erased, AList.lookup_erase_ne notRoot.symm]
    exact sound.active
  · rw [Rooted, erased, members_erase]
    refine sound.rooted.prune (fun low edge => ?_) (fun other ne => parentOf_erase_ne ne) notRoot
    have isChild := mem_childrenOf.mpr edge
    rw [childless] at isChild
    cases isChild

theorem step {event : Context × Call} (stepped : TenantApi.step isDigit db event = some db') (within : WithinLimit db event) :
    Sound db'.tenants root := by
  obtain ⟨context, call⟩ := event
  rcases step_cases stepped with answered | rfl
  · cases call with
    | create drawn params => exact sound.create answered
    | update id params => exact sound.update answered within
    | delete id => exact sound.delete answered within
  · exact sound

end Sound

theorem start_sound (drawn : Nat) (name : String) : Sound (start drawn name).tenants (drawn + 1) := by
  have only : ∀ id ∈ (start drawn name).tenants, id = drawn + 1 := fun id member =>
    ((AList.mem_insert _).mp member).resolve_right (AList.notMem_empty id)
  have top : parentOf (start drawn name).tenants (drawn + 1) = none := parentOf_insert
  refine ⟨fun id member => ?_, ?_, ?_, top, ?_⟩
  · have same := only id member
    omega
  · rw [isActive, start, AList.lookup_insert]
    rfl
  · intro id member up edge
    rw [only id member, top] at edge
    cases edge
  · intro id member
    exact ⟨0, by decide, congrArg some (only id member)⟩

/-- However the calls come, none hangs, and the hierarchy stays well formed while they keep within the limit. -/
theorem hierarchy_wellFormed (isDigit : Char → Bool) (drawn : Nat) (name : String) {calls : List (Context × Call)}
    (within : Runs.Throughout (step isDigit) WithinLimit (start drawn name) calls) :
    (Runs.run (step isDigit) (start drawn name) calls).isSome = true ∧
      Runs.Always (step isDigit) (fun db => HierarchyWellFormed db.tenants) (start drawn name) calls := by
  have kept : ∀ db event db', Sound db.tenants (drawn + 1) → WithinLimit db event → step isDigit db event = some db' →
      Sound db'.tenants (drawn + 1) := fun db event db' sound within stepped => sound.step stepped within
  constructor
  · exact Runs.run_isSome kept (fun db event sound _ => step_isSome sound.rooted event) (start_sound drawn name) within
  · refine Runs.always_of_invariant kept (fun db sound => ?_) (start_sound drawn name) within
    exact hierarchyWellFormed_iff.mpr ⟨drawn + 1, sound.active, sound.rooted⟩

-- An operator without a tenant, with tenancy off.
def operator : Context := ⟨"admin", true, false, [("admin", none)], []⟩

def child : Params := ⟨some "child", some "1", some "1"⟩

theorem hierarchy_wellFormed_child :
    (Runs.run (step Char.isDigit) (start 0 "root") [(operator, .create 1 child), (operator, .delete "2")]).isSome = true ∧
      Runs.Always (step Char.isDigit) (fun db => HierarchyWellFormed db.tenants) (start 0 "root")
        [(operator, .create 1 child), (operator, .delete "2")] := by
  refine hierarchy_wellFormed Char.isDigit 0 "root" ⟨trivial, fun db created => ⟨fun _ _ tenantId _ _ alone => ?_, fun _ _ => trivial⟩⟩
  have two : ((step Char.isDigit (start 0 "root") (operator, .create 1 child)).map fun db => db.tenants.keys) = some [2, 1] := by
    decide
  rw [created, Option.map_some, alone] at two
  cases two

/-- The last tenant can be deleted. -/
theorem not_hierarchyWellFormed : ¬∀ (isDigit : Char → Bool) (drawn : Nat) (name : String) (calls : List (Context × Call)),
    Runs.Always (step isDigit) (fun db => HierarchyWellFormed db.tenants) (start drawn name) calls := by
  intro always
  have emptied : ((step Char.isDigit (start 0 "root") (operator, .delete "1")).map fun db => db.tenants.keys) = some [] := by
    decide
  obtain ⟨db, stepped, none⟩ := Option.map_eq_some_iff.mp emptied
  obtain ⟨root, active, -⟩ := (always Char.isDigit 0 "root" [(operator, .delete "1")]).2 db stepped
  have member := AList.mem_keys.mp (mem_of_isActive active)
  rw [none] at member
  cases member

end TenantApi
