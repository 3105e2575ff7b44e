import TrafficControl.Lib.Runs
import TrafficControl.TrafficOps.Request.Requests

set_option autoImplicit false

namespace DsRequest

open KeyedTable Runs Tenants

-- The routes that write, with what the run time and the database choose for them.
inductive Operation where
  | post (user : CurrentUser) (req : Request) (drawn : Int)
  | put (user : CurrentUser) (req : Request)
  | putStatus (req : Request) (statusAddress idAddress : Nat)
  | putAssign (req : Request) (idAddress : Nat)
  | delete (req : Request)

section Runs

variable (answer : String → Db → Except String Bool)

def perform (db : Db) : Operation → Result Db
  | .post user req drawn => insert answer db user req drawn
  | .put user req => update db user req
  | .putStatus req statusAddress idAddress => changeStatus db req statusAddress idAddress
  | .putAssign req idAddress => assign db req idAddress
  | .delete req => delete db req

-- A transaction that fails is rolled back.
def after (db : Db) (operation : Operation) : Db := (perform answer db operation).toOption.getD db

def step (db : Db) (operation : Operation) : Option Db := some (after answer db operation)

end Runs

def Finished (row : Row) : Prop := row.status = .rejected ∨ row.status = .complete

instance (row : Row) : Decidable (Finished row) := inferInstanceAs (Decidable (_ ∨ _))

def Transitions (db db' : Db) : Prop :=
  ∀ id row row', db.requests.lookup id = some row → db'.requests.lookup id = some row' → row.status ≠ row'.status →
    (RequestStatus.of row.status).validTransition (.of row'.status) = .ok ()

def KeepsFinished (db db' : Db) : Prop :=
  ∀ id row, db.requests.lookup id = some row → Finished row → db'.requests.lookup id = some row

/-- The named row is written, and no other. -/
def Sets (db db' : Db) (id : Option Int) (set : Row → Row) : Prop :=
  ∃ key row, id = some key ∧ db.requests.lookup key = some row ∧
    ∀ other, db'.requests.lookup other = if other = key then some (set row) else db.requests.lookup other

/-- What the success of a status or an assign operation promises. -/
def Answered (db db' : Db) : Operation → Prop
  | .putStatus req _ _ => ∃ state, req.status = some (.of state) ∧
      Sets db db' req.id fun row => { row with status := state }
  | .putAssign req _ => Sets db db' req.id fun row => { row with assigneeId := req.assigneeId }
  | _ => True

/-- The rules of the workflow, over a run. -/
structure FollowsWorkflow (answer : String → Db → Except String Bool) (db : Db) (operations : List Operation) : Prop where
  transitions : ∀ past operation future t, operations = past ++ operation :: future →
    run (step answer) db past = some t → Transitions t (after answer t operation)
  finished : ∀ past between future t t', operations = past ++ between ++ future → run (step answer) db past = some t →
    run (step answer) t between = some t' → KeepsFinished t t'
  answered : ∀ past operation future t, operations = past ++ operation :: future →
    run (step answer) db past = some t → ∀ t', perform answer t operation = .ok t' → Answered t t' operation

/-- An assignment asks for the assignee that the request already has, or the address printed for the id is
that id; and the row of that address may take the assignee. -/
def AssignFits (db : Db) : Operation → Prop
  | .putAssign req idAddress => ∀ id ∈ req.id, ∀ current ∈ db.select id,
      current.assigneeId = none ∧ req.assigneeId = none ∨
      (idAddress : Int) ∈ db.requests ∧ ¬db.references req.assigneeId ∨
      (idAddress = id ∨ current.assigneeId = req.assigneeId) ∧ ∀ hit ∈ db.requests.lookup (idAddress : Int),
        hit.assigneeId = req.assigneeId ∨ idAddress = id ∧ ¬Finished hit
  | _ => True

section Steps

variable {answer : String → Db → Except String Bool} {db db' : Db} {operation : Operation}

theorem after_eq_or (answer : String → Db → Except String Bool) (db : Db) (operation : Operation) :
    after answer db operation = db ∨ perform answer db operation = .ok (after answer db operation) := by
  unfold after
  cases perform answer db operation with
  | error _ => exact .inl rfl
  | ok _ => exact .inr rfl

theorem after_ok (accepted : perform answer db operation = .ok db') : after answer db operation = db' := by
  rw [after, accepted]
  rfl

theorem keepsFinished_refl (db : Db) : KeepsFinished db db := fun _ _ found _ => found

theorem transitions_refl (db : Db) : Transitions db db := by
  intro id row row' found found' changed
  rw [found] at found'
  exact absurd (congrArg Row.status (Option.some.inj found')) changed

/-- What the other keys keep leaves only the row that is written. -/
theorem transitions_change {id : Int} {set : Row → Row}
    (valid : ∀ row ∈ db.requests.lookup id, row.status ≠ (set row).status →
      (RequestStatus.of row.status).validTransition (.of (set row).status) = .ok ()) :
    Transitions db { db with requests := change db.requests id set } := by
  intro other row row' found found' changed
  rw [lookup_change] at found'
  split at found'
  case isTrue same =>
    subst same
    rw [found] at found'
    obtain rfl := Option.some.inj found'
    exact valid row found changed
  case isFalse => exact transitions_refl db other row row' found found' changed

theorem keepsFinished_change_iff {id : Int} {set : Row → Row} :
    KeepsFinished db { db with requests := change db.requests id set } ↔
      ∀ row ∈ db.requests.lookup id, Finished row → set row = row := by
  constructor
  · intro keeps row found finished
    have kept := keeps id row found finished
    rw [lookup_change, if_pos rfl, found] at kept
    exact Option.some.inj kept
  · intro same other row found finished
    rw [lookup_change]
    split
    case isTrue equal =>
      subst equal
      rw [found, Option.map_some, same row found finished]
    case isFalse => exact found

theorem validTransition_initial {state state' : WorkflowState} (first : initial (.of state))
    (second : initial (.of state')) :
    (RequestStatus.of state).validTransition (.of state') = .ok () := by
  rcases first with first | first <;> rcases second with second | second <;> rw [first, second] <;> rfl

theorem not_finished {row : Row} (early : initial (.of row.status)) : ¬Finished row := by
  rintro (rejected | complete)
  · rw [rejected] at early
    revert early
    decide
  · rw [complete] at early
    revert early
    decide

theorem post_lawful {user : CurrentUser} {req : Request} {drawn : Int}
    (accepted : insert answer db user req drawn = .ok db') :
    Transitions db db' ∧ KeepsFinished db db' := by
  obtain ⟨_, -, accepted⟩ := ExceptList.bind_ok_iff.mp accepted
  obtain ⟨changeType, state, insertable, rfl⟩ := insertRequest_ok_iff.mp accepted
  have kept : ∀ id row, db.requests.lookup id = some row →
      (db.requests.insert drawn (inserted user req changeType state)).lookup id = some row := by
    intro id row found
    have other : id ≠ drawn := by
      rintro rfl
      rw [AList.lookup_eq_none.mpr insertable.fresh] at found
      cases found
    rw [lookup_insert_if, if_neg other, found]
  refine ⟨fun id row row' found found' changed => ?_, fun id row found _ => kept id row found⟩
  rw [kept id row found] at found'
  exact absurd (congrArg Row.status (Option.some.inj found')) changed

theorem put_lawful {user : CurrentUser} {req : Request} (accepted : update db user req = .ok db') :
    Transitions db db' ∧ KeepsFinished db db' := by
  obtain ⟨id, current, changeType, state, updatable, rfl⟩ := update_ok_iff.mp accepted
  have current_row := (select_eq_some.mp updatable.selected).1
  refine ⟨transitions_change fun row found _ => ?_, keepsFinished_change_iff.mpr fun row found finished => ?_⟩
  · obtain rfl := Option.some.inj (current_row.symm.trans found)
    exact validTransition_initial updatable.editable updatable.initial
  · obtain rfl := Option.some.inj (current_row.symm.trans found)
    exact absurd finished (not_finished updatable.editable)

theorem delete_lawful {req : Request} (accepted : delete db req = .ok db') :
    Transitions db db' ∧ KeepsFinished db db' := by
  obtain ⟨id, deleted, -, stored, early, rfl⟩ := delete_ok_iff.mp accepted
  refine ⟨fun other row row' found found' changed => ?_, fun other row found finished => ?_⟩
  · rw [lookup_erase_if] at found'
    split at found'
    · cases found'
    · exact transitions_refl db other row row' found found' changed
  · rw [lookup_erase_if, if_neg ?_, found]
    rintro rfl
    obtain rfl := Option.some.inj (stored.symm.trans found)
    exact not_finished early finished

def Row.assignTo (assigneeId : Option Int) (row : Row) : Row := { row with assigneeId }

theorem assignTo_eq_iff {assigneeId : Option Int} {row : Row} :
    row.assignTo assigneeId = row ↔ row.assigneeId = assigneeId := by
  constructor
  · exact fun same => congrArg Row.assigneeId same.symm
  · rintro rfl
    rfl

section Assign

variable {req : Request} {idAddress : Nat}

theorem assign_keeps_statuses (db : Db) (req : Request) (idAddress : Nat) :
    Transitions db (after answer db (.putAssign req idAddress)) := by
  rcases after_eq_or answer db (.putAssign req idAddress) with same | accepted
  · rw [same]
    exact transitions_refl db
  · obtain ⟨id, current, -, -, ⟨-, -, same⟩ | ⟨-, -, written⟩⟩ := assign_ok_iff.mp accepted
    · rw [same]
      exact transitions_refl db
    · rw [written]
      exact transitions_change fun row _ changed => absurd rfl changed

/-- Where the statement runs, the promise is kept exactly where the addressed row ends up as asked for and
no other row is hit with an effect. -/
theorem sets_change_iff {id address : Int} {current : Row} (found : db.requests.lookup id = some current)
    (assigneeId : Option Int) :
    Sets db { db with requests := change db.requests address (Row.assignTo assigneeId) } (some id)
        (Row.assignTo assigneeId) ↔
      (address = id ∨ current.assigneeId = assigneeId) ∧
        ∀ hit ∈ db.requests.lookup address, hit.assigneeId = assigneeId ∨ address = id := by
  constructor
  · rintro ⟨key, row, named, found', sets⟩
    obtain rfl := Option.some.inj named
    obtain rfl := Option.some.inj (found.symm.trans found')
    by_cases same : address = id
    · exact ⟨.inl same, fun _ _ => .inr same⟩
    · have own := sets id
      rw [lookup_change, if_neg (Ne.symm same), if_pos rfl, found, Option.some.injEq] at own
      refine ⟨.inr (assignTo_eq_iff.mp own.symm), fun hit hitFound => .inl ?_⟩
      have other := sets address
      rw [lookup_change, if_pos rfl, if_neg same, hitFound, Option.map_some, Option.some.injEq] at other
      exact assignTo_eq_iff.mp other
  · rintro ⟨own, hits⟩
    refine ⟨id, current, rfl, found, fun other => ?_⟩
    rw [lookup_change]
    by_cases here : other = id
    · subst here
      rw [if_pos rfl]
      split
      case isTrue same => rw [← same, found, Option.map_some]
      case isFalse different =>
        rw [found, assignTo_eq_iff.mpr (own.resolve_left fun same => different same.symm)]
    · rw [if_neg here]
      split
      case isTrue same =>
        cases hitFound : db.requests.lookup address with
        | none => rw [same, hitFound, Option.map_none]
        | some hit =>
          have kept := (hits hit hitFound).resolve_right fun equal => here (same.trans equal)
          rw [same, hitFound, Option.map_some, assignTo_eq_iff.mpr kept]
      case isFalse => rfl

theorem assign_lawful_iff (answer : String → Db → Except String Bool) (db : Db) (req : Request) (idAddress : Nat) :
    (KeepsFinished db (after answer db (.putAssign req idAddress)) ∧
      ∀ db', perform answer db (.putAssign req idAddress) = .ok db' → Answered db db' (.putAssign req idAddress)) ↔
      AssignFits db (.putAssign req idAddress) := by
  constructor
  · rintro ⟨keeps, answered⟩ id named current selected
    have found := (select_eq_some.mp selected).1
    by_cases unchanged : current.assigneeId = none ∧ req.assigneeId = none
    · exact .inl unchanged
    · by_cases refused : (idAddress : Int) ∈ db.requests ∧ ¬db.references req.assigneeId
      · exact .inr (.inl refused)
      · have accepted : perform answer db (.putAssign req idAddress) = .ok _ :=
          assign_ok_iff.mpr ⟨id, current, named, selected, .inr ⟨unchanged, by simpa using refused, rfl⟩⟩
        have sets := answered _ accepted
        rw [Answered, named] at sets
        obtain ⟨own, hits⟩ := (sets_change_iff found req.assigneeId).mp sets
        refine .inr (.inr ⟨own, fun hit hitFound => ?_⟩)
        rw [after_ok accepted] at keeps
        by_cases finished : Finished hit
        · exact .inl (assignTo_eq_iff.mp (keepsFinished_change_iff.mp keeps hit hitFound finished))
        · exact (hits hit hitFound).imp_right fun same => ⟨same, finished⟩
  · intro fits
    have accepts : ∀ db', perform answer db (.putAssign req idAddress) = .ok db' →
        KeepsFinished db db' ∧ Answered db db' (.putAssign req idAddress) := by
      intro db' accepted
      obtain ⟨id, current, named, selected, outcome⟩ := assign_ok_iff.mp accepted
      have found := (select_eq_some.mp selected).1
      rw [Answered, named]
      rcases outcome with ⟨unassigned, requested, rfl⟩ | ⟨changed, allowed, rfl⟩
      · refine ⟨keepsFinished_refl db', id, current, rfl, found, fun other => ?_⟩
        split
        case isTrue same =>
          rw [same, found]
          exact congrArg some (assignTo_eq_iff.mpr (unassigned.trans requested.symm)).symm
        case isFalse => rfl
      · rcases fits id named current selected with unchanged | ⟨member, refused⟩ | ⟨own, hits⟩
        · exact absurd unchanged changed
        · exact absurd (allowed member) refused
        · refine ⟨keepsFinished_change_iff.mpr fun hit hitFound finished => ?_, ?_⟩
          · exact assignTo_eq_iff.mpr ((hits hit hitFound).resolve_right fun both => both.2 finished)
          · exact (sets_change_iff found _).mpr ⟨own, fun hit hitFound => (hits hit hitFound).imp_right And.left⟩
    refine ⟨?_, fun db' accepted => (accepts db' accepted).2⟩
    rcases after_eq_or answer db (.putAssign req idAddress) with same | accepted
    · rw [same]
      exact keepsFinished_refl db
    · exact (accepts _ accepted).1

end Assign

structure Lawful (answer : String → Db → Except String Bool) (db : Db) (operation : Operation) : Prop where
  transitions : Transitions db (after answer db operation)
  finished : KeepsFinished db (after answer db operation)
  answered : ∀ db', perform answer db operation = .ok db' → Answered db db' operation

theorem lawful_of_ok (accepts : ∀ db', perform answer db operation = .ok db' →
    Transitions db db' ∧ KeepsFinished db db' ∧ Answered db db' operation) : Lawful answer db operation := by
  refine ⟨?_, ?_, fun db' accepted => (accepts db' accepted).2.2⟩
  all_goals rcases after_eq_or answer db operation with same | accepted
  · rw [same]
    exact transitions_refl db
  · exact (accepts _ accepted).1
  · rw [same]
    exact keepsFinished_refl db
  · exact (accepts _ accepted).2.1

theorem lawful_iff (answer : String → Db → Except String Bool) (db : Db) (operation : Operation) :
    Lawful answer db operation ↔ AssignFits db operation := by
  cases operation with
  | post user req drawn =>
    refine iff_of_true (lawful_of_ok fun db' accepted => ?_) trivial
    exact ⟨(post_lawful accepted).1, (post_lawful accepted).2, trivial⟩
  | put user req =>
    refine iff_of_true (lawful_of_ok fun db' accepted => ?_) trivial
    exact ⟨(put_lawful accepted).1, (put_lawful accepted).2, trivial⟩
  | putStatus req statusAddress idAddress =>
    exact iff_of_true (lawful_of_ok fun db' accepted => absurd accepted (changeStatus_not_ok _ _)) trivial
  | putAssign req idAddress =>
    rw [← assign_lawful_iff answer]
    exact ⟨fun lawful => ⟨lawful.finished, lawful.answered⟩,
      fun both => ⟨assign_keeps_statuses db req idAddress, both.1, both.2⟩⟩
  | delete req =>
    refine iff_of_true (lawful_of_ok fun db' accepted => ?_) trivial
    exact ⟨(delete_lawful accepted).1, (delete_lawful accepted).2, trivial⟩

theorem keepsFinished_run {operations : List Operation}
    (throughout : Throughout (step answer) (Lawful answer) db operations)
    (ran : run (step answer) db operations = some db') : KeepsFinished db db' := by
  have kept : ∀ t operation t', KeepsFinished db t → Lawful answer t operation → step answer t operation = some t' →
      KeepsFinished db t' := by
    intro t operation t' so lawful stepped id row found finished
    obtain rfl := Option.some.inj stepped
    exact lawful.finished id row (so id row found finished) finished
  exact run_invariant kept (keepsFinished_refl db) throughout ran

theorem followsWorkflow_iff (answer : String → Db → Except String Bool) (db : Db) (operations : List Operation) :
    FollowsWorkflow answer db operations ↔ Throughout (step answer) AssignFits db operations := by
  have agree : Throughout (step answer) (Lawful answer) db operations ↔
      Throughout (step answer) AssignFits db operations :=
    throughout_congr (lawful_iff answer) db operations
  rw [← agree]
  constructor
  · rintro ⟨transitions, finished, answered⟩
    refine throughout_of_splits fun past operation future split t ran => ?_
    refine ⟨transitions past operation future t split ran, ?_, answered past operation future t split ran⟩
    exact finished past [operation] future t _ (by simpa using split) ran rfl
  · intro throughout
    have here : ∀ past operation future t, operations = past ++ operation :: future →
        run (step answer) db past = some t → Lawful answer t operation := by
      rintro past operation future t rfl ran
      exact ((throughout_append.mp throughout).2 t ran).1
    refine ⟨fun past operation future t split ran => (here past operation future t split ran).transitions, ?_,
      fun past operation future t split ran => (here past operation future t split ran).answered⟩
    rintro past between future t t' rfl ran ran'
    rw [List.append_assoc] at throughout
    exact keepsFinished_run (throughout_append.mp ((throughout_append.mp throughout).2 t ran)).1 ran'

/-- Where no row has the printed address for its id, an assignment changes nothing and succeeds. -/
theorem assign_misses {req : Request} {id : Int} {current : Row} {idAddress : Nat} (named : req.id = some id)
    (selected : db.select id = some current) (absent : (idAddress : Int) ∉ db.requests) :
    assign db req idAddress = .ok db := by
  by_cases unchanged : current.assigneeId = none ∧ req.assigneeId = none
  · exact assign_ok_iff.mpr ⟨id, current, named, selected, .inl ⟨unchanged.1, unchanged.2, rfl⟩⟩
  · refine assign_ok_iff.mpr ⟨id, current, named, selected, .inr ⟨unchanged, fun member => absurd member absent, ?_⟩⟩
    rw [change, AList.lookup_eq_none.mpr absent, Option.elim_none]

end Steps

def unassigned : Db where
  users := [1, 5]
  requests := AList.insert 7
    { assigneeId := none, authorId := 1, changeType := .create, lastEditedById := 1
      deliveryService := some { xmlId := some "video", tenantId := some 1, fields := "" }, status := .draft } ∅

def assignToFive : Request where
  id := some 7
  assigneeId := some 5
  changeType := none
  deliveryService := none
  status := none

theorem assign_unfollowed :
    ¬FollowsWorkflow (fun _ _ => .ok false) unassigned [.putAssign assignToFive 0xc420010240] := by
  intro follows
  have accepted : assign unassigned assignToFive 0xc420010240 = .ok unassigned :=
    assign_misses rfl rfl (by decide)
  obtain ⟨key, row, named, -, sets⟩ := follows.answered [] _ [] unassigned rfl rfl unassigned accepted
  obtain rfl := Option.some.inj named
  have assigned := congrArg (Option.map Row.assigneeId) (sets 7)
  rw [if_pos rfl] at assigned
  cases assigned

end DsRequest
