import TrafficControl.TrafficOps.Servers.Assignment

set_option autoImplicit false

-- What the transaction of an assignment comes to when a database call fails.
namespace Assignment

open Routine

/-- An error leaves the tables as they were, and an answer stands for a commit. -/
def Atomic (db : Database) (assigned : Assigned) : Prop :=
  match assigned.result with
  | .error _ => assigned.ended ≠ some .commit ∧ assigned.committed = db
  | .ok _ => assigned.ended = some .commit

section Calls

variable (faults : Faults)

def executed (statement : Statement) : List Call := [.prepare statement, .execute statement]

def scanned (statement : Statement) (rows : Nat) : List Call := (List.range rows).map (.scan statement)

variable (dses : List Int) (db : Database)

def dsRows : List DeliveryService := delivered faults .selectDsFields (dsFields db dses)

def insertList : List String := (dsRows faults dses db).flatMap (filesOf true)

def atsConfigLocation : String := location ((faults.fails .scanLocation).elim (remapLocation db) fun _ => none)

def idRows : List Int :=
  let files := insertList faults dses db
  delivered faults .selectParameterIds (parameterIds (insertParams db files (atsConfigLocation faults db)) files)

/-- The calls of a run that no failure cuts short, but for the one whose error nobody looks at. -/
def calls (replace : Bool) : List Call :=
  .beginx :: ((if replace then executed .deleteCurrent else []) ++
    (executed .bulkInsert ++
    ((executed .selectDsFields ++ scanned .selectDsFields (dsRows faults dses db).length) ++
    (executed .insertParams ++
    ((executed .selectParameterIds ++ scanned .selectParameterIds (idRows faults dses db).length) ++
    (executed .insertProfileParams ++ executed .deleteParams))))))

def failed (c : Call) : Bool := (faults.fails c).isSome

def firstFailure (replace : Bool) : Option Call := (calls faults dses db replace).find? (failed faults)

end Calls

/-- The error of these calls is kept in an `err` that the deferred function does not read. -/
def shadowed : Call → Bool
  | .prepare statement | .execute statement => statement = .deleteCurrent
  | .scan _ _ => true
  | .beginx | .scanLocation => false

section Follows

variable {faults : Faults} {α β : Type}

/-- The routine makes these calls until one fails, and `err` tells of the failure unless it is shadowed. -/
def Follows (faults : Faults) (routine : Routine Err Transaction α) (tx : Transaction) (calls : List Call)
    (post : α → Database → Prop) : Prop :=
  match calls.find? (failed faults) with
  | some c => ∃ tx', outcome routine tx = (.error .DBError, tx') ∧ (tx'.err = none ↔ shadowed c = true)
  | none => ∃ a db', outcome routine tx = (.ok a, ⟨db', none⟩) ∧ post a db'

variable {routine : Routine Err Transaction α} {tx : Transaction} {before after : List Call}
  {middle : α → Database → Prop} {post : β → Database → Prop}

theorem follows_pure {post : α → Database → Prop} {db : Database} {a : α} (holds : post a db) :
    Follows faults (pure a) ⟨db, none⟩ [] post :=
  ⟨a, db, rfl, holds⟩

theorem follows_bind {next : α → Routine Err Transaction β} (first : Follows faults routine tx before middle)
    (rest : ∀ a db, middle a db → Follows faults (next a) ⟨db, none⟩ after post) :
    Follows faults (routine >>= next) tx (before ++ after) post := by
  unfold Follows at first ⊢
  rw [List.find?_append, outcome_bind]
  cases found : before.find? (failed faults) with
  | some c =>
    rw [found] at first
    obtain ⟨tx', ran, told⟩ := first
    exact ⟨tx', by rw [ran], told⟩
  | none =>
    rw [found] at first
    obtain ⟨a, db, ran, holds⟩ := first
    rw [ran]
    exact rest a db holds

theorem follows_readState_bind {next : Transaction → Routine Err Transaction β} {calls : List Call}
    (rest : Follows faults (next tx) tx calls post) : Follows faults (readState >>= next) tx calls post := by
  unfold Follows at rest ⊢
  rw [outcome_readState_bind]
  exact rest

theorem follows_call {c : Call} (outer : shadowed c = false) (effect : Database → Database) (db : Database) :
    Follows faults (call faults c effect) ⟨db, none⟩ [c] fun _ db' => effect db = db' := by
  cases failure : faults.fails c with
  | none =>
    have found : [c].find? (failed faults) = none := by simp [failed, failure]
    rw [Follows, found]
    exact ⟨(), effect db, by simp only [outcome, call, failure], rfl⟩
  | some err =>
    have found : [c].find? (failed faults) = some c := by simp [failed, failure]
    rw [Follows, found]
    exact ⟨⟨db, some err⟩, by simp only [outcome, call, failure], by simp [outer]⟩

theorem follows_shadowedCall {c : Call} (inner : shadowed c = true) (effect : Database → Database) (db : Database) :
    Follows faults (shadowedCall faults c effect) ⟨db, none⟩ [c] fun _ db' => effect db = db' := by
  cases failure : faults.fails c with
  | none =>
    have found : [c].find? (failed faults) = none := by simp [failed, failure]
    rw [Follows, found]
    exact ⟨(), effect db, by simp only [outcome, shadowedCall, failure], rfl⟩
  | some err =>
    have found : [c].find? (failed faults) = some c := by simp [failed, failure]
    rw [Follows, found]
    exact ⟨⟨db, none⟩, by simp only [outcome, shadowedCall, failure], by simp [inner]⟩

theorem follows_execute {statement : Statement} (outer : statement ≠ .deleteCurrent) (effect : Database → Database)
    (db : Database) :
    Follows faults (execute faults statement effect) ⟨db, none⟩ (executed statement) fun _ db' => effect db = db' := by
  have prepared : shadowed (.prepare statement) = false := by simp [shadowed, outer]
  refine follows_bind (follows_call prepared id db) fun _ db' same => ?_
  subst same
  exact follows_call (by simp [shadowed, outer]) effect db

theorem follows_scanRows (statement : Statement) (rows : List α) (i : Nat) (db : Database) :
    Follows faults (scanRows faults statement i rows) ⟨db, none⟩ ((List.range' i rows.length).map (.scan statement))
      fun _ db' => db = db' := by
  induction rows generalizing i with
  | nil => exact follows_pure rfl
  | cons row rows ih =>
    change Follows faults _ _ ([.scan statement i] ++ _) _
    refine follows_bind (follows_shadowedCall rfl id db) fun _ db' same => ?_
    subst same
    exact ih (i + 1)

theorem follows_query {statement : Statement} (outer : statement ≠ .deleteCurrent) (select : Database → List α)
    (db : Database) :
    Follows faults (query faults statement select) ⟨db, none⟩
      (executed statement ++ scanned statement (delivered faults statement (select db)).length)
      fun rows db' => delivered faults statement (select db) = rows ∧ db = db' := by
  refine follows_bind (follows_execute outer id db) fun _ db' same => ?_
  subst same
  apply follows_readState_bind
  rw [scanned, List.range_eq_range', ← List.append_nil (List.map _ _)]
  refine follows_bind (follows_scanRows statement _ 0 db) fun _ db' same => ?_
  subst same
  exact follows_pure ⟨rfl, rfl⟩

end Follows

section Transaction

variable (faults : Faults) (server : Int) (dses : List Int) (replace : Bool) (db : Database)

theorem insertParameter_assignments (value : String) (assignments : List (Int × Int)) (file : String) :
    insertParameter value { db with assignments } file = { insertParameter value db file with assignments } := by
  unfold insertParameter
  split <;> rfl

theorem insertParams_assignments (files : List String) (value : String) (assignments : List (Int × Int)) :
    insertParams { db with assignments } files value = { insertParams db files value with assignments } := by
  unfold insertParams
  induction files generalizing db with
  | nil => rfl
  | cons file files ih => rw [List.foldl_cons, List.foldl_cons, insertParameter_assignments, ih]

theorem idRows_assignments (assignments : List (Int × Int)) :
    idRows faults dses { db with assignments } = idRows faults dses db := by
  unfold idRows
  dsimp only
  rw [insertParams_assignments]
  rfl

def deleteList : List String := (dsRows faults dses db).flatMap (filesOf false)

/-- The tables behind the statements after the replacement's block. -/
def assignedNew : Database :=
  let inserted := insertParams (bulkInsert db server dses) (insertList faults dses db) (atsConfigLocation faults db)
  deleteParams (insertProfileParams inserted dses (idRows faults dses db)) (deleteList faults dses db)

/-- After the replacement's block only the assignments can have changed. -/
theorem follows_assign_new (assignments : List (Int × Int)) :
    Follows faults (assign faults server dses false) ⟨{ db with assignments }, none⟩ (calls faults dses db false).tail
      fun _ db' => assignedNew faults server dses { db with assignments } = db' := by
  change Follows faults _ _ (executed .bulkInsert ++ _) _
  refine follows_bind (follows_execute (by decide) _ _) fun _ _ assigned => ?_
  subst assigned
  apply follows_readState_bind
  refine follows_bind (follows_query (by decide) _ _) fun rows _ ⟨found, same⟩ => ?_
  subst same
  have dsRows_eq : rows = dsRows faults dses db := found.symm
  subst dsRows_eq
  refine follows_bind (follows_execute (by decide) _ _) fun _ _ inserted => ?_
  subst inserted
  rw [← idRows_assignments faults dses db]
  refine follows_bind (follows_query (by decide) _ _) fun ids _ ⟨selected, same⟩ => ?_
  subst same
  have idRows_eq : ids = idRows faults dses { db with assignments } := by
    rw [idRows_assignments, ← selected, ← idRows_assignments faults dses db (insertNew assignments _)]
    rfl
  subst idRows_eq
  refine follows_bind (follows_execute (by decide) _ _) fun _ _ linked => ?_
  subst linked
  rw [← List.append_nil (executed .deleteParams)]
  exact follows_bind (follows_execute (by decide) _ _) fun _ _ deleted => follows_pure deleted

/-- The tables behind all statements. -/
def assignedDatabase : Database :=
  assignedNew faults server dses (if replace then deleteCurrent db server else db)

theorem follows_assign : Follows faults (assign faults server dses replace) ⟨db, none⟩
    (calls faults dses db replace).tail fun _ db' => assignedDatabase faults server dses replace db = db' := by
  cases replace with
  | false => exact follows_assign_new faults server dses db db.assignments
  | true =>
    change Follows faults _ _ ([.prepare .deleteCurrent] ++ ([.execute .deleteCurrent] ++ _)) _
    refine follows_bind (follows_shadowedCall rfl id db) fun _ _ same => ?_
    subst same
    refine follows_bind (follows_shadowedCall rfl (fun db => deleteCurrent db server) db) fun _ _ deleted => ?_
    subst deleted
    exact follows_assign_new faults server dses db _

/-- The commit and the rollback go by the error that the outer `err` holds, so the call is atomic exactly when the
first database call to fail is none of the replacement's two and no scan of a row. -/
theorem atomic_iff : Atomic db (assignDeliveryServicesToServer faults server dses replace db) ↔
    ∀ c, firstFailure faults dses db replace = some c → shadowed c = false := by
  unfold assignDeliveryServicesToServer firstFailure
  cases begun : faults.fails .beginx with
  | some err =>
    have first : (calls faults dses db replace).find? (failed faults) = some .beginx := by
      simp [calls, failed, begun]
    simp [Atomic, first, shadowed]
  | none =>
    have first : (calls faults dses db replace).find? (failed faults) =
        (calls faults dses db replace).tail.find? (failed faults) := by
      simp [calls, failed, begun]
    have follows := follows_assign faults server dses replace db
    rw [first]
    unfold Follows at follows
    cases failure : (calls faults dses db replace).tail.find? (failed faults) with
    | none =>
      rw [failure] at follows
      obtain ⟨a, db', ran, _⟩ := follows
      simp [ran, Atomic]
    | some c =>
      rw [failure] at follows
      obtain ⟨⟨db', err⟩, ran, told⟩ := follows
      cases err with
      | none => simp_all [Atomic]
      | some err => simp_all [Atomic]

end Transaction

/-- A row that does not scan leaves the replacement committed, and the caller gets an error. -/
theorem not_atomic : ∃ (faults : Faults) (db : Database), let assigned := assignDeliveryServicesToServer faults 1 [7] true db
    assigned.result = .error .DBError ∧ assigned.ended = some .commit ∧
      db.assignments = [(5, 1)] ∧ assigned.committed.assignments = [(7, 1)] ∧ ¬ Atomic db assigned := by
  let fails (c : Call) : Option String := if c = .scan .selectDsFields 0 then some "unsupported Scan" else none
  let db : Database := ⟨[(5, 1)], [], [], [(1, 3)], [⟨7, some "video", none, none, none⟩], 1⟩
  refine ⟨⟨fails, fun _ => none⟩, db, rfl, rfl, rfl, rfl, ?_⟩
  intro atomic
  exact atomic.1 rfl

end Assignment
