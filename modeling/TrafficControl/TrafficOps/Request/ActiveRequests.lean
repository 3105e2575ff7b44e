import TrafficControl.TrafficOps.Request.Workflow

set_option autoImplicit false

namespace DsRequest

open KeyedTable Runs Tenants

def active : WorkflowState → Bool
  | .draft | .submitted | .pending => true
  | .rejected | .complete => false

/-- The column that the check for an active request looks at. -/
def Row.activeXmlId (row : Row) : Option String := if active row.status then row.xmlId else none

def AtMostOneActive (db : Db) : Prop := Distinct Row.activeXmlId db.requests

def IsActive (db : Db) (xmlId : String) : Prop :=
  ∃ id row, db.requests.lookup id = some row ∧ row.activeXmlId = some xmlId

section Sql

def quote : Char := Char.ofNat 39

def nul : Char := Char.ofNat 0

/-- The rest of a string constant up to its closing quote, and the text after it. Two quotes stand for one. -/
def scanConstant : List Char → Option (List Char × List Char)
  | [] => none
  | [c] => if c = quote then some ([], []) else none
  | c :: d :: text =>
    if c ≠ quote then (scanConstant (d :: text)).map (Prod.map (c :: ·) id)
    else if d = quote then (scanConstant text).map (Prod.map (c :: ·) id)
    else some ([], d :: text)

/-- The constant that the rows are compared with, where the text is a query of `isActiveRequest`. -/
def readQuery (text : String) : Option String :=
  if nul ∉ text.toList ∧ activeStart.toList.isPrefixOf text.toList then
    (scanConstant (text.toList.drop activeStart.toList.length)).bind fun scanned =>
      if scanned.2 = activeEnd.toList then some (String.ofList scanned.1) else none
  else none

/-- The database. `other` is what it makes of all other texts, syntax errors included. -/
def answers (other : String → Db → Except String Bool) (text : String) (db : Db) : Except String Bool :=
  (readQuery text).elim (other text db) fun xmlId =>
    .ok (db.requests.entries.any fun entry => entry.2.activeXmlId = some xmlId)

/-- An xmlId that means itself between two quotes. -/
def Plain (xmlId : String) : Prop := quote ∉ xmlId.toList ∧ nul ∉ xmlId.toList

instance (xmlId : String) : Decidable (Plain xmlId) := inferInstanceAs (Decidable (_ ∧ _))

theorem scanConstant_append {value : List Char} (plain : quote ∉ value) {d : Char} (other : d ≠ quote)
    (rest : List Char) : scanConstant (value ++ quote :: d :: rest) = some (value, d :: rest) := by
  induction value with
  | nil => simp [scanConstant, other]
  | cons c value ih =>
    obtain ⟨different, plain⟩ := List.ne_and_not_mem_of_not_mem_cons plain
    have next := ih plain
    cases value with
    | nil =>
      simp only [List.singleton_append, List.nil_append] at next ⊢
      rw [scanConstant, if_pos (Ne.symm different), next]
      rfl
    | cons c' value =>
      simp only [List.cons_append] at next ⊢
      rw [scanConstant, if_pos (Ne.symm different), next]
      rfl

theorem readQuery_activeQuery {xmlId : String} (plain : Plain xmlId) : readQuery (activeQuery xmlId) = some xmlId := by
  have whole : (activeQuery xmlId).toList = activeStart.toList ++ (xmlId.toList ++ quote :: activeEnd.toList) := by
    simp only [activeQuery, String.toList_append, List.append_assoc]
    rfl
  have ending : activeEnd.toList = (Char.ofNat 10) :: activeEnd.toList.tail := by decide +kernel
  have free : nul ∉ (activeQuery xmlId).toList := by
    have ends : nul ∉ activeStart.toList ∧ nul ∉ quote :: activeEnd.toList := by decide +kernel
    rw [whole, List.mem_append, List.mem_append]
    rintro (start | own | rest)
    · exact ends.1 start
    · exact plain.2 own
    · exact ends.2 rest
  have starts : activeStart.toList.isPrefixOf (activeQuery xmlId).toList := by
    rw [whole, List.isPrefixOf_iff_prefix]
    exact List.prefix_append _ _
  have scanned : scanConstant ((activeQuery xmlId).toList.drop activeStart.toList.length) =
      some (xmlId.toList, activeEnd.toList) := by
    rw [whole, List.drop_left, ending]
    exact scanConstant_append plain.1 (by decide) _
  rw [readQuery, if_pos ⟨free, starts⟩, scanned, Option.bind_some, if_pos rfl, String.ofList_toList]

theorem isActive_iff (db : Db) (xmlId : String) :
    IsActive db xmlId ↔ (db.requests.entries.any fun entry => entry.2.activeXmlId = some xmlId) = true := by
  rw [List.any_eq_true]
  constructor
  · rintro ⟨id, row, found, same⟩
    exact ⟨⟨id, row⟩, AList.mem_lookup_iff.mp found, by simpa using same⟩
  · rintro ⟨⟨id, row⟩, member, same⟩
    exact ⟨id, row, AList.mem_lookup_iff.mpr member, by simpa using same⟩

theorem isActiveRequest_iff (other : String → Db → Except String Bool) (db : Db) {xmlId : String} (plain : Plain xmlId) :
    isActiveRequest (answers other) db xmlId = .ok true ↔ IsActive db xmlId := by
  rw [isActiveRequest, answers, readQuery_activeQuery plain, Option.elim_some, Except.ok.injEq, isActive_iff]

end Sql

-- The inserts whose check has passed wait for their transaction.
structure Server where
  db : Db
  checked : List (CurrentUser × Request)

inductive Event where
  | operation (operation : Operation)
  | check (user : CurrentUser) (req : Request)
  | insert (index : Nat) (drawn : Int)

section Runs

variable (answer : String → Db → Except String Bool)

def serve (s : Server) : Event → Option Server
  | .operation operation => some { s with db := after answer s.db operation }
  | .check user req => some { s with
      checked := if (checkInsert answer s.db req).toBool then s.checked ++ [(user, req)] else s.checked }
  | .insert index drawn => s.checked[index]?.map fun entry =>
      { db := (insertRequest s.db entry.1 entry.2 drawn).toOption.getD s.db, checked := s.checked.eraseIdx index }

/-- What is about to be written does not have the xmlId of another active request. -/
def KeepsOne (s : Server) : Event → Prop
  | .operation (.post user req drawn) => (checkInsert answer s.db req).toBool → ∀ changeType state,
      Insertable s.db user req drawn changeType state →
        Free Row.activeXmlId s.db.requests drawn (inserted user req changeType state).activeXmlId
  | .operation (.put user req) => ∀ id current changeType state, Updatable s.db user req id current changeType state →
      Free Row.activeXmlId s.db.requests id (updated user req changeType state current).activeXmlId
  | .insert index drawn => ∀ entry ∈ s.checked[index]?, ∀ changeType state,
      Insertable s.db entry.1 entry.2 drawn changeType state →
        Free Row.activeXmlId s.db.requests drawn (inserted entry.1 entry.2 changeType state).activeXmlId
  | _ => True

end Runs

section Steps

variable {answer : String → Db → Except String Bool} {db : Db}

/-- A refused statement leaves the table as it was. -/
theorem settled_iff {good : Db → Prop} (holds : good db) (result : Result Db) :
    good (result.toOption.getD db) ↔ ∀ db', result = .ok db' → good db' := by
  cases result with
  | error _ => exact iff_of_true holds fun _ accepted => by cases accepted
  | ok db' => exact ⟨fun good' _ same => Except.ok.inj same ▸ good', fun all => all db' rfl⟩

theorem atMostOneActive_insertRequest_iff (unique : AtMostOneActive db) (user : CurrentUser) (req : Request) (drawn : Int) :
    AtMostOneActive ((insertRequest db user req drawn).toOption.getD db) ↔
      ∀ changeType state, Insertable db user req drawn changeType state →
        Free Row.activeXmlId db.requests drawn (inserted user req changeType state).activeXmlId := by
  rw [settled_iff unique]
  constructor
  · intro all changeType state insertable
    have accepted := insertRequest_ok_iff.mpr ⟨changeType, state, insertable, rfl⟩
    exact (distinct_insert_iff unique drawn _).mp (all _ accepted)
  · intro free db' accepted
    obtain ⟨changeType, state, insertable, rfl⟩ := insertRequest_ok_iff.mp accepted
    exact (distinct_insert_iff unique drawn _).mpr (free changeType state insertable)

theorem atMostOneActive_change {id : Int} {set : Row → Row} (unique : AtMostOneActive db)
    (same : ∀ row, (set row).activeXmlId = row.activeXmlId) :
    AtMostOneActive { db with requests := change db.requests id set } := by
  unfold AtMostOneActive change
  cases found : db.requests.lookup id with
  | none => exact unique
  | some row =>
    refine (distinct_insert_iff unique id (set row)).mpr fun other row' different found' value equal => ?_
    rw [same] at equal
    exact different (unique other id row' row found' found (by rwa [equal, ← same]) equal)

theorem change_found {id : Int} {row : Row} (found : db.requests.lookup id = some row) (set : Row → Row) :
    change db.requests id set = db.requests.insert id (set row) := by
  rw [change, found, Option.elim_some]

theorem atMostOneActive_update_iff (unique : AtMostOneActive db) (user : CurrentUser) (req : Request) :
    AtMostOneActive (after answer db (.put user req)) ↔
      ∀ id current changeType state, Updatable db user req id current changeType state →
        Free Row.activeXmlId db.requests id (updated user req changeType state current).activeXmlId := by
  rw [after, settled_iff unique]
  constructor
  · intro all id current changeType state updatable
    have accepted := update_ok_iff.mpr ⟨id, current, changeType, state, updatable, rfl⟩
    rw [change_found (select_eq_some.mp updatable.selected).1] at accepted
    exact (distinct_insert_iff unique id _).mp (all _ accepted)
  · intro free db' accepted
    obtain ⟨id, current, changeType, state, updatable, rfl⟩ := update_ok_iff.mp accepted
    rw [change_found (select_eq_some.mp updatable.selected).1]
    exact (distinct_insert_iff unique id _).mpr (free id current changeType state updatable)

theorem atMostOneActive_post_iff (unique : AtMostOneActive db) (user : CurrentUser) (req : Request) (drawn : Int) :
    AtMostOneActive (after answer db (.post user req drawn)) ↔
      ((checkInsert answer db req).toBool → ∀ changeType state, Insertable db user req drawn changeType state →
        Free Row.activeXmlId db.requests drawn (inserted user req changeType state).activeXmlId) := by
  rw [← atMostOneActive_insertRequest_iff unique, after, perform, insert]
  cases checkInsert answer db req with
  | error _ => exact iff_of_true unique fun passed => by cases passed
  | ok _ => exact ⟨fun good _ => good, fun good => good rfl⟩

theorem atMostOneActive_assign (unique : AtMostOneActive db) (req : Request) (idAddress : Nat) :
    AtMostOneActive (after answer db (.putAssign req idAddress)) := by
  rw [after, settled_iff unique]
  intro db' accepted
  obtain ⟨_, _, -, -, ⟨-, -, rfl⟩ | ⟨-, -, rfl⟩⟩ := assign_ok_iff.mp accepted
  · exact unique
  · exact atMostOneActive_change unique fun _ => rfl

theorem atMostOneActive_delete (unique : AtMostOneActive db) (req : Request) :
    AtMostOneActive (after answer db (.delete req)) := by
  rw [after, settled_iff unique]
  intro db' accepted
  obtain ⟨id, _, -, -, -, rfl⟩ := delete_ok_iff.mp accepted
  exact unique.erase id

theorem atMostOneActive_status (unique : AtMostOneActive db) (req : Request) (statusAddress idAddress : Nat) :
    AtMostOneActive (after answer db (.putStatus req statusAddress idAddress)) := by
  rw [after, settled_iff unique]
  exact fun _ accepted => absurd accepted (changeStatus_not_ok _ _)

theorem serve_unique_iff {s t : Server} {event : Event} (unique : AtMostOneActive s.db)
    (served : serve answer s event = some t) : AtMostOneActive t.db ↔ KeepsOne answer s event := by
  cases event with
  | operation operation =>
    obtain rfl := Option.some.inj served
    cases operation with
    | post user req drawn => exact atMostOneActive_post_iff unique user req drawn
    | put user req => exact atMostOneActive_update_iff unique user req
    | putStatus req statusAddress idAddress => exact iff_of_true (atMostOneActive_status unique _ _ _) trivial
    | putAssign req idAddress => exact iff_of_true (atMostOneActive_assign unique _ _) trivial
    | delete req => exact iff_of_true (atMostOneActive_delete unique _) trivial
  | check user req =>
    obtain rfl := Option.some.inj served
    exact iff_of_true unique trivial
  | insert index drawn =>
    obtain ⟨entry, found, rfl⟩ := Option.map_eq_some_iff.mp served
    refine (atMostOneActive_insertRequest_iff unique entry.1 entry.2 drawn).trans ?_
    rw [KeepsOne, found]
    exact ⟨fun free _ same => Option.some.inj same ▸ free, fun free => free entry rfl⟩

theorem serve_blocked {s : Server} {event : Event} (blocked : serve answer s event = none) : KeepsOne answer s event := by
  cases event with
  | operation => cases blocked
  | check => cases blocked
  | insert index drawn =>
    rw [KeepsOne, Option.map_eq_none_iff.mp blocked]
    exact fun _ none => by cases none

/-- An insert that is not interrupted keeps the rule, for an xmlId that means itself. -/
theorem post_keepsOne (other : String → Db → Except String Bool) (s : Server) (user : CurrentUser) (req : Request)
    (drawn : Int) (plain : ∀ xmlId ∈ req.deliveryService.bind DeliveryService.xmlId, Plain xmlId) :
    KeepsOne (answers other) s (.operation (.post user req drawn)) := by
  intro passed changeType state insertable key row different found value same
  obtain ⟨xmlId, _, postable, inactive⟩ : ∃ xmlId state, Postable req xmlId state ∧
      isActiveRequest (answers other) s.db xmlId = .ok false := by
    cases checked : checkInsert (answers other) s.db req with
    | error _ =>
      rw [checked] at passed
      cases passed
    | ok _ => exact checkInsert_ok_iff.mp checked
  have named : (inserted user req changeType state).activeXmlId = some xmlId := by
    unfold Row.activeXmlId at value ⊢
    split at value
    · exact (if_pos ‹_›).trans postable.xmlId
    · exact absurd rfl value
  have exists_active : IsActive s.db xmlId := ⟨key, row, found, same.trans named⟩
  rw [← isActiveRequest_iff other s.db (plain xmlId postable.xmlId), inactive] at exists_active
  cases exists_active

theorem atMostOneActive_iff (other : String → Db → Except String Bool) {s : Server} (unique : AtMostOneActive s.db)
    (events : List Event) :
    (Always (serve (answers other)) (fun t => AtMostOneActive t.db) s events ↔
        Throughout (serve (answers other)) (KeepsOne (answers other)) s events) ∧
      ∀ db xmlId, Plain xmlId → (isActiveRequest (answers other) db xmlId = .ok true ↔ IsActive db xmlId) :=
  ⟨always_iff_of_steps (fun _ _ _ => serve_unique_iff) (fun _ _ => serve_blocked) unique events,
    fun db _ => isActiveRequest_iff other db⟩

end Steps

section Drafts

def draft (xmlId : String) : Row where
  assigneeId := none
  authorId := 1
  changeType := .create
  lastEditedById := 1
  deliveryService := some { xmlId := some xmlId, tenantId := some 1, fields := "" }
  status := .draft

def twoDrafts : Server where
  db := { users := [1], requests := AList.insert 2 (draft "b") (AList.insert 1 (draft "a") ∅) }
  checked := []

def admin : CurrentUser where
  id := 1
  privLevel := 30
  tenantId := 1

def asks (id : Option Int) (xmlId : String) : Request where
  id := id
  assigneeId := none
  changeType := some "create"
  deliveryService := some { xmlId := some xmlId, tenantId := some 1, fields := "" }
  status := some (.of .draft)

theorem atMostOneActive_twoDrafts : AtMostOneActive twoDrafts.db := by
  have none : Distinct Row.activeXmlId (∅ : AList fun _ : Int => Row) := fun _ _ _ _ found => by cases found
  have first := (distinct_insert_iff none 1 (draft "a")).mpr fun _ _ _ found => by cases found
  refine (distinct_insert_iff first 2 (draft "b")).mpr fun other row _ found _ => ?_
  rw [lookup_insert_if] at found
  split at found
  · obtain rfl := Option.some.inj found
    decide
  · cases found

theorem atMostOneActive_third : Always (serve (answers fun _ _ => .error "syntax error"))
    (fun t => AtMostOneActive t.db) twoDrafts
    [.operation (.post admin (asks none "c") 3), .operation (.delete (asks (some 1) "a"))] :=
  (atMostOneActive_iff _ atMostOneActive_twoDrafts _).1.mpr
    ⟨post_keepsOne _ _ _ _ _ (by decide), fun _ _ => ⟨trivial, fun _ _ => trivial⟩⟩

def waiting (checked : List (CurrentUser × Request)) : Server where
  db := { users := [1], requests := ∅ }
  checked := checked

-- Both checks come before both inserts.
def interleaved : List Event :=
  [.check admin (asks none "a"), .check admin (asks none "a"), .insert 0 1, .insert 0 2]

theorem run_interleaved (other : String → Db → Except String Bool) : run (serve (answers other)) (waiting []) interleaved =
    some {
      db := { users := [1], requests := AList.insert 2 (draft "a") (AList.insert 1 (draft "a") ∅) }
      checked := [] } := by
  have inactive : isActiveRequest (answers other) (waiting []).db "a" = .ok false := by
    rw [isActiveRequest, answers, readQuery_activeQuery (by decide)]
    rfl
  have passed : checkInsert (answers other) (waiting []).db (asks none "a") = .ok () :=
    checkInsert_ok_iff.mpr ⟨"a", .draft, ⟨rfl, .inl rfl, rfl⟩, inactive⟩
  have checked : ∀ entries, serve (answers other) (waiting entries) (.check admin (asks none "a")) =
      some (waiting (entries ++ [(admin, asks none "a")])) := by
    intro entries
    change checkInsert (answers other) (waiting entries).db (asks none "a") = _ at passed
    rw [serve, passed]
    rfl
  rw [interleaved, run, checked, Option.bind_some, run, checked, Option.bind_some]
  rfl

/-- A `PUT` takes the xmlId of another draft; two checks come before two inserts; and a doubled quote
hides a request from the check. -/
theorem not_atMostOneActive : AtMostOneActive twoDrafts.db ∧
    ¬Always (serve (answers fun _ _ => .error "syntax error")) (fun t => AtMostOneActive t.db) twoDrafts
      [.operation (.put admin (asks (some 2) "a"))] ∧
    ¬Always (serve (answers fun _ _ => .error "syntax error")) (fun t => AtMostOneActive t.db) (waiting []) interleaved ∧
    ∃ db, IsActive db "a''b" ∧
      isActiveRequest (answers fun _ _ => .error "syntax error") db "a''b" = .ok false := by
  refine ⟨atMostOneActive_twoDrafts, fun always => ?_, fun always => ?_, ?_⟩
  · have unique := always_iff.mp always [_] [] _ rfl rfl
    have same : (1 : Int) = 2 := unique 1 2 (draft "a") (draft "a") rfl rfl (by decide) rfl
    cases same
  · have unique := always_iff.mp always interleaved [] _ (by simp) (run_interleaved _)
    have same : (1 : Int) = 2 := unique 1 2 (draft "a") (draft "a") rfl rfl (by decide) rfl
    cases same
  · refine ⟨{ users := [1], requests := AList.insert 1 (draft "a''b") ∅ }, ⟨1, draft "a''b", rfl, rfl⟩, ?_⟩
    have read : readQuery (activeQuery "a''b") = some "a'b" := by decide +kernel
    rw [isActiveRequest, answers, read]
    rfl

end Drafts

end DsRequest
