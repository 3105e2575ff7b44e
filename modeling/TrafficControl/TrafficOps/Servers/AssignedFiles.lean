import TrafficControl.TrafficOps.Servers.FailedAssignment

set_option autoImplicit false

-- What an assignment that succeeds leaves in the tables: the assignments, the parameters of the config files and their links.
namespace Assignment

def IsLocation (file : String) (parameter : Parameter) : Prop :=
  parameter.name = "location" ∧ parameter.configFile = some file

theorem IsLocation.unique {file other : String} {parameter : Parameter} (here : IsLocation file parameter)
    (there : IsLocation other parameter) : file = other :=
  Option.some.inj (here.2.symm.trans there.2)

def HasLocation (db : Database) (file : String) : Prop := ∃ parameter ∈ db.parameters, IsLocation file parameter

/-- The keys and references that the tables have. -/
structure Consistent (db : Database) : Prop where
  xmlIds : ∀ ds ∈ db.deliveryServices, ∀ other ∈ db.deliveryServices, ds.xmlId = other.xmlId → ds = other
  ids : ∀ parameter ∈ db.parameters, ∀ other ∈ db.parameters, parameter.id = other.id → parameter = other
  fresh : ∀ parameter ∈ db.parameters, parameter.id < db.nextParameterId
  links : ∀ row ∈ db.profileParameters, ∃ parameter ∈ db.parameters, parameter.id = row.2

section Statements

variable {db : Database}

theorem mem_insertNew {rows new : List (Int × Int)} {row : Int × Int} :
    row ∈ insertNew rows new ↔ row ∈ rows ∨ row ∈ new := by
  unfold insertNew
  induction new generalizing rows with
  | nil => simp
  | cons first new ih =>
    rw [List.foldl_cons, ih]
    split
    · next present =>
      rw [List.mem_cons]
      constructor
      · rintro (old | later)
        · exact .inl old
        · exact .inr (.inr later)
      · rintro (old | rfl | later)
        · exact .inl old
        · exact .inl present
        · exact .inr later
    · rw [List.mem_append, List.mem_singleton, List.mem_cons, or_assoc]

/-- What the insertion of files leaves: their parameters, and otherwise what there was. -/
structure Inserted (before after : Database) (files : List String) (value : String) : Prop where
  kept : ∀ parameter ∈ before.parameters, parameter ∈ after.parameters
  new : ∀ parameter ∈ after.parameters, parameter ∈ before.parameters ∨ before.nextParameterId ≤ parameter.id ∧
    ∃ file ∈ files, IsLocation file parameter ∧
      ¬∃ other ∈ before.parameters, IsLocation file other ∧ other.value = value
  there : ∀ file ∈ files, ∃ parameter ∈ after.parameters, IsLocation file parameter ∧ parameter.value = value
  ids : ∀ parameter ∈ after.parameters, ∀ other ∈ after.parameters, parameter.id = other.id → parameter = other
  next : before.nextParameterId ≤ after.nextParameterId
  fresh : ∀ parameter ∈ after.parameters, parameter.id < after.nextParameterId
  servers : after.servers = before.servers
  deliveryServices : after.deliveryServices = before.deliveryServices
  links : after.profileParameters = before.profileParameters

def UniqueIds (db : Database) : Prop :=
  ∀ parameter ∈ db.parameters, ∀ other ∈ db.parameters, parameter.id = other.id → parameter = other

def FreshIds (db : Database) : Prop := ∀ parameter ∈ db.parameters, parameter.id < db.nextParameterId

theorem inserted_one (value file : String) (ids : UniqueIds db) (fresh : FreshIds db) :
    Inserted db (insertParameter value db file) [file] value := by
  unfold insertParameter
  split
  · next present =>
    obtain ⟨parameter, member, name, configFile, same⟩ := present
    refine ⟨fun _ member => member, fun _ member => .inl member, ?_, ids, Int.le_refl _, fresh, rfl, rfl, rfl⟩
    intro other listed
    rw [List.mem_singleton.mp listed]
    exact ⟨parameter, member, ⟨name, configFile⟩, same⟩
  · next absent =>
    have only : ∀ parameter ∈ db.parameters ++ [⟨db.nextParameterId, "location", some file, value⟩],
        parameter ∈ db.parameters ∨ parameter = ⟨db.nextParameterId, "location", some file, value⟩ := fun parameter member =>
      (List.mem_append.mp member).imp_right List.mem_singleton.mp
    refine ⟨fun _ member => List.mem_append_left _ member, ?_, ?_, ?_, ?_, ?_, rfl, rfl, rfl⟩
    · intro parameter member
      refine (only parameter member).imp_right ?_
      rintro rfl
      refine ⟨Int.le_refl _, file, List.mem_singleton_self _, ⟨rfl, rfl⟩, ?_⟩
      rintro ⟨other, old, ⟨name, configFile⟩, same⟩
      exact absent ⟨other, old, name, configFile, same⟩
    · intro other listed
      rw [List.mem_singleton.mp listed]
      exact ⟨_, List.mem_append_right _ (List.mem_singleton_self _), ⟨rfl, rfl⟩, rfl⟩
    · intro parameter member other listed same
      obtain old | rfl := only parameter member <;> obtain also | rfl := only other listed
      · exact ids parameter old other also same
      · have below := fresh parameter old
        rw [same] at below
        exact absurd below (Int.lt_irrefl _)
      · have below := fresh other also
        rw [← same] at below
        exact absurd below (Int.lt_irrefl _)
      · rfl
    · exact Int.le_of_lt (Int.lt_succ _)
    · intro parameter member
      obtain old | rfl := only parameter member
      · exact Int.lt_trans (fresh parameter old) (Int.lt_succ _)
      · exact Int.lt_succ _

theorem Inserted.append {before middle after : Database} {first second : List String} {value : String}
    (start : Inserted before middle first value) (rest : Inserted middle after second value) :
    Inserted before after (first ++ second) value where
  kept := fun parameter member => rest.kept parameter (start.kept parameter member)
  new := by
    intro parameter member
    obtain old | ⟨late, file, listed, here, absent⟩ := rest.new parameter member
    · refine (start.new parameter old).imp_right ?_
      rintro ⟨late, file, listed, here, absent⟩
      exact ⟨late, file, List.mem_append_left _ listed, here, absent⟩
    · refine .inr ⟨Int.le_trans start.next late, file, List.mem_append_right _ listed, here, ?_⟩
      rintro ⟨other, old, same⟩
      exact absent ⟨other, start.kept other old, same⟩
  there := by
    intro file listed
    obtain early | late := List.mem_append.mp listed
    · obtain ⟨parameter, member, here⟩ := start.there file early
      exact ⟨parameter, rest.kept parameter member, here⟩
    · exact rest.there file late
  ids := rest.ids
  next := Int.le_trans start.next rest.next
  fresh := rest.fresh
  servers := rest.servers.trans start.servers
  deliveryServices := rest.deliveryServices.trans start.deliveryServices
  links := rest.links.trans start.links

theorem inserted_insertParams (files : List String) (value : String) (ids : UniqueIds db) (fresh : FreshIds db) :
    Inserted db (insertParams db files value) files value := by
  unfold insertParams
  induction files generalizing db with
  | nil => exact ⟨fun _ member => member, fun _ member => .inl member, nofun, ids, Int.le_refl _, fresh, rfl, rfl, rfl⟩
  | cons file files ih =>
    have first := inserted_one value file ids fresh
    exact first.append (ih first.ids first.fresh)

theorem mem_deleteParams {files : List String} {parameter : Parameter} :
    parameter ∈ (deleteParams db files).parameters ↔
      parameter ∈ db.parameters ∧ ¬∃ file ∈ files, IsLocation file parameter := by
  unfold deleteParams IsLocation
  simp only [List.mem_filter]
  refine and_congr_right fun _ => ?_
  cases parameter.configFile with
  | none => simp
  | some file => simp [Decidable.imp_iff_not_or, or_comm]

end Statements

section Files

/-- The fields of a delivery service that ask for a file, with the start of its name. -/
def fileFields (ds : DeliveryService) : List (String × Option String) :=
  [("hdr_rw_", ds.edgeHeaderRewrite), ("regex_remap_", ds.regexRemap), ("cacheurl_", ds.cacheurl)]

def fileOf (ds : DeliveryService) (field : String × Option String) : String := configFile field.1 (ds.xmlId.getD "")

theorem mem_filesOf {needed : Bool} {ds : DeliveryService} {file : String} :
    file ∈ filesOf needed ds ↔
      nonempty ds.xmlId = true ∧ ∃ field ∈ fileFields ds, nonempty field.2 = needed ∧ file = fileOf ds field := by
  unfold filesOf
  split
  · next named =>
    simp only [named, true_and, List.mem_map, List.mem_filter, decide_eq_true_eq, and_assoc]
    exact exists_congr fun field => and_congr_right fun _ => and_congr_right fun _ => eq_comm
  · next unnamed => simp [unnamed]

theorem start_cases {ds : DeliveryService} {field : String × Option String} (listed : field ∈ fileFields ds) :
    field.1 = "hdr_rw_" ∨ field.1 = "regex_remap_" ∨ field.1 = "cacheurl_" := by
  simp only [fileFields, List.mem_cons, List.not_mem_nil, or_false] at listed
  rcases listed with rfl | rfl | rfl <;> simp

theorem head_configFile {start : String} (some : start.toList ≠ []) (xmlId : String) :
    (configFile start xmlId).toList.head? = start.toList.head? := by
  rw [configFile, String.toList_append, String.toList_append, List.append_assoc, List.head?_append,
    List.head?_eq_some_head some, Option.some_or]

theorem start_some {ds : DeliveryService} {field : String × Option String} (listed : field ∈ fileFields ds) :
    field.1.toList ≠ [] := by
  rcases start_cases listed with start | start | start <;> rw [start] <;> decide

theorem configFile_inj {ds other : DeliveryService} {field second : String × Option String} {xmlId name : String}
    (listed : field ∈ fileFields ds) (also : second ∈ fileFields other)
    (same : configFile field.1 xmlId = configFile second.1 name) : field.1 = second.1 ∧ xmlId = name := by
  have heads : field.1.toList.head? = second.1.toList.head? := by
    rw [← head_configFile (start_some listed) xmlId, same, head_configFile (start_some also)]
  have start : field.1 = second.1 := by
    revert heads
    rcases start_cases listed with here | here | here <;> rcases start_cases also with there | there | there <;>
      rw [here, there] <;> decide
  have texts := congrArg String.toList same
  rw [start, configFile, configFile, String.toList_append, String.toList_append, String.toList_append, String.toList_append]
    at texts
  exact ⟨start, String.toList_inj.mp (List.append_cancel_left (List.append_cancel_right texts))⟩

/-- The text of a list of files is no name of a file. -/
theorem arrayText_ne {ds : DeliveryService} {field : String × Option String} (listed : field ∈ fileFields ds)
    (files : List String) (xmlId : String) : configFile field.1 xmlId ≠ arrayText files := by
  intro same
  have heads := head_configFile (start_some listed) xmlId
  have brace : (arrayText files).toList.head? = some '{' := by
    rw [arrayText, String.toList_append, String.toList_append, List.append_assoc]
    rfl
  rw [same, brace] at heads
  revert heads
  rcases start_cases listed with start | start | start <;> rw [start] <;> decide

/-- A start of a name stands for one field. -/
theorem fileFields_inj {ds : DeliveryService} {field second : String × Option String} (listed : field ∈ fileFields ds)
    (also : second ∈ fileFields ds) (same : field.1 = second.1) : field = second := by
  simp only [fileFields, List.mem_cons, List.not_mem_nil, or_false] at listed also
  rcases listed with rfl | rfl | rfl <;> rcases also with rfl | rfl | rfl <;>
    first | rfl | simp at same

end Files

section Tables

variable (faults : Faults) (server : Int) (dses : List Int) (replace : Bool) (db : Database)

def assignmentsAfter : List (Int × Int) :=
  insertNew (if replace then (deleteCurrent db server).assignments else db.assignments) (dses.map fun ds => (ds, server))

def parametersAfterInsert : List Parameter :=
  (insertParams db (insertList faults dses db) (atsConfigLocation faults db)).parameters

theorem mem_assignmentsAfter {ds : Int} :
    (ds, server) ∈ assignmentsAfter server dses replace db ↔ ds ∈ dses ∨ replace = false ∧ (ds, server) ∈ db.assignments := by
  unfold assignmentsAfter
  rw [mem_insertNew, or_comm]
  refine or_congr (by simp) ?_
  cases replace <;> simp [deleteCurrent]

/-- What the statements leave in the tables. -/
structure Left (after : Database) : Prop where
  assignments : after.assignments = assignmentsAfter server dses replace db
  servers : after.servers = db.servers
  deliveryServices : after.deliveryServices = db.deliveryServices
  parameters : ∀ parameter, parameter ∈ after.parameters ↔
    parameter ∈ parametersAfterInsert faults dses db ∧ ¬∃ file ∈ deleteList faults dses db, IsLocation file parameter
  linked : ∀ row, row ∈ after.profileParameters → row ∈ db.profileParameters ∨ ∃ parameter ∈ parametersAfterInsert faults dses db,
    IsLocation (arrayText (insertList faults dses db)) parameter ∧ parameter.id = row.2
  kept : ∀ row ∈ db.profileParameters, (∀ parameter ∈ parametersAfterInsert faults dses db, parameter.id = row.2 →
    ¬∃ file ∈ deleteList faults dses db, IsLocation file parameter) → row ∈ after.profileParameters

theorem mem_idRows {id : Int} (listed : id ∈ idRows faults dses db) :
    ∃ parameter ∈ parametersAfterInsert faults dses db,
      IsLocation (arrayText (insertList faults dses db)) parameter ∧ parameter.id = id := by
  have whole : id ∈ parameterIds (insertParams db (insertList faults dses db) (atsConfigLocation faults db))
      (insertList faults dses db) := by
    unfold idRows delivered at listed
    cases cut : faults.endsAfter .selectParameterIds with
    | none =>
      rw [cut] at listed
      exact listed
    | some n =>
      rw [cut] at listed
      exact List.mem_of_mem_take listed
  obtain ⟨parameter, member, same⟩ := List.mem_map.mp whole
  rw [List.mem_filter] at member
  exact ⟨parameter, member.1, by simpa [IsLocation] using member.2, same⟩

theorem inserted_parameters (consistent : Consistent db) :
    Inserted db (insertParams db (insertList faults dses db) (atsConfigLocation faults db)) (insertList faults dses db)
      (atsConfigLocation faults db) :=
  inserted_insertParams _ _ consistent.ids consistent.fresh

theorem mem_deleted_links {db : Database} {files : List String} {row : Int × Int} :
    row ∈ (deleteParams db files).profileParameters ↔ row ∈ db.profileParameters ∧
      ∀ parameter ∈ db.parameters, parameter.id = row.2 → ¬∃ file ∈ files, IsLocation file parameter := by
  have deleted : ∀ parameter : Parameter, (parameter.name = "location" && parameter.configFile.any (· ∈ files)) = true ↔
      ∃ file ∈ files, IsLocation file parameter := by
    intro parameter
    unfold IsLocation
    cases parameter.configFile with
    | none => simp
    | some file => simp [and_comm (b := file ∈ files)]
  unfold deleteParams
  simp only [List.mem_filter, Bool.not_eq_true', List.any_eq_false, Bool.and_eq_true, decide_eq_true_eq, deleted, not_and]

theorem left_new (consistent : Consistent db) (assignments : List (Int × Int))
    (same : (if replace then (deleteCurrent db server).assignments else db.assignments) = assignments) :
    Left faults server dses replace db (assignedNew faults server dses { db with assignments }) := by
  have inserted : insertParams (bulkInsert { db with assignments } server dses) (insertList faults dses { db with assignments })
      (atsConfigLocation faults { db with assignments }) =
        { insertParams db (insertList faults dses db) (atsConfigLocation faults db) with
          assignments := assignmentsAfter server dses replace db } := by
    rw [assignmentsAfter, same]
    exact insertParams_assignments db (insertList faults dses db) (atsConfigLocation faults db) _
  obtain ⟨-, -, -, -, -, -, servers, deliveryServices, links⟩ := inserted_parameters faults dses db consistent
  unfold assignedNew
  rw [inserted, idRows_assignments]
  refine ⟨rfl, servers, deliveryServices, fun parameter => mem_deleteParams, fun row listed => ?_, fun row old safe => ?_⟩
  · obtain old | new := mem_insertNew.mp (mem_deleted_links.mp listed).1
    · exact .inl (links ▸ old)
    · obtain ⟨profile, -, linked⟩ := List.mem_flatMap.mp new
      obtain ⟨id, selected, rfl⟩ := List.mem_map.mp linked
      exact .inr (mem_idRows faults dses db selected)
  · refine mem_deleted_links.mpr ⟨mem_insertNew.mpr (.inl ?_), safe⟩
    exact links.symm ▸ old

theorem left_assignedDatabase (consistent : Consistent db) :
    Left faults server dses replace db (assignedDatabase faults server dses replace db) := by
  cases replace with
  | false => exact left_new faults server dses false db consistent db.assignments rfl
  | true => exact left_new faults server dses true db consistent (deleteCurrent db server).assignments rfl

end Tables

section Postcondition

/-- What an assignment is for. -/
structure Postcondition (server : Int) (dses : List Int) (replace : Bool) (before after : Database) : Prop where
  assigned : ∀ ds, (ds, server) ∈ after.assignments ↔ ds ∈ dses ∨ replace = false ∧ (ds, server) ∈ before.assignments
  files : ∀ ds ∈ before.deliveryServices, ds.id ∈ dses → ∀ field ∈ fileFields ds,
    (HasLocation after (fileOf ds field) ↔ nonempty field.2 = true)
  links : ∀ ds ∈ before.deliveryServices, ds.id ∈ dses → ∀ field ∈ fileFields ds, ∀ parameter ∈ after.parameters,
    IsLocation (fileOf ds field) parameter → ∀ row ∈ after.servers, (∃ id ∈ dses, (id, row.1) ∈ after.assignments) →
      (row.2, parameter.id) ∈ after.profileParameters

variable (faults : Faults) (server : Int) (dses : List Int) (replace : Bool) (db : Database)

/-- The loop over the rows has files for this delivery service. -/
def Handled (ds : DeliveryService) : Prop := ds ∈ dsRows faults dses db ∧ nonempty ds.xmlId = true

/-- A profile of a server that one of the delivery services is assigned to. -/
def Reached (profile : Int) : Prop :=
  ∃ row ∈ db.servers, row.2 = profile ∧ ∃ id ∈ dses, (id, row.1) ∈ assignmentsAfter server dses replace db

/-- Every parameter is there and linked already, and what the loop leaves out is right. -/
structure NothingToLink : Prop where
  others : ∀ ds ∈ db.deliveryServices, ds.id ∈ dses → ¬Handled faults dses db ds → ∀ field ∈ fileFields ds,
    (HasLocation db (fileOf ds field) ↔ nonempty field.2 = true)
  there : ∀ ds ∈ db.deliveryServices, ds.id ∈ dses → Handled faults dses db ds → ∀ field ∈ fileFields ds,
    nonempty field.2 = true → ∀ profile, Reached server dses replace db profile →
      ∃ parameter ∈ db.parameters, IsLocation (fileOf ds field) parameter ∧ parameter.value = atsConfigLocation faults db
  linked : ∀ ds ∈ db.deliveryServices, ds.id ∈ dses → ∀ field ∈ fileFields ds, nonempty field.2 = true →
    ∀ parameter ∈ db.parameters, IsLocation (fileOf ds field) parameter → ∀ profile, Reached server dses replace db profile →
      (profile, parameter.id) ∈ db.profileParameters

variable {faults server dses replace db}

theorem dsRows_subset {ds : DeliveryService} (listed : ds ∈ dsRows faults dses db) : ds ∈ db.deliveryServices := by
  have whole : ds ∈ dsFields db dses := by
    unfold dsRows delivered at listed
    cases cut : faults.endsAfter .selectDsFields with
    | none =>
      rw [cut] at listed
      exact listed
    | some n =>
      rw [cut] at listed
      exact List.mem_of_mem_take listed
  exact (List.mem_filter.mp whole).1

theorem mem_files_iff (consistent : Consistent db) {ds : DeliveryService} (stored : ds ∈ db.deliveryServices)
    {field : String × Option String} (listed : field ∈ fileFields ds) (needed : Bool) :
    fileOf ds field ∈ (dsRows faults dses db).flatMap (filesOf needed) ↔
      Handled faults dses db ds ∧ nonempty field.2 = needed := by
  rw [List.mem_flatMap]
  constructor
  · rintro ⟨row, given, member⟩
    obtain ⟨named, second, also, same, file⟩ := mem_filesOf.mp member
    obtain ⟨start, xmlId⟩ := configFile_inj listed also file
    have own : ds = row := by
      refine consistent.xmlIds ds stored row (dsRows_subset given) ?_
      cases name : row.xmlId with
      | none => simp [name, nonempty] at named
      | some text =>
        rw [name, Option.getD_some] at xmlId
        cases other : ds.xmlId with
        | none =>
          rw [other, Option.getD_none] at xmlId
          simp [name, nonempty, ← xmlId] at named
        | some _ =>
          rw [other, Option.getD_some] at xmlId
          rw [xmlId]
    subst own
    rw [fileFields_inj listed also start]
    exact ⟨⟨given, named⟩, same⟩
  · rintro ⟨⟨given, named⟩, same⟩
    exact ⟨ds, given, mem_filesOf.mpr ⟨named, field, listed, same, rfl⟩⟩

variable {after : Database} (consistent : Consistent db) (left : Left faults server dses replace db after)

include consistent left

theorem hasLocation_iff (file : String) :
    HasLocation after file ↔
      (HasLocation db file ∨ file ∈ insertList faults dses db) ∧ file ∉ deleteList faults dses db := by
  have inserted := inserted_parameters faults dses db consistent
  constructor
  · rintro ⟨parameter, member, here⟩
    obtain ⟨stored, safe⟩ := (left.parameters parameter).mp member
    refine ⟨?_, fun deleted => safe ⟨file, deleted, here⟩⟩
    obtain old | ⟨-, other, listed, there, -⟩ := inserted.new parameter stored
    · exact .inl ⟨parameter, old, here⟩
    · exact .inr (IsLocation.unique there here ▸ listed)
  · rintro ⟨given, safe⟩
    have kept : ∀ parameter ∈ parametersAfterInsert faults dses db, IsLocation file parameter → HasLocation after file := by
      intro parameter stored here
      refine ⟨parameter, (left.parameters parameter).mpr ⟨stored, ?_⟩, here⟩
      rintro ⟨other, deleted, there⟩
      exact safe (IsLocation.unique there here ▸ deleted)
    obtain ⟨parameter, old, here⟩ | listed := given
    · exact kept parameter (inserted.kept parameter old) here
    · obtain ⟨parameter, stored, here, -⟩ := inserted.there file listed
      exact kept parameter stored here

theorem hasLocation_handled {ds : DeliveryService} (stored : ds ∈ db.deliveryServices)
    (handled : Handled faults dses db ds) {field : String × Option String} (listed : field ∈ fileFields ds) :
    HasLocation after (fileOf ds field) ↔ nonempty field.2 = true := by
  rw [hasLocation_iff consistent left, insertList, deleteList, mem_files_iff consistent stored listed,
    mem_files_iff consistent stored listed]
  cases nonempty field.2 <;> simp [handled]

theorem hasLocation_other {ds : DeliveryService} (stored : ds ∈ db.deliveryServices)
    (other : ¬Handled faults dses db ds) {field : String × Option String} (listed : field ∈ fileFields ds) :
    HasLocation after (fileOf ds field) ↔ HasLocation db (fileOf ds field) := by
  rw [hasLocation_iff consistent left, insertList, deleteList, mem_files_iff consistent stored listed,
    mem_files_iff consistent stored listed]
  simp [other]

/-- No statement makes a link to a parameter of a file. -/
theorem linked_iff {ds : DeliveryService} {field : String × Option String} (listed : field ∈ fileFields ds)
    {parameter : Parameter} (member : parameter ∈ after.parameters) (here : IsLocation (fileOf ds field) parameter)
    (profile : Int) : (profile, parameter.id) ∈ after.profileParameters ↔ (profile, parameter.id) ∈ db.profileParameters := by
  have inserted := inserted_parameters faults dses db consistent
  obtain ⟨stored, safe⟩ := (left.parameters parameter).mp member
  constructor
  · intro link
    obtain old | ⟨other, also, there, same⟩ := left.linked _ link
    · exact old
    · rw [inserted.ids other also parameter stored same] at there
      exact absurd (IsLocation.unique here there) (arrayText_ne listed _ _)
  · intro old
    refine left.kept _ old fun other also same => ?_
    rw [inserted.ids other also parameter stored same]
    exact safe

theorem stored_of_linked {profile : Int} {parameter : Parameter} (member : parameter ∈ after.parameters)
    (old : (profile, parameter.id) ∈ db.profileParameters) : parameter ∈ db.parameters := by
  have inserted := inserted_parameters faults dses db consistent
  obtain ⟨other, also, same⟩ := consistent.links _ old
  exact inserted.ids other (inserted.kept other also) parameter ((left.parameters parameter).mp member).1 same ▸ also

/-- A parameter of a file that is asked for stays. -/
theorem kept_of_asked {ds : DeliveryService} (stored : ds ∈ db.deliveryServices) {field : String × Option String}
    (listed : field ∈ fileFields ds) (asked : nonempty field.2 = true) {parameter : Parameter}
    (member : parameter ∈ parametersAfterInsert faults dses db) (here : IsLocation (fileOf ds field) parameter) :
    parameter ∈ after.parameters := by
  refine (left.parameters parameter).mpr ⟨member, ?_⟩
  rintro ⟨file, deleted, there⟩
  rw [IsLocation.unique there here, deleteList, mem_files_iff consistent stored listed, asked] at deleted
  cases deleted.2

theorem NothingToLink.of_post (post : Postcondition server dses replace db after) :
    NothingToLink faults server dses replace db := by
  have inserted := inserted_parameters faults dses db consistent
  have reached : ∀ profile, Reached server dses replace db profile → ∀ ds ∈ db.deliveryServices, ds.id ∈ dses →
      ∀ field ∈ fileFields ds, ∀ parameter ∈ after.parameters, IsLocation (fileOf ds field) parameter →
        (profile, parameter.id) ∈ db.profileParameters := by
    rintro profile ⟨row, listed, rfl, assigned⟩ ds stored given field asked parameter member here
    refine (linked_iff consistent left asked member here row.2).mp ?_
    exact post.links ds stored given field asked parameter member here row (left.servers.symm ▸ listed)
      (left.assignments.symm ▸ assigned)
  constructor
  · intro ds stored given other field listed
    rw [← hasLocation_other consistent left stored other listed]
    exact post.files ds stored given field listed
  · intro ds stored given handled field listed asked profile reaches
    have wanted : fileOf ds field ∈ insertList faults dses db :=
      (mem_files_iff consistent stored listed true).mpr ⟨handled, asked⟩
    obtain ⟨parameter, member, here, value⟩ := inserted.there _ wanted
    have kept := kept_of_asked consistent left stored listed asked member here
    have linked := reached profile reaches ds stored given field listed parameter kept here
    exact ⟨parameter, stored_of_linked consistent left kept linked, here, value⟩
  · intro ds stored given field listed asked parameter member here profile reaches
    have kept := kept_of_asked consistent left stored listed asked (inserted.kept parameter member) here
    exact reached profile reaches ds stored given field listed parameter kept here

theorem NothingToLink.post (nothing : NothingToLink faults server dses replace db) :
    Postcondition server dses replace db after := by
  have inserted := inserted_parameters faults dses db consistent
  have files : ∀ ds ∈ db.deliveryServices, ds.id ∈ dses → ∀ field ∈ fileFields ds,
      (HasLocation after (fileOf ds field) ↔ nonempty field.2 = true) := by
    intro ds stored given field listed
    by_cases handled : Handled faults dses db ds
    · exact hasLocation_handled consistent left stored handled listed
    · rw [hasLocation_other consistent left stored handled listed]
      exact nothing.others ds stored given handled field listed
  refine ⟨fun ds => ?_, files, ?_⟩
  · rw [left.assignments]
    exact mem_assignmentsAfter server dses replace db
  · rintro ds stored given field listed parameter member here row home assigned
    rw [left.servers] at home
    rw [left.assignments] at assigned
    have asked := (files ds stored given field listed).mp ⟨parameter, member, here⟩
    have reaches : Reached server dses replace db row.2 := ⟨row, home, rfl, assigned⟩
    rw [linked_iff consistent left listed member here]
    refine nothing.linked ds stored given field listed asked parameter ?_ here row.2 reaches
    obtain old | ⟨-, file, new, there, absent⟩ := inserted.new parameter ((left.parameters parameter).mp member).1
    · exact old
    · rw [IsLocation.unique there here, insertList, mem_files_iff consistent stored listed] at new
      rw [IsLocation.unique there here] at absent
      exact absurd (nothing.there ds stored given new.1 field listed asked row.2 reaches) absent

end Postcondition

/-- The outcome of a call that answers. -/
theorem committed_of_ok {faults : Faults} {server : Int} {dses : List Int} {replace : Bool} {db : Database}
    {answer : List Int} (ok : (assignDeliveryServicesToServer faults server dses replace db).result = .ok answer) :
    (assignDeliveryServicesToServer faults server dses replace db).committed = assignedDatabase faults server dses replace db := by
  unfold assignDeliveryServicesToServer at ok ⊢
  cases begun : faults.fails .beginx with
  | some err =>
    rw [begun] at ok
    cases ok
  | none =>
    have follows := follows_assign faults server dses replace db
    unfold Follows at follows
    cases failure : (calls faults dses db replace).tail.find? (failed faults) with
    | none =>
      rw [failure] at follows
      obtain ⟨a, db', ran, left⟩ := follows
      simp [ran, left]
    | some c =>
      rw [failure] at follows
      obtain ⟨⟨db', err⟩, ran, -⟩ := follows
      cases err <;> simp [begun, ran] at ok

/-- An assignment that succeeds does what it is for exactly when there is nothing to link. -/
theorem postcondition_iff {faults : Faults} {server : Int} {dses : List Int} {replace : Bool} {db : Database}
    (consistent : Consistent db) {answer : List Int}
    (ok : (assignDeliveryServicesToServer faults server dses replace db).result = .ok answer) :
    Postcondition server dses replace db (assignDeliveryServicesToServer faults server dses replace db).committed ↔
      NothingToLink faults server dses replace db := by
  have left := left_assignedDatabase faults server dses replace db consistent
  rw [committed_of_ok ok]
  exact ⟨NothingToLink.of_post consistent left, NothingToLink.post consistent left⟩

section Video

def calm : Faults := ⟨fun _ => none, fun _ => none⟩

/-- A server of profile 3, and a delivery service with a header rewrite. -/
def videoTables : Database :=
  ⟨[], [⟨1, "location", some "remap.config", "/etc/ats/"⟩], [(3, 1)], [(1, 3)], [⟨7, some "video", some "set", none, none⟩], 2⟩

theorem videoTables_consistent : Consistent videoTables where
  xmlIds := by simp [videoTables]
  ids := by simp [videoTables]
  fresh := by simp [videoTables]
  links := by simp [videoTables]

theorem postcondition_video :
    Postcondition 1 [7] true videoTables (assignDeliveryServicesToServer calm 1 [7] true videoTables).committed ↔
      NothingToLink calm 1 [7] true videoTables :=
  postcondition_iff videoTables_consistent rfl

/-- The new parameter has no link. -/
theorem not_postcondition_video : (assignDeliveryServicesToServer calm 1 [7] true videoTables).result.toBool = true ∧
    (assignDeliveryServicesToServer calm 1 [7] true videoTables).committed.profileParameters = [(3, 1)] ∧
      ¬Postcondition 1 [7] true videoTables (assignDeliveryServicesToServer calm 1 [7] true videoTables).committed := by
  refine ⟨rfl, rfl, fun post => ?_⟩
  have tables : (assignDeliveryServicesToServer calm 1 [7] true videoTables).committed =
      ⟨[(7, 1)], [⟨1, "location", some "remap.config", "/etc/ats/"⟩, ⟨2, "location", some "hdr_rw_video.config", "/etc/ats"⟩],
        [(3, 1)], [(1, 3)], [⟨7, some "video", some "set", none, none⟩], 3⟩ := rfl
  rw [tables] at post
  have link := post.links ⟨7, some "video", some "set", none, none⟩ (by simp [videoTables]) (by simp) ("hdr_rw_", some "set")
    (by simp [fileFields]) ⟨2, "location", some "hdr_rw_video.config", "/etc/ats"⟩ (by simp) ⟨rfl, rfl⟩ (1, 3) (by simp)
    ⟨7, by simp, by simp⟩
  simp at link

end Video

end Assignment
