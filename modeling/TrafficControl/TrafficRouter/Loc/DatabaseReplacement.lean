import Mathlib.Data.List.Pairwise
import TrafficControl.TrafficRouter.Loc.ServiceUpdater

set_option autoImplicit false

namespace TrafficControl.TrafficRouter.ServiceUpdater

open Faults Routine

variable {Name Subdirectory Digest : Type} [LinearOrder Name]

namespace Disk

@[simp] theorem set_files (disk : Disk Name Subdirectory) (path : Path)
    (content : Option (Database Name Subdirectory)) : (disk.set path content).files path = content :=
  Function.update_self ..

@[simp] theorem set_set (disk : Disk Name Subdirectory) (path : Path)
    (first second : Option (Database Name Subdirectory)) :
    (disk.set path first).set path second = disk.set path second := by
  simp [set]

theorem set_self {disk : Disk Name Subdirectory} {path : Path} {content : Option (Database Name Subdirectory)}
    (there : disk.files path = content) : disk.set path content = disk := by
  subst there
  simp [set]

theorem set_files_of_ne (disk : Disk Name Subdirectory) {path other : Path} (different : other ≠ path)
    (content : Option (Database Name Subdirectory)) : (disk.set path content).files other = disk.files other :=
  Function.update_of_ne different ..

theorem delete_files_of_ne {disk disk' : Disk Name Subdirectory} {path other : Path} (different : other ≠ path)
    (deleted : disk.delete path = some disk') : disk'.files other = disk.files other := by
  have set : disk' = disk.set path none := by
    unfold delete at deleted
    split at deleted
    · exact (Option.some.inj deleted).symm
    · split at deleted
      · exact (Option.some.inj deleted).symm
      · cases deleted
    · cases deleted
  rw [set, set_files_of_ne _ different]

theorem delete_file {disk : Disk Name Subdirectory} {path : Path} {content : List UInt8}
    (there : disk.files path = some (.file content)) : disk.delete path = some (disk.set path none) := by
  simp [delete, there]

theorem delete_directory {disk : Disk Name Subdirectory} {path : Path} {directory : Directory Name Subdirectory}
    (there : disk.files path = some (.directory directory)) :
    disk.delete path = if directory.entries = [] then some (disk.set path none) else none := by
  simp [delete, there]

end Disk

namespace Platform

variable (platform : Platform Name Subdirectory Digest)

-- What `File.delete` leaves of a directory after it has been tried on each of the names.
def survivors (directory : Directory Name Subdirectory) (names : List Name) : Directory Name Subdirectory :=
  ⟨directory.entries.filter fun entry => entry.1 ∉ names ∨ platform.deletable entry.2 = false,
    directory.sorted.filter _⟩

variable {platform}

theorem survivors_nil (directory : Directory Name Subdirectory) : platform.survivors directory [] = directory := by
  ext1
  simp [survivors]

theorem survivors_append (directory : Directory Name Subdirectory) (first second : List Name) :
    platform.survivors (platform.survivors directory first) second = platform.survivors directory (first ++ second) := by
  ext1
  simp only [survivors, List.filter_filter]
  refine List.filter_congr fun entry _ => ?_
  by_cases deletable : platform.deletable entry.2 = false <;> simp [deletable, Bool.and_comm]

theorem entry_eq {directory : Directory Name Subdirectory} {a b : Name × DirectoryEntry Subdirectory}
    (first : a ∈ directory.entries) (second : b ∈ directory.entries) (named : a.1 = b.1) : a = b := by
  have symmetric : Std.Symm fun a b : Name × DirectoryEntry Subdirectory => a.1 = b.1 → a = b :=
    ⟨fun a b same named => (same named.symm).symm⟩
  have distinct : directory.entries.Pairwise fun a b => a.1 = b.1 → a = b :=
    directory.sorted.imp fun smaller named => absurd named (ne_of_lt smaller)
  exact List.Pairwise.forall_of_forall (fun _ _ _ => rfl) distinct first second named

-- The names whose entry `File.delete` can remove.
def Spends (platform : Platform Name Subdirectory Digest) (directory : Directory Name Subdirectory) (name : Name) :
    Prop :=
  ∃ entry ∈ directory.entries, entry.1 = name ∧ platform.deletable entry.2 = true

theorem survivors_of_spends {directory : Directory Name Subdirectory} {name : Name}
    (spends : platform.Spends directory name) : platform.survivors directory [name] = directory.remove name := by
  obtain ⟨entry, member, named, deletable⟩ := spends
  ext1
  refine List.filter_congr fun other there => ?_
  by_cases same : other.1 = name
  · have equal : other = entry := entry_eq there member (same.trans named.symm)
    simp [equal, named, deletable]
  · simp [same]

theorem survivors_of_not_spends {directory : Directory Name Subdirectory} {names : List Name}
    (kept : ∀ name ∈ names, ¬platform.Spends directory name) : platform.survivors directory names = directory := by
  ext1
  refine List.filter_eq_self.mpr fun entry there => decide_eq_true ?_
  by_cases listed : entry.1 ∈ names
  · exact Or.inr (Bool.eq_false_iff.mpr fun deletable => kept _ listed ⟨entry, there, rfl, deletable⟩)
  · exact Or.inl listed

theorem mem_listFiles {directory : Directory Name Subdirectory} {entry : Name × DirectoryEntry Subdirectory}
    (there : entry ∈ directory.entries) : entry.1 ∈ platform.listFiles directory :=
  (platform.listFiles_perm directory).mem_iff.mpr (List.mem_map_of_mem there)

theorem not_spends_survivors (directory : Directory Name Subdirectory) (name : Name) :
    ¬platform.Spends (platform.survivors directory (platform.listFiles directory)) name := by
  rintro ⟨entry, there, -, deletable⟩
  obtain ⟨member, survives⟩ := List.mem_filter.mp there
  rcases of_decide_eq_true survives with unlisted | kept
  · exact unlisted (mem_listFiles member)
  · simp [deletable] at kept

theorem remove_ne {directory : Directory Name Subdirectory} {name : Name}
    (spends : platform.Spends directory name) : directory.remove name ≠ directory := by
  obtain ⟨entry, there, named, -⟩ := spends
  intro same
  rw [← same] at there
  simp [Directory.remove, named] at there

theorem survivors_of_lost {directory : Directory Name Subdirectory} {name : Name}
    (spends : platform.Spends directory name) (kept : ∀ other, ¬platform.Spends (directory.remove name) other) :
    platform.survivors directory (platform.listFiles directory) = directory.remove name := by
  rw [← survivors_of_spends spends]
  ext1
  refine List.filter_congr fun entry there => ?_
  by_cases same : entry.1 = name
  · simp [same, same ▸ mem_listFiles there]
  · have remains : entry ∈ (directory.remove name).entries := List.mem_filter.mpr ⟨there, decide_eq_true same⟩
    have undeletable : platform.deletable entry.2 = false :=
      Bool.eq_false_iff.mpr fun deletable => kept entry.1 ⟨entry, remains, rfl, deletable⟩
    simp [undeletable]

theorem deleteEntry_of_spends {disk : Disk Name Subdirectory} {path : Path} {directory : Directory Name Subdirectory}
    {name : Name} (there : disk.files path = some (.directory directory)) (spends : platform.Spends directory name) :
    platform.deleteEntry path name disk = some (disk.set path (some (.directory (directory.remove name)))) := by
  have found : (directory.entries.any fun entry => entry.1 = name && platform.deletable entry.2) = true := by
    obtain ⟨entry, member, named, deletable⟩ := spends
    exact List.any_eq_true.mpr ⟨entry, member, by simp [named, deletable]⟩
  simp [deleteEntry, there, found]

theorem deleteEntry_of_not_spends {disk : Disk Name Subdirectory} {path : Path}
    {directory : Directory Name Subdirectory} {name : Name} (there : disk.files path = some (.directory directory))
    (kept : ¬platform.Spends directory name) : platform.deleteEntry path name disk = none := by
  have missed : (directory.entries.any fun entry => entry.1 = name && platform.deletable entry.2) = false := by
    refine Bool.eq_false_iff.mpr fun found => kept ?_
    obtain ⟨entry, member, matched⟩ := List.any_eq_true.mp found
    obtain ⟨named, deletable⟩ := (Bool.and_eq_true_iff).mp matched
    exact ⟨entry, member, of_decide_eq_true named, deletable⟩
  simp [deleteEntry, there, missed]

theorem deleteEntry_getD {disk : Disk Name Subdirectory} {path : Path} {directory : Directory Name Subdirectory}
    (there : disk.files path = some (.directory directory)) (name : Name) :
    (platform.deleteEntry path name disk).getD disk =
      disk.set path (some (.directory (platform.survivors directory [name]))) := by
  by_cases spends : platform.Spends directory name
  · rw [deleteEntry_of_spends there spends, survivors_of_spends spends, Option.getD_some]
  · rw [deleteEntry_of_not_spends there spends, survivors_of_not_spends (by simpa using spends), Option.getD_none,
      Disk.set_self there]

theorem deleteEntry_files_of_ne {disk disk' : Disk Name Subdirectory} {path other : Path} {name : Name}
    (different : other ≠ path) (deleted : platform.deleteEntry path name disk = some disk') :
    disk'.files other = disk.files other := by
  unfold deleteEntry at deleted
  split at deleted
  · split at deleted
    · rw [← Option.some.inj deleted, Disk.set_files_of_ne _ different]
    · cases deleted
  · cases deleted

end Platform

variable {platform : Platform Name Subdirectory Digest} {faults : Nat → Fault}

theorem deleteEntries_append (path : Path) (first second : List Name) :
    deleteEntries platform faults path (first ++ second) =
      deleteEntries platform faults path first >>= fun _ => deleteEntries platform faults path second := by
  induction first with
  | nil => rfl
  | cons name first ih => simp only [List.cons_append, deleteEntries, ih, bind_assoc]

theorem deleteEntries_succeed {path : Path} (names : List Name) {world : World (Disk Name Subdirectory)}
    {directory : Directory Name Subdirectory} (there : world.state.files path = some (.directory directory))
    (lets : Lets faults world names.length) :
    outcome (deleteEntries platform faults path names) world =
      (.ok (), ⟨world.state.set path (some (.directory (platform.survivors directory names))),
        world.steps + names.length⟩) := by
  induction names generalizing world directory with
  | nil =>
    rw [Platform.survivors_nil, Disk.set_self there]
    rfl
  | cons name names ih =>
    rw [deleteEntries, outcome_bind, attempt_succeeds fun i bound => lets i (by simp at bound ⊢; omega),
      Platform.deleteEntry_getD there]
    refine (ih (Disk.set_files ..) fun i bound => ?_).trans ?_
    · rw [Nat.add_right_comm]
      exact lets (i + 1) (Nat.succ_lt_succ bound)
    · rw [Disk.set_set, Platform.survivors_append, List.singleton_append, List.length_cons, Nat.add_right_comm,
        Nat.add_assoc]

section Keeping

variable {keeps : World (Disk Name Subdirectory) → World (Disk Name Subdirectory) → Prop} [Std.Refl keeps]
  [Trans keeps keeps keeps]

theorem yields_deleteEntries {path : Path}
    (entry : ∀ name world, Yields keeps (attempt (ε := Exception) faults (platform.deleteEntry path name)) world
      fun _ _ => True) (names : List Name) (world : World (Disk Name Subdirectory)) :
    Yields keeps (deleteEntries platform faults path names) world fun _ _ => True := by
  induction names generalizing world with
  | nil => exact yields_pure trivial
  | cons name names ih => exact yields_bind (entry name world) fun _ world' _ _ => ih world'

theorem yields_deleteDatabase {path : Path}
    (entry : ∀ name world, Yields keeps (attempt (ε := Exception) faults (platform.deleteEntry path name)) world
      fun _ _ => True)
    (whole : ∀ world, Yields keeps (delete faults path) world fun _ _ => True)
    (world : World (Disk Name Subdirectory)) :
    Yields keeps (deleteDatabase platform faults path) world fun _ _ => True := by
  refine yields_readState_bind ?_
  split
  · exact yields_deleteEntries entry _ world
  · exact yields_bind (whole world) fun _ _ _ _ => yields_pure trivial

theorem yields_moveIntoPlace (whole : ∀ world, Yields keeps (delete faults .existingDB) world fun _ _ => True)
    (rename : ∀ world, Yields keeps (attempt (ε := Exception) faults Disk.rename) world fun _ _ => True)
    (world : World (Disk Name Subdirectory)) :
    Yields keeps (moveIntoPlace faults) world fun _ _ => True := by
  refine yields_bind (whole world) fun _ world' _ _ => ?_
  refine yields_bind (rename world') fun moved world' _ _ => ?_
  cases moved with
  | true => exact yields_pure trivial
  | false => exact yields_throw _

end Keeping

section Updating

variable [DecidableEq Digest] {call : Call Name Subdirectory}

def existingAfter {α : Type} (procedure : Procedure Name Subdirectory α) (disk : Disk Name Subdirectory) :
    Option (Database Name Subdirectory) :=
  (outcome procedure ⟨disk, 0⟩).2.state.files .existingDB

-- The call gets as far as a download that is there and verifies.
structure Accepts (call : Call Name Subdirectory) (before : Disk Name Subdirectory)
    (newDB : Database Name Subdirectory) : Prop where
  ready : directoriesReady call = true
  due : before.loaded = true → needsUpdating call = true
  downloaded : ∃ databaseURL, call.dataBaseURL = some databaseURL ∧
    call.downloadDatabase databaseURL = .ok (.newDB (some newDB))
  verified : call.verifyDatabase newDB = .ok true

def HasExisting (content : Option (Database Name Subdirectory)) (disk : Disk Name Subdirectory) : Prop :=
  disk.files .existingDB = content

variable {content : Option (Database Name Subdirectory)}

theorem load_keeps (world : World (Disk Name Subdirectory)) :
    Yields (Carries (Holds (HasExisting content))) (load call) world fun _ _ => True := by
  refine yields_readState_bind ?_
  split
  · exact yields_modifyState id trivial
  · exact yields_throw _

theorem delete_newDB_keeps (world : World (Disk Name Subdirectory)) :
    Yields (Carries (Holds (HasExisting content))) (delete faults .newDB) world fun _ _ => True :=
  yields_attempt (HasExisting content) fun _ deleted holds =>
    (Disk.delete_files_of_ne (by decide) deleted).trans holds

omit [DecidableEq Digest] in
theorem cleanUp_keeps (world : World (Disk Name Subdirectory)) :
    Yields (Carries (Holds (HasExisting content))) (cleanUp platform faults) world fun _ _ => True := by
  refine yields_readState_bind ?_
  split
  · refine yields_deleteDatabase (fun name world => ?_) delete_newDB_keeps world
    exact yields_attempt (HasExisting content) fun _ deleted holds =>
      (Platform.deleteEntry_files_of_ne (by decide) deleted).trans holds
  · exact yields_pure trivial

theorem copyAndLoad_existing (call : Call Name Subdirectory) (world : World (Disk Name Subdirectory)) :
    (outcome (copyAndLoad call platform faults) world).2.state.files .existingDB =
      (outcome (copyDatabaseIfDifferent platform faults) world).2.state.files .existingDB := by
  refine keeps_bind (Carries (Holds (HasExisting _))) (fun copied world' => ?_) rfl
  cases copied with
  | true => exact load_keeps world'
  | false => exact yields_bind (delete_newDB_keeps world') fun _ _ _ _ => yields_pure trivial

theorem loadExisting_outcome (call : Call Name Subdirectory) (world : World (Disk Name Subdirectory)) :
    ∃ loaded, outcome (loadExisting call) world =
      (.ok (), { world with state := { world.state with loaded := loaded } }) := by
  rw [loadExisting, outcome_recover, load, outcome_readState_bind]
  cases call.loadDatabase (world.state.files .existingDB) with
  | ok loaded => exact ⟨loaded, rfl⟩
  | error e => exact ⟨world.state.loaded, rfl⟩

theorem replace_existing {newDB : Database Name Subdirectory} (verified : call.verifyDatabase newDB = .ok true)
    (world : World (Disk Name Subdirectory)) :
    (outcome (replace call platform faults newDB) world).2.state.files .existingDB =
      (outcome (copyDatabaseIfDifferent platform faults) world).2.state.files .existingDB := by
  have ended : (outcome (recover (copyAndLoad call platform faults) Halt.isThrown (pure ())) world).2 =
      (outcome (replace call platform faults newDB) world).2 := by
    rw [replace, verified]
    exact keeps_bind Eq fun _ _ => yields_pure trivial
  rw [← ended, recover_pure_state]
  exact copyAndLoad_existing call world

theorem fetch_existing {newDB : Database Name Subdirectory} {databaseURL : String}
    (downloaded : call.downloadDatabase databaseURL = .ok (.newDB (some newDB)))
    (verified : call.verifyDatabase newDB = .ok true) (world : World (Disk Name Subdirectory)) :
    (outcome (fetch call platform faults databaseURL) world).2.state.files .existingDB =
      (outcome (copyDatabaseIfDifferent platform faults)
        { world with state := world.state.set .newDB (some newDB) }).2.state.files .existingDB := by
  rw [fetch, downloaded, outcome_bind, outcome_modifyState]
  refine keeps_bind (Carries (Holds (HasExisting _))) (fun updated world' => ?_)
    (replace_existing verified _)
  exact yields_bind (cleanUp_keeps world') fun _ _ _ _ => yields_pure trivial

variable (platform) in
theorem updateDatabase_existing {before : Disk Name Subdirectory} {newDB : Database Name Subdirectory}
    (accepts : Accepts call before newDB) :
    ∃ loaded, ∀ faults, existingAfter (updateDatabase call platform faults) before =
      existingAfter (copyDatabaseIfDifferent platform faults)
        (Disk.set { before with loaded := loaded } .newDB (some newDB)) := by
  obtain ⟨ready, due, ⟨databaseURL, url, downloaded⟩, verified⟩ := accepts
  have enters : (before.loaded && !needsUpdating call) = false := by
    cases isLoaded : before.loaded with
    | false => rfl
    | true => simp [due isLoaded]
  have started : ∃ loaded, outcome (if before.loaded then pure () else loadExisting call) ⟨before, 0⟩ =
      (.ok (), ⟨{ before with loaded := loaded }, 0⟩) := by
    split
    · exact ⟨before.loaded, rfl⟩
    · exact loadExisting_outcome call ⟨before, 0⟩
  obtain ⟨loaded, started⟩ := started
  refine ⟨loaded, fun faults => ?_⟩
  rw [existingAfter, updateDatabase, if_neg (by simp [ready]), outcome_readState_bind]
  dsimp only
  rw [if_neg (by simp [enters]), outcome_bind, started]
  dsimp only
  rw [url]
  exact fetch_existing downloaded verified _

end Updating

section Moving

variable {existing : Directory Name Subdirectory} {disk : Disk Name Subdirectory}

-- The old directory is still there with something in it, so the new one cannot take its place.
def Blocked (directory : Directory Name Subdirectory) (disk : Disk Name Subdirectory) : Prop :=
  disk.files .existingDB = some (.directory directory) ∧ ∃ new, disk.files .newDB = some (.directory new)

theorem Blocked.delete {directory : Directory Name Subdirectory} (blocked : Blocked directory disk)
    (nonempty : directory.entries ≠ []) : disk.delete .existingDB = none := by
  rw [Disk.delete_directory blocked.1, if_neg nonempty]

theorem Blocked.rename {directory : Directory Name Subdirectory} (blocked : Blocked directory disk)
    (nonempty : directory.entries ≠ []) : disk.rename = none := by
  obtain ⟨there, new, there'⟩ := blocked
  simp [Disk.rename, there, there', nonempty]

theorem moveIntoPlace_blocked {directory : Directory Name Subdirectory} (nonempty : directory.entries ≠ [])
    (world : World (Disk Name Subdirectory)) :
    Yields (Carries (Holds (Blocked directory))) (moveIntoPlace faults) world fun _ _ => True := by
  refine yields_moveIntoPlace (fun world => ?_) (fun world => ?_) world
  · exact yields_attempt _ fun _ deleted blocked => by simp [blocked.delete nonempty] at deleted
  · exact yields_attempt _ fun _ renamed blocked => by simp [blocked.rename nonempty] at renamed

theorem moveDirectory_stops {first rest : List Name} (listing : platform.listFiles existing = first ++ rest)
    (there : disk.files .existingDB = some (.directory existing)) :
    existingAfter (moveDirectory platform (stopsAt first.length) existing) disk =
      some (.directory (platform.survivors existing first)) := by
  have lets : Lets (stopsAt first.length) (⟨disk, 0⟩ : World (Disk Name Subdirectory)) first.length :=
    lets_stopsAt (Nat.zero_add _ ▸ Nat.le_refl _)
  rw [existingAfter, moveDirectory, listing, deleteEntries_append, bind_assoc, outcome_bind,
    deleteEntries_succeed first there lets]
  generalize reached : (⟨disk.set .existingDB (some (.directory (platform.survivors existing first))),
    0 + first.length⟩ : World (Disk Name Subdirectory)) = world
  have stops : stopsAt first.length world.steps = .stops := by
    rw [← reached, Nat.zero_add]
    exact stopsAt_self first.length
  have halted : ∀ effect world', Yields (Carries fun world' => world' = world)
      (attempt (ε := Exception) (stopsAt first.length) effect) world' fun _ _ => True :=
    yields_attempt_stopped stops
  have stayed : Yields (Carries fun world' => world' = world)
      (deleteEntries platform (stopsAt first.length) .existingDB rest >>= fun _ => moveIntoPlace (stopsAt first.length))
      world fun _ _ => True :=
    yields_bind (yields_deleteEntries (fun name => halted _) rest world) fun _ world' _ _ =>
      yields_moveIntoPlace (halted _) (halted _) world'
  dsimp only
  rw [stayed.kept rfl, ← reached]
  exact Disk.set_files ..

theorem moveDirectory_empties (there : disk.files .existingDB = some (.directory existing))
    (emptied : (platform.survivors existing (platform.listFiles existing)).entries = []) :
    existingAfter (moveDirectory platform (stopsAt ((platform.listFiles existing).length + 1)) existing) disk =
      none := by
  have lets : Lets (stopsAt ((platform.listFiles existing).length + 1)) (⟨disk, 0⟩ : World (Disk Name Subdirectory))
      (platform.listFiles existing).length := lets_stopsAt (by simp)
  rw [existingAfter, moveDirectory, outcome_bind, deleteEntries_succeed _ there lets]
  dsimp only
  rw [moveIntoPlace, delete, outcome_bind, attempt_succeeds (lets_stopsAt (by simp)),
    Disk.delete_directory (Disk.set_files ..), if_pos emptied]
  dsimp only
  rw [outcome_bind, attempt_stops (by simp [stopsAt])]
  exact Disk.set_files ..

theorem moveDirectory_succeeds (succeeds : ∀ i, faults i = .succeeds) {new : Directory Name Subdirectory}
    (there : disk.files .existingDB = some (.directory existing)) (there' : disk.files .newDB = some (.directory new))
    (left : (platform.survivors existing (platform.listFiles existing)).entries ≠ []) :
    existingAfter (moveDirectory platform faults existing) disk =
      some (.directory (platform.survivors existing (platform.listFiles existing))) := by
  rw [existingAfter, moveDirectory, outcome_bind, deleteEntries_succeed _ there fun i _ => succeeds _]
  refine ((moveIntoPlace_blocked left _).kept ⟨Disk.set_files .., new, ?_⟩).1
  exact (Disk.set_files_of_ne _ (by decide) _).trans there'

end Moving

section Replacing

variable [DecidableEq Digest]

-- Under every script of faults the old content or the whole new one, and the new one when none strikes.
def Replaces {α : Type} (procedure : (Nat → Fault) → Procedure Name Subdirectory α) (before : Disk Name Subdirectory)
    (new : Database Name Subdirectory) : Prop :=
  ∀ faults, (existingAfter (procedure faults) before = before.files .existingDB ∨
      existingAfter (procedure faults) before = some new) ∧
    ((∀ i, faults i = .succeeds) → existingAfter (procedure faults) before = some new)

-- The one loss that is no loss: the only entry of the old directory that can be deleted is the only
-- one missing from the new directory, and the others keep the old directory in its place.
structure LosesOneEntry (platform : Platform Name Subdirectory Digest) (existing new : Directory Name Subdirectory) :
    Prop where
  lost : ∃ name, platform.Spends existing name ∧ new = existing.remove name
  nonempty : new.entries ≠ []
  kept : ∀ name, ¬platform.Spends new name

def Replaceable (platform : Platform Name Subdirectory Digest) (existing : Option (Database Name Subdirectory))
    (new : Database Name Subdirectory) : Prop :=
  existing = none ∨ existing = some new ∨ ∃ old fresh, existing = some (.directory old) ∧ new = .directory fresh ∧
    LosesOneEntry platform old fresh

theorem filesEqual_self (content : Database Name Subdirectory) :
    platform.filesEqual (some content) (some content) = .ok true := by
  cases content with
  | file bytes => simp [Platform.filesEqual, Platform.compareFiles, Platform.fileMd5, Except.bind, Except.map]
  | directory directory => simp [Platform.filesEqual, Platform.compareDirectories]

section Copying

variable {disk : Disk Name Subdirectory} {new : Database Name Subdirectory}

theorem copy_unless_different (kept : platform.filesEqual (disk.files .existingDB) (disk.files .newDB) ≠ .ok false) :
    existingAfter (copyDatabaseIfDifferent platform faults) disk = disk.files .existingDB := by
  rw [existingAfter, copyDatabaseIfDifferent, outcome_readState_bind]
  dsimp only
  split
  · rfl
  · rfl
  next different => exact absurd different kept

theorem copy_of_different (different : platform.filesEqual (disk.files .existingDB) (disk.files .newDB) = .ok false)
    (faults : Nat → Fault) : existingAfter (copyDatabaseIfDifferent platform faults) disk =
      existingAfter (copyDifferent platform faults (disk.files .existingDB) (disk.files .newDB)) disk := by
  rw [existingAfter, copyDatabaseIfDifferent, outcome_readState_bind]
  dsimp only
  rw [different]
  rfl

variable (platform) in
theorem copy_of_absent (absent : disk.files .existingDB = none) (there : disk.files .newDB = some new) :
    Replaces (copyDatabaseIfDifferent platform) disk new := by
  have copy : ∀ faults, existingAfter (copyDatabaseIfDifferent platform faults) disk =
      existingAfter (attempt (ε := Exception) faults Disk.rename) disk := by
    intro faults
    rw [copy_of_different (by simp [absent, there, Platform.filesEqual]), absent]
    rfl
  have renamed : disk.rename = some ((disk.set .existingDB (some new)).set .newDB none) := by
    simp [Disk.rename, absent, there]
  have moved : ((disk.set .existingDB (some new)).set .newDB none).files .existingDB = some new := by
    rw [Disk.set_files_of_ne _ (by decide), Disk.set_files]
  intro faults
  rw [copy, existingAfter]
  constructor
  · have either : Yields
        (Carries (Holds fun disk' => disk'.files .existingDB = disk.files .existingDB ∨ disk'.files .existingDB = some new))
        (attempt (ε := Exception) faults Disk.rename) ⟨disk, 0⟩ fun _ _ => True := by
      refine yields_attempt _ fun disk' effected _ => Or.inr ?_
      rw [← Option.some.inj (renamed.symm.trans effected)]
      exact moved
    exact either.kept (Or.inl rfl)
  · intro succeeds
    rw [attempt_succeeds fun i _ => succeeds _, renamed]
    exact moved

variable (platform) in
theorem copy_of_same (same : disk.files .existingDB = some new) (there : disk.files .newDB = some new) :
    Replaces (copyDatabaseIfDifferent platform) disk new := by
  have kept : ∀ faults, existingAfter (copyDatabaseIfDifferent platform faults) disk = disk.files .existingDB :=
    fun faults => copy_unless_different (by simp [same, there, filesEqual_self])
  exact fun faults => ⟨Or.inl (kept faults), fun _ => (kept faults).trans same⟩

theorem different_of_replaces (replaces : Replaces (copyDatabaseIfDifferent platform) disk new)
    (other : disk.files .existingDB ≠ some new) :
    platform.filesEqual (disk.files .existingDB) (disk.files .newDB) = .ok false := by
  by_contra kept
  have arrived := (replaces fun _ => .succeeds).2 fun _ => rfl
  rw [copy_unless_different kept] at arrived
  exact other arrived

-- The old file is deleted before the new database takes its name.
theorem not_replaces_file {content : List UInt8} (file : disk.files .existingDB = some (.file content))
    (there : disk.files .newDB = some new) (other : new ≠ .file content) :
    ¬Replaces (copyDatabaseIfDifferent platform) disk new := by
  intro replaces
  have different := different_of_replaces replaces (by simpa [file] using Ne.symm other)
  have lost : existingAfter (copyDatabaseIfDifferent platform (stopsAt 1)) disk = none := by
    rw [copy_of_different different, file, there, existingAfter, copyDifferent, outcome_bind, deleteDatabase,
      outcome_readState_bind]
    · dsimp only
      rw [file]
      dsimp only
      rw [delete, outcome_bind, attempt_succeeds (lets_stopsAt (Nat.le_refl 1)), Disk.delete_file file]
      change (outcome (attempt (stopsAt 1) Disk.rename)
        (⟨disk.set .existingDB none, 1⟩ : World (Disk Name Subdirectory))).2.state.files .existingDB = none
      rw [attempt_stops (stopsAt_self 1)]
      exact Disk.set_files ..
    · simp
  have either := (replaces (stopsAt 1)).1
  rw [lost, file] at either
  simp at either

def Mismatched (disk : Disk Name Subdirectory) : Prop :=
  (∃ directory, disk.files .existingDB = some (.directory directory)) ∧
    ∃ content, disk.files .newDB = some (.file content)

omit [DecidableEq Digest] in
theorem Mismatched.rename (mismatched : Mismatched disk) : disk.rename = none := by
  obtain ⟨⟨directory, old⟩, content, there⟩ := mismatched
  simp [Disk.rename, old, there]

omit [DecidableEq Digest] in
theorem Mismatched.deleteEntry {disk' : Disk Name Subdirectory} {name : Name} (mismatched : Mismatched disk)
    (deleted : platform.deleteEntry .existingDB name disk = some disk') : Mismatched disk' := by
  obtain ⟨⟨directory, old⟩, content, there⟩ := mismatched
  refine ⟨?_, content, (Platform.deleteEntry_files_of_ne (by decide) deleted).trans there⟩
  have left : (platform.deleteEntry .existingDB name disk).getD disk = _ := Platform.deleteEntry_getD old name
  rw [deleted] at left
  exact ⟨_, left ▸ Disk.set_files ..⟩

-- A file never takes the place of a directory, which `deleteDatabase` only empties.
theorem not_replaces_kinds {directory : Directory Name Subdirectory} {content : List UInt8}
    (old : disk.files .existingDB = some (.directory directory)) (there : disk.files .newDB = some (.file content)) :
    ¬Replaces (copyDatabaseIfDifferent platform) disk (.file content) := by
  intro replaces
  have different := different_of_replaces replaces (by simp [old])
  have arrived := (replaces fun _ => .succeeds).2 fun _ => rfl
  rw [copy_of_different different, old, there, existingAfter, copyDifferent] at arrived
  · have emptied : Yields (Carries (Holds Mismatched)) (deleteDatabase platform (fun _ => .succeeds) .existingDB)
        ⟨disk, 0⟩ fun _ _ => True := by
      refine yields_readState_bind ?_
      dsimp only
      rw [old]
      exact yields_deleteEntries (fun name _ => yields_attempt _ fun _ deleted mismatched =>
        mismatched.deleteEntry deleted) _ _
    have stuck : ∀ world : World (Disk Name Subdirectory), Yields (Carries (Holds Mismatched))
        (attempt (ε := Exception) (fun _ => .succeeds) Disk.rename) world fun _ _ => True :=
      fun world => yields_attempt _ fun _ renamed mismatched => by simp [mismatched.rename] at renamed
    have kept := yields_bind emptied fun _ world _ _ => stuck world
    obtain ⟨⟨left, leftThere⟩, -⟩ := kept.kept ⟨⟨directory, old⟩, content, there⟩
    rw [leftThere] at arrived
    simp at arrived
  · simp

theorem copy_directories {old fresh : Directory Name Subdirectory}
    (there : disk.files .existingDB = some (.directory old)) (there' : disk.files .newDB = some (.directory fresh))
    (different : platform.filesEqual (disk.files .existingDB) (disk.files .newDB) = .ok false) (faults : Nat → Fault) :
    existingAfter (copyDatabaseIfDifferent platform faults) disk =
      existingAfter (moveDirectory platform faults old) disk := by
  rw [copy_of_different different, there, there', existingAfter, copyDifferent, existingAfter]
  rw [← keeps_bind Eq fun _ _ => yields_pure trivial]

omit [LinearOrder Name] [DecidableEq Digest] in
theorem exists_first {names : List Name} {p : Name → Prop} (some : ∃ name ∈ names, p name) :
    ∃ first name rest, names = first ++ name :: rest ∧ p name ∧ ∀ earlier ∈ first, ¬p earlier := by
  classical
  have isSome : (names.find? fun name => decide (p name)).isSome := List.find?_isSome.mpr (by simpa using some)
  obtain ⟨name, found⟩ := Option.isSome_iff_exists.mp isSome
  obtain ⟨holds, first, rest, split, before⟩ := List.find?_eq_some_iff_append.mp found
  exact ⟨first, name, rest, split, of_decide_eq_true holds, by simpa using before⟩

theorem losesOneEntry_of_replaces {old fresh : Directory Name Subdirectory}
    (there : disk.files .existingDB = some (.directory old)) (there' : disk.files .newDB = some (.directory fresh))
    (other : old ≠ fresh) (replaces : Replaces (copyDatabaseIfDifferent platform) disk (.directory fresh)) :
    LosesOneEntry platform old fresh := by
  have different := different_of_replaces replaces (by simpa [there] using other)
  have moves := copy_directories there there' different
  have left : (platform.survivors old (platform.listFiles old)).entries ≠ [] := by
    intro emptied
    have either := (replaces (stopsAt ((platform.listFiles old).length + 1))).1
    rw [moves, moveDirectory_empties there emptied, there] at either
    simp at either
  have arrived : fresh = platform.survivors old (platform.listFiles old) := by
    have moved := (replaces fun _ => .succeeds).2 fun _ => rfl
    rw [moves, moveDirectory_succeeds (fun _ => rfl) there there' left] at moved
    simpa using moved.symm
  have kept : ∀ name, ¬platform.Spends fresh name := arrived ▸ Platform.not_spends_survivors old
  have spent : ∃ name ∈ platform.listFiles old, platform.Spends old name := by
    by_contra none
    rw [Platform.survivors_of_not_spends (by simpa using none)] at arrived
    exact other arrived.symm
  obtain ⟨first, name, rest, listing, spends, before⟩ := exists_first spent
  have lost : fresh = old.remove name := by
    have reached : platform.survivors old (first ++ [name]) = old.remove name := by
      rw [← Platform.survivors_append, Platform.survivors_of_not_spends before, Platform.survivors_of_spends spends]
    have either := (replaces (stopsAt (first ++ [name]).length)).1
    have split : platform.listFiles old = (first ++ [name]) ++ rest := by simp [listing]
    rw [moves, moveDirectory_stops split there, reached, there] at either
    simpa [Platform.remove_ne spends, eq_comm (b := fresh)] using either
  exact ⟨⟨name, spends, lost⟩, arrived ▸ left, kept⟩

theorem LosesOneEntry.different {old fresh : Directory Name Subdirectory} (loses : LosesOneEntry platform old fresh) :
    platform.filesEqual (some (.directory old)) (some (.directory fresh)) = .ok false := by
  obtain ⟨⟨name, ⟨entry, member, named, -⟩, rfl⟩, -, -⟩ := loses
  have fewer : (old.remove name).entries.length < old.entries.length :=
    List.length_filter_lt_length_iff_exists.mpr ⟨entry, member, by simp [named]⟩
  simp [Platform.filesEqual, Platform.compareDirectories, ne_of_gt fewer]

omit [DecidableEq Digest] in
theorem LosesOneEntry.deleteEntry {old fresh : Directory Name Subdirectory} {disk' : Disk Name Subdirectory}
    {name : Name} (loses : LosesOneEntry platform old fresh) (blocked : Blocked old disk ∨ Blocked fresh disk)
    (deleted : platform.deleteEntry .existingDB name disk = some disk') : Blocked old disk' ∨ Blocked fresh disk' := by
  obtain ⟨⟨lost, -, rfl⟩, -, kept⟩ := loses
  rcases blocked with ⟨there, fresh', there'⟩ | ⟨there, -⟩
  · by_cases spends : platform.Spends old name
    · have same : name = lost := by
        obtain ⟨entry, member, rfl, deletable⟩ := spends
        by_contra apart
        exact kept entry.1 ⟨entry, List.mem_filter.mpr ⟨member, decide_eq_true apart⟩, rfl, deletable⟩
      rw [Platform.deleteEntry_of_spends there spends] at deleted
      rw [← Option.some.inj deleted, same]
      exact Or.inr ⟨Disk.set_files .., fresh', (Disk.set_files_of_ne _ (by decide) _).trans there'⟩
    · simp [Platform.deleteEntry_of_not_spends there spends] at deleted
  · simp [Platform.deleteEntry_of_not_spends there (kept name)] at deleted

theorem copy_of_lost {old fresh : Directory Name Subdirectory}
    (there : disk.files .existingDB = some (.directory old)) (there' : disk.files .newDB = some (.directory fresh))
    (loses : LosesOneEntry platform old fresh) :
    Replaces (copyDatabaseIfDifferent platform) disk (.directory fresh) := by
  have oldNonempty : old.entries ≠ [] := by
    obtain ⟨⟨name, ⟨entry, member, -⟩, -⟩, -, -⟩ := loses
    exact List.ne_nil_of_mem member
  have nonempty := loses.nonempty
  have different : platform.filesEqual (disk.files .existingDB) (disk.files .newDB) = .ok false := by
    rw [there, there', loses.different]
  have moves := copy_directories there there' different
  intro faults
  rw [moves, there]
  constructor
  · have blocked : Yields (Carries (Holds fun disk => Blocked old disk ∨ Blocked fresh disk))
        (moveDirectory platform faults old) ⟨disk, 0⟩ fun _ _ => True := by
      refine yields_bind (yields_deleteEntries (fun name _ => ?_) _ _) fun _ world _ _ =>
        yields_moveIntoPlace (fun _ => ?_) (fun _ => ?_) world
      · exact yields_attempt _ fun _ deleted blocked => loses.deleteEntry blocked deleted
      · refine yields_attempt _ fun _ deleted blocked => ?_
        rcases blocked with blocked | blocked
        · simp [blocked.delete oldNonempty] at deleted
        · simp [blocked.delete nonempty] at deleted
      · refine yields_attempt _ fun _ renamed blocked => ?_
        rcases blocked with blocked | blocked
        · simp [blocked.rename oldNonempty] at renamed
        · simp [blocked.rename nonempty] at renamed
    exact (blocked.kept (Or.inl ⟨there, fresh, there'⟩)).imp And.left And.left
  · intro succeeds
    obtain ⟨⟨name, spends, rfl⟩, -, kept⟩ := loses
    have survivors := Platform.survivors_of_lost spends kept
    rw [moveDirectory_succeeds succeeds there there' (survivors ▸ nonempty), survivors]

theorem copy_replaces_iff (there : disk.files .newDB = some new) :
    Replaces (copyDatabaseIfDifferent platform) disk new ↔ Replaceable platform (disk.files .existingDB) new := by
  constructor
  · intro replaces
    cases existing : disk.files .existingDB with
    | none => exact Or.inl rfl
    | some content =>
      by_cases same : content = new
      · exact Or.inr (Or.inl (congrArg some same))
      cases content with
      | file bytes => exact absurd replaces (not_replaces_file existing there (Ne.symm same))
      | directory old =>
        cases new with
        | file bytes => exact absurd replaces (not_replaces_kinds existing there)
        | directory fresh =>
          have other : old ≠ fresh := fun equal => same (congrArg _ equal)
          exact Or.inr (Or.inr ⟨old, fresh, rfl, rfl, losesOneEntry_of_replaces existing there other replaces⟩)
  · rintro (absent | same | ⟨old, fresh, old', rfl, loses⟩)
    · exact copy_of_absent platform absent there
    · exact copy_of_same platform same there
    · exact copy_of_lost old' there loses

end Copying

-- The replacement is all or nothing, and what the comparison takes for equal is equal.
def Atomic (platform : Platform Name Subdirectory Digest) (call : Call Name Subdirectory)
    (before : Disk Name Subdirectory) (newDB : Database Name Subdirectory) : Prop :=
  Replaces (updateDatabase call platform) before newDB ∧
    (platform.filesEqual (before.files .existingDB) (some newDB) = .ok true → before.files .existingDB = some newDB)

theorem Replaceable.equal {existing : Option (Database Name Subdirectory)} {new : Database Name Subdirectory}
    (replaceable : Replaceable platform existing new)
    (equal : platform.filesEqual existing (some new) = .ok true) : existing = some new := by
  rcases replaceable with rfl | same | ⟨old, fresh, rfl, rfl, loses⟩
  · simp [Platform.filesEqual] at equal
  · exact same
  · simp [loses.different] at equal

theorem updateDatabase_atomic_iff {call : Call Name Subdirectory} {before : Disk Name Subdirectory}
    {newDB : Database Name Subdirectory} (accepts : Accepts call before newDB) :
    Atomic platform call before newDB ↔ Replaceable platform (before.files .existingDB) newDB := by
  obtain ⟨loaded, copies⟩ := updateDatabase_existing platform accepts
  have untouched : (Disk.set { before with loaded := loaded } .newDB (some newDB)).files .existingDB =
      before.files .existingDB := Disk.set_files_of_ne _ (by decide) _
  have replaces : Replaces (updateDatabase call platform) before newDB ↔
      Replaceable platform (before.files .existingDB) newDB := by
    rw [← untouched, ← copy_replaces_iff (Disk.set_files ..)]
    simp only [Replaces, copies, untouched]
  exact ⟨fun atomic => replaces.mp atomic.1, fun replaceable => ⟨replaces.mpr replaceable, replaceable.equal⟩⟩

def plainPlatform : Platform Nat Unit (List UInt8) where
  md5Hex := id
  directoryLength := fun _ => 4096
  subdirectoryLength := fun _ => 4096
  subdirectoryIsEmpty := fun _ => true
  listFiles := fun directory => directory.entries.map Prod.fst
  listFiles_perm := fun _ => .refl _

def hourlyCall : Call Nat Unit where
  databasesDirectoryExists := true
  createDirectories := .ok ()
  lastModified := 1000000
  pollingInterval := 3600000
  currentTimeMillis := 4700000
  dataBaseURL := some "http://ops.example.com/czf.json"
  downloadDatabase := fun _ => .ok (.newDB (some (.file [91, 49, 93])))
  verifyDatabase := fun _ => .ok true
  loadDatabase := fun existing => .ok existing.isSome

def diskWith (content : Option (Database Nat Unit)) : Disk Nat Unit :=
  ⟨fun path => match path with
    | .existingDB => content
    | .newDB => none, true⟩

theorem hourlyCall_accepts (content : Option (Database Nat Unit)) :
    Accepts hourlyCall (diskWith content) (.file [91, 49, 93]) :=
  ⟨rfl, fun _ => by decide, ⟨_, rfl, rfl⟩, rfl⟩

theorem updateDatabase_atomic_first : Atomic plainPlatform hourlyCall (diskWith none) (.file [91, 49, 93]) :=
  (updateDatabase_atomic_iff (hourlyCall_accepts none)).mpr (Or.inl rfl)

-- The old file is gone when the rename fails.
theorem rename_failure_leaves_nothing :
    Accepts hourlyCall (diskWith (some (.file [91, 93]))) (.file [91, 49, 93]) ∧
      existingAfter (updateDatabase hourlyCall plainPlatform fun i => if i = 1 then .fails else .succeeds)
        (diskWith (some (.file [91, 93]))) = none ∧
      ¬Atomic plainPlatform hourlyCall (diskWith (some (.file [91, 93]))) (.file [91, 49, 93]) := by
  have lost : existingAfter (updateDatabase hourlyCall plainPlatform fun i => if i = 1 then .fails else .succeeds)
      (diskWith (some (.file [91, 93]))) = none := by rfl
  refine ⟨hourlyCall_accepts _, lost, fun atomic => ?_⟩
  have either := (atomic.1 fun i => if i = 1 then .fails else .succeeds).1
  rw [lost] at either
  rcases either with old | new
  · cases old
  · cases new

end Replacing

end TrafficControl.TrafficRouter.ServiceUpdater
