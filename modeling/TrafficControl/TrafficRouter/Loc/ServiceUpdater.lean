import Mathlib.Logic.Function.Basic
import Mathlib.Order.Lattice
import TrafficControl.Lib.Faults
import TrafficControl.Lib.MachineInt

set_option autoImplicit false

namespace TrafficControl.TrafficRouter.ServiceUpdater

open Faults Routine

inductive DirectoryEntry (Subdirectory : Type) where
  | file (content : List UInt8)
  | directory (content : Subdirectory)

-- In the order of the names, so that equal directories are equal values.
@[ext] structure Directory (Name Subdirectory : Type) [LinearOrder Name] where
  entries : List (Name × DirectoryEntry Subdirectory)
  sorted : entries.Pairwise fun a b => a.1 < b.1

inductive Database (Name Subdirectory : Type) [LinearOrder Name] where
  | file (content : List UInt8)
  | directory (directory : Directory Name Subdirectory)

inductive Exception where
  | fileNotFoundException
  | fileSystemException
  | other
deriving DecidableEq

inductive Path where
  | existingDB
  | newDB
deriving DecidableEq

variable {Name Subdirectory Digest : Type} [LinearOrder Name]

structure Disk (Name Subdirectory : Type) [LinearOrder Name] where
  files : Path → Option (Database Name Subdirectory)
  loaded : Bool

/-- The file system and the digest: the length of a directory is a number of its own, and the
listing has the names in any order. -/
structure Platform (Name Subdirectory Digest : Type) [LinearOrder Name] where
  md5Hex : List UInt8 → Digest
  directoryLength : Directory Name Subdirectory → Nat
  subdirectoryLength : Subdirectory → Nat
  subdirectoryIsEmpty : Subdirectory → Bool
  listFiles : Directory Name Subdirectory → List Name
  listFiles_perm : ∀ directory, (listFiles directory).Perm (directory.entries.map Prod.fst)

inductive Downloaded (Name Subdirectory : Type) [LinearOrder Name] where
  | null
  | existingDB
  | newDB (content : Option (Database Name Subdirectory))

-- What one call of `updateDatabase` meets outside the two paths.
structure Call (Name Subdirectory : Type) [LinearOrder Name] where
  databasesDirectoryExists : Bool
  createDirectories : Except Exception Unit
  lastModified : Int
  pollingInterval : Int
  currentTimeMillis : Int
  dataBaseURL : Option String
  downloadDatabase : String → Except Exception (Downloaded Name Subdirectory)
  verifyDatabase : Database Name Subdirectory → Except Exception Bool
  loadDatabase : Option (Database Name Subdirectory) → Except Exception Bool

def Directory.remove (this : Directory Name Subdirectory) (name : Name) : Directory Name Subdirectory :=
  ⟨this.entries.filter fun entry => entry.1 ≠ name, this.sorted.filter _⟩

namespace Disk

def set (this : Disk Name Subdirectory) (path : Path) (content : Option (Database Name Subdirectory)) :
    Disk Name Subdirectory :=
  { this with files := Function.update this.files path content }

-- `File.delete` of a whole path: a directory goes only when it is empty.
def delete (this : Disk Name Subdirectory) (path : Path) : Option (Disk Name Subdirectory) :=
  match this.files path with
  | some (.file _) => some (this.set path none)
  | some (.directory directory) => if directory.entries.isEmpty then some (this.set path none) else none
  | none => none

-- `rename(2)` of the new database to the existing path.
def rename (this : Disk Name Subdirectory) : Option (Disk Name Subdirectory) :=
  let moved := (this.set .existingDB (this.files .newDB)).set .newDB none
  match this.files .newDB, this.files .existingDB with
  | some _, none => some moved
  | some (.file _), some (.file _) => some moved
  | some (.directory _), some (.directory existing) => if existing.entries.isEmpty then some moved else none
  | _, _ => none

end Disk

namespace Platform

variable (this : Platform Name Subdirectory Digest)

def entryLength : DirectoryEntry Subdirectory → Nat
  | .file content => content.length
  | .directory content => this.subdirectoryLength content

def length : Database Name Subdirectory → Nat
  | .file content => content.length
  | .directory directory => this.directoryLength directory

def deletable : DirectoryEntry Subdirectory → Bool
  | .file _ => true
  | .directory content => this.subdirectoryIsEmpty content

-- `File.delete` of one entry of the directory at a path.
def deleteEntry (path : Path) (name : Name) (disk : Disk Name Subdirectory) : Option (Disk Name Subdirectory) :=
  match disk.files path with
  | some (.directory directory) =>
    if directory.entries.any fun entry => entry.1 = name && this.deletable entry.2 then
      some (disk.set path (some (.directory (directory.remove name))))
    else none
  | _ => none

def fileMd5 : Database Name Subdirectory → Except Exception Digest
  | .file content => .ok (this.md5Hex content)
  | .directory _ => .error .fileNotFoundException

def compareFiles [DecidableEq Digest] (a b : Database Name Subdirectory) : Except Exception Bool :=
  if this.length a ≠ this.length b then .ok false
  else (this.fileMd5 a).bind fun md5 => (this.fileMd5 b).map fun other => md5 = other

-- The two sorted listings, entry by entry.
def compareDirectories (a b : Directory Name Subdirectory) : Bool :=
  a.entries.length = b.entries.length ∧
    a.entries.map (fun entry => this.entryLength entry.2) = b.entries.map (fun entry => this.entryLength entry.2)

def filesEqual [DecidableEq Digest] : Option (Database Name Subdirectory) → Option (Database Name Subdirectory) →
    Except Exception Bool
  | none, none => .ok true
  | none, some _ => .ok false
  | some _, none => .ok false
  | some (.directory a), some (.directory b) => .ok (this.compareDirectories a b)
  | some a, some b => this.compareFiles a b

end Platform

abbrev Procedure (Name Subdirectory : Type) [LinearOrder Name] :=
  Routine (Halt Exception) (World (Disk Name Subdirectory))

section Procedures

variable (platform : Platform Name Subdirectory Digest) (faults : Nat → Fault)

def delete (path : Path) : Procedure Name Subdirectory Bool := attempt faults fun disk => disk.delete path

def deleteEntries (path : Path) : List Name → Procedure Name Subdirectory Unit
  | [] => pure ()
  | name :: names => attempt faults (platform.deleteEntry path name) >>= fun _ => deleteEntries path names

def deleteDatabase (db : Path) : Procedure Name Subdirectory Unit :=
  readState >>= fun world =>
    match world.state.files db with
    | some (.directory directory) => deleteEntries platform faults db (platform.listFiles directory)
    | _ => delete faults db >>= fun _ => pure ()

-- `Files.move` with `ATOMIC_MOVE`, after what is left of the old directory.
def moveIntoPlace : Procedure Name Subdirectory Unit :=
  delete faults .existingDB >>= fun _ =>
  attempt faults Disk.rename >>= fun moved =>
    if moved then pure () else throw (.thrown .fileSystemException)

def moveDirectory (existing : Directory Name Subdirectory) : Procedure Name Subdirectory Unit :=
  deleteEntries platform faults .existingDB (platform.listFiles existing) >>= fun _ => moveIntoPlace faults

end Procedures

section Updating

variable (call : Call Name Subdirectory)

def getPollingInterval : Int := if call.pollingInterval = 0 then 10000 else call.pollingInterval

def needsUpdating : Bool :=
  MachineInt.wrap 64 (call.lastModified + getPollingInterval call) < call.currentTimeMillis

def directoriesReady : Bool :=
  call.databasesDirectoryExists || match call.createDirectories with
    | .ok _ => true
    | .error _ => false

-- `setLoaded(loadDatabase())`.
def load : Procedure Name Subdirectory Unit :=
  readState >>= fun world =>
    match call.loadDatabase (world.state.files .existingDB) with
    | .ok loaded => modifyState fun world => { world with state := { world.state with loaded := loaded } }
    | .error e => throw (.thrown e)

def loadExisting : Procedure Name Subdirectory Unit := recover (load call) Halt.isThrown (pure ())

variable [DecidableEq Digest] (platform : Platform Name Subdirectory Digest) (faults : Nat → Fault)

-- `copyDatabaseIfDifferent` once the two are found to differ.
def copyDifferent : Option (Database Name Subdirectory) → Option (Database Name Subdirectory) →
    Procedure Name Subdirectory Bool
  | some (.directory existing), some (.directory _) => moveDirectory platform faults existing >>= fun _ => pure true
  | none, _ => attempt faults Disk.rename
  | some _, _ => deleteDatabase platform faults .existingDB >>= fun _ => attempt faults Disk.rename

def copyDatabaseIfDifferent : Procedure Name Subdirectory Bool :=
  readState >>= fun world =>
    match platform.filesEqual (world.state.files .existingDB) (world.state.files .newDB) with
    | .error e => throw (.thrown e)
    | .ok true => pure false
    | .ok false => copyDifferent platform faults (world.state.files .existingDB) (world.state.files .newDB)

def copyAndLoad : Procedure Name Subdirectory Unit :=
  copyDatabaseIfDifferent platform faults >>= fun copied =>
    if copied then load call else delete faults .newDB >>= fun _ => pure ()

-- The `try` block once the download has left `newDB`.
def replace (newDB : Database Name Subdirectory) : Procedure Name Subdirectory Bool :=
  match call.verifyDatabase newDB with
  | .error _ => pure false
  | .ok false => pure false
  | .ok true => recover (copyAndLoad call platform faults) Halt.isThrown (pure ()) >>= fun _ => pure true

-- The `finally` block.
def cleanUp : Procedure Name Subdirectory Unit :=
  readState >>= fun world =>
    if (world.state.files .newDB).isSome then deleteDatabase platform faults .newDB else pure ()

def fetch (databaseURL : String) : Procedure Name Subdirectory Bool :=
  match call.downloadDatabase databaseURL with
  | .error _ => pure false
  | .ok .null => pure false
  | .ok .existingDB => pure false
  | .ok (.newDB none) => pure false
  | .ok (.newDB (some content)) =>
    modifyState (fun world => { world with state := world.state.set .newDB (some content) }) >>= fun _ =>
    replace call platform faults content >>= fun updated =>
    cleanUp platform faults >>= fun _ => pure updated

def updateDatabase : Procedure Name Subdirectory Bool :=
  if !directoriesReady call then pure false
  else readState >>= fun world =>
    if world.state.loaded && !needsUpdating call then pure false
    else (if world.state.loaded then pure () else loadExisting call) >>= fun _ =>
      match call.dataBaseURL with
      | none => pure false
      | some databaseURL => fetch call platform faults databaseURL

end Updating

end TrafficControl.TrafficRouter.ServiceUpdater
