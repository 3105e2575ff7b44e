import TrafficControl.Lib.RunLength
import TrafficControl.TrafficMonitor.Health.Cache

set_option autoImplicit false

namespace TrafficControl.TrafficMonitor

deriving instance DecidableEq for Value

-- A result with the time and the number of its poll, and the rest of its vitals.
structure PolledResult (α : Type) extends Result α where
  time : Int
  pollID : Nat
  bytesOut : Int
  bytesIn : Int

structure ResultInfo (α : Type) where
  id : String
  error : Option String
  time : Int
  requestTime : Int
  vitals : Vitals α
  bytesOut : Int
  bytesIn : Int
  system : AstatsSystem
  pollID : Nat
  available : Bool

def toInfo {α : Type} (r : PolledResult α) : ResultInfo α :=
  { id := r.id, error := r.error, time := r.time, requestTime := r.requestTime, vitals := r.vitals
    bytesOut := r.bytesOut, bytesIn := r.bytesIn, pollID := r.pollID, available := r.available, system := r.system }

structure ResultStatVal (α : Type) where
  val : Value α
  time : Int
  span : Nat

-- A missing map and a missing list are nil.
abbrev ResultStatHistory (α : Type) := String → Option (String → Option (List (ResultStatVal α)))

abbrev ResultInfoHistory (α : Type) := String → List (ResultInfo α)

abbrev ResultHistory (α : Type) := String → List (PolledResult α)

section Pruning

variable {α : Type}

def pruneStats (history : List (ResultStatVal α)) (limit : Nat) : List (ResultStatVal α) :=
  PrunedHistory.prune limit history

def pruneInfos (history : List (ResultInfo α)) (limit : Nat) : List (ResultInfo α) :=
  PrunedHistory.prune limit history

def pruneHistory (history : List (PolledResult α)) (limit : Nat) : List (PolledResult α) :=
  PrunedHistory.prune limit history

def ResultInfoHistory.add (this : ResultInfoHistory α) (r : PolledResult α) (limit : Nat) : ResultInfoHistory α :=
  Function.update this r.id (pruneInfos (toInfo r :: this r.id) limit)

end Pruning

-- A JSON string, number or boolean.
def Value.primitive {α : Type} : Value α → Bool
  | .text _ => true
  | .float _ => true
  | .bool _ => true
  | _ => false

section Stats

-- Two numbers are equal when `==` says so; no number of a JSON document is a NaN. `typeName` is what
-- the verb `%T` prints.
variable {α : Type} [DecidableEq α] (typeName : Value α → String)

def newStatEqual (history : List (ResultStatVal α)) (stat : Value α) : Except String Bool :=
  match history with
  | [] => .ok false
  | newest :: _ =>
    if !stat.primitive then .error ("incomparable stat type " ++ typeName stat)
    else if !newest.val.primitive then .error ("incomparable history stat type " ++ typeName newest.val)
    else .ok (stat = newest.val)

-- The history of one stat after a poll, or why the poll was left out.
def addStat (r : PolledResult α) (limit : Nat) (statHistory : List (ResultStatVal α)) (statVal : Value α) :
    Except String (List (ResultStatVal α)) :=
  (newStatEqual typeName statHistory statVal).map fun same =>
    match same, statHistory with
    | true, newest :: rest => { newest with time := r.time, span := newest.span + 1 } :: rest
    | _, _ => pruneStats (⟨statVal, r.time, 1⟩ :: statHistory) limit

namespace ResultStatHistory

def statHistory (this : ResultStatHistory α) (id statName : String) : Option (List (ResultStatVal α)) :=
  (this id).bind fun stats => stats statName

def setStat (this : ResultStatHistory α) (id statName : String) (statHistory : List (ResultStatVal α)) :
    ResultStatHistory α :=
  Function.update this id (some (Function.update ((this id).getD fun _ => none) statName (some statHistory)))

-- One turn of the loop of `Add`. The history of a stat that is left out is set to what it was.
def addEntry (r : PolledResult α) (limit : Nat) (state : ResultStatHistory α × String)
    (entry : Sigma fun _ : String => Value α) : ResultStatHistory α × String :=
  let statHistory := (state.1.statHistory r.id entry.1).getD []
  match addStat typeName r limit statHistory entry.2 with
  | .error err => (state.1.setStat r.id entry.1 statHistory, state.2 ++ "cannot add stat " ++ entry.1 ++ ": " ++ err ++ "; ")
  | .ok added => (state.1.setStat r.id entry.1 added, state.2)

-- The error ends before the last separator.
def add (this : ResultStatHistory α) (r : PolledResult α) (limit : Nat) : ResultStatHistory α × Option String :=
  let (added, errStrs) := r.ats.entries.foldl (addEntry typeName r limit) (this, "")
  (added, if errStrs = "" then none
    else some ("some stats could not be added: " ++ String.ofList (errStrs.toList.dropLast.dropLast)))

def addAll (this : ResultStatHistory α) (results : List (PolledResult α)) (limit : Nat) : ResultStatHistory α :=
  results.foldl (fun history r => (history.add typeName r limit).1) this

end ResultStatHistory

end Stats

end TrafficControl.TrafficMonitor
