import TrafficControl.Lib.Runs
import TrafficControl.Lib.SharedLists
import Mathlib.Data.List.AList

set_option autoImplicit false

-- The main loop of Traffic Stats with its channel of batches, and the runs of `sendMetrics`.
namespace TrafficStats.Publishing

open Runs SharedLists

structure BatchPointsConfig where
  database : String
  precision : String
  retentionPolicy : String
  deriving DecidableEq

/-- What a goroutine goes on with after its batch has been received. -/
inductive Rest where
  -- `calcDailyBytesServed`, with the batch of `calcDailyMaxGbps`
  | bytesServed (bp : Nat)
  -- the loop of `sendMetrics`, with the points that are still to be written
  | write (bps : Nat) (pts : List Nat)
  deriving DecidableEq

inductive Task where
  -- waits at `BpsChan <- bp`
  | send (bp : Nat) (rest : Option Rest)
  -- `sendMetrics`, before it has a connection
  | connect (bps : Nat)
  | run (rest : Rest)
  deriving DecidableEq

/-- The batches are objects: `config` and `points` are theirs, `Bps` and the tasks hold references. A point is the number
of points made before it. -/
structure State where
  config : Nat → BatchPointsConfig
  points : Nat → List Nat
  nextBatch : Nat
  nextPoint : Nat
  bps : AList fun _ : String => Nat
  tasks : List Task
  -- what InfluxDB has stored, write by write
  written : List (BatchPointsConfig × List Nat)

namespace State

variable (s : State)

def key (bp : Nat) : String := (s.config bp).database ++ (s.config bp).retentionPolicy

def newBatchPoints (config : BatchPointsConfig) (points : List Nat) : State :=
  { s with
    config := Function.update s.config s.nextBatch config
    points := Function.update s.points s.nextBatch points
    nextBatch := s.nextBatch + 1 }

def newPoints (n : Nat) : List Nat := List.range' s.nextPoint n

def made (n : Nat) : State := { s with nextPoint := s.nextPoint + n }

def addPoints (bp : Nat) (points : List Nat) : State :=
  { s with points := Function.update s.points bp (s.points bp ++ points) }

def go (task : Task) : State := { s with tasks := task :: s.tasks }

/-- The task has ended, or gone on as another. -/
def finished (i : Nat) : State := { s with tasks := s.tasks.eraseIdx i }

def proceed (rest : Option Rest) : State := rest.elim s fun rest => s.go (.run rest)

def receive (batchPoints : Nat) : State :=
  match s.bps.lookup (s.key batchPoints) with
  | some bp => s.addPoints bp (s.points batchPoints)
  | none => { s with bps := s.bps.insert (s.key batchPoints) batchPoints }

def publish : State := { s with bps := ∅, tasks := s.bps.entries.map (fun entry => .connect entry.2) ++ s.tasks }

end State

/-- The points of a poll, and those of a daily summary, are as many as the answer has; `none` is an answer without a
batch to send. -/
inductive Event where
  | poll (config : BatchPointsConfig) (n : Nat)
  | dailySummary (retentionPolicy : String) (maxGbps : Option Nat)
  | bytesServed (task : Nat) (n : Option Nat)
  | receive (task : Nat)
  | publish
  | connected (task : Nat) (ok : Bool)
  | written (task : Nat) (ok : Bool)

def dailyConfig (retentionPolicy : String) : BatchPointsConfig := ⟨"daily_stats", "s", retentionPolicy⟩

/-- One pass of the loop of `sendMetrics`. A chunk that is not written is sent back. -/
def sendChunk (maxPublishSize : Nat) (s : State) (bps : Nat) (pts : List Nat) (ok : Bool) : State :=
  let chunk := pts.take maxPublishSize
  let rest := Rest.write bps (pts.drop maxPublishSize)
  if ok then { s with written := (s.config bps, chunk) :: s.written }.go (.run rest)
  else (s.newBatchPoints (s.config bps) chunk).go (.send s.nextBatch (some rest))

def step (maxPublishSize : Nat) (s : State) : Event → Option State
  | .poll config n => some (((s.newBatchPoints config (s.newPoints n)).made n).go (.send s.nextBatch none))
  | .dailySummary retentionPolicy none =>
    some ((s.newBatchPoints (dailyConfig retentionPolicy) []).go (.run (.bytesServed s.nextBatch)))
  | .dailySummary retentionPolicy (some n) =>
    some (((s.newBatchPoints (dailyConfig retentionPolicy) (s.newPoints n)).made n).go
      (.send s.nextBatch (some (.bytesServed s.nextBatch))))
  | .bytesServed i n => match s.tasks[i]?, n with
    | some (.run (.bytesServed _)), none => some (s.finished i)
    | some (.run (.bytesServed bp)), some n => some ((((s.finished i).addPoints bp (s.newPoints n)).made n).go (.send bp none))
    | _, _ => none
  | .receive i => match s.tasks[i]? with
    | some (.send bp rest) => some (((s.finished i).receive bp).proceed rest)
    | _ => none
  | .publish => some s.publish
  | .connected i ok => match s.tasks[i]? with
    | some (.connect bps) =>
      some ((s.finished i).go (if ok then .run (.write bps (s.points bps)) else .send bps none))
    | _ => none
  | .written i ok => match s.tasks[i]? with
    | some (.run (.write _ [])) => some (s.finished i)
    | some (.run (.write bps pts)) => some (sendChunk maxPublishSize (s.finished i) bps pts ok)
    | _ => none

def start : State where
  config _ := ⟨"", "", ""⟩
  points _ := []
  nextBatch := 0
  nextPoint := 0
  bps := ∅
  tasks := []
  written := []

section Steps

variable {maxPublishSize : Nat} {s s' : State} {i : Nat}

theorem step_bytesServed {n : Option Nat} (stepped : step maxPublishSize s (.bytesServed i n) = some s') :
    ∃ bp, s.tasks[i]? = some (.run (.bytesServed bp)) ∧
      s' = n.elim (s.finished i) fun n => (((s.finished i).addPoints bp (s.newPoints n)).made n).go (.send bp none) := by
  unfold step at stepped
  dsimp only at stepped
  split at stepped
  · next found =>
    cases stepped
    exact ⟨_, found, rfl⟩
  · next found =>
    cases stepped
    exact ⟨_, found, rfl⟩
  · cases stepped

theorem step_receive (stepped : step maxPublishSize s (.receive i) = some s') :
    ∃ bp rest, s.tasks[i]? = some (.send bp rest) ∧ s' = ((s.finished i).receive bp).proceed rest := by
  unfold step at stepped
  dsimp only at stepped
  split at stepped
  · next bp rest found =>
    cases stepped
    exact ⟨bp, rest, found, rfl⟩
  · cases stepped

theorem step_connected {ok : Bool} (stepped : step maxPublishSize s (.connected i ok) = some s') :
    ∃ bps, s.tasks[i]? = some (.connect bps) ∧
      s' = (s.finished i).go (if ok then .run (.write bps (s.points bps)) else .send bps none) := by
  unfold step at stepped
  dsimp only at stepped
  split at stepped
  · next bps found =>
    cases stepped
    exact ⟨bps, found, rfl⟩
  · cases stepped

theorem step_written {ok : Bool} (stepped : step maxPublishSize s (.written i ok) = some s') :
    ∃ bps pts, s.tasks[i]? = some (.run (.write bps pts)) ∧
      (pts = [] ∧ s' = s.finished i ∨ s' = sendChunk maxPublishSize (s.finished i) bps pts ok) := by
  unfold step at stepped
  dsimp only at stepped
  split at stepped
  · next bps found =>
    cases stepped
    exact ⟨bps, [], found, Or.inl ⟨rfl, rfl⟩⟩
  · next bps pts _ found =>
    cases stepped
    exact ⟨bps, pts, found, Or.inr rfl⟩
  · cases stepped

end Steps

end TrafficStats.Publishing
