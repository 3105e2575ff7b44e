import Mathlib.Data.List.DropRight
import Mathlib.Data.List.Induction
import TrafficControl.TrafficMonitor.Peer.CRStates

set_option autoImplicit false

namespace TrafficControl.TrafficMonitor.Peer

-- The peer poller and the monitor configuration are independent writers.
inductive Operation where
  | set (result : Result)
  | setPeers (newPeers : List String)
  | setTimeout (timeout : Int)

namespace Operation

def apply (s : CRStatesPeers) : Operation → CRStatesPeers
  | set result => s.set result
  | setPeers newPeers => s.setPeers newPeers
  | setTimeout timeout => s.setTimeout timeout

def applyAll (ops : List Operation) : CRStatesPeers := ops.foldl apply CRStatesPeers.new

def newPeers : Operation → Option (List String)
  | setPeers newPeers => some newPeers
  | _ => none

def timeout : Operation → Option Int
  | setTimeout timeout => some timeout
  | _ => none

def resultOf (peer : String) : Operation → Option Result
  | set result => if result.id = peer then some result else none
  | _ => none

def last {β : Type} (f : Operation → Option β) (ops : List Operation) : Option β := (ops.filterMap f).getLast?

def lastTimeout (ops : List Operation) : Int := (last timeout ops).getD CRStatesPeers.hour

/-- The peer is configured, its last poll succeeded, and that is not too long ago. -/
def Promised (ops : List Operation) (now : Int) (peer : String) : Prop :=
  (∃ peers, last newPeers ops = some peers ∧ peer ∈ peers) ∧
    ∃ result, last (resultOf peer) ops = some result ∧ result.available = true ∧ since now result.time < lastTimeout ops

-- Up to the last time that the peers were set.
def answeredBefore (ops : List Operation) (peer : String) : Bool :=
  (ops.rdropWhile fun op => op.newPeers.isNone).any fun op => (op.resultOf peer).isSome

theorem last_concat {β : Type} (f : Operation → Option β) (ops : List Operation) (op : Operation) :
    last f (ops ++ [op]) = (f op).or (last f ops) := by
  unfold last
  rw [List.filterMap_append]
  cases found : f op with
  | none => simp [found]
  | some value => simp [found]

theorem lastTimeout_concat (ops : List Operation) (op : Operation) :
    lastTimeout (ops ++ [op]) = op.timeout.getD (lastTimeout ops) := by
  rw [lastTimeout, last_concat]
  cases op.timeout <;> rfl

theorem last_isSome (peer : String) (ops : List Operation) :
    (last (resultOf peer) ops).isSome = ops.any fun op => (op.resultOf peer).isSome := by
  induction ops using List.reverseRecOn with
  | nil => rfl
  | append_singleton ops op ih =>
    rw [last_concat, Option.isSome_or, ih, List.any_append, Bool.or_comm]
    simp

theorem answeredBefore_concat (ops : List Operation) (op : Operation) (peer : String) :
    answeredBefore (ops ++ [op]) peer =
      if op.newPeers.isNone then answeredBefore ops peer else (last (resultOf peer) (ops ++ [op])).isSome := by
  unfold answeredBefore
  rw [List.rdropWhile_concat, last_isSome]
  split_ifs <;> rfl

theorem isSome_of_answeredBefore {ops : List Operation} {peer : String} (before : answeredBefore ops peer = true) :
    (last (resultOf peer) ops).isSome = true := by
  rw [last_isSome]
  obtain ⟨op, member, answer⟩ := List.any_eq_true.mp before
  exact List.any_eq_true.mpr ⟨op, (List.rdropWhile_prefix _ ops).subset member, answer⟩

-- What the maps say about one peer.
structure Reflects (ops : List Operation) (peer : String) (s : CRStatesPeers) : Prop where
  timeout : s.timeout = lastTimeout ops
  answered : peer ∈ s.crStates ↔ (last (resultOf peer) ops).isSome = true
  states : s.peerStates.lookup peer = (last (resultOf peer) ops).map fun result => result.available
  times : s.peerTimes.lookup peer = (last (resultOf peer) ops).map fun result => result.time
  online : s.peerOnline.lookup peer =
    if answeredBefore ops peer then (last newPeers ops).map fun peers => decide (peer ∈ peers) else none

theorem reflects_new (peer : String) : Reflects [] peer CRStatesPeers.new := by
  constructor <;> simp [CRStatesPeers.new, last, lastTimeout, answeredBefore]

theorem reflects_apply {ops : List Operation} {peer : String} {s : CRStatesPeers} (reflects : Reflects ops peer s)
    (op : Operation) : Reflects (ops ++ [op]) peer (apply s op) := by
  cases op with
  | set result =>
    have before : answeredBefore (ops ++ [set result]) peer = answeredBefore ops peer := by
      rw [answeredBefore_concat]
      rfl
    have peers : last newPeers (ops ++ [set result]) = last newPeers ops := last_concat _ _ _
    by_cases own : result.id = peer
    · subst own
      have found : last (resultOf result.id) (ops ++ [set result]) = some result := by
        rw [last_concat, resultOf, if_pos rfl]
        rfl
      refine ⟨?_, ?_, ?_, ?_, ?_⟩
      · exact reflects.timeout.trans (lastTimeout_concat ops (set result)).symm
      · simp [apply, CRStatesPeers.set, found]
      · simp [apply, CRStatesPeers.set, found]
      · simp [apply, CRStatesPeers.set, found]
      · rw [before, peers]
        exact reflects.online
    · have found : last (resultOf peer) (ops ++ [set result]) = last (resultOf peer) ops := by
        rw [last_concat, resultOf, if_neg own]
        rfl
      have apart := Ne.symm own
      refine ⟨?_, ?_, ?_, ?_, ?_⟩
      · exact reflects.timeout.trans (lastTimeout_concat ops (set result)).symm
      · rw [found, ← reflects.answered]
        simp [apply, CRStatesPeers.set, apart]
      · rw [found, ← reflects.states]
        exact AList.lookup_insert_ne apart
      · rw [found, ← reflects.times]
        exact AList.lookup_insert_ne apart
      · rw [before, peers]
        exact reflects.online
  | setPeers peers =>
    have found : last (resultOf peer) (ops ++ [setPeers peers]) = last (resultOf peer) ops := last_concat _ _ _
    refine ⟨?_, ?_, ?_, ?_, ?_⟩
    · exact reflects.timeout.trans (lastTimeout_concat ops (setPeers peers)).symm
    · rw [found]
      exact reflects.answered
    · rw [found]
      exact reflects.states
    · rw [found]
      exact reflects.times
    · rw [answeredBefore_concat, found, last_concat, apply, CRStatesPeers.setPeers_online]
      by_cases answered : peer ∈ s.crStates
      · rw [if_pos answered, reflects.answered.mp answered]
        rfl
      · have silent : (last (resultOf peer) ops).isSome = false := by
          rw [Bool.eq_false_iff]
          exact fun some => answered (reflects.answered.mpr some)
        have never : answeredBefore ops peer = false := by
          rw [Bool.eq_false_iff]
          exact fun before => by simp [isSome_of_answeredBefore before] at silent
        rw [if_neg answered, reflects.online, silent, never]
        rfl
  | setTimeout timeout =>
    refine ⟨?_, ?_, ?_, ?_, ?_⟩
    · exact (lastTimeout_concat ops (setTimeout timeout)).symm
    · rw [last_concat]
      exact reflects.answered
    · rw [last_concat]
      exact reflects.states
    · rw [last_concat]
      exact reflects.times
    · rw [answeredBefore_concat, last_concat newPeers]
      exact reflects.online

theorem reflects_applyAll (ops : List Operation) (peer : String) : Reflects ops peer (applyAll ops) := by
  induction ops using List.reverseRecOn with
  | nil => exact reflects_new peer
  | append_singleton ops op ih =>
    rw [applyAll, List.foldl_append]
    exact reflects_apply ih op

theorem getPeerAvailability_applyAll (ops : List Operation) (now : Int) (peer : String) :
    (applyAll ops).getPeerAvailability now peer = true ↔ Promised ops now peer ∧ answeredBefore ops peer = true := by
  have reflects := reflects_applyAll ops peer
  unfold CRStatesPeers.getPeerAvailability Promised
  rw [reflects.timeout, reflects.states, reflects.times, reflects.online]
  cases last (resultOf peer) ops with
  | none => simp
  | some result =>
    cases last newPeers ops with
    | none => simp
    | some peers =>
      cases answeredBefore ops peer with
      | false => simp
      | true =>
        simp only [if_true, Option.map_some, Option.getD_some, Bool.and_eq_true, decide_eq_true_eq, Option.some.injEq,
          exists_eq_left', and_true]
        tauto

/-- The availability of a peer is the promised one just when it does not hang on a peer that answered for
the first time after the peers were set. -/
theorem getPeerAvailability_iff (ops : List Operation) (now : Int) (peer : String) :
    ((applyAll ops).getPeerAvailability now peer = true ↔ Promised ops now peer) ↔
      (Promised ops now peer → answeredBefore ops peer = true) := by
  rw [getPeerAvailability_applyAll]
  tauto

-- The only peer is configured first and answers then.
def configuredFirst : List Operation := [setPeers ["tm2"], set ⟨"tm2", true, CRStates.new, 1000⟩]

/-- It is online and has answered, but nobody asks whether it is until the peers are set again. -/
theorem configuredFirst_unavailable : Promised configuredFirst 2000 "tm2" ∧
    (applyAll configuredFirst).getPeerAvailability 2000 "tm2" = false := by
  refine ⟨⟨⟨["tm2"], rfl, List.mem_singleton_self _⟩, _, rfl, rfl, ?_⟩, ?_⟩
  · decide
  · decide

end Operation

end TrafficControl.TrafficMonitor.Peer
