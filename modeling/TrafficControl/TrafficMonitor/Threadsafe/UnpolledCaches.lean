import Mathlib.Data.Finset.Card
import Mathlib.Data.List.Induction
import TrafficControl.Lib.Runs
import TrafficControl.TrafficMonitor.Health.Cache
import TrafficControl.TrafficMonitor.Peer.CRStates

set_option autoImplicit false

namespace TrafficControl.TrafficMonitor

open Peer Runs

-- The rate of the bytes of a cache, and the time of the stat it was last computed from.
structure LastStatData (α : Type) where
  perSec : α
  time : Int

structure UnpolledCaches where
  unpolledCaches : Finset String
  seenCaches : String → Option Int
  allCaches : Finset String
  initialized : Bool

/-- The arguments of `SetPolled`, and the time of the call. -/
structure PolledCall (α : Type) where
  now : Int
  results : List (Result α)
  lastStats : String → Option (LastStatData α)

namespace UnpolledCaches

variable {α : Type} (float64 : Float64 α)

def new : UnpolledCaches := ⟨∅, fun _ => none, ∅, false⟩

def setNewCaches (this : UnpolledCaches) (newCaches : Finset String) : UnpolledCaches where
  unpolledCaches := (this.unpolledCaches ∩ newCaches) ∪ (newCaches \ (this.allCaches ∩ newCaches))
  seenCaches cache := if cache ∈ this.unpolledCaches ∧ cache ∉ newCaches then none else this.seenCaches cache
  allCaches := (this.allCaches ∩ newCaches) ∪ (newCaches \ (this.allCaches ∩ newCaches))
  initialized := true

def polledBytesPerSecTimeout : Int := 10000000000

def isDown (result : Result α) : Bool := !result.available || result.error.isSome || result.system.notAvailable

def failed (call : PolledCall α) (cache : String) : Bool :=
  call.results.any fun result => result.id = cache && isDown result

-- One turn of the loop of `SetPolled`: whether its cache is still unpolled, and when it was seen. No turn touches
-- another cache.
def turn (call : PolledCall α) (cache : String) (seen : Option Int) : Bool × Option Int :=
  let state := if failed call cache then (false, none) else (true, seen)
  match call.lastStats cache with
  | none => state
  | some lastStat =>
    let state := if !float64.equal lastStat.perSec (float64.ofInt 0) then (false, none)
      else if state.2.isNone then (state.1, some lastStat.time) else state
    if state.2.any fun seenTime => polledBytesPerSecTimeout < since call.now seenTime then (false, none) else state

def setPolled (this : UnpolledCaches) (call : PolledCall α) : UnpolledCaches :=
  let numUnpolledCaches := this.unpolledCaches.card
  if numUnpolledCaches = 0 then this
  else
    let unpolledCaches := this.unpolledCaches.filter fun cache => (turn float64 call cache (this.seenCaches cache)).1
    let seenCaches cache := if cache ∈ this.unpolledCaches then (turn float64 call cache (this.seenCaches cache)).2
      else this.seenCaches cache
    if unpolledCaches.card = numUnpolledCaches then this
    else { this with unpolledCaches, seenCaches, initialized := true }

def moves (call : PolledCall α) (cache : String) : Bool :=
  (call.lastStats cache).any fun lastStat => !float64.equal lastStat.perSec (float64.ofInt 0)

def timedOut (call : PolledCall α) (cache : String) (seen : Option Int) : Bool :=
  (call.lastStats cache).any fun lastStat => polledBytesPerSecTimeout < since call.now (seen.getD lastStat.time)

/-- The cache fails, moves bytes, or has been seen for too long. -/
def drains (call : PolledCall α) (cache : String) (seen : Option Int) : Bool :=
  failed call cache || moves float64 call cache || timedOut call cache seen

theorem turn_fst (call : PolledCall α) (cache : String) (seen : Option Int) :
    (turn float64 call cache seen).1 = !drains float64 call cache seen := by
  unfold turn drains moves timedOut
  cases call.lastStats cache with
  | none => by_cases down : failed call cache = true <;> simp [down]
  | some lastStat =>
    by_cases down : failed call cache = true <;>
      by_cases still : float64.equal lastStat.perSec (float64.ofInt 0) = true <;>
      cases seen <;> simp [down, still] <;> split_ifs <;> simp_all

theorem turn_stays {call : PolledCall α} {cache : String} {seen : Option Int}
    (stays : drains float64 call cache seen = false) : (turn float64 call cache seen).2 =
      (call.lastStats cache).elim seen fun lastStat => some (seen.getD lastStat.time) := by
  unfold drains moves timedOut at stays
  unfold turn
  simp only [Bool.or_eq_false_iff] at stays
  obtain ⟨⟨up, still⟩, recent⟩ := stays
  cases entry : call.lastStats cache with
  | none => simp [up]
  | some lastStat =>
    rw [entry] at still recent
    simp only [Option.any_some, Bool.not_eq_eq_eq_not, Bool.not_false, decide_eq_false_iff_not] at still recent
    cases seen with
    | none => simp [up, still, show ¬_ < since call.now lastStat.time from recent]
    | some time => simp [up, still, show ¬_ < since call.now time from recent]

theorem turn_seen {call : PolledCall α} {cache : String} {seen : Option Int} {time : Int}
    (after : (turn float64 call cache seen).2 = some time) :
    seen = some time ∨ ∃ lastStat, call.lastStats cache = some lastStat ∧ lastStat.time = time := by
  unfold turn at after
  cases entry : call.lastStats cache with
  | none =>
    rw [entry] at after
    by_cases down : failed call cache = true <;> simp [down] at after
    exact Or.inl after
  | some lastStat =>
    rw [entry] at after
    dsimp only at after
    split_ifs at after <;> simp_all

/-- The caches that stay are those that do not drain, on whatever path `SetPolled` returns. -/
theorem mem_setPolled (this : UnpolledCaches) (call : PolledCall α) (cache : String) :
    cache ∈ (this.setPolled float64 call).unpolledCaches ↔
      cache ∈ this.unpolledCaches ∧ drains float64 call cache (this.seenCaches cache) = false := by
  unfold setPolled
  dsimp only
  split_ifs with none same
  · simp [Finset.card_eq_zero.mp none]
  · rw [Finset.card_filter_eq_iff] at same
    refine ⟨fun member => ⟨member, ?_⟩, fun member => member.1⟩
    simpa [turn_fst] using same cache member
  · simp [turn_fst]

-- Nothing is recorded when nothing drains.
theorem seenCaches_setPolled (this : UnpolledCaches) (call : PolledCall α) (cache : String) :
    (this.setPolled float64 call).seenCaches cache = this.seenCaches cache ∨
      cache ∈ this.unpolledCaches ∧
        (this.setPolled float64 call).seenCaches cache = (turn float64 call cache (this.seenCaches cache)).2 := by
  unfold setPolled
  dsimp only
  split_ifs with none same
  · exact Or.inl rfl
  · exact Or.inl rfl
  · dsimp only
    split_ifs with member
    · exact Or.inr ⟨member, rfl⟩
    · exact Or.inl rfl

/-- Some cache drains, or none is seen for the first time; and one that has been seen for too long has a stat. -/
def Recorded (this : UnpolledCaches) (call : PolledCall α) : Prop :=
  ((∃ cache ∈ this.unpolledCaches, drains float64 call cache (this.seenCaches cache) = true) ∨
    ∀ cache ∈ this.unpolledCaches, (call.lastStats cache).isSome → (this.seenCaches cache).isSome) ∧
  ∀ cache ∈ this.unpolledCaches, call.lastStats cache = none → failed call cache = false →
    ∀ seenTime ∈ this.seenCaches cache, call.now - seenTime ≤ polledBytesPerSecTimeout

instance (this : UnpolledCaches) (call : PolledCall α) : Decidable (Recorded float64 this call) :=
  inferInstanceAs (Decidable (_ ∧ _))

theorem seenCaches_recorded {this : UnpolledCaches} {call : PolledCall α} (recorded : Recorded float64 this call)
    {cache : String} (stays : cache ∈ (this.setPolled float64 call).unpolledCaches) :
    (this.setPolled float64 call).seenCaches cache =
      (call.lastStats cache).elim (this.seenCaches cache) fun lastStat => some ((this.seenCaches cache).getD lastStat.time) := by
  obtain ⟨member, still⟩ := (mem_setPolled float64 this call cache).mp stays
  unfold setPolled
  dsimp only
  split_ifs with none same
  · rw [Finset.card_eq_zero.mp none] at member
    exact absurd member (Finset.notMem_empty _)
  · rw [Finset.card_filter_eq_iff] at same
    have seen := recorded.1.resolve_left fun ⟨other, here, drained⟩ => by
      simpa [turn_fst, drained] using same other here
    cases entry : call.lastStats cache with
    | none => rfl
    | some lastStat =>
      obtain ⟨time, known⟩ := Option.isSome_iff_exists.mp (seen cache member (Option.isSome_of_eq_some entry))
      rw [known]
      rfl
  · dsimp only
    rw [if_pos member, turn_stays float64 still]

inductive Event (α : Type) where
  | setNewCaches (newCaches : Finset String)
  | setPolled (call : PolledCall α)

def apply (this : UnpolledCaches) : Event α → UnpolledCaches
  | .setNewCaches newCaches => this.setNewCaches newCaches
  | .setPolled call => this.setPolled float64 call

def applyAll (events : List (Event α)) : UnpolledCaches := events.foldl (apply float64) new

def step (this : UnpolledCaches) (event : Event α) : Option UnpolledCaches := some (apply float64 this event)

def RecordedBy (this : UnpolledCaches) : Event α → Prop
  | .setNewCaches _ => True
  | .setPolled call => Recorded float64 this call

instance (this : UnpolledCaches) (event : Event α) : Decidable (RecordedBy float64 this event) :=
  match event with
  | .setNewCaches _ => isTrue trivial
  | .setPolled call => inferInstanceAs (Decidable (Recorded float64 this call))

-- The stats of a cache do not get older from one call to a later one.
def NotOlder (earlier later : Event α) : Prop :=
  ∀ first second cache one other, earlier = .setPolled first → later = .setPolled second →
    first.lastStats cache = some one → second.lastStats cache = some other → one.time ≤ other.time

/-- The cache has been unpolled in every state since `before`. -/
def UnpolledSince (before past : List (Event α)) (cache : String) : Prop :=
  ∀ upTo, before <+: upTo → upTo <+: past → cache ∈ (applyAll float64 upTo).unpolledCaches

/-- The cache does not fail in the call, its rate is zero or unknown, and each earlier call since it has become unpolled
either had no stat of it or a recent one. -/
structure StaysRightly (past : List (Event α)) (call : PolledCall α) (cache : String) : Prop where
  healthy : ∀ result ∈ call.results, result.id = cache → isDown result = false
  still : ∀ lastStat, call.lastStats cache = some lastStat → float64.equal lastStat.perSec (float64.ofInt 0) = true
  recent : ∀ before earlier between, past = before ++ .setPolled earlier :: between → UnpolledSince float64 before past cache →
    ∀ lastStat, earlier.lastStats cache = some lastStat → call.now - lastStat.time ≤ polledBytesPerSecTimeout

-- What the first sightings that are recorded stand for.
structure Sighted (past : List (Event α)) (s : UnpolledCaches) : Prop where
  known : ∀ cache seenTime, s.seenCaches cache = some seenTime → ∃ call lastStat, .setPolled call ∈ past ∧
    call.lastStats cache = some lastStat ∧ lastStat.time = seenTime
  first : ∀ cache ∈ s.unpolledCaches, ∀ before earlier between, past = before ++ .setPolled earlier :: between →
    UnpolledSince float64 before past cache → ∀ lastStat, earlier.lastStats cache = some lastStat →
      ∃ seenTime, s.seenCaches cache = some seenTime ∧ seenTime ≤ lastStat.time

theorem sighted_new : Sighted float64 [] new := by
  refine ⟨fun cache seenTime seen => ?_, fun cache member => absurd member (Finset.notMem_empty _)⟩
  cases seen

theorem unpolledSince_of_concat {before past : List (Event α)} {event : Event α} {cache : String}
    (since : UnpolledSince float64 before (past ++ [event]) cache) : UnpolledSince float64 before past cache :=
  fun upTo first last => since upTo first (last.trans (List.prefix_append past [event]))

theorem split_concat {past before between : List (Event α)} {event other : Event α}
    (split : past ++ [event] = before ++ other :: between) :
    past = before ∧ event = other ∧ between = [] ∨ ∃ rest, between = rest ++ [event] ∧ past = before ++ other :: rest := by
  cases between using List.reverseRecOn with
  | nil =>
    obtain ⟨rfl, last⟩ := List.append_inj' split rfl
    exact Or.inl ⟨rfl, List.cons_eq_cons.mp last |>.1, rfl⟩
  | append_singleton rest last =>
    have longer : past ++ [event] = (before ++ other :: rest) ++ [last] := by simpa using split
    obtain ⟨rfl, last⟩ := List.append_inj' longer rfl
    obtain ⟨rfl, -⟩ := List.cons_eq_cons.mp last
    exact Or.inr ⟨rest, rfl, rfl⟩

theorem sighted_setNewCaches {past : List (Event α)} (sighted : Sighted float64 past (applyAll float64 past))
    (newCaches : Finset String) :
    Sighted float64 (past ++ [.setNewCaches newCaches]) ((applyAll float64 past).setNewCaches newCaches) := by
  refine ⟨fun cache seenTime seen => ?_, fun cache member before earlier between split since lastStat entry => ?_⟩
  · simp only [setNewCaches] at seen
    split_ifs at seen
    obtain ⟨call, lastStat, listed, known⟩ := sighted.known cache seenTime seen
    exact ⟨call, lastStat, List.mem_append_left _ listed, known⟩
  · obtain ⟨-, impossible, -⟩ | ⟨rest, -, rfl⟩ := split_concat split
    · cases impossible
    · have unpolled := unpolledSince_of_concat float64 since
      have here := unpolled _ (List.prefix_append _ _) (List.prefix_refl _)
      obtain ⟨seenTime, seen, early⟩ := sighted.first cache here before earlier rest rfl unpolled lastStat entry
      refine ⟨seenTime, ?_, early⟩
      have wanted : cache ∈ newCaches := by
        simp only [setNewCaches, Finset.mem_union, Finset.mem_inter, Finset.mem_sdiff] at member
        exact member.elim (fun both => both.2) fun added => added.1
      simp only [setNewCaches]
      rw [if_neg fun gone => gone.2 wanted]
      exact seen

theorem sighted_setPolled {past : List (Event α)} (sighted : Sighted float64 past (applyAll float64 past))
    {call : PolledCall α} (recorded : Recorded float64 (applyAll float64 past) call)
    (later : ∀ event ∈ past, NotOlder event (.setPolled call)) :
    Sighted float64 (past ++ [.setPolled call]) ((applyAll float64 past).setPolled float64 call) := by
  refine ⟨fun cache seenTime seen => ?_, fun cache member before earlier between split since lastStat entry => ?_⟩
  · obtain before : (applyAll float64 past).seenCaches cache = some seenTime ∨
        ∃ lastStat, call.lastStats cache = some lastStat ∧ lastStat.time = seenTime := by
      obtain same | ⟨-, turned⟩ := seenCaches_setPolled float64 (applyAll float64 past) call cache
      · exact Or.inl (same.symm.trans seen)
      · exact turn_seen float64 (turned.symm.trans seen)
    rcases before with before | ⟨lastStat, entry, time⟩
    · obtain ⟨call', lastStat, listed, known⟩ := sighted.known cache seenTime before
      exact ⟨call', lastStat, List.mem_append_left _ listed, known⟩
    · exact ⟨call, lastStat, by simp, entry, time⟩
  · have seen := seenCaches_recorded float64 recorded member
    have unpolled := unpolledSince_of_concat float64 since
    obtain ⟨rfl, here, -⟩ | ⟨rest, -, rfl⟩ := split_concat split
    · obtain rfl : call = earlier := Event.setPolled.inj here
      rw [entry, Option.elim_some] at seen
      refine ⟨_, seen, ?_⟩
      cases known : (applyAll float64 past).seenCaches cache with
      | none => exact Int.le_refl _
      | some seenTime =>
        obtain ⟨call', lastStat', listed, entry', rfl⟩ := sighted.known cache seenTime known
        exact later _ listed call' call cache lastStat' lastStat rfl rfl entry' entry
    · have here := unpolled _ (List.prefix_append _ _) (List.prefix_refl _)
      obtain ⟨seenTime, known, early⟩ := sighted.first cache here before earlier rest rfl unpolled lastStat entry
      refine ⟨seenTime, ?_, early⟩
      rw [seen, known]
      cases call.lastStats cache <;> rfl

theorem run_step (this : UnpolledCaches) (events : List (Event α)) :
    run (step float64) this events = some (events.foldl (apply float64) this) := by
  induction events generalizing this with
  | nil => rfl
  | cons event events ih => exact ih _

theorem sighted_applyAll (events : List (Event α)) (ordered : events.Pairwise NotOlder)
    (recorded : Throughout (step float64) (RecordedBy float64) new events) :
    Sighted float64 events (applyAll float64 events) := by
  induction events using List.reverseRecOn with
  | nil => exact sighted_new float64
  | append_singleton past event ih =>
    obtain ⟨earlier, last⟩ := throughout_append.mp recorded
    obtain ⟨before, -, later⟩ := List.pairwise_append.mp ordered
    have sighted := ih before earlier
    have here := (last _ (run_step float64 new past)).1
    rw [applyAll, List.foldl_append]
    cases event with
    | setNewCaches newCaches => exact sighted_setNewCaches float64 sighted newCaches
    | setPolled call =>
      exact sighted_setPolled float64 sighted here fun event listed => later event listed _ (List.mem_singleton_self _)

/-- In runs that record what they see a cache only stays unpolled while it has not been seen for long. -/
theorem staysRightly {events : List (Event α)} (ordered : events.Pairwise NotOlder)
    (recorded : Throughout (step float64) (RecordedBy float64) new events) {past future : List (Event α)}
    {call : PolledCall α} (split : events = past ++ .setPolled call :: future) {cache : String}
    (stays : cache ∈ (applyAll float64 (past ++ [.setPolled call])).unpolledCaches) :
    StaysRightly float64 past call cache := by
  subst split
  obtain ⟨earlier, last⟩ := throughout_append.mp recorded
  have sighted := sighted_applyAll float64 past (List.pairwise_append.mp ordered).1 earlier
  have here : Recorded float64 (applyAll float64 past) call := (last _ (run_step float64 new past)).1
  rw [applyAll, List.foldl_append] at stays
  obtain ⟨member, still⟩ := (mem_setPolled float64 (applyAll float64 past) call cache).mp stays
  simp only [drains, Bool.or_eq_false_iff] at still
  obtain ⟨⟨up, zero⟩, recent⟩ := still
  refine ⟨fun result listed own => ?_, fun lastStat entry => ?_, fun before first between split unpolled lastStat entry => ?_⟩
  · rw [failed, List.any_eq_false] at up
    simpa [own] using up result listed
  · simpa [moves, entry] using zero
  · obtain ⟨seenTime, known, early⟩ := sighted.first cache member before first between split unpolled lastStat entry
    have late : call.now - seenTime ≤ polledBytesPerSecTimeout := by
      cases current : call.lastStats cache with
      | none => exact here.2 cache member current up seenTime known
      | some lastStat =>
        have short : ¬polledBytesPerSecTimeout < since call.now seenTime := by
          simpa [timedOut, current, known] using recent
        unfold since polledBytesPerSecTimeout at *
        omega
    omega

section OneEdge

-- Rates that are whole numbers.
def wholeRates : Float64 Int := ⟨id, fun a b => a == b, fun a b => decide (a < b), toString, toString⟩

def edgeResult (id : String) (available : Bool) : Result Int :=
  { id, error := none, requestTime := 1000000, vitals := ⟨0, 0, 10000000⟩
    system := ⟨"bond0", 10000, "", "", 0, 0, 0, 0, 0, false⟩
    ats := ∅, available, range := fun thresholds => thresholds, range_perm := listed_perm }

-- The first edge is healthy and serves nothing. Its stat is as old as the call, in seconds.
def quietPoll (seconds : Int) (others : List (Result Int)) : PolledCall Int :=
  { now := seconds * 1000000000, results := edgeResult "edge1" true :: others
    lastStats := fun cache => if cache = "edge1" then some ⟨0, seconds * 1000000000⟩ else none }

def drainingRun : List (Event Int) :=
  [.setNewCaches {"edge1", "edge2"}, .setPolled (quietPoll 1 [edgeResult "edge2" false]), .setPolled (quietPoll 5 [])]

theorem notOlder_quietPoll {first second : Int} (order : first ≤ second) (others others' : List (Result Int)) :
    NotOlder (.setPolled (quietPoll first others)) (.setPolled (quietPoll second others')) := by
  rintro _ _ cache one other ⟨rfl⟩ ⟨rfl⟩ early late
  simp only [quietPoll] at early late
  split_ifs at early late
  obtain rfl := Option.some.inj early
  obtain rfl := Option.some.inj late
  dsimp only
  omega

theorem staysRightly_draining : StaysRightly wholeRates
    [.setNewCaches {"edge1", "edge2"}, .setPolled (quietPoll 1 [edgeResult "edge2" false])] (quietPoll 5 []) "edge1" := by
  have ordered : drainingRun.Pairwise NotOlder := by
    refine .cons (fun event _ _ _ _ _ _ impossible => ?_) (.cons (fun event listed => ?_) (List.pairwise_singleton _ _))
    · cases impossible
    · obtain rfl := List.mem_singleton.mp listed
      exact notOlder_quietPoll (by decide) _ _
  exact staysRightly wholeRates ordered (by decide) (show drainingRun = [_, _] ++ .setPolled _ :: [] from rfl) (by decide)

def quietRun : List (Event Int) := [.setNewCaches {"edge1"}, .setPolled (quietPoll 1 [])]

/-- The first sighting of the only edge is forgotten, and after nineteen seconds it is still unpolled. -/
theorem stays_unpolled : "edge1" ∈ (applyAll wholeRates (quietRun ++ [.setPolled (quietPoll 20 [])])).unpolledCaches ∧
    ¬StaysRightly wholeRates quietRun (quietPoll 20 []) "edge1" := by
  refine ⟨by decide, fun rightly => ?_⟩
  have early := rightly.recent [.setNewCaches {"edge1"}] (quietPoll 1 []) [] rfl ?_ ⟨0, 1000000000⟩ rfl
  · exact absurd early (by decide)
  · rintro _ ⟨rest, rfl⟩ last
    cases rest with
    | nil => decide
    | cons event rest =>
      obtain ⟨-, second⟩ := List.cons_prefix_cons.mp last
      obtain ⟨rfl, none⟩ := List.cons_prefix_cons.mp second
      obtain rfl := List.prefix_nil.mp none
      decide

theorem setPolled_quiet (seconds : Int) : (new.setNewCaches {"edge1"}).setPolled wholeRates (quietPoll seconds []) =
    new.setNewCaches {"edge1"} := by
  have members : (new.setNewCaches {"edge1"}).unpolledCaches = {"edge1"} := by decide
  have quiet : drains wholeRates (quietPoll seconds []) "edge1" none = false := by
    simp [drains, failed, moves, timedOut, quietPoll, wholeRates, edgeResult, isDown, since, polledBytesPerSecTimeout]
  have stays : ((new.setNewCaches {"edge1"}).unpolledCaches.filter fun cache =>
      (turn wholeRates (quietPoll seconds []) cache ((new.setNewCaches {"edge1"}).seenCaches cache)).1) =
        (new.setNewCaches {"edge1"}).unpolledCaches := by
    rw [members, Finset.filter_eq_self]
    intro cache member
    rw [Finset.mem_singleton] at member
    subst member
    rw [turn_fst, Bool.not_eq_true']
    exact quiet
  unfold setPolled
  dsimp only
  split_ifs with none same
  · rfl
  · rfl
  · exact absurd (congrArg Finset.card stays) same

/-- A healthy edge without traffic stays unpolled for ever. -/
theorem quiet_forever (polls : List Int) : "edge1" ∈ (applyAll wholeRates
    (.setNewCaches {"edge1"} :: polls.map fun seconds => .setPolled (quietPoll seconds []))).unpolledCaches := by
  have same : (polls.map fun seconds => Event.setPolled (quietPoll seconds [])).foldl (apply wholeRates)
      (new.setNewCaches {"edge1"}) = new.setNewCaches {"edge1"} := by
    induction polls with
    | nil => rfl
    | cons seconds polls ih => rw [List.map_cons, List.foldl_cons, apply, setPolled_quiet, ih]
  rw [applyAll, List.foldl_cons, apply, same]
  decide

end OneEdge

end UnpolledCaches

end TrafficControl.TrafficMonitor
