import Mathlib.Algebra.Ring.Nat
import Mathlib.Data.List.Chain
import Mathlib.Data.List.Induction
import TrafficControl.Lib.RingBuffer
import TrafficControl.Lib.Runs

set_option autoImplicit false

namespace TrafficControl.TrafficMonitor

open Runs

-- The fields that are read; a missing one is nil.
structure CRConfigStats where
  cdnName : Option String
  dateUnixSeconds : Option Int
deriving DecidableEq

structure CRConfigStat where
  reqTime : Int
  reqAddr : String
  stats : CRConfigStats
  err : Option String
deriving DecidableEq

/-- The circular buffer is made with zero values. -/
abbrev CRConfigHistory (limit : Nat) := RingBuffer CRConfigStat limit

namespace CRConfigHistory

variable {limit : Nat}

def new (positive : 0 < limit) : CRConfigHistory limit := RingBuffer.empty ⟨0, "", ⟨none, none⟩, none⟩ positive

-- The slot at `pos - 1`, a `uint64`, modulo the limit.
def compared (h : CRConfigHistory limit) : CRConfigStat := h.slot ((h.pos + 2 ^ 64 - 1) % 2 ^ 64)

-- A nil pointer that is dereferenced is a panic, `none`.
def isRepeated (i last : CRConfigStat) : Option Bool :=
  if i.reqAddr = last.reqAddr then do
    if (← i.stats.dateUnixSeconds) = (← last.stats.dateUnixSeconds) then
      return (← i.stats.cdnName) = (← last.stats.cdnName)
    else return false
  else some false

def add (h : CRConfigHistory limit) (i : CRConfigStat) : Option (CRConfigHistory limit) :=
  if h.len = 0 then some (h.push i)
  else (isRepeated i h.compared).map fun repeated => if repeated then h else h.push i

def get (h : CRConfigHistory limit) : List CRConfigStat := h.contents

/-- Equal in address, date and CDN, missing ones included. -/
def Same (i last : CRConfigStat) : Prop :=
  i.reqAddr = last.reqAddr ∧ i.stats.dateUnixSeconds = last.stats.dateUnixSeconds ∧ i.stats.cdnName = last.stats.cdnName

instance (i last : CRConfigStat) : Decidable (Same i last) := inferInstanceAs (Decidable (_ ∧ _))

-- An entry is stored unless it is the same as the one stored before it.
def store (stored : List CRConfigStat) (i : CRConfigStat) : List CRConfigStat :=
  if stored.getLast?.any fun last => Same i last then stored else stored ++ [i]

def stored (past : List CRConfigStat) : List CRConfigStat := past.foldl store []

-- What is read of the two entries is there.
def Present (i last : CRConfigStat) : Prop :=
  i.reqAddr = last.reqAddr → i.stats.dateUnixSeconds.isSome ∧ last.stats.dateUnixSeconds.isSome ∧
    (i.stats.dateUnixSeconds = last.stats.dateUnixSeconds → i.stats.cdnName.isSome ∧ last.stats.cdnName.isSome)

instance (i last : CRConfigStat) : Decidable (Present i last) := inferInstanceAs (Decidable (_ → _))

/-- Nothing that is missing is read, and the slot read stands for the newest entry. -/
def Sound (h : CRConfigHistory limit) (i : CRConfigStat) : Prop :=
  h.len = 0 ∨ Present i h.compared ∧ (Same i h.compared ↔ Same i h.newest)

instance (h : CRConfigHistory limit) (i : CRConfigStat) : Decidable (Sound h i) := inferInstanceAs (Decidable (_ ∨ _))

theorem isRepeated_eq (i last : CRConfigStat) :
    isRepeated i last = if Present i last then some (decide (Same i last)) else none := by
  obtain ⟨time, addr, ⟨cdn, date⟩, err⟩ := i
  obtain ⟨lastTime, lastAddr, ⟨lastCdn, lastDate⟩, lastErr⟩ := last
  unfold isRepeated Present Same
  by_cases address : addr = lastAddr
  · cases date with
    | none => simp [address]
    | some date =>
      cases lastDate with
      | none => simp [address]
      | some lastDate =>
        by_cases dates : date = lastDate
        · cases cdn <;> cases lastCdn <;> simp [address, dates]
        · simp [address, dates]
  · simp [address]

theorem add_eq (h : CRConfigHistory limit) (i : CRConfigStat) :
    h.add i = if h.len = 0 then some (h.push i)
      else if Present i h.compared then some (if Same i h.compared then h else h.push i) else none := by
  unfold add
  rw [isRepeated_eq]
  split_ifs <;> simp_all

theorem compared_of_limit_one (h : CRConfigHistory 1) : h.compared = h.newest := by
  unfold compared RingBuffer.newest RingBuffer.slot
  simp only [Nat.mod_one]

-- Neighbours in the buffer are not the same.
structure Holds (past : List CRConfigStat) (h : CRConfigHistory limit) : Prop where
  get : h.get = (stored past).rtake limit
  apart : (stored past).IsChain fun older newer => ¬Same newer older

theorem stored_concat (past : List CRConfigStat) (i : CRConfigStat) : stored (past ++ [i]) = store (stored past) i :=
  List.foldl_append

variable {past : List CRConfigStat} {h : CRConfigHistory limit}

theorem getLast?_stored (holds : Holds past h) :
    (stored past).getLast? = if h.len = 0 then none else some h.newest := by
  have contents : h.contents = (stored past).rtake limit := holds.get
  have positive := Nat.zero_lt_of_lt h.pos_lt
  rw [← h.getLast?_contents, contents, List.rtake, List.getLast?_drop]
  split_ifs with short
  · have empty : stored past = [] := List.eq_nil_of_length_eq_zero (by omega)
    rw [empty]
    rfl
  · rfl

theorem stored_next (holds : Holds past h) (i : CRConfigStat) :
    stored (past ++ [i]) = if h.len ≠ 0 ∧ Same i h.newest then stored past else stored past ++ [i] := by
  rw [stored_concat, store, getLast?_stored holds]
  by_cases none : h.len = 0 <;> simp [none]

theorem get_push (holds : Holds past h) (i : CRConfigStat) : get (h.push i) = (stored past ++ [i]).rtake limit := by
  have contents : h.contents = (stored past).rtake limit := holds.get
  rw [get, h.contents_push, contents, RingBuffer.rtake_rtake_append]

/-- A sound addition stores the entry just when it is a new one. -/
theorem add_sound (holds : Holds past h) {i : CRConfigStat} (sound : Sound h i) :
    ∃ h', h.add i = some h' ∧ Holds (past ++ [i]) h' := by
  have recorded := stored_next holds i
  have verdict : h.add i = some (if h.len ≠ 0 ∧ Same i h.newest then h else h.push i) := by
    rw [add_eq]
    rcases sound with none | ⟨there, agree⟩
    · simp [none]
    · by_cases none : h.len = 0 <;> simp [none, there, agree]
  refine ⟨_, verdict, ?_⟩
  by_cases repeated : h.len ≠ 0 ∧ Same i h.newest
  · rw [if_pos repeated] at recorded ⊢
    exact ⟨by rw [recorded]; exact holds.get, by rw [recorded]; exact holds.apart⟩
  · rw [if_neg repeated] at recorded ⊢
    refine ⟨by rw [recorded]; exact get_push holds i, ?_⟩
    rw [recorded, List.isChain_append]
    refine ⟨holds.apart, List.isChain_singleton i, ?_⟩
    intro newest last first head
    obtain rfl : i = first := by simpa using head
    rw [getLast?_stored holds] at last
    split_ifs at last with none
    · cases last
    · obtain rfl := Option.some.inj last
      exact fun same => repeated ⟨none, same⟩

theorem same_refl (i : CRConfigStat) : Same i i := ⟨rfl, rfl, rfl⟩

-- The two oldest entries differ, so that a repeated one is not stored unseen.
theorem rtake_concat_ne {entries : List CRConfigStat} (apart : entries.IsChain fun older newer => ¬Same newer older)
    (two : 2 ≤ limit) (i : CRConfigStat) : (entries ++ [i]).rtake limit ≠ entries.rtake limit := by
  intro equal
  have lengths := congrArg List.length equal
  rw [List.rtake, List.rtake, List.length_drop, List.length_drop, List.length_append, List.length_singleton] at lengths
  have oldest := congrArg (fun held => held[0]?) equal
  rw [List.rtake, List.rtake, List.length_append, List.length_singleton] at oldest
  simp only [List.getElem?_drop, Nat.add_zero] at oldest
  rw [List.getElem?_append_left (by omega), List.getElem?_eq_getElem (by omega), List.getElem?_eq_getElem (by omega)] at oldest
  have next : entries.length + 1 - limit = entries.length - limit + 1 := by omega
  have same := Option.some.inj oldest
  simp only [next] at same
  have differ := apart.getElem (entries.length - limit) (by omega)
  rw [same] at differ
  exact differ (same_refl _)

/-- A history that is right after an addition shows that the addition was sound. -/
theorem sound_of_get (holds : Holds past h) {i : CRConfigStat} {h' : CRConfigHistory limit} (added : h.add i = some h')
    (right : h'.get = (stored (past ++ [i])).rtake limit) : Sound h i := by
  by_cases none : h.len = 0
  · exact Or.inl none
  rw [add_eq, if_neg none] at added
  rw [stored_next holds] at right
  split_ifs at added with there same
  · obtain rfl := Option.some.inj added
    refine Or.inr ⟨there, iff_of_true same ?_⟩
    by_contra differs
    rw [if_neg fun repeated => differs repeated.2] at right
    have newest : h.contents.getLast? = some i := by
      rw [show h.contents = _ from right, List.rtake, List.getLast?_drop, List.getLast?_concat]
      have positive := Nat.zero_lt_of_lt h.pos_lt
      rw [List.length_append, List.length_singleton, if_neg (by omega)]
    rw [h.getLast?_contents, if_neg none] at newest
    obtain rfl := Option.some.inj newest
    exact differs (same_refl _)
  · obtain rfl := Option.some.inj added
    refine Or.inr ⟨there, iff_of_false same ?_⟩
    intro repeated
    rw [if_pos ⟨none, repeated⟩, get_push holds] at right
    by_cases two : 2 ≤ limit
    · exact rtake_concat_ne holds.apart two i right
    · obtain rfl : limit = 1 := by
        have positive := Nat.zero_lt_of_lt h.pos_lt
        omega
      rw [compared_of_limit_one] at same
      exact same repeated

theorem holds_new (positive : 0 < limit) : Holds [] (new positive) :=
  ⟨(RingBuffer.contents_empty _ positive).trans (List.rtake_nil limit).symm, List.isChain_nil⟩

/-- No addition panics, and after each of them the history holds the newest of the entries that differ
from the one stored before them. -/
def Right (positive : 0 < limit) (entries : List CRConfigStat) : Prop :=
  ∀ past, past <+: entries →
    ∃ h, run add (new positive) past = some h ∧ h.get = (stored past).rtake limit

theorem right_from (holds : Holds past h) (entries : List CRConfigStat) :
    (∀ more, more <+: entries → ∃ h', run add h more = some h' ∧ h'.get = (stored (past ++ more)).rtake limit) ↔
      Throughout add Sound h entries := by
  induction entries generalizing past h with
  | nil =>
    refine iff_of_true (fun more empty => ?_) trivial
    obtain rfl := List.prefix_nil.mp empty
    exact ⟨h, rfl, by rw [List.append_nil]; exact holds.get⟩
  | cons i entries ih =>
    constructor
    · intro right
      obtain ⟨h', ran, get⟩ := right [i] (List.cons_prefix_cons.mpr ⟨rfl, List.nil_prefix⟩)
      obtain ⟨_, added, last⟩ := run_cons ran
      obtain rfl := Option.some.inj last
      have sound := sound_of_get holds added get
      obtain ⟨h'', added', holds'⟩ := add_sound holds sound
      obtain rfl := Option.some.inj (added.symm.trans added')
      refine ⟨sound, fun next stepped => ?_⟩
      obtain rfl := Option.some.inj (added.symm.trans stepped)
      refine (ih holds').mp fun more prior => ?_
      obtain ⟨last, ran, get⟩ := right (i :: more) (List.cons_prefix_cons.mpr ⟨rfl, prior⟩)
      obtain ⟨_, added'', rest⟩ := run_cons ran
      obtain rfl := Option.some.inj (added.symm.trans added'')
      exact ⟨last, rest, by rw [get, List.append_assoc, List.singleton_append]⟩
    · rintro ⟨sound, later⟩ more prior
      cases more with
      | nil => exact ⟨h, rfl, by rw [List.append_nil]; exact holds.get⟩
      | cons first rest =>
        obtain ⟨rfl, before⟩ := List.cons_prefix_cons.mp prior
        obtain ⟨h', added, holds'⟩ := add_sound holds sound
        obtain ⟨last, ran, get⟩ := (ih holds').mpr (later h' added) rest before
        refine ⟨last, by rw [run, added]; exact ran, ?_⟩
        rw [get, List.append_assoc, List.singleton_append]

theorem right_iff_sound (positive : 0 < limit) (entries : List CRConfigStat) :
    Right positive entries ↔ Throughout add Sound (new positive) entries :=
  right_from (holds_new positive) entries

theorem slot_congr {k l : Nat} (same : k % limit = l % limit) : h.slot k = h.slot l := by
  unfold RingBuffer.slot
  simp only [same]

/-- With a write position other than the first, or a limit that divides 2^64, the slot that is read is the
newest entry. -/
theorem compared_eq_newest (within : limit ≤ 2 ^ 64) (known : h.pos ≠ 0 ∨ limit ∣ 2 ^ 64) : h.compared = h.newest := by
  have written := h.pos_lt
  refine slot_congr ?_
  by_cases first : h.pos = 0
  · obtain ⟨turns, whole⟩ := known.resolve_left (absurd first)
    have some_turns : 0 < turns := Nat.pos_of_ne_zero fun none => by simp [none] at whole
    have before : 2 ^ 64 - 1 = limit - 1 + limit * (turns - 1) := by
      rw [whole, Nat.mul_sub, Nat.mul_one]
      have one_turn : limit * 1 ≤ limit * turns := Nat.mul_le_mul_left _ some_turns
      omega
    rw [first, Nat.zero_add, Nat.zero_add, Nat.mod_eq_of_lt (by omega : 2 ^ 64 - 1 < 2 ^ 64), before, Nat.add_mul_mod_self_left]
  · have small : h.pos - 1 < 2 ^ 64 := by omega
    rw [show h.pos + 2 ^ 64 - 1 = h.pos - 1 + 2 ^ 64 by omega, Nat.add_mod_right, Nat.mod_eq_of_lt small,
      show h.pos + limit - 1 = h.pos - 1 + limit by omega, Nat.add_mod_right]

section Requests

-- A request that failed has no stats.
def failed (reqTime : Int) : CRConfigStat := ⟨reqTime, "192.0.2.1:443", ⟨none, none⟩, some "timeout"⟩

def received (reqTime date : Int) : CRConfigStat := ⟨reqTime, "192.0.2.1:443", ⟨some "over-the-top", some date⟩, none⟩

theorem right_received : Right (by decide : 0 < 2) [received 1 100, received 2 100, received 3 200, received 4 100] :=
  (right_iff_sound (by decide) _).mpr (by decide)

/-- Two requests in a row that fail at one address are a panic, and with a limit of three a repeated entry
is stored once the buffer is full. -/
theorem history_wrong : ¬Right (by decide : 0 < 3) [failed 1, failed 2] ∧
    ¬Right (by decide : 0 < 3) [received 1 100, received 2 200, received 3 300, received 4 300] := by
  constructor
  · intro right
    obtain ⟨h, ran, -⟩ := right _ (List.prefix_refl _)
    cases ran
  · intro right
    obtain ⟨h, ran, get⟩ := right _ (List.prefix_refl _)
    have wrong : (run add (new (by decide : 0 < 3)) [received 1 100, received 2 200, received 3 300, received 4 300]).map
        CRConfigHistory.get = some [received 2 200, received 3 300, received 4 300] := by decide
    rw [ran, Option.map_some, get] at wrong
    exact absurd wrong (by decide)

end Requests

end CRConfigHistory

end TrafficControl.TrafficMonitor
