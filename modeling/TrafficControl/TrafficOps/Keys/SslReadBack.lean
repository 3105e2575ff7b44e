import TrafficControl.Lib.ExceptList
import TrafficControl.Lib.Runs
import TrafficControl.TrafficOps.Keys.Handlers

set_option autoImplicit false

namespace KeyHandlers

open Riak Routine

structure AddCall where
  env : Environment
  verifyAndEncodeCertificate : String → String → Except String String
  body : Except String (DeliveryServiceSSLKeys Interface)

/-- The delivery service that a request to add keys names. -/
def AddCall.deliveryService (call : AddCall) : Option String :=
  (call.body.bind unmarshalJSON).toOption.map DeliveryServiceSSLKeys.deliveryService

-- The store, and what the calls have answered, the last first.
structure Added where
  store : Store
  answers : List (DeliveryServiceSSLKeys Int)

def Added.empty : Added := ⟨⟨fun _ _ => none, []⟩, []⟩

/-- Only calls that succeed count. -/
def add (added : Added) (call : AddCall) : Option Added :=
  match outcome (addDeliveryServiceSSLKeysHandler call.env call.verifyAndEncodeCertificate call.body) added.store with
  | (.ok (.keys keys), store) => some ⟨store, keys :: added.answers⟩
  | _ => none

def lastAdded (answers : List (DeliveryServiceSSLKeys Int)) (xmlId version : String) : Option (DeliveryServiceSSLKeys Int) :=
  answers.find? fun keys => keys.deliveryService = xmlId ∧ (version = "" ∨ toString keys.version = version)

/-- Whatever the version, the keys of a delivery service are read as they were added last. -/
def ReadsBack (added : Added) (xmlId : String) : Prop := ∀ env version, startCluster env = .ok () → fails env .fetch = none →
  (outcome (getDeliveryServiceSSLKeysByXMLID env xmlId version) added.store).1 = .ok (lastAdded added.answers xmlId version)

section Store

variable {added added' : Added} {call : AddCall}

theorem checkTenancy_returned {env : Environment} {xmlId : String} {store store' : Store} {done : Unit}
    (returned : outcome (checkTenancy env xmlId) store = (.ok done, store')) : store' = store := by
  unfold checkTenancy at returned
  split at returned <;> first | (cases returned; rfl) | cases returned

theorem respond_returned {α : Type} {status : Nat} {value : Except String α} {a : α} {store store' : Store}
    (returned : outcome (respond status value) store = (.ok a, store')) : value = .ok a ∧ store' = store := by
  obtain ⟨given, same⟩ := lift_returned returned
  exact ⟨ExceptList.mapError_ok given, same⟩

theorem saveObject_returned {failing : Operation → Option String} {key bucket : String} {value : Value} {store store' : Store}
    {done : Unit} (returned : outcome (saveObject failing key value bucket) store = (.ok done, store')) :
    store'.objects = (store.put bucket key (some value)).objects := by
  obtain ⟨_, executed, ran, saved⟩ := bind_returned returned
  rw [outcome_execute] at ran
  obtain ⟨-, rfl⟩ := Prod.mk.inj ran
  cases saved
  rfl

theorem add_some (stepped : add added call = some added') : ∃ keys, call.deliveryService = some keys.deliveryService ∧
    added'.answers = keys :: added.answers ∧
    added'.store.objects = (added.store.put SSLKeysBucket keys.deliveryService (some (.keysJSON (marshal keys)))).objects := by
  unfold add at stepped
  split at stepped
  next keys store returned =>
    obtain rfl := Option.some.inj stepped
    obtain ⟨_, _, user, returned⟩ := bind_returned returned
    obtain ⟨-, rfl⟩ := respond_returned user
    obtain ⟨_, _, read, returned⟩ := bind_returned returned
    obtain ⟨-, rfl⟩ := respond_returned read
    obtain ⟨keysObj, _, decoded, returned⟩ := bind_returned returned
    obtain ⟨named, rfl⟩ := respond_returned decoded
    obtain ⟨_, _, checked, returned⟩ := bind_returned returned
    obtain rfl := checkTenancy_returned checked
    obtain ⟨certChain, _, verified, returned⟩ := bind_returned returned
    obtain ⟨-, rfl⟩ := respond_returned verified
    obtain ⟨_, _, started, returned⟩ := bind_returned returned
    obtain ⟨-, rfl⟩ := respond_returned started
    obtain ⟨_, saved, stored, answered⟩ := bind_returned returned
    cases answered
    refine ⟨_, ?_, rfl, saveObject_returned (adapt_returned stored)⟩
    rw [AddCall.deliveryService, named]
    rfl
  next => cases stepped

-- Under each name the keys that were added last, and an answer for each call.
structure Stored (calls : List AddCall) (added : Added) : Prop where
  objects : ∀ name, added.store.objects SSLKeysBucket name =
    (added.answers.find? fun keys => keys.deliveryService = name).map fun keys => .keysJSON (marshal keys)
  names : ∀ name, (∃ call ∈ calls, call.deliveryService = some name) ↔ ∃ keys ∈ added.answers, keys.deliveryService = name

theorem stored_add {calls : List AddCall} (stored : Stored calls added) (stepped : add added call = some added') :
    Stored (calls ++ [call]) added' := by
  obtain ⟨keys, named, answers, objects⟩ := add_some stepped
  constructor
  · intro name
    rw [objects, answers, List.find?_cons]
    by_cases same : keys.deliveryService = name
    · subst same
      simp [objects_put_self]
    · simp [objects_put_key (Ne.symm same), stored.objects, same]
  · intro name
    simp only [answers, List.mem_append, List.mem_cons, or_and_right, exists_or, exists_eq_left, named,
      Option.some.injEq, stored.names, List.not_mem_nil, or_false]
    exact or_comm

theorem stored_run {calls : List AddCall} (ran : Runs.run add Added.empty calls = some added) : Stored calls added := by
  have kept : ∀ past added call added', Stored past added → True → add added call = some added' → Stored (past ++ [call]) added' :=
    fun _ _ _ _ stored _ stepped => stored_add stored stepped
  have fresh : Stored [] Added.empty := ⟨fun _ => rfl, fun name => by simp [Added.empty]⟩
  have all : Runs.Throughout add (fun _ _ => True) Added.empty calls := Runs.throughout_of_forall (fun _ _ => trivial) _
  simpa using Runs.run_history kept fresh all ran

end Store

section Read

variable {store : Store} {env : Environment} {xmlId version : String}

theorem unmarshalJSON_marshal (keys : DeliveryServiceSSLKeys Int) :
    ∃ read, unmarshalJSON (marshal keys) = .ok read ∧ read.deliveryService = keys.deliveryService :=
  ⟨_, rfl, rfl⟩

def readKey (xmlId version : String) : String := xmlId ++ "-" ++ if version = "" then "latest" else version

theorem outcome_get (started : startCluster env = .ok ()) (fetches : fails env .fetch = none) :
    (outcome (getDeliveryServiceSSLKeysByXMLID env xmlId version) store).1 =
      match store.objects SSLKeysBucket (readKey xmlId version) with
      | none => .ok none
      | some (.keysJSON o) => (unmarshalJSON o).map some
      | some (.data text) => .error ("failed at unmarshaling " ++ text) := by
  have key : (if version = "" then xmlId ++ "-latest" else xmlId ++ "-" ++ version) = readKey xmlId version := by
    unfold readKey
    split
    · rw [String.append_assoc]
      rfl
    · rfl
  rw [getDeliveryServiceSSLKeysByXMLID, outcome_lift_bind started, key, outcome_bind, fetchObjectValues, outcome_bind,
    outcome_execute, fetches, Option.elim_none]
  dsimp only
  rw [outcome_readState_bind]
  dsimp only
  cases store.objects SSLKeysBucket (readKey xmlId version) with
  | none => rfl
  | some value => cases value <;> rfl

/-- What stands under the key that is read was added under that very name. -/
theorem read_cases {calls : List AddCall} {added : Added} (stored : Stored calls added) (started : startCluster env = .ok ())
    (fetches : fails env .fetch = none) :
    (outcome (getDeliveryServiceSSLKeysByXMLID env xmlId version) added.store).1 = .ok none ∧
        (∀ keys ∈ added.answers, keys.deliveryService ≠ readKey xmlId version) ∨
      ∃ keys ∈ added.answers, keys.deliveryService = readKey xmlId version ∧
        ∃ read, (outcome (getDeliveryServiceSSLKeysByXMLID env xmlId version) added.store).1 = .ok (some read) ∧
          read.deliveryService = readKey xmlId version := by
  rw [outcome_get started fetches, stored.objects]
  cases found : added.answers.find? fun keys => keys.deliveryService = readKey xmlId version with
  | none =>
    refine .inl ⟨rfl, fun keys member same => ?_⟩
    simpa [same] using List.find?_eq_none.mp found keys member
  | some keys =>
    obtain ⟨read, unmarshalled, same⟩ := unmarshalJSON_marshal keys
    have named : keys.deliveryService = readKey xmlId version := by simpa using List.find?_some found
    refine .inr ⟨keys, List.mem_of_find?_eq_some found, named, read, ?_, same.trans named⟩
    simp only [Option.map_some, unmarshalled]
    rfl

theorem readKey_ne : readKey xmlId version ≠ xmlId := by
  intro same
  have lengths := congrArg String.length same
  simp only [readKey, String.length_append] at lengths
  have dash : "-".length = 1 := rfl
  omega

end Read

-- A user of the root tenant, and nothing fails.
def rootUser : Environment where
  riakEnabled := true
  db := ⟨⟨true, (∅ : AList fun _ : Int => Tenants.Tenant).insert 1 ⟨true, none⟩⟩, [("video", some 1)], [], []⟩
  user := ⟨7, 30, 1⟩
  pathParams _ := "video"
  version := ""
  failure _ := none

/-- The keys of a delivery service are read back only while neither it nor a name that looks like a version of it has been
given any. -/
theorem readsBack_iff {calls : List AddCall} {added : Added} (ran : Runs.run add Added.empty calls = some added) (xmlId : String) :
    ReadsBack added xmlId ↔ ∀ call ∈ calls, call.deliveryService ≠ some xmlId ∧
      ∀ version, version ≠ "" → call.deliveryService ≠ some (xmlId ++ "-" ++ version) := by
  have stored := stored_run ran
  constructor
  · intro readsBack
    have started : startCluster rootUser = .ok () := rfl
    have fetches : fails rootUser .fetch = none := rfl
    have absent : ∀ keys ∈ added.answers, keys.deliveryService ≠ xmlId := by
      intro keys member same
      have last := readsBack rootUser "" started fetches
      have found : (lastAdded added.answers xmlId "").isSome = true :=
        List.find?_isSome.mpr ⟨keys, member, by simp [same]⟩
      obtain ⟨expected, isLast⟩ := Option.isSome_iff_exists.mp found
      rw [isLast] at last
      rcases read_cases stored started fetches with ⟨none, -⟩ | ⟨_, -, -, read, given, name⟩
      · cases none.symm.trans last
      · obtain rfl := Option.some.inj (Except.ok.inj (given.symm.trans last))
        have own : read.deliveryService = xmlId := by simpa using (List.find?_some isLast)
        exact readKey_ne (name.symm.trans own)
    intro call member
    refine ⟨fun named => ?_, fun version nonempty named => ?_⟩
    · obtain ⟨keys, isAnswer, same⟩ := (stored.names _).mp ⟨call, member, named⟩
      exact absent keys isAnswer same
    · obtain ⟨keys, isAnswer, same⟩ := (stored.names _).mp ⟨call, member, named⟩
      have last := readsBack rootUser version started fetches
      have none : lastAdded added.answers xmlId version = none :=
        List.find?_eq_none.mpr fun other isOther => by simp [absent other isOther]
      rw [none] at last
      rcases read_cases stored started fetches with ⟨-, missing⟩ | ⟨_, -, -, read, given, -⟩
      · exact missing keys isAnswer (by rw [same, readKey, if_neg nonempty])
      · cases given.symm.trans last
  · intro others env version started fetches
    have absent : ∀ keys ∈ added.answers, keys.deliveryService ≠ xmlId := by
      intro keys member same
      obtain ⟨call, isCall, named⟩ := (stored.names _).mpr ⟨keys, member, same⟩
      exact (others call isCall).1 named
    have none : lastAdded added.answers xmlId version = none :=
      List.find?_eq_none.mpr fun keys member => by simp [absent keys member]
    rw [none]
    rcases read_cases stored started fetches with ⟨nothing, -⟩ | ⟨keys, isAnswer, named, -⟩
    · exact nothing
    · obtain ⟨call, isCall, asked⟩ := (stored.names _).mpr ⟨keys, isAnswer, named⟩
      unfold readKey at asked
      by_cases latest : version = ""
      · rw [if_pos latest] at asked
        exact absurd asked ((others call isCall).2 "latest" (by decide))
      · rw [if_neg latest] at asked
        exact absurd asked ((others call isCall).2 version latest)

def addVideo : AddCall where
  env := rootUser
  verifyAndEncodeCertificate certificate _ := .ok certificate
  body := .ok ⟨"cdn", "video", "", "", "", "", "", "", "", .float64 3, ⟨"crt", "key", "csr"⟩⟩

theorem readsBack_audio : ∃ added, Runs.run add Added.empty [addVideo] = some added ∧ ReadsBack added "audio" := by
  obtain ⟨added, ran⟩ := Option.isSome_iff_exists.mp (rfl : (Runs.run add Added.empty [addVideo]).isSome = true)
  refine ⟨added, ran, (readsBack_iff ran "audio").mpr fun call member => ?_⟩
  obtain rfl := List.mem_singleton.mp member
  refine ⟨by decide, fun version _ named => ?_⟩
  have first := congrArg (fun text => text.toList.head?) (Option.some.inj named)
  simp at first

theorem not_readsBack : ¬∀ calls added, Runs.run add Added.empty calls = some added → ∀ xmlId, ReadsBack added xmlId := by
  intro readsBack
  have last := readsBack [addVideo] _ rfl "video" rootUser "" rfl rfl
  have nothing : lastAdded _ "video" "" = none := (Except.ok.inj last).symm
  cases nothing

end KeyHandlers
