import TrafficControl.Lib.Routine
import TrafficControl.TrafficMonitor.Health.Vitals

set_option autoImplicit false

-- The key-value store of the keys, and what is kept in it.
namespace Riak

open Routine TrafficControl.TrafficMonitor

structure Certificate where
  crt : String
  key : String
  csr : String

/-- The fields are those of the JSON object; `V` is what its `version` may be. -/
structure DeliveryServiceSSLKeys (V : Type) where
  cdn : String
  deliveryService : String
  businessUnit : String
  city : String
  organization : String
  hostname : String
  country : String
  state : String
  key : String
  version : V
  certificate : Certificate

-- What a decoder that does not know the type makes of a `version`. Of a float only the integer part is read.
inductive Interface where
  | float64 (integerPart : Int)
  | string (text : String)
  | other (type : String)

/-- A conversion that does not fit gives the least integer. -/
def intOfFloat (integerPart : Int) : Int := if MachineInt.Fits 64 integerPart then integerPart else -2 ^ 63

def versionOf : Interface → Except String Int
  | .float64 t => .ok (intOfFloat t)
  | .string t => (atoi t).mapError fun err => "strconv.Atoi: parsing " ++ t.quote ++ ": " ++ err.error
  | .other type => .error ("Version field is an unandled type: " ++ type)

def unmarshalJSON (o : DeliveryServiceSSLKeys Interface) : Except String (DeliveryServiceSSLKeys Int) :=
  (versionOf o.version).map fun version => { o with version := version }

/-- Marshalled, the version is a number, which a decoder that does not know its type reads as a float. -/
def marshal (keys : DeliveryServiceSSLKeys Int) : DeliveryServiceSSLKeys Interface :=
  { keys with version := .float64 (MachineInt.toDouble keys.version) }

def CDNURIKeysBucket : String := "cdn_uri_sig_keys"

def SSLKeysBucket : String := "ssl"

inductive Value where
  | keysJSON (keys : DeliveryServiceSSLKeys Interface)
  | data (text : String)

inductive Operation where
  | fetch
  | store
  | delete
  deriving DecidableEq

structure Command where
  operation : Operation
  bucket : String
  key : String

-- The objects by bucket and key, and the commands carried out so far, the last first.
structure Store where
  objects : String → String → Option Value
  executed : List Command

def Store.put (store : Store) (bucket key : String) (value : Option Value) : Store :=
  { store with objects := Function.update store.objects bucket (Function.update (store.objects bucket) key value) }

section Commands

-- How the cluster fails a command, if it does.
variable (fails : Operation → Option String)

def execute (operation : Operation) (key bucket : String) : Routine String Store Unit := do
  modifyState fun store => { store with executed := ⟨operation, bucket, key⟩ :: store.executed }
  lift ((fails operation).elim (.ok ()) .error)

def fetchObjectValues (key bucket : String) : Routine String Store (Option Value) := do
  execute fails .fetch key bucket
  let store ← readState
  pure (store.objects bucket key)

def saveObject (key : String) (value : Value) (bucket : String) : Routine String Store Unit := do
  execute fails .store key bucket
  modifyState fun store => store.put bucket key (some value)

def deleteObject (key bucket : String) : Routine String Store Unit := do
  execute fails .delete key bucket
  modifyState fun store => store.put bucket key none

end Commands

def Executed (holds : List Command → Prop) (store : Store) : Prop := holds store.executed

abbrev Within (allowed : Command → Prop) : Store → Prop := Executed fun commands => ∀ command ∈ commands, allowed command

section Results

variable {fails : Operation → Option String} {store : Store} {key bucket : String} {holds : List Command → Prop}

theorem outcome_execute (operation : Operation) (store : Store) : outcome (execute fails operation key bucket) store =
    ((fails operation).elim (.ok ()) .error, { store with executed := ⟨operation, bucket, key⟩ :: store.executed }) := by
  rw [execute, outcome_bind]
  rfl

theorem yields_execute {operation : Operation} (kept : ∀ commands, holds commands → holds (⟨operation, bucket, key⟩ :: commands)) :
    Yields (Carries (Executed holds)) (execute fails operation key bucket) store fun _ _ => True := by
  have recorded : Yields (Carries (Executed holds))
      (modifyState fun store => { store with executed := ⟨operation, bucket, key⟩ :: store.executed } : Routine String Store Unit)
      store fun _ _ => True :=
    yields_modifyState (kept store.executed) trivial
  exact yields_bind recorded fun _ _ _ _ => yields_lift fun _ _ => trivial

theorem yields_fetchObjectValues (kept : ∀ commands, holds commands → holds (⟨.fetch, bucket, key⟩ :: commands)) :
    Yields (Carries (Executed holds)) (fetchObjectValues fails key bucket) store fun _ _ => True :=
  yields_bind (yields_execute kept) fun _ _ _ _ => yields_readState_bind (yields_pure trivial)

theorem yields_saveObject {value : Value} (kept : ∀ commands, holds commands → holds (⟨.store, bucket, key⟩ :: commands)) :
    Yields (Carries (Executed holds)) (saveObject fails key value bucket) store fun _ _ => True :=
  yields_bind (yields_execute kept) fun _ _ _ _ => yields_modifyState id trivial

theorem yields_deleteObject (kept : ∀ commands, holds commands → holds (⟨.delete, bucket, key⟩ :: commands)) :
    Yields (Carries (Executed holds)) (deleteObject fails key bucket) store fun _ _ => True :=
  yields_bind (yields_execute kept) fun _ _ _ _ => yields_modifyState id trivial

theorem within_cons {allowed : Command → Prop} {command : Command} (isAllowed : allowed command) (commands : List Command)
    (within : ∀ command ∈ commands, allowed command) : ∀ other ∈ command :: commands, allowed other :=
  List.forall_mem_cons.mpr ⟨isAllowed, within⟩

/-- After a command, something has been carried out. -/
theorem executed_bind {α : Type} {operation : Operation} {next : Unit → Routine String Store α}
    (rest : ∀ a s, Yields (Carries (Executed (· ≠ []))) (next a) s fun _ _ => True) :
    Executed (· ≠ []) (outcome (execute fails operation key bucket >>= next) store).2 := by
  refine keeps_bind (Carries (Executed (· ≠ []))) rest ?_
  rw [outcome_execute]
  exact List.cons_ne_nil _ _

theorem fetched_executed : Executed (· ≠ []) (outcome (fetchObjectValues fails key bucket) store).2 :=
  executed_bind fun _ _ => yields_readState_bind (yields_pure trivial)

theorem saved_executed {value : Value} : Executed (· ≠ []) (outcome (saveObject fails key value bucket) store).2 :=
  executed_bind fun _ _ => yields_modifyState id trivial

theorem objects_put_self (bucket key : String) (value : Option Value) :
    (store.put bucket key value).objects bucket key = value := by simp [Store.put]

theorem objects_put_key {other : String} (ne : other ≠ key) (value : Option Value) :
    (store.put bucket key value).objects bucket other = store.objects bucket other := by
  simp [Store.put, ne]

end Results

end Riak
