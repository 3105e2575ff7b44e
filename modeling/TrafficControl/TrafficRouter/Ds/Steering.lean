import TrafficControl.TrafficRouter.DeliveryServiceMatcher
import TrafficControl.TrafficRouter.Hash.ConsistentHasher

set_option autoImplicit false

namespace TrafficControl.TrafficRouter

structure SteeringTarget (α : Type) [LinearOrder α] extends DefaultHashable α where
  deliveryService : String
  weight : Int

instance {α : Type} [LinearOrder α] : Hashable α (SteeringTarget α) :=
  ⟨fun target => target.toDefaultHashable, fun this o => this.toDefaultHashable.compareTo o.toDefaultHashable⟩

structure SteeringFilter where
  pattern : String
  deliveryService : String

structure Steering (α : Type) [LinearOrder α] where
  deliveryService : String
  clientSteering : Bool
  targets : List (SteeringTarget α)
  filters : List SteeringFilter

namespace Steering

variable {α : Type} [LinearOrder α]

def hasTarget (this : Steering α) (deliveryService : String) : Bool :=
  this.targets.any fun target => deliveryService == target.deliveryService

def getBypassDestination (matchesWhole : String → String → Bool) (this : Steering α) (requestPath : String) :
    Option String :=
  (this.filters.find? fun filter =>
    matchesWhole filter.pattern requestPath && this.hasTarget filter.deliveryService).map (·.deliveryService)

end Steering

end TrafficControl.TrafficRouter
